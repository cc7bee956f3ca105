import Relayer.Text.Hex

namespace Relayer

/-!
# Json — values and their compact text

* `Json.Numeral` — a number as it is written;
* `Json` — a value; members of an object keep their order;
* `Json.render` — the text without blanks.
-/

namespace Json

/-! ### Numbers -/

/-- A number as it is written: sign, digits before the point, digits after it, and the exponent
    with its sign. -/
structure Numeral where
  negative : Bool
  whole : List Char
  fraction : Option (List Char)
  exponent : Option (Bool × List Char)
  deriving DecidableEq, Repr

namespace Numeral

/-- The value of a string of decimal digits. -/
def digitsValue (digits : List Char) : Nat :=
  digits.foldl (fun n c => 10 * n + (c.toNat - '0'.toNat)) 0

/-- The number of a natural number. -/
def ofNat (n : Nat) : Numeral := ⟨false, Nat.toDigits 10 n, none, none⟩

/-- Whether the number is written as a whole number. -/
def isWhole (n : Numeral) : Bool := n.fraction.isNone && n.exponent.isNone

/-- The natural number written here, if it is written as one. -/
def toNat? (n : Numeral) : Option Nat :=
  if n.isWhole && !n.negative then some (digitsValue n.whole) else none

/-- The whole number written here, if it is written as one. -/
def toInt? (n : Numeral) : Option Int :=
  if n.isWhole then
    some (if n.negative then - Int.ofNat (digitsValue n.whole) else Int.ofNat (digitsValue n.whole))
  else none

/-- The characters of a number. -/
def write (n : Numeral) : List Char :=
  (if n.negative then ['-'] else []) ++ n.whole ++
    (match n.fraction with
      | some digits => '.' :: digits
      | none => []) ++
    (match n.exponent with
      | some (negative, digits) => 'e' :: (if negative then ['-'] else []) ++ digits
      | none => [])

end Numeral

end Json

/-! ### Values -/

/-- A value. -/
inductive Json where
  | null
  | bool (b : Bool)
  | number (n : Json.Numeral)
  | string (s : String)
  | array (items : List Json)
  | object (members : List (String × Json))
  deriving Repr

namespace Json

instance : Inhabited Json := ⟨null⟩

/-- A natural number as a value. -/
def nat (n : Nat) : Json := .number (.ofNat n)

/-- A value that may be absent. -/
def ofOption {α : Type} (write : α → Json) : Option α → Json
  | some a => write a
  | none => null

/-- The first member of that name in an object. -/
def get? (name : String) : Json → Option Json
  | object members => (members.find? (·.1 == name)).map (·.2)
  | _ => none

/-! ### Text -/

/-- One character inside a string.  Only quotes, backslashes and control characters are spelled
    out. -/
def escape (c : Char) : List Char :=
  if c = '"' then ['\\', '"']
  else if c = '\\' then ['\\', '\\']
  else if c = '\n' then ['\\', 'n']
  else if c = '\r' then ['\\', 'r']
  else if c = '\t' then ['\\', 't']
  else if c = '\x08' then ['\\', 'b']
  else if c = '\x0c' then ['\\', 'f']
  else if c.toNat < 0x20 then
    ['\\', 'u', '0', '0', Hex.digit (c.toNat / 16), Hex.digit (c.toNat % 16)]
  else [c]

/-- A string between quotes. -/
def quote (s : String) : List Char := '"' :: s.toList.flatMap escape ++ ['"']

mutual

/-- The characters of a value. -/
def write : Json → List Char
  | null => "null".toList
  | bool true => "true".toList
  | bool false => "false".toList
  | number n => n.write
  | string s => quote s
  | array [] => ['[', ']']
  | array (item :: rest) => '[' :: write item ++ writeItems rest ++ [']']
  | object [] => ['\x7b', '\x7d']
  | object ((name, value) :: rest) =>
    '\x7b' :: quote name ++ ':' :: write value ++ writeMembers rest ++ ['\x7d']

/-- Further items of an array. -/
def writeItems : List Json → List Char
  | [] => []
  | item :: rest => ',' :: write item ++ writeItems rest

/-- Further members of an object. -/
def writeMembers : List (String × Json) → List Char
  | [] => []
  | (name, value) :: rest => ',' :: quote name ++ ':' :: write value ++ writeMembers rest

end

/-- The text of a value. -/
def render (j : Json) : String := String.ofList j.write

end Json

end Relayer
