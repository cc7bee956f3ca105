import Relayer.Json.Basic
import Relayer.Text.Quoted
import Relayer.Text.Shortest

namespace Relayer

/-!
# Normal — values apart from how they were written

A number that is neither a 64-bit word nor a 64-bit integer stands for a floating-point number, and
the members of an object come in the order of their names, of which the last one counts.

* `Binary.scaleTen` — a floating-point number times a power of ten;
* `Json.Numeral.normal` / `Json.normal` — the one way to write a number or a value;
* `Json.describe` — a text that shows of what kind every part is.
-/

/-! ### Floating-point numbers -/

namespace Binary

/-- The floating-point number next to a whole number. -/
def ofNat (n : Nat) : Binary := if n = 0 then ⟨0, 0⟩ else nearest (n, 1)

/-- The floating-point number next to a product. -/
def product (a b : Binary) : Binary :=
  let n := a.significand * b.significand
  if n = 0 then ⟨0, 0⟩ else nearest (scale 2 (a.exponent + b.exponent) (n, 1))

/-- The floating-point number next to a ratio. -/
def ratio (a b : Binary) : Binary :=
  if a.significand = 0 then ⟨0, 0⟩
  else nearest (scale 2 (a.exponent - b.exponent) (a.significand, b.significand))

/-- The largest power of ten that is a floating-point number. -/
def topPower : Nat := 308

/-- A floating-point number times a power of ten, in steps of at most `topPower`, each of which is
    rounded.  `fuel` bounds the steps: after four of them nothing is left of any word.  Powers above
    `topPower` do not occur, since such numbers are refused where they are read. -/
def scaleTen : (fuel : Nat) → Binary → (power : Int) → Binary
  | 0, b, _ => b
  | fuel + 1, b, power =>
    if 0 ≤ power then b.product (ofNat (Nat.pow 10 (min power.toNat topPower)))
    else if -power ≤ topPower then b.ratio (ofNat (Nat.pow 10 (-power).toNat))
    else scaleTen fuel (b.ratio (ofNat (Nat.pow 10 topPower))) (power + topPower)

end Binary

namespace Json

/-! ### Numbers -/

namespace Numeral

/-- A significand below 2⁶⁴ and a power of ten. -/
structure Parts where
  significand : Nat
  power : Int

/-- One more digit of the significand. -/
def Parts.next (p : Parts) (c : Char) : Nat := 10 * p.significand + (c.toNat - '0'.toNat)

/-- The digits before the point.  From the first one on that does not fit, they only count. -/
def Parts.addWhole (p : Parts) : List Char → Parts
  | [] => p
  | c :: rest =>
    if p.power = 0 ∧ p.next c < UInt64.size then addWhole ⟨p.next c, 0⟩ rest
    else addWhole ⟨p.significand, p.power + 1⟩ rest

/-- The digits behind the point, up to the first one that does not fit. -/
def Parts.addFraction (p : Parts) : List Char → Parts
  | [] => p
  | c :: rest =>
    if p.next c < UInt64.size then addFraction ⟨p.next c, p.power - 1⟩ rest else p

/-- Significand and power of a number, its sign aside. -/
def parts (n : Numeral) : Parts :=
  let p := ((⟨0, 0⟩ : Parts).addWhole n.whole).addFraction (n.fraction.getD [])
  match n.exponent with
  | some (true, digits) => { p with power := p.power - digitsValue digits }
  | some (false, digits) => { p with power := p.power + digitsValue digits }
  | none => p

/-- The floating-point number of a number, its sign aside. -/
def toBinary (n : Numeral) : Binary :=
  (Binary.ofNat n.parts.significand).scaleTen 4 n.parts.power

/-- The number with the given digits: around a point as long as sixteen places before it or five
    behind it are enough, and with a power of ten otherwise. -/
def ofShortest (negative : Bool) (s : Shortest) : Numeral :=
  let digits := s.toDigits
  let point : Int := digits.length + s.exponent
  if 0 ≤ s.exponent ∧ point ≤ 16 then
    ⟨negative, digits ++ List.replicate s.exponent.toNat '0', some ['0'], none⟩
  else if 0 < point ∧ point ≤ 16 then
    ⟨negative, digits.take point.toNat, some (digits.drop point.toNat), none⟩
  else if -5 < point ∧ point ≤ 0 then
    ⟨negative, ['0'], some (List.replicate (-point).toNat '0' ++ digits), none⟩
  else
    ⟨negative, digits.take 1, if digits.length ≤ 1 then none else some (digits.drop 1),
      some (decide (point < 1), Nat.toDigits 10 (point - 1).natAbs)⟩

/-- Whether a number is written as a word, or as an integer below zero. -/
def isInteger (n : Numeral) : Bool :=
  n.isWhole &&
    (if n.negative then 0 < digitsValue n.whole && digitsValue n.whole ≤ UInt64.size / 2
      else digitsValue n.whole < UInt64.size)

/-- The one way to write a number. -/
def normal (n : Numeral) : Numeral :=
  if n.isInteger then n
  else
    let b := n.toBinary
    if b.significand = 0 then ⟨n.negative, ['0'], some ['0'], none⟩
    else ofShortest n.negative b.shortest

end Numeral

/-! ### Values -/

/-- Members in the order of their names, with another one that takes the place of its name. -/
def putMember (name : String) (value : Json) : List (String × Json) → List (String × Json)
  | [] => [(name, value)]
  | (other, old) :: rest =>
    if name = other then (name, value) :: rest
    else if name < other then (name, value) :: (other, old) :: rest
    else (other, old) :: putMember name value rest

mutual

/-- The one way to write a value. -/
def normal : Json → Json
  | null => null
  | bool b => bool b
  | number n => number n.normal
  | string s => string s
  | array items => array (normalItems items)
  | object members => object (normalMembers members [])

/-- The items of an array. -/
def normalItems : List Json → List Json
  | [] => []
  | item :: rest => normal item :: normalItems rest

/-- The members of an object, behind those that `sorted` holds. -/
def normalMembers : List (String × Json) → List (String × Json) → List (String × Json)
  | [], sorted => sorted
  | (name, value) :: rest, sorted => normalMembers rest (putMember name (normal value) sorted)

end

mutual

/-- A text that shows of what kind every part is. -/
def describe : Json → String
  | null => "Null"
  | bool true => "Bool(true)"
  | bool false => "Bool(false)"
  | number n => "Number(" ++ String.ofList n.write ++ ")"
  | string s => "String(" ++ Quoted.quote s ++ ")"
  | array [] => "Array []"
  | array (item :: rest) => "Array [" ++ describe item ++ describeItems rest ++ "]"
  | object [] => "Object \x7b\x7d"
  | object ((name, value) :: rest) =>
    "Object \x7b" ++ Quoted.quote name ++ ": " ++ describe value ++ describeMembers rest ++ "\x7d"

/-- Further items of an array. -/
def describeItems : List Json → String
  | [] => ""
  | item :: rest => ", " ++ describe item ++ describeItems rest

/-- Further members of an object. -/
def describeMembers : List (String × Json) → String
  | [] => ""
  | (name, value) :: rest =>
    ", " ++ Quoted.quote name ++ ": " ++ describe value ++ describeMembers rest

end

end Json

end Relayer
