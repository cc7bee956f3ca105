namespace Relayer.Hex

/-!
# Hex — bytes as pairs of hexadecimal digits

Addresses, hashes and call data travel as text.  Every byte is written as two lower-case
digits, and either case is read back.

* `digit` / `value?` — one digit, and the number a character stands for;
* `encode` / `decode?` — a byte string as digits and back;
* `number` — a natural number in positional hex notation;
* `unprefixed` / `unmarked` — the text without one leading mark;
* `toWireBytes?` / `toWireNumber?` — what nodes and callers write.
-/

/-! ### One digit -/

/-- The lower-case digit of a number below sixteen. -/
def digit (n : Nat) : Char :=
  if n < 10 then Char.ofNat ('0'.toNat + n) else Char.ofNat ('a'.toNat + (n - 10))

/-- The number a digit of either case stands for. -/
def value? (c : Char) : Option Nat :=
  if '0' ≤ c ∧ c ≤ '9' then some (c.toNat - '0'.toNat)
  else if 'a' ≤ c ∧ c ≤ 'f' then some (c.toNat - 'a'.toNat + 10)
  else if 'A' ≤ c ∧ c ≤ 'F' then some (c.toNat - 'A'.toNat + 10)
  else none

/-- Whether a character is a digit of either case. -/
def isDigit (c : Char) : Bool := (value? c).isSome

/-! ### Byte strings -/

/-- Two digits for every byte, the high half first. -/
def encode : List UInt8 → List Char
  | [] => []
  | b :: rest => digit (b.toNat / 16) :: digit (b.toNat % 16) :: encode rest

/-- The bytes that an even number of digits denotes; `none` for anything else. -/
def decode? : List Char → Option (List UInt8)
  | [] => some []
  | [_] => none
  | hi :: lo :: rest => do
    let h ← value? hi
    let l ← value? lo
    let bytes ← decode? rest
    return UInt8.ofNat (16 * h + l) :: bytes

/-! ### Numbers -/

/-- The digits of `n`, most significant first, with no leading zero; `0` itself is one digit. -/
def number (n : Nat) : List Char := Nat.toDigits 16 n

/-! ### The `0x` mark -/

/-- The text after one leading `0x`, or the text itself where there is none. -/
def unprefixed : List Char → List Char
  | '0' :: 'x' :: rest => rest
  | text => text

/-- The text after one leading `0x` or `0X`, or the text itself where there is neither. -/
def unmarked : List Char → List Char
  | '0' :: 'x' :: rest => rest
  | '0' :: 'X' :: rest => rest
  | text => text

/-- Bytes as text with the `0x` mark. -/
def ofBytes (bytes : List UInt8) : String := String.ofList ('0' :: 'x' :: encode bytes)

/-- A number as minimal text with the `0x` mark: `0x0` for zero. -/
def ofNumber (n : Nat) : String := String.ofList ('0' :: 'x' :: number n)

/-- Bytes from text, the mark being optional and of either case. -/
def toBytes? (text : String) : Option (List UInt8) := decode? (unmarked text.toList)

/-! ### Texts of nodes

Numbers, hashes and addresses that come from outside may hold blanks.  These count for the length of
the text and are passed over otherwise. -/

/-- A character that is passed over. -/
def isBlank (c : Char) : Bool := c == ' ' || c == '\t' || c == '\n' || c == '\r'

/-- The digits of a text without its blanks. -/
def digits? : List Char → Option (List Nat)
  | [] => some []
  | c :: rest => if isBlank c then digits? rest else do return (← value? c) :: (← digits? rest)

/-- Two digits to a byte; a digit without its second one counts for nothing. -/
def pairs : List Nat → List UInt8
  | hi :: lo :: rest => UInt8.ofNat (16 * hi + lo) :: pairs rest
  | _ => []

/-- The bytes of a text.  Where its length is odd, the first digit is a byte of its own. -/
def spaced? (text : List Char) : Option (List UInt8) :=
  (digits? text).map fun ds => pairs (if text.length % 2 = 1 then 0 :: ds else ds)

/-- Exactly `n` bytes from text, the `0x` mark being optional; blanks do not take the place of
    digits. -/
def toExactBytes? (n : Nat) (text : String) : Option (List UInt8) :=
  (digits? (unprefixed text.toList)).bind fun ds =>
    if ds.length = 2 * n then some (pairs ds) else none

/-- Exactly `n` bytes from a node's text; where blanks take the place of digits, zeros follow. -/
def toWireBytes? (n : Nat) (text : String) : Option (List UInt8) :=
  let digits := unprefixed text.toList
  if digits.length = 2 * n then
    (spaced? digits).map fun bytes => bytes ++ List.replicate (n - bytes.length) 0
  else none

/-- The number of a node's text of at least one and at most `n` characters behind the mark. -/
def toWireNumber? (n : Nat) (text : String) : Option Nat :=
  let digits := unprefixed text.toList
  if digits.isEmpty ∨ n < digits.length then none
  else (spaced? digits).map fun bytes => bytes.foldl (fun n b => 256 * n + b.toNat) 0

end Relayer.Hex
