namespace Relayer.Decimal

/-!
# Decimal — unsigned numbers as digits

* `read` — the strict reading of an unsigned number below a bound, with the reason when it
  fails;
* `Problem` / `Problem.message` — those reasons and their texts.
-/

/-- Why a text is no unsigned number of the wanted width. -/
inductive Problem where
  /-- There is nothing to read. -/
  | empty
  /-- A character other than a digit, where a digit is due. -/
  | digit
  /-- The digits read so far already reach the bound. -/
  | large
  deriving DecidableEq, Repr

/-- The wording of a failed reading. -/
def Problem.message : Problem → String
  | .empty => "cannot parse integer from empty string"
  | .digit => "invalid digit found in string"
  | .large => "number too large to fit in target type"

/-- Append one digit to a number below `bound`.  A character that is no digit is reported
    before an overflow at the same place. -/
def push (bound : Nat) (acc : Nat) (c : Char) : Except Problem Nat :=
  if c.isDigit then
    let next := 10 * acc + (c.toNat - '0'.toNat)
    if next < bound then .ok next else .error .large
  else .error .digit

/-- Read the digits from left to right; the first fault met decides the reason. -/
def readDigits (bound : Nat) (digits : List Char) : Except Problem Nat :=
  digits.foldlM (push bound) 0

/-- Read an unsigned number below `bound`: one optional `+`, then at least one digit, and
    nothing else. -/
def read (bound : Nat) (text : String) : Except Problem Nat :=
  match text.toList with
  | [] => .error .empty
  | ['+'] => .error .digit
  | '+' :: digits => readDigits bound digits
  | digits => readDigits bound digits

/-- The decimal digits of a number. -/
def write (n : Nat) : String := String.ofList (Nat.toDigits 10 n)

end Relayer.Decimal
