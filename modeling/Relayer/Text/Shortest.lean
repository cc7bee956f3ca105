namespace Relayer

/-!
# Shortest — floating-point numbers and the fewest digits that read back

A positive floating-point number is `significand · 2 ^ exponent` with 53 bits of significand.

* `Binary.nearest` — the floating-point number next to a quotient;
* `Binary.shortest` — of the decimal numbers that read back as a floating-point number, the one
  with the fewest digits, and of those the nearest;
* `Shortest.positional` — its digits around a point.
-/

/-- The value `significand · 2 ^ exponent`. -/
structure Binary where
  significand : Nat
  exponent : Int
  deriving DecidableEq, Repr

/-- The value `digits · 10 ^ exponent`. -/
structure Shortest where
  digits : Nat
  exponent : Int
  deriving DecidableEq, Repr

namespace Binary

/-! ### Quotients -/

/-- A quotient, as numerator and denominator, times a power of a base. -/
def scale (base : Nat) (power : Int) (q : Nat × Nat) : Nat × Nat :=
  if 0 ≤ power then (q.1 * Nat.pow base power.toNat, q.2)
  else (q.1, q.2 * Nat.pow base (-power).toNat)

/-- The whole number next to a quotient; of two, the even one. -/
def roundEven (q : Nat × Nat) : Nat :=
  let whole := q.1 / q.2
  let twice := 2 * (q.1 % q.2)
  if twice < q.2 then whole
  else if q.2 < twice then whole + 1
  else whole + whole % 2

/-- Whether one quotient is at most another. -/
def atMost (p q : Nat × Nat) : Bool := p.1 * q.2 ≤ q.1 * p.2

/-- The least significand of a number that is not next to zero: 2⁵². -/
def least : Nat := 4503599627370496

/-- The least exponent. -/
def leastExponent : Int := -1074

/-- The floating-point number next to a positive quotient; of two, the one with an even
    significand. -/
def nearest (q : Nat × Nat) : Binary :=
  let guess : Int := (Nat.log2 q.1 : Int) - Nat.log2 q.2 - 53
  let fits (e : Int) : Bool := atMost (scale 2 (-e) q) (2 * least, 1)
  let e := max leastExponent (if fits guess then guess else guess + 1)
  let m := roundEven (scale 2 (-e) q)
  if m = 2 * least then ⟨least, e + 1⟩ else ⟨m, e⟩

/-- A floating-point number as a quotient. -/
def toQuotient (b : Binary) : Nat × Nat := scale 2 b.exponent (b.significand, 1)

/-! ### Decimal numbers that read back -/

/-- The least quotient that is rounded to a floating-point number, or the bound of those that
    are. -/
def lower (b : Binary) : Nat × Nat :=
  if b.significand = least ∧ leastExponent < b.exponent then
    scale 2 (b.exponent - 2) (4 * b.significand - 1, 1)
  else scale 2 (b.exponent - 1) (2 * b.significand - 1, 1)

/-- The greatest quotient that is rounded to a floating-point number, or the bound of those that
    are. -/
def upper (b : Binary) : Nat × Nat := scale 2 (b.exponent - 1) (2 * b.significand + 1, 1)

/-- Whether a quotient is rounded to a floating-point number.  The bounds are if the significand is
    even. -/
def readsBack (b : Binary) (q : Nat × Nat) : Bool :=
  if b.significand % 2 = 0 then atMost b.lower q && atMost q b.upper
  else !atMost q b.lower && !atMost b.upper q

/-- How many digits a number has. -/
def width (n : Nat) : Nat := (Nat.toDigits 10 n).length

/-- The power of ten that a positive quotient reaches. -/
def magnitude (q : Nat × Nat) : Int :=
  let guess : Int := (width q.1 : Int) - width q.2
  if atMost (scale 10 guess (1, 1)) q then guess else guess - 1

/-- The better one of the two multiples of `10 ^ power` around a floating-point number that read
    back. -/
def onGrid (b : Binary) (power : Int) : Option Shortest :=
  let q := scale 10 (-power) b.toQuotient
  let below := q.1 / q.2
  let fits (n : Nat) : Bool := b.readsBack (scale 10 power (n, 1))
  match fits below, fits (below + 1) with
  | true, true => some ⟨roundEven q, power⟩
  | true, false => some ⟨below, power⟩
  | false, true => some ⟨below + 1, power⟩
  | false, false => none

/-- A number without the zeros at its end, of which there are at most `fuel`. -/
def strip : (fuel : Nat) → Shortest → Shortest
  | 0, s => s
  | fuel + 1, s =>
    if s.digits ≠ 0 ∧ s.digits % 10 = 0 then strip fuel ⟨s.digits / 10, s.exponent + 1⟩ else s

/-- The decimal number with the fewest digits that reads back; seventeen are always enough. -/
def shortest (b : Binary) : Shortest :=
  let top := magnitude b.toQuotient
  let grids : List Int := (List.range 17).map fun (n : Nat) => top - (n : Int)
  strip 20 ((grids.findSome? (onGrid b)).getD ⟨b.significand, b.exponent⟩)

end Binary

/-! ### Texts -/

namespace Shortest

/-- The digits of a number. -/
def toDigits (s : Shortest) : List Char := Nat.toDigits 10 s.digits

/-- A number as digits around a point, or without one where it is whole. -/
def positional (s : Shortest) : List Char :=
  let digits := s.toDigits
  if 0 ≤ s.exponent then digits ++ List.replicate s.exponent.toNat '0'
  else
    let places := (-s.exponent).toNat
    if places < digits.length then
      digits.take (digits.length - places) ++ '.' :: digits.drop (digits.length - places)
    else '0' :: '.' :: List.replicate (places - digits.length) '0' ++ digits

/-- A number with one digit before the point and the power of ten behind it. -/
def scientific (s : Shortest) : List Char :=
  let digits := s.toDigits
  let power := s.exponent + digits.length - 1
  (match digits with
    | [d] => [d]
    | d :: rest => d :: '.' :: rest
    | [] => []) ++ 'e' :: (toString power).toList

end Shortest

end Relayer
