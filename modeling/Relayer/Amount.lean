import Relayer.Fault
import Relayer.Text.Hex

namespace Relayer

/-!
# Amount — wei, prices and gas as 256-bit numbers

* `Amount.add` / `Amount.mul` — arithmetic that faults when it leaves 256 bits;
* `Amount.addSaturating` — a sum that stops at the largest amount;
* `Amount.toWord` — the 64-bit reading of an amount.
-/

/-- How many amounts there are: 2²⁵⁶. -/
abbrev Amount.size : Nat :=
  115792089237316195423570985008687907853269984665640564039457584007913129639936

/-- A natural number of at most 256 bits. -/
structure Amount where
  toNat : Nat
  toNat_lt : toNat < Amount.size
  deriving DecidableEq, Repr

namespace Amount

/-- The amount of a number, where 256 bits hold it. -/
def ofNat? (n : Nat) : Option Amount :=
  if h : n < size then some ⟨n, h⟩ else none

/-- The amount of a 64-bit word. -/
def ofWord (w : UInt64) : Amount :=
  ⟨w.toNat, Nat.lt_of_lt_of_le w.toNat_lt_size (by decide)⟩

/-- No wei at all. -/
def zero : Amount := ⟨0, by decide⟩

/-- The least positive amount. -/
def one : Amount := ⟨1, by decide⟩

/-- The largest amount. -/
def largest : Amount := ⟨size - 1, by decide⟩

instance : Inhabited Amount := ⟨zero⟩

instance : LE Amount := ⟨fun a b => a.toNat ≤ b.toNat⟩

instance : LT Amount := ⟨fun a b => a.toNat < b.toNat⟩

instance (a b : Amount) : Decidable (a ≤ b) := inferInstanceAs (Decidable (a.toNat ≤ b.toNat))

instance (a b : Amount) : Decidable (a < b) := inferInstanceAs (Decidable (a.toNat < b.toNat))

instance : Max Amount := ⟨fun a b => if a.toNat ≤ b.toNat then b else a⟩

instance : Min Amount := ⟨fun a b => if a.toNat ≤ b.toNat then a else b⟩

/-- Equal numbers are equal amounts. -/
theorem ext_toNat {a b : Amount} (h : a.toNat = b.toNat) : a = b := by
  cases a; cases b; simp_all

@[simp] theorem toNat_max (a b : Amount) : (max a b).toNat = max a.toNat b.toNat := by
  show (if a.toNat ≤ b.toNat then b else a).toNat = _
  split <;> omega

@[simp] theorem toNat_min (a b : Amount) : (min a b).toNat = min a.toNat b.toNat := by
  show (if a.toNat ≤ b.toNat then a else b).toNat = _
  split <;> omega

/-- The sum, as long as 256 bits hold it. -/
def add (a b : Amount) : Except Fault Amount :=
  if h : a.toNat + b.toNat < size then .ok ⟨a.toNat + b.toNat, h⟩ else .error .amountOverflow

/-- The product with a 64-bit factor, as long as 256 bits hold it. -/
def mul (a : Amount) (k : UInt64) : Except Fault Amount :=
  if h : a.toNat * k.toNat < size then .ok ⟨a.toNat * k.toNat, h⟩ else .error .amountOverflow

/-- The sum, or the largest amount where the sum would be larger still. -/
def addSaturating (a b : Amount) : Amount :=
  if h : a.toNat + b.toNat < size then ⟨a.toNat + b.toNat, h⟩ else largest

/-- The whole part of a quotient. -/
def div (a : Amount) (k : Nat) : Amount :=
  ⟨a.toNat / k, Nat.lt_of_le_of_lt (Nat.div_le_self _ _) a.toNat_lt⟩

/-- `percent` hundredths of an amount, rounded down.  The product is formed first, so it may
    fault although the result would fit. -/
def percentage (a : Amount) (percent : UInt64) : Except Fault Amount :=
  (a.mul percent).map (·.div 100)

/-- The amount as a 64-bit word. -/
def toWord (a : Amount) : Except Fault UInt64 :=
  if a.toNat < UInt64.size then .ok (UInt64.ofNat a.toNat) else .error .wordOverflow

/-! ### Texts -/

/-- The decimal digits of an amount. -/
def toDecimal (a : Amount) : String := String.ofList (Nat.toDigits 10 a.toNat)

/-- The minimal digits behind `0x`. -/
def toHex (a : Amount) : String := Hex.ofNumber a.toNat

/-- The amount of one to sixty-four hexadecimal digits, with or without the `0x` mark. -/
def ofHex? (text : String) : Option Amount := (Hex.toWireNumber? 64 text).bind ofNat?

end Amount

end Relayer
