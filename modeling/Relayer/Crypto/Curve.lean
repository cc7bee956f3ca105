namespace Relayer.Curve

/-!
# Curve — the group y² = x³ + 7 over a prime field

* `Scalar` — the numbers between zero and the order of the group: secret keys and nonces;
* `Point` — points in projective form, so that sums need no division;
* `double` / `add` / `multiply` — the group;
* `Point.affine?` — the coordinates of a point, `none` for the neutral one.
-/

/-! ### The field -/

/-- The prime of the field. -/
def fieldPrime : Nat := 0xFFFFFFFFFFFFFFFFFFFFFFFFFFFFFFFFFFFFFFFFFFFFFFFFFFFFFFFEFFFFFC2F

/-- The number of points, also a prime. -/
def order : Nat := 0xFFFFFFFFFFFFFFFFFFFFFFFFFFFFFFFEBAAEDCE6AF48A03BBFD25E8CD0364141

/-- `b ^ e` modulo `m`. -/
def power (m b e : Nat) : Nat :=
  if e = 0 then 1 % m
  else
    let half := power m (b * b % m) (e / 2)
    if e % 2 = 1 then half * b % m else half
termination_by e
decreasing_by omega

/-- The inverse modulo a prime: of zero it is zero. -/
def inverse (prime a : Nat) : Nat := power prime a (prime - 2)

/-- A difference in the field, of numbers below the prime. -/
def minus (a b : Nat) : Nat := (a + (fieldPrime - b)) % fieldPrime

/-- A product in the field. -/
def times (a b : Nat) : Nat := a * b % fieldPrime

/-! ### Scalars -/

/-- A number between zero and the order. -/
structure Scalar where
  value : Nat
  positive : 0 < value
  below : value < order
  deriving DecidableEq, Repr

/-- The scalar of a number, where it is in range. -/
def Scalar.ofNat? (n : Nat) : Option Scalar :=
  if h : 0 < n ∧ n < order then some ⟨n, h.1, h.2⟩ else none

/-! ### Points -/

/-- The point with the coordinates `x / z²` and `y / z³`; the neutral point where `z` is zero. -/
structure Point where
  x : Nat
  y : Nat
  z : Nat
  deriving Repr

/-- The neutral point. -/
def Point.neutral : Point := ⟨1, 1, 0⟩

/-- The point that generates the group. -/
def generator : Point where
  x := 0x79BE667EF9DCBBAC55A06295CE870B07029BFCDB2DCE28D959F2815B16F81798
  y := 0x483ADA7726A3C4655DA4FBFC0E1108A8FD17B448A68554199C47D08FFB10D4B8
  z := 1

/-- A point added to itself. -/
def double (p : Point) : Point :=
  if p.z = 0 ∨ p.y = 0 then .neutral
  else
    let yy := times p.y p.y
    let s := times 4 (times p.x yy)
    let m := times 3 (times p.x p.x)
    let x := minus (times m m) (times 2 s)
    let y := minus (times m (minus s x)) (times 8 (times yy yy))
    ⟨x, y, times 2 (times p.y p.z)⟩

/-- The sum of two points. -/
def add (p q : Point) : Point :=
  if p.z = 0 then q
  else if q.z = 0 then p
  else
    let pzz := times p.z p.z
    let qzz := times q.z q.z
    let u := times p.x qzz
    let v := times q.x pzz
    let s := times p.y (times q.z qzz)
    let t := times q.y (times p.z pzz)
    if u = v then
      if s = t then double p else .neutral
    else
      let h := minus v u
      let r := minus t s
      let hh := times h h
      let hhh := times h hh
      let w := times u hh
      let x := minus (minus (times r r) hhh) (times 2 w)
      let y := minus (times r (minus w x)) (times s hhh)
      ⟨x, y, times h (times p.z q.z)⟩

/-- A point added to itself `k` times in all, by halving `k`. -/
def multiply (k : Nat) (p : Point) : Point :=
  if k = 0 then .neutral
  else
    let half := double (multiply (k / 2) p)
    if k % 2 = 1 then add half p else half
termination_by k
decreasing_by omega

/-- The two coordinates of a point other than the neutral one. -/
def Point.affine? (p : Point) : Option (Nat × Nat) :=
  if p.z = 0 then none
  else
    let w := inverse fieldPrime p.z
    let ww := times w w
    some (times p.x ww, times p.y (times w ww))

end Relayer.Curve
