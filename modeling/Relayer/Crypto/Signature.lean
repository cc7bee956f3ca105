import Relayer.Crypto.Curve
import Relayer.Crypto.Hmac

namespace Relayer

/-!
# Signature — a deterministic ECDSA signature of a hash

* `Nonces` — the generator of the nonces `k`, seeded with the key and the hash, so that the same
  hash is always signed the same way;
* `Nonces.scalar?` — the first number of the generator that is in range;
* `Signature.ofNonce` — the signature with one nonce: `r`, the lower of `s` and `-s`, the y-parity.
-/

/-- The number of a list of bytes, the first byte highest. -/
def bigEndianValue (bytes : List UInt8) : Nat := bytes.foldl (fun n b => 256 * n + b.toNat) 0

/-- A number as thirty-two bytes. -/
def thirtyTwoBytes (n : Nat) : List UInt8 := Sha256.lowBytes 32 n

/-! ### Nonces -/

/-- The generator of nonces: a key and a value, both thirty-two bytes. -/
structure Nonces where
  key : List UInt8
  value : List UInt8

namespace Nonces

/-- Mix further bytes into the generator. -/
def mix (g : Nonces) (separator : UInt8) (input : List UInt8) : Nonces :=
  let key := Hmac.sha256 g.key (g.value ++ separator :: input)
  ⟨key, Hmac.sha256 key g.value⟩

/-- The generator for a secret key and a hash. -/
def seed (key : Curve.Scalar) (hash : Nat) : Nonces :=
  let input := thirtyTwoBytes key.value ++ thirtyTwoBytes hash
  let start : Nonces := ⟨List.replicate 32 0, List.replicate 32 1⟩
  (start.mix 0 input).mix 1 input

/-- The next value of the generator. -/
def step (g : Nonces) : Nonces := { g with value := Hmac.sha256 g.key g.value }

/-- The first number of the generator that is in range.  There is no limit to the search: `none` is
    that of a generator whose numbers are all out of range, for which it never ends. -/
def scalar? (g : Nonces) : Option Curve.Scalar :=
  match Curve.Scalar.ofNat? (bigEndianValue g.step.value) with
  | some k => some k
  -- The call is built by a tactic, so that no annotation is left in the term of the fixed point.
  | none => by apply scalar?; exact g.step.mix 0 []
partial_fixpoint

end Nonces

/-! ### Signatures -/

/-- A signature: the two numbers, and the y-parity of the point behind them. -/
structure Signature where
  r : Nat
  s : Nat
  odd : Bool
  deriving DecidableEq, Repr

namespace Signature

/-- The coordinates of `k · G`. -/
def point (k : Curve.Scalar) : Nat × Nat :=
  (Curve.multiply k.value Curve.generator).affine?.getD (0, 0)

/-- The number `r`: the first coordinate of `k · G`, modulo the order. -/
def rOf (k : Curve.Scalar) : Nat := (point k).1 % Curve.order

/-- The number `s = (hash + r · key) / k`, modulo the order. -/
def sOf (key : Curve.Scalar) (hash : Nat) (k : Curve.Scalar) : Nat :=
  Curve.inverse Curve.order k.value * (hash + rOf k * key.value) % Curve.order

/-- The signature with the nonce `k`, which is none where `r` or `s` is zero.  An `s` in the upper
    half is replaced by `-s`, which belongs to the point `-k · G`, whose parity is the other one. -/
def ofNonce (key : Curve.Scalar) (hash : Nat) (k : Curve.Scalar) : Option Signature :=
  let r := rOf k
  let s := sOf key hash k
  let odd := (point k).2 % 2 = 1
  if r = 0 ∨ s = 0 then none
  else if Curve.order / 2 < s then some ⟨r, Curve.order - s, !odd⟩
  else some ⟨r, s, odd⟩

/-- The number of a hash of thirty-two bytes. -/
def hashValue (hash : List UInt8) : Nat := bigEndianValue hash % Curve.order

end Signature

end Relayer
