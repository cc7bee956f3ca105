import Relayer.Crypto.Signature
import Relayer.Fault
import Relayer.Text.Decimal

namespace Relayer

/-!
# Derivation — a tree of keys from one seed

* `Path.parse` — the way down the tree, such as `m/44'/60'/0'/0/0`;
* `KeyNode` — a secret key with the code that its children are derived with;
* `KeyNode.child?` / `KeyNode.descend?` — one step, and the whole way.
-/

/-! ### Paths -/

namespace Path

/-- Marked children are derived from the secret key, the others from the public one. -/
def firstMarked : Nat := UInt32.size / 2

/-- The two marks. -/
def isMark (c : Char) : Bool := c = '\'' || c = 'h'

/-- One step of a path.  The text has to be a number of 32 bits, and with a mark it must leave room
    for it: a larger one is a fault. -/
def step (text : String) : Except Fault (Option Nat) :=
  let chars := text.toList
  match chars.getLast? with
  | some c =>
    if isMark c then
      match Decimal.read UInt32.size (String.ofList chars.dropLast) with
      | .ok n =>
        if n + firstMarked < UInt32.size then .ok (some (n + firstMarked))
        else .error .integerOverflow
      | .error _ => .ok none
    else .ok (Decimal.read UInt32.size text).toOption
  | none => .ok none

/-- The steps up to the first that is none or is at fault. -/
def steps : List String → Except Fault (Option (List Nat))
  | [] => .ok (some [])
  | text :: rest => do
    match ← step text with
    | none => return none
    | some n => return (← steps rest).map (n :: ·)

/-- A path: steps between slashes, where `m` stands for staying in place. -/
def parse (text : String) : Except Fault (Option (List Nat)) :=
  steps ((text.splitOn "/").filter (· != "m"))

end Path

/-! ### Keys -/

/-- A secret key and its code. -/
structure KeyNode where
  key : Curve.Scalar
  code : List UInt8
  deriving Repr

namespace KeyNode

/-- The root of the tree of a seed. -/
def root? (seed : List UInt8) : Option KeyNode :=
  let mixed := Hmac.sha512 "Bitcoin seed".toUTF8.toList seed
  (Curve.Scalar.ofNat? (bigEndianValue (mixed.take 32))).map (⟨·, mixed.drop 32⟩)

/-- The public key in its short form: the first coordinate behind the parity of the second. -/
def shortPublicKey (key : Curve.Scalar) : List UInt8 :=
  match (Curve.multiply key.value Curve.generator).affine? with
  | some (x, y) => (if y % 2 = 1 then 0x03 else 0x02) :: thirtyTwoBytes x
  | none => []

/-- The child of that number, where both the tweak and the sum are in range. -/
def child? (node : KeyNode) (number : Nat) : Option KeyNode := do
  let parent :=
    if Path.firstMarked ≤ number then 0 :: thirtyTwoBytes node.key.value
    else shortPublicKey node.key
  let mixed := Hmac.sha512 node.code (parent ++ Sha256.lowBytes 4 number)
  let tweak ← Curve.Scalar.ofNat? (bigEndianValue (mixed.take 32))
  let key ← Curve.Scalar.ofNat? ((tweak.value + node.key.value) % Curve.order)
  return ⟨key, mixed.drop 32⟩

/-- The node at the end of a path. -/
def descend? (node : KeyNode) (path : List Nat) : Option KeyNode := path.foldlM child? node

end KeyNode

end Relayer
