import Relayer.Crypto.Hmac
import Relayer.Wallet.Words

namespace Relayer.Mnemonic

/-!
# Mnemonic — a phrase of words that stands for a seed

Twelve to twenty-four words of eleven bits each hold some entropy and, in the last bits, a part of
its hash.

* `isValid` — whether a phrase is well formed and its last bits fit;
* `seed` — the sixty-four bytes that keys are derived from.
-/

/-- The `n` low bits of a number, the highest first. -/
def bits : Nat → Nat → List Bool
  | 0, _ => []
  | n + 1, value => bits n (value / 2) ++ [value % 2 == 1]

/-- The number of a list of bits, the highest first. -/
def value (bits : List Bool) : Nat := bits.foldl (fun n b => 2 * n + b.toNat) 0

/-- The bytes of a list of bits. -/
def bytes (bits : List Bool) : List UInt8 :=
  match bits with
  | [] => []
  | b :: rest => UInt8.ofNat (value (b :: rest.take 7)) :: bytes (rest.drop 7)
termination_by bits.length
decreasing_by simp only [List.length_drop, List.length_cons]; omega

/-- Whether the number of words is one of 12, 15, 18, 21 and 24. -/
def isLength (n : Nat) : Bool := 12 ≤ n && n ≤ 24 && n % 3 == 0

/-- Whether the bits behind the entropy are the first ones of its hash. -/
def checks (all : List Bool) : Bool :=
  let entropy := all.take (all.length / 33 * 32)
  let check := all.drop (all.length / 33 * 32)
  check == ((Sha256.hash (bytes entropy)).flatMap fun b => bits 8 b.toNat).take check.length

/-- Whether a phrase is a key written down: listed words with one space between them, and a check
    that fits. -/
def isValid (phrase : String) : Bool :=
  match (phrase.splitOn " ").mapM Words.index? with
  | some places => isLength places.length && checks (places.flatMap (bits 11))
  | none => false

/-- The seed of a phrase. -/
def seed (phrase : String) : List UInt8 :=
  Hmac.stretch phrase.toUTF8.toList "mnemonic".toUTF8.toList 2048

end Relayer.Mnemonic
