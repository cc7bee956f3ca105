import Relayer.Crypto.Sha256
import Relayer.Crypto.Sha512

namespace Relayer.Hmac

/-!
# Hmac — hashes under a key, and keys from passphrases

* `authenticate` — the keyed form of any hash with blocks of a given size;
* `sha256` / `sha512` — its two uses;
* `stretch` — many keyed hashes over one another, to make guessing expensive.
-/

/-- The key as exactly one block: a long key is hashed first, a short one is filled up. -/
def keyBlock (hash : List UInt8 → List UInt8) (block : Nat) (key : List UInt8) : List UInt8 :=
  let short := if block < key.length then hash key else key
  short ++ List.replicate (block - short.length) 0

/-- The hash of a message under a key. -/
def authenticate (hash : List UInt8 → List UInt8) (block : Nat) (key message : List UInt8) :
    List UInt8 :=
  let key := keyBlock hash block key
  hash (key.map (· ^^^ 0x5c) ++ hash (key.map (· ^^^ 0x36) ++ message))

/-- The keyed hash of thirty-two bytes. -/
def sha256 (key message : List UInt8) : List UInt8 := authenticate Sha256.hash 64 key message

/-- The keyed hash of sixty-four bytes. -/
def sha512 (key message : List UInt8) : List UInt8 := authenticate Sha512.hash 128 key message

/-- `rounds` further keyed hashes, each of the one before, all added up bit by bit. -/
def stretchFrom (key : List UInt8) : (rounds : Nat) → (last sum : List UInt8) → List UInt8
  | 0, _, sum => sum
  | rounds + 1, last, sum =>
    let next := sha512 key last
    stretchFrom key rounds next (List.zipWith (· ^^^ ·) sum next)

/-- Sixty-four bytes from a passphrase and a salt. -/
def stretch (key salt : List UInt8) (rounds : Nat) : List UInt8 :=
  let first := sha512 key (salt ++ [0, 0, 0, 1])
  stretchFrom key (rounds - 1) first first

end Relayer.Hmac
