import Relayer.Chain.Transaction
import Relayer.Text.Blank
import Relayer.Wallet.Derivation
import Relayer.Wallet.Mnemonic

namespace Relayer

/-!
# Key — a secret key that signs for its account

* `Key.ofText` / `Key.ofPhrase` — a key from its digits, or from a phrase and a path;
* `Key.address` — the account;
* `Key.sign` — the signed bytes of a transaction for a chain.
-/

/-- A secret key. -/
structure Key where
  secret : Curve.Scalar
  deriving DecidableEq, Repr

namespace Key

/-- The failure of a key that cannot be read. -/
def badKey : Failure := .configInvalid "Invalid private key: "

/-- The failure of a phrase or a path that cannot be read. -/
def badPhrase : Failure := .configInvalid "Invalid mnemonic: "

/-- A key of sixty-four digits between blanks. -/
def ofText (text : String) : Except Failure Key :=
  match Hex.decode? (Hex.unmarked (Blank.trimList text.toList)) with
  | some bytes =>
    match Curve.Scalar.ofNat? (bigEndianValue bytes) with
    | some secret => if bytes.length = 32 then .ok ⟨secret⟩ else .error badKey
    | none => .error badKey
  | none => .error badKey

/-- The key at a path of the tree of a phrase.  The path is read first. -/
def ofPhrase (phrase path : String) : Except Fault (Except Failure Key) := do
  match ← Path.parse path with
  | none => return .error badPhrase
  | some steps =>
    let phrase := Blank.trim phrase
    if Mnemonic.isValid phrase then
      match (KeyNode.root? (Mnemonic.seed phrase)).bind (·.descend? steps) with
      | some node => return .ok ⟨node.key⟩
      | none => return .error badPhrase
    else return .error badPhrase

/-- The account of a key: the last twenty bytes of the hash of its public key. -/
def address (k : Key) : Address :=
  match (Curve.multiply k.secret.value Curve.generator).affine? with
  | some (x, y) =>
    let hash := Keccak.hash (thirtyTwoBytes x ++ thirtyTwoBytes y)
    ⟨.ofFn fun i => hash.bytes.get ⟨i.val + 12, Nat.add_lt_add_right i.isLt 12⟩⟩
  | none => default

/-- How a key is shown: by its account, never by its secret. -/
def describe (k : Key) : String := "LocalSigner \x7b address: " ++ k.address.toHex ++ " \x7d"

/-- The last number of a signature that holds for one chain only, as far as words can hold it. -/
def recovery (chainId : UInt64) (odd : Bool) : Except Fault UInt64 :=
  let v := 35 + 2 * chainId.toNat + odd.toNat
  if UInt64.size ≤ 2 * chainId.toNat then .error .productOverflow
  else if v < UInt64.size then .ok (UInt64.ofNat v)
  else .error .integerOverflow

/-- The hash that is signed of a transaction for that chain, whatever chain it named itself. -/
def hashFor (chainId : UInt64) (t : Transaction) : Nat :=
  Signature.hashValue { t with chainId := some chainId }.signingHash.toBytes

/-- The signed bytes of a transaction for that chain.  The first nonce in range is the only one that
    is tried.  Where the search for one does not end (`none`), neither does signing. -/
def sign (k : Key) (chainId : UInt64) (t : Transaction) :
    Option (Except Fault (Except Failure (List UInt8))) :=
  let hash := hashFor chainId t
  (Nonces.seed k.secret hash).scalar?.map fun nonce =>
    match Signature.ofNonce k.secret hash nonce with
    | some signature => do
      let v ← recovery chainId signature.odd
      return .ok ({ t with chainId := some chainId }.signed v signature.r signature.s)
    | none => .ok (.error (.signer "signature error"))

end Key

end Relayer
