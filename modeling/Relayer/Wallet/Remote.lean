import Relayer.Endpoint.Calls

namespace Relayer

/-!
# Remote — a remote signer

* `Remote` — its URL and the account it signs for;
* `Remote.signed` — the signed bytes in its answer;
* `Remote.sign` — the signed bytes of a transaction for a chain.
-/

/-- A request for the signature of a transaction. -/
def Query.sign (t : Transaction) : Query := ⟨"eth_signTransaction", [t.toJson]⟩

/-- A remote signer. -/
structure Remote where
  url : String
  account : Address
  /-- How long a signature may take, in milliseconds. -/
  timeout : Nat
  deriving DecidableEq, Repr

namespace Remote

/-- What the failures of a connection are about. -/
def what : String := "remote signer"

/-- Signed bytes from text. -/
def bytes (text : String) : Except Failure (List UInt8) :=
  match Hex.toBytes? text with
  | some raw => .ok raw
  | none => .error (.signer "malformed signed transaction: ")

/-- The signed bytes in a result: a text of its own, or the member `raw` of an object. -/
def signed : Json → Except Failure (List UInt8)
  | .string text => bytes text
  | .object members =>
    match (Json.object members).get? "raw" with
    | some (.string text) => bytes text
    | _ => .error (.signer "response is missing `raw`")
  | other => .error (.signer ("unexpected signer response: " ++ other.render))

/-- The result of an attempt.  An error that the signer answers with is permanent. -/
def settle (timeout : Nat) : Attempt Json → Except Failure (List UInt8)
  | .got j => signed j.normal
  | .failed (.refused e) => .error (.signer e.message)
  | .failed e => .error (.transientRpc (what ++ ": " ++ e.text))
  | .late => .error (.late what timeout)

/-- The transaction to be signed: it is sent from the account of the signer, for that chain. -/
def request (r : Remote) (chainId : UInt64) (t : Transaction) : Transaction :=
  { t with sender := some r.account, chainId := some chainId }

/-- The signed bytes of a transaction for a chain. -/
def sign {σ : Type} (wire : Wire σ) (r : Remote) (chainId : UInt64) (t : Transaction)
    (outside : σ) : Except Failure (List UInt8) × σ :=
  let (delivery, outside) := wire r.url (.sign (r.request chainId t)) outside
  (settle r.timeout (delivery.attempt (Json.value 128)), outside)

end Remote

end Relayer
