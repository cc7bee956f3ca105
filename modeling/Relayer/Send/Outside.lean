import Relayer.Chain.Transaction
import Relayer.Policy
import Relayer.Send.Clock

namespace Relayer

/-!
# Outside — the backend and the signer as a send sees them

Neither is under the control of a send: any call may succeed, fail, take any time or never be
answered.  `σ` is whatever the outside remembers between calls.

* `Chain` — the calls of the L1 backend;
* `Signer` — the holder of the key;
* `Desk` — the transaction manager: policy, backend, signer and chain id, which all sends of one
  account share.
-/

/-- The outcome of a broadcast: the node's answer, or `lost` where the task that broadcast
    failed. -/
inductive Verdict where
  | accepted
  | rejected (f : Failure)
  | lost
  deriving DecidableEq, Repr

/-- A call at a moment: its reply, and what the outside remembers of it. -/
abbrev Call.Effect (σ α : Type) := Nat → σ → Pending α × σ

/-- The calls of the L1 backend. -/
structure Chain (σ : Type) where
  chainId : Call.Effect σ (Except Failure UInt64)
  /-- The gas price that the node suggests. -/
  gasPrice : Call.Effect σ (Except Failure Amount)
  /-- The pending nonce of an account. -/
  nonce : Address → Call.Effect σ (Except Failure UInt64)
  /-- The gas estimate of a call. -/
  estimate : Transaction → Call.Effect σ (Except Failure Amount)
  broadcast : Candidate → Call.Effect σ Verdict
  /-- The receipt of a transaction, if there is one. -/
  receipt : Digest → Call.Effect σ (Except Failure (Option ChainReceipt))
  /-- Whether the node knows a transaction, pending or mined. -/
  knows : Digest → Call.Effect σ (Except Failure Bool)
  /-- The number of the head block. -/
  head : Call.Effect σ (Except Failure Nat)

/-- The holder of a key. -/
structure Signer (σ : Type) where
  address : Address
  /-- The signed bytes of a transaction for a chain. -/
  sign : UInt64 → Transaction → Call.Effect σ (Except Stop (List UInt8))

/-- The transaction manager of one account: what all of its sends share. -/
structure Desk (σ : Type) where
  policy : Policy
  chain : Chain σ
  signer : Signer σ
  chainId : UInt64

end Relayer
