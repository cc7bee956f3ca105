import Relayer.Send.Escalation
import Relayer.Send.Lease

namespace Relayer

/-!
# Send — one call from its nonce lease to a receipt

* `Send` — the state: leasing, estimating, pricing, escalating;
* `Send.step` — one step of it;
* `Send.settle` — what becomes of the lease at the end: commit, resync or release;
* `Send.abandon` — the slots after the caller drops the send.

However a send ends, it holds no lease afterwards.
-/

/-! ### The state -/

/-- The acquisition of a lease, made again after retryable failures. -/
inductive Send.Leasing where
  | asking (a : Acquire)
  | pausing (resume : Nat)

/-- Where a send is. -/
inductive Send.Phase where
  | leasing (l : Send.Leasing)
  | estimating (lease : Lease) (question : Retry Amount)
  | pricing (lease : Lease) (gasLimit : Amount) (question : Retry Amount)
  | escalating (lease : Lease) (e : Escalation)

/-- One call that the transaction manager sends, with its overall deadline. -/
structure Send where
  call : Call
  deadline : Option Nat
  phase : Send.Phase

namespace Send

/-- What one step leads to. -/
inductive Outcome where
  | running (s : Send)
  | ended (result : Except Stop Receipt)

variable {σ : Type}

/-- The start of a send: its overall deadline is counted from here, before any lease. -/
def start (policy : Policy) (call : Call) (now : Nat) : Send where
  call
  deadline := policy.sendTimeout.map (now + ·)
  phase := .leasing (.asking .start)

/-! ### Steps -/

/-- The send enters a phase. -/
def enter (s : Send) (phase : Phase) (l : Leases) (outside : σ) : Outcome × Leases × σ :=
  (.running { s with phase }, l, outside)

/-- The send ends with an error, and its lease is released. -/
def giveUp (lease : Lease) (why : Stop) (l : Leases) (outside : σ) : Outcome × Leases × σ :=
  (.ended (.error why), lease.release l, outside)

/-- What becomes of the lease at the end of an escalation: a receipt commits it, `nonceStale`
    resyncs it, every other error releases it. -/
def settle (lease : Lease) (result : Except Stop Receipt) (l : Leases) :
    Except Stop Receipt × Leases :=
  match result with
  | .ok _ =>
    match lease.commit l with
    | .ok l => (result, l)
    | .error f => (.error (.fault f), lease.release l)
  | .error (.failure (.nonceStale _ _)) => (result, lease.resync l)
  | .error _ => (result, lease.release l)

/-- The phase behind the lease: gas is estimated unless the call carries a limit of its own. -/
def afterLease (s : Send) (lease : Lease) : Phase :=
  match s.call.gasLimit with
  | some limit => .pricing lease (.ofWord limit) .ready
  | none => .estimating lease .ready

/-- One step while a lease is being acquired. -/
def leaseStep (desk : Desk σ) (limits : Limits) (now : Nat) (s : Send) (l : Leasing)
    (leases : Leases) (outside : σ) : Option (Outcome × Leases × σ) :=
  match limits.verdict now with
  | some f =>
    let leases := match l with
      | .asking a => a.abandon desk.signer.address leases
      | .pausing _ => leases
    some (.ended (.error (.failure f)), leases, outside)
  | none =>
    match l with
    | .asking a =>
      match a.step desk.chain desk.signer.address now leases outside with
      | none => none
      | some (.waiting a, leases, outside) =>
        some (s.enter (.leasing (.asking a)) leases outside)
      | some (.granted lease, leases, outside) =>
        some (s.enter (s.afterLease lease) leases outside)
      | some (.failed f, leases, outside) =>
        if f.isRetryable then
          some (s.enter (.leasing (.pausing (now + desk.policy.networkTimeout))) leases outside)
        else some (.ended (.error (.failure f)), leases, outside)
    | .pausing resume =>
      if resume ≤ now then some (s.enter (.leasing (.asking .start)) leases outside) else none

/-- One step while gas is being estimated. -/
def estimateStep (desk : Desk σ) (limits : Limits) (now : Nat) (s : Send) (lease : Lease)
    (question : Retry Amount) (leases : Leases) (outside : σ) : Option (Outcome × Leases × σ) :=
  let ask := desk.chain.estimate (s.call.toEstimate desk.signer.address)
  match question.step ask desk.policy.networkTimeout limits now outside with
  | none => none
  | some (.waiting question, outside) => some (s.enter (.estimating lease question) leases outside)
  | some (.failed f, outside) => some (giveUp lease (.failure f) leases outside)
  | some (.answered estimate, outside) =>
    match desk.policy.pricing.paddedLimit estimate with
    | .ok gasLimit => some (s.enter (.pricing lease gasLimit .ready) leases outside)
    | .error f => some (giveUp lease (.fault f) leases outside)

/-- The escalation that begins at the initial bid. -/
def firstBid (desk : Desk σ) (now : Nat) (s : Send) (lease : Lease) (gasLimit suggested : Amount) :
    Except Fault Escalation := do
  let bid ← desk.policy.pricing.nextBid .zero 0 suggested
  Escalation.start desk.policy s.call lease.nonce gasLimit bid now

/-- One step while the initial gas price is being asked for. -/
def priceStep (desk : Desk σ) (limits : Limits) (now : Nat) (s : Send) (lease : Lease)
    (gasLimit : Amount) (question : Retry Amount) (leases : Leases) (outside : σ) :
    Option (Outcome × Leases × σ) :=
  match question.step desk.chain.gasPrice desk.policy.networkTimeout limits now outside with
  | none => none
  | some (.waiting question, outside) =>
    some (s.enter (.pricing lease gasLimit question) leases outside)
  | some (.failed f, outside) => some (giveUp lease (.failure f) leases outside)
  | some (.answered suggested, outside) =>
    match firstBid desk now s lease gasLimit suggested with
    | .ok e => some (s.enter (.escalating lease e) leases outside)
    | .error f => some (giveUp lease (.fault f) leases outside)

/-- Cancellation and the deadline of a send. -/
def limits (s : Send) (cancelled : Bool) : Limits := ⟨cancelled, s.deadline⟩

/-- One step, where one is possible, under cancellation and a deadline. -/
def stepWithin (desk : Desk σ) (limits : Limits) (now : Nat) (s : Send) (leases : Leases)
    (outside : σ) : Option (Outcome × Leases × σ) :=
  match s.phase with
  | .leasing l => leaseStep desk limits now s l leases outside
  | .estimating lease question => estimateStep desk limits now s lease question leases outside
  | .pricing lease gasLimit question =>
    priceStep desk limits now s lease gasLimit question leases outside
  | .escalating lease e =>
    match e.step desk limits now outside with
    | none => none
    | some (.running e, outside) => some (s.enter (.escalating lease e) leases outside)
    | some (.ended result, outside) =>
      let (result, leases) := settle lease result leases
      some (.ended result, leases, outside)

/-- One step, where one is possible, under cancellation and its own deadline. -/
def step (desk : Desk σ) (cancelled : Bool) (now : Nat) (s : Send) (leases : Leases)
    (outside : σ) : Option (Outcome × Leases × σ) :=
  s.stepWithin desk (s.limits cancelled) now leases outside

/-- The slots after the caller drops the send. -/
def abandon (account : Address) (s : Send) (leases : Leases) : Leases :=
  match s.phase with
  | .leasing (.asking a) => a.abandon account leases
  | .leasing (.pausing _) => leases
  | .estimating lease _ => lease.release leases
  | .pricing lease _ _ => lease.release leases
  | .escalating lease _ => lease.release leases

/-- The moments at which a step may become possible. -/
def alarms (policy : Policy) (s : Send) : List Nat :=
  match s.phase with
  | .leasing (.asking a) => s.deadline.toList ++ a.alarms
  | .leasing (.pausing resume) => s.deadline.toList ++ [resume]
  | .estimating _ question => s.deadline.toList ++ question.alarms
  | .pricing _ _ question => s.deadline.toList ++ question.alarms
  | .escalating _ e => e.alarms policy (s.limits false)

end Send

end Relayer
