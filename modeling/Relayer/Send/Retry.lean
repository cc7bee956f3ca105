import Relayer.Send.Clock
import Relayer.Failure

namespace Relayer

/-!
# Retry — bounded retries of transient failures

* `Limits` — cancellation and the overall deadline, which interrupt both a call and the wait between
  two calls;
* `Retry` — a retried call: about to be made, under way, or in the wait behind a retryable failure;
* `Retry.step` — one step of it.
-/

/-! ### Limits -/

/-- Cancellation and the overall deadline of a send. -/
structure Limits where
  cancelled : Bool
  deadline : Option Nat
  deriving DecidableEq, Repr

/-- The failure that interrupts the send now, if any: `cancelled`, or else `timedOut`. -/
def Limits.verdict (l : Limits) (now : Nat) : Option Failure :=
  if l.cancelled then some .cancelled
  else match l.deadline with
    | some t => if t ≤ now then some .timedOut else none
    | none => none

/-! ### Questions -/

/-- A call that is made again after every retryable failure. -/
inductive Retry (α : Type) where
  /-- About to be made. -/
  | ready
  /-- Under way, with its reply. -/
  | asking (reply : Pending (Except Failure α))
  /-- Failed with a retryable failure; made again at `resume`. -/
  | pausing (resume : Nat)

namespace Retry

/-- What one step of a retried call leads to. -/
inductive Outcome (α : Type) where
  | waiting (r : Retry α)
  | answered (a : α)
  | failed (f : Failure)

variable {σ α : Type}

/-- What a result leads to: a retryable failure is followed by a wait of `interval`, all else is the
    result of the retried call. -/
def settle (interval : Nat) (now : Nat) : Except Failure α → Outcome α
  | .ok a => .answered a
  | .error f => if f.isRetryable then .waiting (.pausing (now + interval)) else .failed f

/-- One step of a retried call, where one is possible. -/
def step (ask : Nat → σ → Pending (Except Failure α) × σ) (interval : Nat) (limits : Limits)
    (now : Nat) (r : Retry α) (outside : σ) : Option (Outcome α × σ) :=
  match limits.verdict now with
  | some f => some (.failed f, outside)
  | none =>
    match r with
    | ready =>
      let (reply, outside) := ask now outside
      some (.waiting (asking reply), outside)
    | asking reply =>
      match reply.ready? now with
      | some answer => some (settle interval now answer, outside)
      | none => none
    | pausing resume => if resume ≤ now then some (.waiting ready, outside) else none

/-- The moments at which a step may become possible. -/
def alarms : Retry α → List Nat
  | ready => []
  | asking reply => reply.alarms
  | pausing resume => [resume]

end Retry

end Relayer
