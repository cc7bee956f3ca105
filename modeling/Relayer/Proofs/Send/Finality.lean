import Relayer.Proofs.Send.Moment
import Relayer.Proofs.Send.Staleness

namespace Relayer

/-!
# Finality — no send ends with a retryable failure

Every call to the node or the signer may fail, in every way and at every time.  Some of these
failures are retryable; a send absorbs them, wherever they come in, and ends with none of them.

* `Escalation.Run` / `Escalation.Ends` — an escalation on its own, from any initial bid;
* `Send.Run.escalation` — the escalation of a send is one of these;
* `Limits.final_of_verdict`, `Book.fold_final`, `Retry.Move.final_of_failed` — the failures by
  place of origin;
* `Escalation.Move.final_of_failed` / `Send.Move.final_of_failed` — the last step of an
  escalation, and of a send;
* `Failure.final` — neither ends with a failure that `isRetryable`.
-/

variable {σ : Type}

/-! ### Escalations on their own -/

/-- An escalation under way that was begun at any nonce, with any gas limit and any initial bid.  As
    for a send, every step may meet another outside, another moment and other limits. -/
inductive Escalation.Run (desk : Desk σ) : Escalation → Prop where
  | start {call nonce gasLimit bid now e}
      (begun : Escalation.start desk.policy call nonce gasLimit bid now = .ok e) : Run desk e
  | reschedule {e turn outstanding} (run : Run desk e) (order : outstanding.Perm e.outstanding) :
      Run desk { e with turn, outstanding }
  | step {e e' limits now outside outside'} (run : Run desk e)
      (step : e.step desk limits now outside = some (.running e', outside')) : Run desk e'

/-- An escalation on its own has ended with `result`. -/
def Escalation.Ends (desk : Desk σ) (result : Except Stop Receipt) : Prop :=
  ∃ e limits now outside outside', Run desk e ∧
    e.step desk limits now outside = some (.ended result, outside')

variable {desk : Desk σ} {limits : Limits} {now : Nat} {f : Failure}

/-- A step of an escalation at a noted desk is one at the desk itself. -/
theorem Escalation.step_of_noted {e : Escalation} {out : Escalation.Outcome} {outside outside' : σ}
    {log calls : List Inquiry}
    (step : e.step desk.noted limits now (outside, log) = some (out, outside', calls)) :
    e.step desk limits now outside = some (out, outside') := by
  rw [← e.step_noted desk limits now outside log, step]
  rfl

/-- Every step of an escalation is a move. -/
theorem Escalation.exists_move {e : Escalation} {out : Escalation.Outcome} {outside outside' : σ}
    (step : e.step desk limits now outside = some (out, outside')) :
    ∃ turn calls, Escalation.Move desk limits now { e with turn } calls out := by
  rw [← e.step_noted desk limits now outside [], Option.map_eq_some_iff] at step
  obtain ⟨⟨out, outside', calls⟩, noted, same⟩ := step
  cases same
  obtain ⟨turn, calls, -, move⟩ := Escalation.move_of_step noted
  exact ⟨turn, calls, move⟩

/-- **The escalation of a send is one that could be begun on its own.** -/
theorem Send.Run.escalation {call : Call} {trail : List Send.Event} {s : Send} {lease : Lease}
    {e : Escalation} (run : Send.Run desk call trail s) (phase : s.phase = .escalating lease e) :
    Escalation.Run desk e := by
  induction run generalizing lease e with
  | start now => cases phase
  | reschedule _ order ih =>
    obtain ⟨lease', e', turn, outstanding, before, order, rfl⟩ := order
    cases phase
    exact .reschedule (ih before) order
  | step _ step ih =>
    cases Send.move_of_noted step with
    | inherits _ _ _ | learns _ _ =>
      simp only [Send.afterLease] at phase
      split at phase <;> cases phase
    | bids _ _ first =>
      cases phase
      simp only [Send.firstBid, bind, Except.bind] at first
      split at first
      next => cases first
      next => exact .start first
    | escalates before _ =>
      cases phase
      simp only [Send.stepWithin, before] at step
      split at step
      next => cases step
      next inner =>
        cases step
        exact .step (ih before) (Escalation.step_of_noted inner)
      next => cases step
    | _ => cases phase

/-! ### Where failures come from -/

/-- `cancelled` and `timedOut` are not retryable. -/
theorem Limits.final_of_verdict (h : limits.verdict now = some f) : f.isRetryable = false := by
  rcases Limits.verdict_cases h with rfl | rfl <;> rfl

/-- No error of `Book.fold` is retryable, though the answer may be. -/
theorem Book.fold_final {policy : Policy} {b : Book} {nonce : UInt64} {bid : Amount}
    {verdict : Verdict} (h : b.fold policy nonce bid verdict = .error f) :
    f.isRetryable = false := by
  -- A nonce too low and an underpriced bid may pass; what they end the send with is another
  -- failure.
  rcases Book.fold_error h with ⟨-, rfl⟩ | ⟨-, -, rfl⟩ | ⟨-, -, -, rfl⟩ <;> rfl

/-- A retried call never fails with a retryable failure. -/
theorem Retry.Move.final_of_failed {α : Type} {note : Pending (Except Failure α) → Inquiry}
    {ask : Call.Effect σ (Except Failure α)} {r : Retry α} {calls : List Inquiry}
    (move : Retry.Move note ask limits now r calls (.failed f)) : f.isRetryable = false := by
  cases move with
  | stops verdict => exact Limits.final_of_verdict verdict
  | fails _ final => exact final

/-- No escalation ends with a retryable failure. -/
theorem Escalation.Move.final_of_failed {e : Escalation} {calls : List Inquiry}
    (move : e.Move desk limits now calls (.ended (.error (.failure f)))) :
    f.isRetryable = false := by
  -- The outcome is generalized first, as the cases of a move are those of its index.
  generalize out : Escalation.Outcome.ended _ = outcome at move
  cases move
  case condemns folded =>
    cases out
    exact Book.fold_final folded
  case refuses final =>
    cases out
    exact final
  case cancels | closes | expires | vanishes =>
    cases out
    rfl
  all_goals cases out

/-- No send ends with a retryable failure. -/
theorem Send.Move.final_of_failed {s : Send} {l l' : Leases} {calls : List Inquiry}
    (move : Send.Move desk limits now s l calls (.ended (.error (.failure f))) l') :
    f.isRetryable = false := by
  generalize out : Send.Outcome.ended _ = outcome at move
  cases move
  case settles result phase move =>
    simp only [Send.Outcome.ended.injEq] at out
    obtain rfl := Send.eq_failure_of_settle out.symm
    exact move.final_of_failed
  case fails final =>
    cases out
    exact final
  case leaves verdict | stops verdict =>
    cases out
    exact Limits.final_of_verdict verdict
  case unestimated move | unpriced move =>
    cases out
    exact move.final_of_failed
  all_goals cases out

/-! ### Ends -/

/-- **No retryable failure ends a send**, nor an escalation on its own: whatever the node and the
    signer fail with, in whatever order and however often, the failure it ends with has `isRetryable
    = false`. -/
theorem Failure.final
    (ends : (∃ call trail, Send.Ends desk call trail (.error (.failure f))) ∨
      Escalation.Ends desk (.error (.failure f))) : f.isRetryable = false := by
  -- Nothing is needed of the run before: the last step alone says what the failure is.
  rcases ends with ⟨call, trail, ends⟩ | ⟨e, limits, now, outside, outside', -, step⟩
  · obtain ⟨trail', s, limits, now, l, l', calls, -, move, -⟩ := ends.last_move
    exact move.final_of_failed
  · obtain ⟨turn, calls, move⟩ := Escalation.exists_move step
    exact move.final_of_failed

/-- The node answers the second candidate with `nonceTooLow`, which is retryable; the send ends with
    `nonceStale`, which is not, and so does its escalation on its own. -/
theorem Failure.final_though_rejected : ∃ desk call trail c,
    (desk.chain.broadcast c 7 ()).1.answer = .rejected .nonceTooLow ∧
    Failure.nonceTooLow.isRetryable = true ∧
    Send.Ends desk call trail (.error (.failure (.nonceStale 7 1))) ∧
    Escalation.Ends desk (.error (.failure (.nonceStale 7 1))) ∧
    (Failure.nonceStale 7 1).isRetryable = false := by
  obtain ⟨others, ⟨trail, course, -⟩, ends⟩ :=
    Send.Errand.goesStale 1 Send.Errand.bare_fits .empty
  have ended : Send.Ends _ Send.Errand.bare.call _ _ :=
    ⟨trail, _, _, _, _, _, _, _, _, course.run, ends, rfl⟩
  have alone : Escalation.Ends _ (.error (.failure (.nonceStale 7 1))) :=
    ⟨_, ⟨false, none⟩, 7, (), (), course.run.escalation rfl, rfl⟩
  exact ⟨_, _, _, Send.Errand.bare.candidate .raised, rfl, rfl, ended, alone,
    Failure.final (.inl ⟨_, _, ended⟩)⟩

end Relayer
