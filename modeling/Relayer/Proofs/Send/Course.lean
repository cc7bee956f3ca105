import Relayer.Proofs.Send.Noted
import Relayer.Proofs.Send.Phases

namespace Relayer

/-!
# Course — a send by the clock

A run leaves the clock out: each of its steps may be made at any moment.  Here time passes as it
does for a send: steps take none, and the clock moves on only where the send has to wait, and then
no further than to the next of its `alarms`.

* `Send.stepWithin_of_verdict` — before its escalation a limit ends a send at once;
* `Send.Course` — a send under way, and the moment it has come to;
* `Send.Course.run` — its trail is that of a run;
* `Send.Course.deadline` — the deadline is counted from the start;
* `Send.Course.opening` — no first candidate is signed behind a limit.
-/

variable {σ : Type}

namespace Escalation

variable {desk : Desk σ} {limits : Limits} {now : Nat} {e : Escalation} {outside : σ}

/-- Where one of the three parties can step, the escalation can. -/
theorem step_isSome_of_stepOf {party : Party}
    (h : (e.stepOf desk limits now outside party).isSome = true) :
    (e.step desk limits now outside).isSome = true := by
  have listed : party ∈ e.turn.order := by
    cases e.turn <;> cases party <;> simp [Party.order]
  rw [step, List.findSome?_isSome_iff]
  exact ⟨party, listed, h⟩

/-- An escalation waits where all three parties do. -/
theorem step_eq_none (h : ∀ party, e.stepOf desk limits now outside party = none) :
    e.step desk limits now outside = none :=
  List.findSome?_eq_none_iff.mpr fun party _ => h party

end Escalation

namespace Send

variable {desk : Desk σ} {call : Call} {limits : Limits} {now : Nat} {s s' : Send}
  {l l' : Leases} {outside outside' : σ}

/-! ### Before the escalation -/

/-- A send is before its escalation, or in it. -/
theorem early_or_escalating (s : Send) :
    (∀ lease e, s.phase ≠ .escalating lease e) ∨ ∃ lease e, s.phase = .escalating lease e := by
  cases s.phase with
  | escalating lease e => exact .inr ⟨lease, e, rfl⟩
  | _ => exact .inl (by simp)

/-- **Before its escalation a limit ends a send at once**, in whatever phase it is, and releases its
    lease or its place in line. -/
theorem stepWithin_of_verdict {f : Failure} (early : ∀ lease e, s.phase ≠ .escalating lease e)
    (verdict : limits.verdict now = some f) :
    s.stepWithin desk limits now l outside =
      some (.ended (.error (.failure f)), s.abandon desk.signer.address l, outside) := by
  obtain ⟨call, deadline, phase⟩ := s
  cases phase with
  | leasing a => cases a <;> simp [stepWithin, leaseStep, verdict, abandon]
  | estimating lease question =>
    simp [stepWithin, estimateStep, Retry.step, verdict, giveUp, abandon]
  | pricing lease gasLimit question =>
    simp [stepWithin, priceStep, Retry.step, verdict, giveUp, abandon]
  | escalating lease e => exact absurd rfl (early lease e)

/-- So a step before the escalation keeps the send running only where no limit has come. -/
theorem verdict_of_running (early : ∀ lease e, s.phase ≠ .escalating lease e)
    (step : s.stepWithin desk limits now l outside = some (.running s', l', outside')) :
    limits.verdict now = none := by
  cases verdict : limits.verdict now with
  | none => rfl
  | some f =>
    rw [stepWithin_of_verdict early verdict] at step
    cases step

/-- No step moves the deadline. -/
theorem Move.deadline {calls : List Inquiry}
    (move : Move desk limits now s l calls (.running s') l') : s'.deadline = s.deadline := by
  cases move <;> rfl

/-- So the limits are the same behind a step. -/
theorem Move.limits_eq {calls : List Inquiry}
    (move : Move desk limits now s l calls (.running s') l') (cancelled : Bool) :
    s'.limits cancelled = s.limits cancelled := by
  rw [Send.limits, Send.limits, move.deadline]

/-- A step of the party whose turn it is, is a step of the send. -/
theorem stepWithin_of_turn {call : Call} {deadline : Option Nat} {lease : Lease}
    {e e' : Escalation}
    (h : e.stepOf desk limits now outside e.turn = some (.running e', outside')) :
    stepWithin desk limits now ⟨call, deadline, .escalating lease e⟩ l outside =
      some (.running ⟨call, deadline, .escalating lease e'⟩, l, outside') := by
  simp only [stepWithin, Escalation.step_of_turn h]
  rfl

/-- A send that waits in its escalation waits for all three parties. -/
theorem stepOf_of_idle {lease : Lease} {e : Escalation} (phase : s.phase = .escalating lease e)
    (idle : s.stepWithin desk limits now l outside = none) (party : Escalation.Party) :
    e.stepOf desk limits now outside party = none := by
  rw [← Option.not_isSome_iff_eq_none]
  intro possible
  have steps := Escalation.step_isSome_of_stepOf possible
  simp only [stepWithin, phase] at idle
  split at idle
  next none => simp [none] at steps
  next => cases idle
  next => cases idle

/-! ### Courses -/

/-- A send of `call` under way by the clock, with its trail and the moment it has come to.  It was
    begun at one moment, and its token may be cancelled at another.  As in a run, the slots and the
    outside may be others at every step; but all steps of one moment have the same limits, and time
    only passes while no step is possible. -/
inductive Course (desk : Desk σ) (call : Call) (begun : Nat) (cancelAt : Option Nat) :
    List Event → Nat → Send → Prop where
  | start : Course desk call begun cancelAt [] begun (.start desk.policy call begun)
  | reschedule {trail now s s'} (course : Course desk call begun cancelAt trail now s)
      (order : s.Rescheduled s') : Course desk call begun cancelAt trail now s'
  | step {trail now s s' leases leases' outside outside' calls}
      (course : Course desk call begun cancelAt trail now s)
      (step : s.stepWithin desk.noted (s.limits (Escalation.isPast cancelAt now)) now leases
        (outside, []) = some (.running s', leases', outside', calls)) :
      Course desk call begun cancelAt (trail ++ s.shown calls (.running s')) now s'
  /-- No step is possible until a moment that is not beyond any of the `alarms`. -/
  | wait {trail now s leases outside} (course : Course desk call begun cancelAt trail now s)
      (idle : s.step desk (Escalation.isPast cancelAt now) now leases outside = none)
      (later : Nat) (passes : now < later)
      (soonest : ∀ alarm ∈ s.alarms desk.policy ++ cancelAt.toList, now < alarm → later ≤ alarm) :
      Course desk call begun cancelAt trail later s

namespace Course

variable {begun : Nat} {cancelAt : Option Nat} {trail : List Event}

/-- **Without the clock, a course is a run.** -/
theorem run (course : Course desk call begun cancelAt trail now s) : Run desk call trail s := by
  induction course with
  | start => exact .start begun
  | reschedule _ order ih => exact .reschedule ih order
  | step _ step ih => exact .step ih step
  | wait _ _ _ _ _ ih => exact ih

/-- **The deadline is counted from the start**, through all phases. -/
theorem deadline (course : Course desk call begun cancelAt trail now s) :
    s.deadline = desk.policy.sendTimeout.map (begun + ·) := by
  induction course with
  | start => rfl
  | reschedule _ order ih =>
    obtain ⟨lease, e, turn, outstanding, -, -, rfl⟩ := order
    exact ih
  | step _ step ih => exact (move_of_noted step).deadline.trans ih
  | wait _ _ _ _ _ ih => exact ih

/-- The limits of a send at the moment it has come to. -/
theorem limits_eq (course : Course desk call begun cancelAt trail now s) (cancelled : Bool) :
    s.limits cancelled = ⟨cancelled, desk.policy.sendTimeout.map (begun + ·)⟩ := by
  rw [limits, course.deadline]

/-- **No first candidate is signed behind a limit.**  The initial bid is made at a moment without
    one, and no time passes until the candidate is with the signer. -/
theorem opening (course : Course desk call begun cancelAt trail now s) {lease : Lease}
    {e : Escalation} (phase : s.phase = .escalating lease e) (opening : e.phase = .opening) :
    (s.limits (Escalation.isPast cancelAt now)).verdict now = none := by
  induction course generalizing lease e with
  | start => cases phase
  | reschedule _ order ih =>
    obtain ⟨lease', e', turn, outstanding, before, -, rfl⟩ := order
    cases phase
    exact ih before opening
  | step course step ih =>
    -- The moment is the same, and so is the deadline.
    have move := move_of_noted step
    rw [move.limits_eq]
    cases move with
    | inherits _ _ _ | learns _ _ =>
      simp only [afterLease] at phase
      split at phase <;> cases phase
    | bids before _ _ => exact verdict_of_running (by simp [before]) step
    | escalates before move =>
      cases phase
      cases move with
      | tracks _ | sends _ _ | answers _ _ => exact ih before opening
      | receives here _ _ _ | folds here _ _ _ _ | holds here _ _ => cases here.symm.trans opening
      | _ => cases opening
    | _ => cases phase
  | @wait trail now s leases outside course idle later passes soonest ih =>
    -- Time does not pass, since the candidate can go to the signer.
    have loop := stepOf_of_idle phase idle .loop
    simp [Escalation.stepOf, Escalation.loopStep, opening] at loop

end Course

end Send

end Relayer
