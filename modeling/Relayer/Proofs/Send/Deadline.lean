import Relayer.Proofs.Send.Cancellation

namespace Relayer

/-!
# Deadline — how soon a send ends whose overall deadline expires

A send whose deadline expires ends when that is noticed.  Most of what a send waits for is selected
against the deadline; a call of the loop itself, for a suggestion or a signature, is not.

* `Escalation.attend` — what a listening loop does once its deadline has expired;
* `Send.Expired` — the end of a send whose deadline has expired;
* `Send.Calling` — the loop waits for a suggestion or a signature;
* `Send.Course.timed_out` — such a send ends at once, exactly if that is not where it is;
* `Send.Course.calling_of_later` — no other send outlives its deadline.
-/

variable {σ : Type}

namespace Escalation

variable {desk : Desk σ} {limits : Limits} {now : Nat} {e : Escalation} {outside : σ}

/-- What a listening loop does once its deadline has expired: it receives its events and joins its
    answers, one after the other, and then it ends with `timedOut`. -/
def attend (policy : Policy) (e : Escalation) : Outcome :=
  match e.inbox with
  | event :: inbox => ({ e with inbox } : Escalation).onEvent event
  | [] =>
    if e.tracker.isClosed then fails (.internal "receipt tracker stopped")
    else match e.answered with
      | a :: answered => ({ e with answered } : Escalation).onBroadcast policy a
      | [] => fails .timedOut

/-- **Once the deadline has expired, a listening loop never waits** and consumes no tick. -/
theorem loopStep_late (listening : e.phase = .listening) (going : limits.cancelled = false)
    (late : isPast limits.deadline now = true) :
    e.loopStep desk limits now outside = some (e.attend desk.policy, outside) := by
  simp only [loopStep, listening, listen, going, late, attend, Bool.false_eq_true, if_false,
    if_true]
  cases e.inbox with
  | cons _ _ => rfl
  | nil =>
    cases e.tracker.isClosed with
    | true => rfl
    | false => cases e.answered <;> rfl

/-- The inbox or the answers are not empty, which may be a reason of its own to end. -/
def HasNews (e : Escalation) : Prop :=
  e.inbox ≠ [] ∨ e.tracker.isClosed = true ∨ e.answered ≠ []

/-- A step of `attend` leaves fewer events and answers, or ends the send. -/
theorem attend_cases (now : Nat) (policy : Policy) (e : Escalation) :
    (∃ e', e.attend policy = .running e' ∧ e.Aside now e') ∨
      e.attend policy = fails .timedOut ∨
      e.HasNews ∧ ∃ result, e.attend policy = .ended result := by
  cases inbox : e.inbox with
  | cons event rest =>
    have news : e.HasNews := .inl (by simp [inbox])
    have less : ({ e with inbox := rest } : Escalation).work now < e.work now := by
      simp [work, inbox]
    have attended : e.attend policy = ({ e with inbox := rest } : Escalation).onEvent event := by
      simp only [attend, inbox]
    cases event with
    | confirmed receipt => exact .inr (.inr ⟨news, _, attended⟩)
    | inMempool _ | mined _ _ | reorged _ => exact .inl ⟨_, attended, rfl, rfl, less⟩
  | nil =>
    cases closed : e.tracker.isClosed with
    | true =>
      have attended : e.attend policy = fails (.internal "receipt tracker stopped") := by
        simp only [attend, inbox, closed, if_true]
      exact .inr (.inr ⟨.inr (.inl closed), _, attended⟩)
    | false =>
      cases answered : e.answered with
      | nil => exact .inr (.inl (by simp [attend, inbox, closed, answered]))
      | cons a rest =>
        have news : e.HasNews := .inr (.inr (by simp [answered]))
        have less : ({ e with answered := rest } : Escalation).work now < e.work now := by
          simp [work, answered]
        have attended :
            e.attend policy = ({ e with answered := rest } : Escalation).onBroadcast policy a := by
          simp [attend, inbox, closed, answered]
        unfold onBroadcast at attended
        split at attended
        next book _ => exact .inl ⟨_, attended, rfl, rfl, less⟩
        next f _ => exact .inr (.inr ⟨news, _, attended⟩)

end Escalation

namespace Send

variable {desk : Desk σ} {call : Call} {limits : Limits} {now : Nat} {s : Send} {l l' : Leases}
  {outside outside' : σ} {account : Address} {lease : Lease} {e : Escalation}
  {deadline : Option Nat}

/-! ### The end -/

/-- The end of a send whose deadline has expired: it ends with `timedOut`, or for a reason of its
    own that came up before it noticed, be it an event, an answer or a signer that fails for good.
    -/
def Expired (account : Address) (now : Nat) (s : Send) (l : Leases)
    (result : Except Stop Receipt) (l' : Leases) : Prop :=
  Withdrawn .timedOut account s l result l' ∨
    ∃ lease e, s.phase = .escalating lease e ∧
      (e.phase = .listening ∧ e.HasNews ∨
        ∃ first reply stop, e.phase = .signing first reply ∧
          reply.ready? now = some (.error stop) ∧ result = (settle lease (.error stop) l).1)

/-- The loop waits for a call of its own, for a suggestion or a signature. -/
def Calling (s : Send) (now : Nat) : Prop :=
  ∃ lease e, s.phase = .escalating lease e ∧
    ((∃ reply, e.phase = .pricing reply ∧ reply.ready? now = none) ∨
      ∃ first reply, e.phase = .signing first reply ∧ reply.ready? now = none)

/-- A listening send ends when its deadline expires. -/
theorem endsAt_of_late (going : limits.cancelled = false)
    (late : Escalation.isPast limits.deadline now = true) (own : lease.account = account)
    (listening : e.phase = .listening) (period : 0 < e.tracker.ticker.period) :
    EndsAt desk limits now (Expired account now) ⟨call, deadline, .escalating lease e⟩ := by
  refine endsAt_of_loop (· = .listening) ?_ listening period
  intro e l outside listening period
  refine ⟨_, _, Escalation.loopStep_late listening going late, ?_, ?_⟩
  all_goals
    rcases Escalation.attend_cases now desk.policy { e with turn := .loop } with
      ⟨e', attended, aside⟩ | attended | ⟨news, result, attended⟩
  · intro result ended
    cases attended.symm.trans ended
  · intro result ended
    cases attended.symm.trans ended
    exact .inl (withdrawn_abandon (s := ⟨call, deadline, .escalating lease e⟩)
      (by simpa [lease?] using own) _ l)
  · intro result' ended
    exact .inr ⟨lease, e, rfl, .inl ⟨listening, news⟩⟩
  · intro e'' running
    cases attended.symm.trans running
    exact .inr ⟨aside.phase.trans listening, aside.period, aside.work⟩
  · intro e' running
    cases attended.symm.trans running
  · intro e' running
    cases attended.symm.trans running

/-- So does one whose signature has come. -/
theorem endsAt_of_signed_late {first : Bool} {reply : Pending (Except Stop (List UInt8))}
    {signed : Except Stop (List UInt8)} (going : limits.cancelled = false)
    (late : Escalation.isPast limits.deadline now = true) (own : lease.account = account)
    (signing : e.phase = .signing first reply) (ready : reply.ready? now = some signed)
    (period : 0 < e.tracker.ticker.period) :
    EndsAt desk limits now (Expired account now) ⟨call, deadline, .escalating lease e⟩ := by
  refine endsAt_of_loop (· = .signing first reply) ?_ signing period
  intro e l outside signing period
  refine ⟨_, _, Escalation.loopStep_signed signing ready (by simp [going]), ?_, ?_⟩
  all_goals
    rcases Escalation.afterSigning_cases { e with turn := .loop } signed with
      ⟨e', same, listening, period'⟩ | ⟨stop, refused, -, same⟩
  · intro result ended
    cases same.symm.trans ended
  · intro result ended
    cases same.symm.trans ended
    exact .inr ⟨lease, e, rfl, .inr ⟨first, reply, stop, signing, refused ▸ ready, rfl⟩⟩
  · intro e'' running
    cases same.symm.trans running
    exact .inl (endsAt_of_late going late own listening (period' ▸ period))
  · intro e' running
    cases same.symm.trans running

variable {P : Send → Leases → Except Stop Receipt → Leases → Prop}

/-- **No deadline is noticed while the loop waits for a call of its own.** -/
theorem EndsAt.not_calling [Nonempty σ] (h : s.EndsAt desk limits now P)
    (going : limits.cancelled = false)
    (period : ∀ lease e, s.phase = .escalating lease e → 0 < e.tracker.ticker.period) :
    ¬ s.Calling now := by
  rintro ⟨lease, e, phase, calls⟩
  have waits {e : Escalation} (calls :
      (∃ reply, e.phase = .pricing reply ∧ reply.ready? now = none) ∨
      ∃ first reply, e.phase = .signing first reply ∧ reply.ready? now = none) (outside : σ) :
      ({ e with turn := .loop } : Escalation).loopStep desk limits now outside = none := by
    rcases calls with ⟨reply, pricing, pending⟩ | ⟨first, reply, signing, pending⟩
    · simp [Escalation.loopStep, pricing, pending, going]
    · simp [Escalation.loopStep, signing, pending, going]
  refine h.not_kept (fun s => ∃ lease e, s.phase = .escalating lease e ∧
    ((∃ reply, e.phase = .pricing reply ∧ reply.ready? now = none) ∨
      ∃ first reply, e.phase = .signing first reply ∧ reply.ready? now = none) ∧
    0 < e.tracker.ticker.period) ?_ ⟨lease, e, phase, calls, period lease e phase⟩
  rintro ⟨call, deadline, _⟩ l outside out l' outside' ⟨lease, e, rfl, calls, period⟩ step
  obtain ⟨e', rfl, aside⟩ := step_aside (waits calls outside) period step
  exact ⟨_, rfl, lease, e', rfl, by rw [aside.phase]; exact calls, aside.period ▸ period⟩

variable {begun T : Nat} {cancelAt : Option Nat} {trail : List Event}

/-- **A send whose deadline expires ends at once**, in whatever phase it is: it takes no step more
    than those possible at this moment, and releases its lease.  There is exactly one exception, a
    call that its loop makes itself, for a suggestion or a signature.  (What a suggestion that
    arrives at this very moment leads to is up to the signer.) -/
theorem Course.timed_out [Nonempty σ] (valid : desk.policy.validate = .ok ())
    (timeout : desk.policy.sendTimeout = some T)
    (course : Course desk call begun cancelAt trail now s) (late : begun + T ≤ now)
    (going : Escalation.isPast cancelAt now = false)
    (unpriced : ∀ lease e reply, s.phase = .escalating lease e → e.phase = .pricing reply →
      reply.ready? now = none) :
    s.EndsAt desk (s.limits false) now (Expired desk.signer.address now) ↔ ¬ s.Calling now := by
  have period : ∀ lease e, s.phase = .escalating lease e → 0 < e.tracker.ticker.period :=
    fun lease e phase => course.run.period_pos valid phase
  refine ⟨fun ends => ends.not_calling rfl period, fun free => ?_⟩
  have past : Escalation.isPast (s.limits false).deadline now = true := by
    simpa [course.limits_eq, timeout, Escalation.isPast] using late
  have verdict : (s.limits false).verdict now = some .timedOut := by
    simpa [course.limits_eq, timeout, Limits.verdict] using late
  have leased : ∀ lease ∈ s.lease?, lease.account = desk.signer.address :=
    fun lease has => course.run.lease_account has
  obtain early | ⟨lease, e, phase⟩ := s.early_or_escalating
  · exact endsAt_of_verdict early verdict fun l => .inl (withdrawn_abandon leased _ l)
  have own : lease.account = desk.signer.address := leased lease (by simp [lease?, phase])
  obtain ⟨call', deadline, phase'⟩ := s
  cases phase
  cases loop : e.phase with
  | opening =>
    -- The first candidate would have gone to the signer before.
    have before := course.opening rfl loop
    rw [going] at before
    cases before.symm.trans verdict
  | listening => exact endsAt_of_late rfl past own loop (period lease e rfl)
  | pricing reply =>
    have pending := unpriced lease e reply rfl loop
    exact absurd ⟨lease, e, rfl, .inl ⟨reply, loop, pending⟩⟩ free
  | signing first reply =>
    cases ready : reply.ready? now with
    | none => exact absurd ⟨lease, e, rfl, .inr ⟨first, reply, loop, ready⟩⟩ free
    | some signed => exact endsAt_of_signed_late rfl past own loop ready (period lease e rfl)

/-- The signature of the first candidate comes at the moment of the deadline: the candidate is still
    published, and then the send ends. -/
theorem Course.timed_out_when_signed : ∃ trail s,
    Course (Errand.bare.tardy ⟨2, .immediate 0 .accepted, 0⟩ (some 2)) Errand.bare.call 0 none
      trail 2 s ∧
    s.EndsAt (Errand.bare.tardy ⟨2, .immediate 0 .accepted, 0⟩ (some 2)) (s.limits false) 2
      (Expired Errand.bare.lease.account 2) := by
  let d : Delays := ⟨2, .immediate 0 .accepted, 0⟩
  have asked := Errand.signs d (some 2) none Errand.bare_fits rfl (by simp)
  obtain ⟨trail, course, -⟩ :=
    Errand.sleeps d (some 2) 2 asked (by decide) (Nat.le_refl 2) (by decide) (by simp)
  refine ⟨trail, _, course, ?_⟩
  refine (Course.timed_out (T := 2) (Policy.validate_steady (by simp)) rfl course
    (Nat.le_refl 2) rfl ?_).mpr ?_
  · rintro lease e reply phase pricing
    cases phase
    cases pricing
  · rintro ⟨lease, e, phase, ⟨reply, pricing, -⟩ | ⟨first, reply, signing, pending⟩⟩
    · cases phase
      cases pricing
    · cases phase
      cases signing
      cases pending

/-- **A send may outlive its deadline.**  It has until 2 ms, but a slow signer has its first
    candidate by then; at 5 ms it is still under way. -/
theorem Course.timed_out_late :
    (Errand.bare.tardy ⟨5, .immediate 0 .accepted, 0⟩ (some 2)).policy.sendTimeout = some 2 ∧
    ∃ trail s, Course (Errand.bare.tardy ⟨5, .immediate 0 .accepted, 0⟩ (some 2))
      Errand.bare.call 0 none trail 5 s := by
  let d : Delays := ⟨5, .immediate 0 .accepted, 0⟩
  have asked := Errand.signs d (some 2) none Errand.bare_fits rfl (by simp)
  obtain ⟨trail, course, -⟩ :=
    Errand.sleeps d (some 2) 5 asked (by decide) (by decide) (by decide) (by simp)
  exact ⟨rfl, trail, _, course⟩

/-- A reply that has not come when no step is possible does not come before the next alarm. -/
theorem pending_until {α : Type} {reply : Pending α} {later : Nat}
    (pending : reply.ready? now = none)
    (soonest : ∀ alarm ∈ reply.alarms, now < alarm → later ≤ alarm) {between : Nat}
    (before : between < later) : reply.ready? (max now between) = none := by
  obtain ⟨answer, due⟩ := reply
  cases due with
  | none => rfl
  | some t =>
    have ahead : now < t := by simpa [Pending.ready?] using pending
    have := soonest t (by simp [Pending.alarms]) ahead
    simp only [Pending.ready?]
    rw [if_neg (by omega)]

/-- So a loop that awaits a price or a signature has no step until the next of its alarms. -/
theorem Calling.until {later between : Nat} (h : s.Calling now)
    (soonest : ∀ alarm ∈ s.alarms desk.policy, now < alarm → later ≤ alarm)
    (before : between < later) : s.Calling (max now between) := by
  obtain ⟨lease, e, phase, calls⟩ := h
  refine ⟨lease, e, phase, ?_⟩
  rcases calls with ⟨reply, pricing, pending⟩ | ⟨first, reply, signing, pending⟩
  · refine .inl ⟨reply, pricing, pending_until pending (fun alarm listed => ?_) before⟩
    exact soonest alarm (by simp [alarms, phase, Escalation.alarms, pricing, listed])
  · refine .inr ⟨first, reply, signing, pending_until pending (fun alarm listed => ?_) before⟩
    exact soonest alarm (by simp [alarms, phase, Escalation.alarms, signing, listed])

/-- **A send that waits does so for its deadline as well**, or for a call of its loop. -/
theorem calling_of_idle {t : Nat} (deadline : s.deadline = some t)
    (idle : s.stepWithin desk (s.limits false) now l outside = none) :
    (t ∈ s.alarms desk.policy ∧ now < t) ∨ s.Calling now := by
  obtain early | ⟨lease, e, phase⟩ := s.early_or_escalating
  · left
    constructor
    · obtain ⟨call, _, phase⟩ := s
      cases deadline
      cases phase with
      | leasing a => cases a <;> simp [alarms]
      | estimating _ _ | pricing _ _ _ => simp [alarms]
      | escalating lease e => exact absurd rfl (early lease e)
    · by_contra late
      have verdict : (s.limits false).verdict now = some .timedOut := by
        simp [limits, deadline, Limits.verdict, Nat.le_of_not_lt late]
      cases (stepWithin_of_verdict early verdict).symm.trans idle
  -- No task can step, the loop among them; what it waits for shows in its phase.
  have loop : ({ e with turn := .loop } : Escalation).loopStep desk (s.limits false) now outside =
      none := stepOf_of_idle phase idle .loop
  cases own : e.phase with
  | opening => simp [Escalation.loopStep, own] at loop
  | listening =>
    left
    constructor
    · simp [alarms, phase, Escalation.alarms, own, limits, deadline]
    · by_contra late
      have past : Escalation.isPast (s.limits false).deadline now = true := by
        simp [limits, deadline, Escalation.isPast, Nat.le_of_not_lt late]
      rw [Escalation.loopStep_late (e := { e with turn := .loop }) own rfl past] at loop
      cases loop
  | pricing reply =>
    refine .inr ⟨lease, e, phase, .inl ⟨reply, own, ?_⟩⟩
    cases ready : reply.ready? now with
    | none => rfl
    | some answer => simp [Escalation.loopStep, own, ready, limits] at loop
  | signing first reply =>
    refine .inr ⟨lease, e, phase, .inr ⟨first, reply, own, ?_⟩⟩
    cases ready : reply.ready? now with
    | none => rfl
    | some answer => simp [Escalation.loopStep, own, ready, limits] at loop

/-- **No other send outlives its deadline**: one that is still under way later, and was not
    cancelled, was in a call of its loop when the deadline expired, or since. -/
theorem Course.calling_of_later (timeout : desk.policy.sendTimeout = some T)
    (course : Course desk call begun cancelAt trail now s)
    (going : Escalation.isPast cancelAt now = false) (later : begun + T < now) :
    ∃ trail' now' s', now' < now ∧ Course desk call begun cancelAt trail' now' s' ∧
      s'.Calling (max now' (begun + T)) := by
  induction course with
  | start => omega
  | reschedule _ _ ih | step _ _ ih => exact ih going later
  | @wait trail now s leases outside course idle later' passes soonest _ =>
    have before : Escalation.isPast cancelAt now = false := by
      cases cancelAt with
      | none => rfl
      | some c =>
        simp only [Escalation.isPast, decide_eq_false_iff_not] at going ⊢
        omega
    rw [Send.step, before] at idle
    have deadline : s.deadline = some (begun + T) := by
      rw [course.deadline, timeout]
      rfl
    rcases calling_of_idle deadline idle with ⟨awaited, ahead⟩ | calling
    · have := soonest _ (List.mem_append_left _ awaited) ahead
      omega
    · refine ⟨trail, now, s, passes, course, ?_⟩
      exact calling.until (fun alarm listed => soonest alarm (List.mem_append_left _ listed)) later

end Send

end Relayer
