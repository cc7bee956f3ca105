import Relayer.Proofs.Leases.Settlement
import Relayer.Proofs.Send.Moment
import Relayer.Proofs.Send.Tardy

namespace Relayer

/-!
# Cancellation — how soon a send ends whose token is cancelled

Whatever a send waits for, cancellation comes first in its select, and its lease or its place in
line is released at once.  There is one exception: the signature of the first candidate is awaited
outside every select.

* `Send.abandon_eq` — a send that is dropped gives its ticket back, and that is all;
* `Send.Withdrawn` — the end of a send that leaves `next` alone and its ticket behind;
* `Send.Unsigned` — the first candidate is with the signer;
* `Send.Course.cancelled` — a cancelled send ends at once, exactly if that is not where it is;
* `Send.Course.unsigned_of_later` — no other send outlives its cancellation.
-/

variable {σ : Type}

/-- A loop whose token is cancelled ends, unless its first candidate is being signed. -/
theorem Escalation.loopStep_cancelled {desk : Desk σ} {limits : Limits} {now : Nat}
    {e : Escalation} {outside : σ} (cancelled : limits.cancelled = true)
    (started : e.phase ≠ .opening) (later : ∀ reply, e.phase ≠ .signing true reply) :
    e.loopStep desk limits now outside = some (fails .cancelled, outside) := by
  cases phase : e.phase with
  | opening => exact absurd phase started
  | listening => simp [loopStep, listen, phase, cancelled]
  | pricing reply => simp [loopStep, phase, cancelled]
  | signing first reply =>
    cases first with
    | true => exact absurd phase (later reply)
    | false => simp [loopStep, phase, cancelled]

namespace Send

variable {desk : Desk σ} {call : Call} {limits : Limits} {now : Nat} {s : Send} {l l' : Leases}
  {outside outside' : σ} {account : Address}

/-! ### The lease -/

/-- **A send that is dropped gives its ticket back**, and does nothing else to the slots. -/
theorem abandon_eq (account : Address) (s : Send) (l : Leases) :
    s.abandon account l =
      match (s.stake account).ticket? with
      | none => l
      | some (a, t) => l.leave a t := by
  obtain ⟨call, deadline, phase⟩ := s
  cases phase with
  | leasing a =>
    cases a with
    | asking a => cases a <;> rfl
    | pausing resume => rfl
  | estimating _ _ | pricing _ _ _ | escalating _ _ => rfl

/-- The ticket of a send is one for its account. -/
theorem account_of_ticket (leased : ∀ lease ∈ s.lease?, lease.account = account) {a : Address}
    {t : Ticket} (ticket : (s.stake account).ticket? = some (a, t)) : a = account := by
  obtain ⟨call, deadline, phase⟩ := s
  cases phase with
  | leasing a =>
    cases a with
    | asking a =>
      cases a with
      | start => cases ticket
      | queued _ | reading _ _ => exact (congrArg Prod.fst (Option.some.inj ticket)).symm
    | pausing _ => cases ticket
  | estimating lease _ | pricing lease _ _ | escalating lease _ =>
    have same : lease.account = a := congrArg Prod.fst (Option.some.inj ticket)
    exact same ▸ leased lease rfl

/-- The end of a send for `why`: no `next` is changed, its ticket is gone while others keep their
    order, and where nobody else has one the account is free. -/
structure Withdrawn (why : Failure) (account : Address) (s : Send) (l : Leases)
    (result : Except Stop Receipt) (l' : Leases) : Prop where
  reason : result = .error (.failure why)
  nonces : ∀ a, (l'.slot a).next = (l.slot a).next
  tickets : (l.slot account).Orderly → (l'.slot account).tickets =
    (l.slot account).tickets.filter fun t => (s.stake account).ticket? ≠ some (account, t)
  free : (l.slot account).Orderly →
    (∀ t ∈ (l.slot account).tickets, (s.stake account).ticket? = some (account, t)) →
    l'.isLeased account = false

/-- **A send that gives back what it has is withdrawn.** -/
theorem withdrawn_abandon (leased : ∀ lease ∈ s.lease?, lease.account = account) (why : Failure)
    (l : Leases) :
    Withdrawn why account s l (.error (.failure why)) (s.abandon account l) := by
  have tickets (orderly : (l.slot account).Orderly) :
      ((s.abandon account l).slot account).tickets =
        (l.slot account).tickets.filter fun t => (s.stake account).ticket? ≠ some (account, t) := by
    rw [abandon_eq]
    cases ticket : (s.stake account).ticket? with
    | none => simp
    | some claim =>
      obtain ⟨a, t⟩ := claim
      obtain rfl := account_of_ticket leased ticket
      simp only [Leases.slot_leave, if_true, orderly.tickets_drop]
      refine List.filter_congr fun t' _ => ?_
      rw [Bool.eq_iff_iff, bne_iff_ne, decide_eq_true_iff]
      simp [ne_comm]
  refine ⟨rfl, ?_, tickets, ?_⟩
  · intro a
    rw [abandon_eq]
    split
    · rfl
    · exact Lease.next_release ⟨_, _, 0⟩ l a
  · intro orderly alone
    have none : ((s.abandon account l).slot account).tickets = [] := by
      rw [tickets orderly, List.filter_eq_nil_iff]
      simpa using alone
    rw [Slot.tickets, List.append_eq_nil_iff] at none
    rw [Leases.isLeased]
    simpa using none.1

/-! ### The end -/

/-- The first candidate is with the signer, and its signature has not come. -/
def Unsigned (s : Send) (now : Nat) : Prop :=
  ∃ lease e reply, s.phase = .escalating lease e ∧ e.phase = .signing true reply ∧
    reply.ready? now = none

variable {P : Send → Leases → Except Stop Receipt → Leases → Prop}

/-- **The signature of the first candidate cannot be interrupted.** -/
theorem EndsAt.not_unsigned [Nonempty σ] (h : s.EndsAt desk limits now P)
    (period : ∀ lease e, s.phase = .escalating lease e → 0 < e.tracker.ticker.period) :
    ¬ s.Unsigned now := by
  rintro ⟨lease, e, reply, phase, signing, pending⟩
  refine h.not_kept (fun s => ∃ lease e, s.phase = .escalating lease e ∧
    e.phase = .signing true reply ∧ 0 < e.tracker.ticker.period) ?_
    ⟨lease, e, phase, signing, period lease e phase⟩
  rintro ⟨call, deadline, _⟩ l outside out l' outside' ⟨lease, e, rfl, signing, period⟩ step
  -- The loop waits, and the others leave it where it is.
  have waits : ({ e with turn := .loop } : Escalation).loopStep desk limits now outside = none := by
    simp [Escalation.loopStep, signing, pending]
  obtain ⟨e', rfl, aside⟩ := step_aside waits period step
  exact ⟨_, rfl, lease, e', rfl, aside.phase.trans signing, aside.period ▸ period⟩

/-- A cancelled send that waits does so for its first signature. -/
theorem unsigned_of_idle (cancelled : limits.cancelled = true)
    (idle : s.stepWithin desk limits now l outside = none) : s.Unsigned now := by
  obtain early | ⟨lease, e, phase⟩ := s.early_or_escalating
  · have verdict : limits.verdict now = some .cancelled := by simp [Limits.verdict, cancelled]
    rw [stepWithin_of_verdict early verdict] at idle
    cases idle
  have loop : ({ e with turn := .loop } : Escalation).loopStep desk limits now outside = none :=
    stepOf_of_idle phase idle .loop
  by_cases started : e.phase = .opening
  · simp [Escalation.loopStep, started] at loop
  by_cases later : ∀ reply, e.phase ≠ .signing true reply
  · rw [Escalation.loopStep_cancelled (e := { e with turn := .loop }) cancelled started later]
      at loop
    cases loop
  simp only [not_forall, not_not] at later
  obtain ⟨reply, signing⟩ := later
  refine ⟨lease, e, reply, phase, signing, ?_⟩
  cases ready : reply.ready? now with
  | none => rfl
  | some answer => simp [Escalation.loopStep, signing, ready] at loop

variable {begun c : Nat} {cancelAt : Option Nat} {trail : List Event} {lease : Lease}
  {e : Escalation} {deadline : Option Nat}

/-- An escalation with any other phase ends when it is cancelled. -/
theorem endsAt_of_cancelled (cancelled : limits.cancelled = true)
    (own : lease.account = account) (started : e.phase ≠ .opening)
    (later : ∀ reply, e.phase ≠ .signing true reply) (period : 0 < e.tracker.ticker.period) :
    EndsAt desk limits now (Withdrawn .cancelled account)
      ⟨call, deadline, .escalating lease e⟩ := by
  refine endsAt_of_loop
    (fun phase => phase ≠ .opening ∧ ∀ reply, phase ≠ .signing true reply) ?_
    ⟨started, later⟩ period
  rintro e l outside ⟨started, later⟩ -
  refine ⟨_, _, Escalation.loopStep_cancelled cancelled started later, ?_, ?_⟩
  · intro result ended
    cases ended
    exact withdrawn_abandon (s := ⟨call, deadline, .escalating lease e⟩)
      (by simpa [lease?] using own) _ l
  · intro e' running
    cases running

/-- So does one whose first signature has come, unless that is a failure that is not retryable. -/
theorem endsAt_of_signed {reply : Pending (Except Stop (List UInt8))}
    {signed : Except Stop (List UInt8)} (cancelled : limits.cancelled = true)
    (own : lease.account = account) (signing : e.phase = .signing true reply)
    (ready : reply.ready? now = some signed)
    (passing : ∀ stop, signed = .error stop → ∃ f, stop = .failure f ∧ f.isRetryable = true)
    (period : 0 < e.tracker.ticker.period) :
    EndsAt desk limits now (Withdrawn .cancelled account)
      ⟨call, deadline, .escalating lease e⟩ := by
  refine endsAt_of_loop (· = .signing true reply) ?_ signing period
  intro e l outside signing period
  refine ⟨_, _, Escalation.loopStep_signed signing ready fun _ => rfl, ?_, ?_⟩
  · intro result ended
    rcases Escalation.afterSigning_cases { e with turn := .loop } signed with
      ⟨_, same, -⟩ | ⟨stop, refused, final, -⟩
    · cases same.symm.trans ended
    · obtain ⟨f, rfl, retryable⟩ := passing stop refused
      simp [final f rfl] at retryable
  · intro e' running
    rcases Escalation.afterSigning_cases { e with turn := .loop } signed with
      ⟨_, same, listening, sameperiod⟩ | ⟨_, -, -, same⟩
    · cases same.symm.trans running
      exact .inl (endsAt_of_cancelled cancelled own (by simp [listening]) (by simp [listening])
        (sameperiod ▸ period))
    · cases same.symm.trans running

/-- **A cancelled send ends at once with `cancelled`**, whatever it waits for: it takes no step more
    than those possible at this moment, and releases its lease.  There is exactly one exception, the
    signature of the first candidate.  (A signer that fails for good at this very moment is a reason
    of its own to end.) -/
theorem Course.cancelled [Nonempty σ] (valid : desk.policy.validate = .ok ())
    (course : Course desk call begun (some c) trail c s)
    (alone : ∀ lease e reply stop, s.phase = .escalating lease e → e.phase = .signing true reply →
      reply.ready? c = some (.error stop) → ∃ f, stop = .failure f ∧ f.isRetryable = true) :
    s.EndsAt desk (s.limits true) c (Withdrawn .cancelled desk.signer.address) ↔
      ¬ s.Unsigned c := by
  have period : ∀ lease e, s.phase = .escalating lease e → 0 < e.tracker.ticker.period :=
    fun lease e phase => course.run.period_pos valid phase
  refine ⟨fun ends => ends.not_unsigned period, fun signed => ?_⟩
  have past : Escalation.isPast (some c) c = true := by simp [Escalation.isPast]
  have leased : ∀ lease ∈ s.lease?, lease.account = desk.signer.address :=
    fun lease has => course.run.lease_account has
  obtain early | ⟨lease, e, phase⟩ := s.early_or_escalating
  · exact endsAt_of_verdict early rfl (withdrawn_abandon leased _)
  have own : lease.account = desk.signer.address := leased lease (by simp [lease?, phase])
  obtain ⟨call', deadline, phase'⟩ := s
  cases phase
  by_cases opening : e.phase = .opening
  · -- The first candidate would have gone to the signer before.
    have verdict := course.opening rfl opening
    simp [past, limits, Limits.verdict] at verdict
  by_cases later : ∀ reply, e.phase ≠ .signing true reply
  · exact endsAt_of_cancelled rfl own opening later (period lease e rfl)
  simp only [not_forall, not_not] at later
  obtain ⟨reply, signing⟩ := later
  cases ready : reply.ready? c with
  | none => exact absurd ⟨lease, e, reply, rfl, signing, ready⟩ signed
  | some answer =>
    refine endsAt_of_signed rfl own signing ready ?_ (period lease e rfl)
    rintro stop rfl
    exact alone lease e reply stop rfl signing ready

/-- The signature of the first candidate comes at the moment of the cancellation: the candidate is
    still published, and then the send ends. -/
theorem Course.cancelled_when_signed : ∃ trail s,
    Course (Errand.bare.tardy ⟨1, .immediate 0 .accepted, 0⟩ none) Errand.bare.call 0 (some 1)
      trail 1 s ∧
    s.EndsAt (Errand.bare.tardy ⟨1, .immediate 0 .accepted, 0⟩ none) (s.limits true) 1
      (Withdrawn .cancelled Errand.bare.lease.account) := by
  let d : Delays := ⟨1, .immediate 0 .accepted, 0⟩
  have asked := Errand.signs d none (some 1) Errand.bare_fits rfl (by simp)
  obtain ⟨trail, course, -⟩ :=
    Errand.sleeps d none 1 asked (by decide) (Nat.le_refl 1) (by decide) (by simp)
  refine ⟨trail, _, course, ?_⟩
  refine (Course.cancelled (Policy.validate_steady (by simp)) course ?_).mpr ?_
  · rintro lease e reply stop phase signing ready
    cases phase
    cases signing
    cases ready
  · rintro ⟨lease, e, reply, phase, signing, pending⟩
    cases phase
    cases signing
    cases pending

/-- **A send may outlive its cancellation.**  Its token is cancelled at 2 ms, while a slow signer
    still has its first candidate; at 5 ms it is still under way. -/
theorem Course.cancelled_late : ∃ trail s,
    Course (Errand.bare.tardy ⟨5, .immediate 0 .accepted, 0⟩ none) Errand.bare.call 0 (some 2)
      trail 5 s := by
  let d : Delays := ⟨5, .immediate 0 .accepted, 0⟩
  have asked := Errand.signs d none (some 2) Errand.bare_fits rfl (by simp)
  have given := Errand.sleeps d none 2 asked (by decide) (by decide) (by decide) (by simp)
  obtain ⟨trail, course, -⟩ :=
    Errand.sleeps d none 5 given (by decide) (by decide) (by decide) (by simp)
  exact ⟨trail, _, course⟩

/-- **No other send outlives its cancellation**: one that is still under way later waited for its
    first signature in between. -/
theorem Course.unsigned_of_later (course : Course desk call begun (some c) trail now s)
    (given : begun ≤ c) (later : c < now) : ∃ trail' now' s', c ≤ now' ∧ now' < now ∧
      Course desk call begun (some c) trail' now' s' ∧ s'.Unsigned now' := by
  induction course with
  | start => omega
  | reschedule _ _ ih | step _ _ ih => exact ih later
  | @wait trail now s leases outside course idle later' passes soonest _ =>
    -- Time does not pass the moment at which the token is cancelled.
    have past : c ≤ now := by
      by_contra before
      have := soonest c (by simp) (by omega)
      omega
    have cancelled : Escalation.isPast (some c) now = true := by
      simpa [Escalation.isPast] using past
    rw [Send.step, cancelled] at idle
    exact ⟨trail, now, s, past, passes, course, unsigned_of_idle rfl idle⟩

end Send

end Relayer
