import Mathlib.Data.Nat.Find
import Relayer.Send.Escalation

namespace Relayer

/-!
# Asking — one retried call by the clock

A retried call is made again, `interval` after every retryable failure, until a reply decides it or
cancellation or the deadline interrupts it.  When the calls are made, when it ends and with what
follows from the replies, from their latencies and from the two limits.

* `Retry.Replies` — the replies to one call after the other, with `start` and `finish` of each call;
* `Retry.Course` — a retried call under way, and the moment it has come to;
* `Retry.Over` — its end, with the moments of its calls;
* `Retry.Timetable` — the end by the replies alone;
* `Retry.over_iff` — a retried call comes to that end, at that moment and after those calls;
* `Retry.Timetable.unique` — there is no other end;
* `Retry.follows_timetable` — it ends wherever there is an end, and never with a retryable failure.
-/

namespace Retry

variable {α : Type}

/-! ### Replies -/

/-- The replies to one call after the other, and the latency of each of them. -/
structure Replies (α : Type) where
  answer : Nat → Except Failure α
  latency : Nat → Nat

namespace Replies

/-- A call behind others, whose moments are listed. -/
def ask (s : Replies α) (now : Nat) (calls : List Nat) : Pending (Except Failure α) × List Nat :=
  (⟨s.answer calls.length, some (now + s.latency calls.length)⟩, calls ++ [now])

/-- When a call is made: at the start, or `interval` after the reply to the one before it. -/
def start (s : Replies α) (interval : Nat) : Nat → Nat
  | 0 => 0
  | k + 1 => s.start interval k + s.latency k + interval

/-- When a call is answered. -/
def finish (s : Replies α) (interval k : Nat) : Nat := s.start interval k + s.latency k

/-- The moments of the first `n` calls. -/
def starts (s : Replies α) (interval n : Nat) : List Nat := (List.range n).map (s.start interval)

/-- Whether a reply is a retryable failure. -/
def passes (s : Replies α) (k : Nat) : Bool :=
  match s.answer k with
  | .ok _ => false
  | .error f => f.isRetryable

/-- The first call whose reply decides, by success or by a failure that is not retryable. -/
structure First (s : Replies α) (m : Nat) : Prop where
  decides : s.passes m = false
  before : ∀ k < m, s.passes k = true

end Replies

section

variable (s : Replies α) (interval : Nat) (deadline cancelAt : Option Nat)

/-! ### By the clock -/

/-- One step of a retried call at a moment. -/
def tick (now : Nat) (r : Retry α) (calls : List Nat) : Option (Outcome α × List Nat) :=
  r.step s.ask interval ⟨Escalation.isPast cancelAt now, deadline⟩ now calls

/-- A retried call under way, with the moment it has come to and those of its calls.  Time passes
    only while no step is possible, and then no further than to the next moment it waits for. -/
inductive Course : Nat → Retry α → List Nat → Prop where
  | start : Course 0 .ready []
  | step {now r calls r' calls'} (course : Course now r calls)
      (step : tick s interval deadline cancelAt now r calls = some (.waiting r', calls')) :
      Course now r' calls'
  | wait {now r calls} (course : Course now r calls)
      (idle : tick s interval deadline cancelAt now r calls = none) (later : Nat)
      (passes : now < later)
      (soonest : ∀ alarm ∈ r.alarms ++ (deadline.toList ++ cancelAt.toList),
        now < alarm → later ≤ alarm) :
      Course later r calls

/-- A retried call has ended, with its result and the moments of its calls. -/
inductive Over : Nat → Except Failure α → List Nat → Prop where
  | answered {now r calls a calls'} (course : Course s interval deadline cancelAt now r calls)
      (step : tick s interval deadline cancelAt now r calls = some (.answered a, calls')) :
      Over now (.ok a) calls'
  | failed {now r calls f calls'} (course : Course s interval deadline cancelAt now r calls)
      (step : tick s interval deadline cancelAt now r calls = some (.failed f, calls')) :
      Over now (.error f) calls'

/-! ### By the answers -/

/-- The end of a retried call by its replies.  The first reply that decides is its result unless a
    limit comes before; then it ends at that moment with `cancelled` or `timedOut`, after the calls
    made until then.  At one moment cancellation comes first, then the deadline, then a reply. -/
inductive Timetable : Nat → Except Failure α → List Nat → Prop where
  | decided {m} (first : s.First m)
      (intime : ∀ limit ∈ deadline.toList ++ cancelAt.toList, s.finish interval m < limit) :
      Timetable (s.finish interval m) (s.answer m) (s.starts interval (m + 1))
  | cancelled {c n} (isCancelled : cancelAt = some c) (sooner : ∀ d ∈ deadline, c ≤ d)
      (undecided : ∀ m, s.First m → c ≤ s.finish interval m)
      (calls : ∀ k, k < n ↔ s.start interval k < c) :
      Timetable c (.error .cancelled) (s.starts interval n)
  | timedOut {d n} (bound : deadline = some d) (sooner : ∀ c ∈ cancelAt, d < c)
      (undecided : ∀ m, s.First m → d ≤ s.finish interval m)
      (calls : ∀ k, k < n ↔ s.start interval k < d) :
      Timetable d (.error .timedOut) (s.starts interval n)

end

variable {s : Replies α} {interval : Nat} {deadline cancelAt : Option Nat} {now : Nat}
  {r : Retry α} {calls : List Nat} {k m n t : Nat}

/-! ### When calls are made -/

namespace Replies

@[simp] theorem length_starts (s : Replies α) (interval n : Nat) :
    (s.starts interval n).length = n := by
  simp [starts]

/-- One call more. -/
theorem starts_succ (s : Replies α) (interval n : Nat) :
    s.starts interval (n + 1) = s.starts interval n ++ [s.start interval n] := by
  simp [starts, List.range_succ]

/-- The next call is made `interval` after the reply. -/
theorem start_succ (s : Replies α) (interval k : Nat) :
    s.start interval (k + 1) = s.finish interval k + interval := rfl

theorem start_le_finish (s : Replies α) (interval k : Nat) :
    s.start interval k ≤ s.finish interval k := Nat.le_add_right _ _

theorem finish_le_start (s : Replies α) (interval k : Nat) :
    s.finish interval k ≤ s.start interval (k + 1) := Nat.le_add_right _ _

/-- Calls are made in order. -/
theorem start_mono (s : Replies α) (interval : Nat) (h : k ≤ n) :
    s.start interval k ≤ s.start interval n := by
  induction h with
  | refl => exact Nat.le_refl _
  | step _ ih =>
    exact Nat.le_trans ih
      (Nat.le_trans (s.start_le_finish interval _) (s.finish_le_start interval _))

/-- They are answered in order. -/
theorem finish_mono (s : Replies α) (interval : Nat) (h : k ≤ n) :
    s.finish interval k ≤ s.finish interval n := by
  rcases Nat.eq_or_lt_of_le h with rfl | before
  · exact Nat.le_refl _
  · calc s.finish interval k ≤ s.start interval (k + 1) := s.finish_le_start interval k
      _ ≤ s.start interval n := s.start_mono interval before
      _ ≤ s.finish interval n := s.start_le_finish interval n

/-- With a positive interval, call `n` is made `n` milliseconds after the first one at least. -/
theorem le_start (positive : 0 < interval) (s : Replies α) (k : Nat) :
    k ≤ s.start interval k := by
  induction k with
  | zero => exact Nat.zero_le _
  | succ k ih =>
    have later := s.start_le_finish interval k
    rw [start_succ]
    omega

/-- So only some calls are made before any moment, and these are the first ones. -/
theorem exists_calls (positive : 0 < interval) (s : Replies α) (t : Nat) :
    ∃ n, ∀ k, k < n ↔ s.start interval k < t := by
  have reached : ∃ k, t ≤ s.start interval k := ⟨t, le_start positive s t⟩
  refine ⟨Nat.find reached, fun k => ⟨fun before => ?_, fun before => ?_⟩⟩
  · exact Nat.lt_of_not_le (Nat.find_min reached before)
  · refine Nat.lt_of_not_le fun behind => ?_
    have late : t ≤ s.start interval (Nat.find reached) := Nat.find_spec reached
    exact absurd (Nat.le_trans late (s.start_mono interval behind)) (Nat.not_le.mpr before)

/-- Where a reply decides, so does a first one. -/
theorem exists_first (h : s.passes k = false) : ∃ m ≤ k, s.First m := by
  have some : ∃ m, s.passes m = false := ⟨k, h⟩
  refine ⟨Nat.find some, Nat.find_min' some h, Nat.find_spec some, ?_⟩
  intro j before
  have other := Nat.find_min some before
  rwa [Bool.not_eq_false] at other

/-- Until the first reply that decides has come, all replies are retryable failures. -/
theorem passes_of_undecided (undecided : ∀ m, s.First m → t ≤ s.finish interval m)
    (before : s.finish interval k < t) : s.passes k = true := by
  cases passes : s.passes k with
  | true => rfl
  | false =>
    obtain ⟨m, le, first⟩ := exists_first passes
    have late := Nat.le_trans (undecided m first) (s.finish_mono interval le)
    exact absurd late (Nat.not_le.mpr before)

end Replies

/-! ### What may stop it -/

/-- The limits are the moment of the cancellation and the deadline. -/
theorem mem_limits {limit : Nat} :
    limit ∈ deadline.toList ++ cancelAt.toList ↔
      deadline = some limit ∨ cancelAt = some limit := by
  simp [List.mem_append]

/-- No limit has come so far. -/
def Uninterrupted (deadline cancelAt : Option Nat) (now : Nat) : Prop :=
  ∀ limit ∈ deadline.toList ++ cancelAt.toList, now < limit

instance : Decidable (Uninterrupted deadline cancelAt now) :=
  inferInstanceAs (Decidable (∀ limit ∈ deadline.toList ++ cancelAt.toList, now < limit))

/-- The failure by which a limit interrupts at a moment, if any. -/
def stop (deadline cancelAt : Option Nat) (now : Nat) : Option Failure :=
  (⟨Escalation.isPast cancelAt now, deadline⟩ : Limits).verdict now

/-- Cancellation interrupts from its moment on. -/
theorem stop_cancelled {c : Nat} (late : c ≤ now) :
    stop deadline (some c) now = some .cancelled := by
  simp [stop, Limits.verdict, Escalation.isPast, late]

/-- The deadline interrupts where there is no cancellation. -/
theorem stop_timedOut {d : Nat} (late : d ≤ now) (kept : ∀ c ∈ cancelAt, now < c) :
    stop (some d) cancelAt now = some .timedOut := by
  cases cancelAt with
  | none => simp [stop, Limits.verdict, Escalation.isPast, late]
  | some c =>
    have early : ¬ c ≤ now := Nat.not_le.mpr (kept c rfl)
    simp [stop, Limits.verdict, Escalation.isPast, late, early]

/-- Nothing else does. -/
theorem stop_of_uninterrupted (going : Uninterrupted deadline cancelAt now) :
    stop deadline cancelAt now = none := by
  have early (limit : Nat) (h : deadline = some limit ∨ cancelAt = some limit) : ¬ limit ≤ now :=
    Nat.not_le.mpr (going limit (mem_limits.mpr h))
  cases deadline with
  | none =>
    cases cancelAt with
    | none => rfl
    | some c => simp [stop, Limits.verdict, Escalation.isPast, early c (.inr rfl)]
  | some d =>
    cases cancelAt with
    | none => simp [stop, Limits.verdict, Escalation.isPast, early d (.inl rfl)]
    | some c =>
      simp [stop, Limits.verdict, Escalation.isPast, early d (.inl rfl), early c (.inr rfl)]

/-- A retried call that is interrupted ends with `cancelled`, or with `timedOut` before that. -/
theorem stopped_of_interrupted (stopped : ¬ Uninterrupted deadline cancelAt now) :
    (∃ c, cancelAt = some c ∧ c ≤ now) ∨
      ∃ d, deadline = some d ∧ d ≤ now ∧ ∀ c ∈ cancelAt, now < c := by
  by_cases given : ∃ c, cancelAt = some c ∧ c ≤ now
  · exact .inl given
  · have kept : ∀ c ∈ cancelAt, now < c := by
      intro c isCancelled
      exact Nat.lt_of_not_le fun late => given ⟨c, isCancelled, late⟩
    refine .inr (Decidable.byContradiction fun early => stopped ?_)
    intro limit listed
    rcases mem_limits.mp listed with bound | isCancelled
    · exact Nat.lt_of_not_le fun late => early ⟨limit, bound, late, kept⟩
    · exact kept limit isCancelled

/-! ### Steps -/

/-- A limit ends a retried call in whatever state. -/
theorem tick_stopped {f : Failure} (stopped : stop deadline cancelAt now = some f) :
    tick s interval deadline cancelAt now r calls = some (.failed f, calls) := by
  unfold stop at stopped
  simp only [tick, step, stopped]

section

variable (going : Uninterrupted deadline cancelAt now)

include going

/-- A retried call that is `ready` makes its next call. -/
theorem tick_ready : tick s interval deadline cancelAt now .ready calls =
    some (.waiting (.asking (s.ask now calls).1), (s.ask now calls).2) := by
  have free := stop_of_uninterrupted going
  unfold stop at free
  simp only [tick, step, free]

/-- It waits for the reply. -/
theorem tick_unanswered {answer : Except Failure α} {due : Nat} (early : now < due) :
    tick s interval deadline cancelAt now (.asking ⟨answer, some due⟩) calls = none := by
  have free := stop_of_uninterrupted going
  unfold stop at free
  have unready : ¬ due ≤ now := Nat.not_le.mpr early
  simp only [tick, step, free, Pending.ready?, if_neg unready]

/-- It takes the reply. -/
theorem tick_answered {answer : Except Failure α} {due : Nat} (there : due ≤ now) :
    tick s interval deadline cancelAt now (.asking ⟨answer, some due⟩) calls =
      some (settle interval now answer, calls) := by
  have free := stop_of_uninterrupted going
  unfold stop at free
  simp only [tick, step, free, Pending.ready?, if_pos there]

/-- It waits for the end of the interval. -/
theorem tick_pausing (resume : Nat) :
    tick s interval deadline cancelAt now (.pausing resume) calls =
    if resume ≤ now then some (.waiting .ready, calls) else none := by
  have free := stop_of_uninterrupted going
  unfold stop at free
  simp only [tick, step, free]

end

/-! ### How far a question has come -/

/-- How far a retried call has come by its replies. -/
inductive Stage (s : Replies α) (interval : Nat) : Nat → Retry α → List Nat → Prop where
  | ready (k : Nat) (passed : ∀ j < k, s.passes j = true) :
      Stage s interval (s.start interval k) .ready (s.starts interval k)
  | asking {now : Nat} (k : Nat) (passed : ∀ j < k, s.passes j = true)
      (since : s.start interval k ≤ now)
      (till : now ≤ s.finish interval k) :
      Stage s interval now (.asking ⟨s.answer k, some (s.finish interval k)⟩)
        (s.starts interval (k + 1))
  | pausing {now : Nat} (k : Nat) (passed : ∀ j < k + 1, s.passes j = true)
      (since : s.finish interval k ≤ now)
      (till : now ≤ s.start interval (k + 1)) :
      Stage s interval now (.pausing (s.start interval (k + 1))) (s.starts interval (k + 1))

/-- The calls it has made are the first ones, and the next one is not made before now. -/
theorem Stage.calls_eq (stage : Stage s interval now r calls) :
    ∃ n, calls = s.starts interval n ∧ now ≤ s.start interval n := by
  cases stage with
  | ready k _ => exact ⟨k, rfl, Nat.le_refl _⟩
  | asking k _ _ till => exact ⟨k + 1, rfl, Nat.le_trans till (s.finish_le_start interval k)⟩
  | pausing k _ _ till => exact ⟨k + 1, rfl, till⟩

/-- No reply before now decides. -/
theorem Stage.undecided (stage : Stage s interval now r calls) (first : s.First m) :
    now ≤ s.finish interval m := by
  have behind {k : Nat} (passed : ∀ j < k, s.passes j = true) : k ≤ m := by
    refine Nat.le_of_not_lt fun before => ?_
    have decides := first.decides
    rw [passed m before] at decides
    cases decides
  cases stage with
  | ready k passed =>
    exact Nat.le_trans (s.start_mono interval (behind passed)) (s.start_le_finish interval m)
  | asking k passed _ till => exact Nat.le_trans till (s.finish_mono interval (behind passed))
  | pausing k passed _ till =>
    have next := s.start_mono interval (behind passed)
    exact Nat.le_trans till (Nat.le_trans next (s.start_le_finish interval m))

/-- A retried call under way, by its replies and before all of its limits. -/
structure Progress (s : Replies α) (interval : Nat) (deadline cancelAt : Option Nat) (now : Nat)
    (r : Retry α) (calls : List Nat) : Prop where
  stage : Stage s interval now r calls
  within : ∀ limit ∈ deadline.toList ++ cancelAt.toList, now ≤ limit
  made : ∀ call ∈ calls, Uninterrupted deadline cancelAt call

/-- A step that does not fail was not interrupted. -/
theorem uninterrupted_of_tick {out : Option (Outcome α × List Nat)}
    (h : tick s interval deadline cancelAt now r calls = out)
    (other : ∀ f, out ≠ some (.failed f, calls)) : Uninterrupted deadline cancelAt now := by
  refine Decidable.byContradiction fun stopped => ?_
  rcases stopped_of_interrupted stopped with ⟨c, rfl, late⟩ | ⟨d, rfl, late, kept⟩
  · exact other _ (h.symm.trans (tick_stopped (stop_cancelled late)))
  · exact other _ (h.symm.trans (tick_stopped (stop_timedOut late kept)))

/-- A retryable failure is followed by a wait. -/
theorem settle_of_passes (passes : s.passes k = true) :
    settle interval now (s.answer k) = .waiting (.pausing (now + interval)) := by
  unfold Replies.passes at passes
  cases answer : s.answer k with
  | ok a => simp [answer] at passes
  | error f =>
    simp only [answer] at passes
    exact if_pos passes

/-- Any other reply is the end. -/
theorem settle_of_decides (decides : s.passes k = false) :
    (∃ a, s.answer k = .ok a ∧ settle interval now (s.answer k) = .answered a) ∨
      ∃ f, s.answer k = .error f ∧ settle interval now (s.answer k) = .failed f := by
  unfold Replies.passes at decides
  cases answer : s.answer k with
  | ok a => exact .inl ⟨a, rfl, rfl⟩
  | error f =>
    simp only [answer] at decides
    exact .inr ⟨f, rfl, if_neg (by rw [decides]; exact Bool.false_ne_true)⟩

/-- **A step takes a retried call to its next stage.** -/
theorem Progress.step {r' : Retry α} {calls' : List Nat}
    (kept : Progress s interval deadline cancelAt now r calls)
    (step : tick s interval deadline cancelAt now r calls = some (.waiting r', calls')) :
    Progress s interval deadline cancelAt now r' calls' := by
  have going : Uninterrupted deadline cancelAt now := uninterrupted_of_tick step (by simp)
  obtain ⟨stage, within, made⟩ := kept
  cases stage with
  | ready k passed =>
    rw [tick_ready going] at step
    cases step
    simp only [Replies.ask, Replies.length_starts, ← Replies.starts_succ]
    refine ⟨.asking k passed (Nat.le_refl _) (s.start_le_finish interval k), within, ?_⟩
    intro call listed
    rw [Replies.starts_succ] at listed
    rcases List.mem_append.mp listed with before | now
    · exact made call before
    · cases List.mem_singleton.mp now
      exact going
  | asking k passed since till =>
    by_cases there : s.finish interval k ≤ now
    · -- The stage holds up to the moment of the reply, so that it is this very moment.
      obtain rfl : now = s.finish interval k := Nat.le_antisymm till there
      rw [tick_answered going there] at step
      cases passes : s.passes k with
      | true =>
        rw [settle_of_passes passes] at step
        cases step
        have passed' : ∀ j < k + 1, s.passes j = true := by
          intro j before
          rcases Nat.lt_succ_iff_lt_or_eq.mp before with earlier | rfl
          · exact passed j earlier
          · exact passes
        exact ⟨.pausing k passed' (Nat.le_refl _) (s.finish_le_start interval k), within, made⟩
      | false =>
        rcases settle_of_decides passes with ⟨a, -, ends⟩ | ⟨f, -, ends⟩
        all_goals
          rw [ends] at step
          cases step
    · rw [tick_unanswered going (Nat.lt_of_not_le there)] at step
      cases step
  | pausing k passed since till =>
    rw [tick_pausing going] at step
    split at step
    next due =>
      cases step
      obtain rfl : now = s.start interval (k + 1) := Nat.le_antisymm till due
      exact ⟨.ready (k + 1) passed, within, made⟩
    next => cases step

/-- **So does time**, as long as no step is possible. -/
theorem Progress.wait {later : Nat} (kept : Progress s interval deadline cancelAt now r calls)
    (idle : tick s interval deadline cancelAt now r calls = none) (passes : now < later)
    (soonest : ∀ alarm ∈ r.alarms ++ (deadline.toList ++ cancelAt.toList),
      now < alarm → later ≤ alarm) : Progress s interval deadline cancelAt later r calls := by
  have going : Uninterrupted deadline cancelAt now := uninterrupted_of_tick idle (by simp)
  obtain ⟨stage, -, made⟩ := kept
  refine ⟨?_, ?_, made⟩
  · cases stage with
    | ready k passed =>
      rw [tick_ready going] at idle
      cases idle
    | asking k passed since till =>
      have unanswered : now < s.finish interval k := by
        refine Nat.lt_of_not_le fun there => ?_
        rw [tick_answered going there] at idle
        cases idle
      have next := soonest (s.finish interval k) (by simp [alarms, Pending.alarms]) unanswered
      exact .asking k passed (Nat.le_of_lt (Nat.lt_of_le_of_lt since passes)) next
    | pausing k passed since till =>
      have early : now < s.start interval (k + 1) := by
        refine Nat.lt_of_not_le fun due => ?_
        rw [tick_pausing going, if_pos due] at idle
        cases idle
      have next := soonest (s.start interval (k + 1)) (by simp [alarms]) early
      exact .pausing k passed (Nat.le_of_lt (Nat.lt_of_le_of_lt since passes)) next
  · intro limit listed
    exact soonest limit (List.mem_append_right _ listed) (going limit listed)

/-- So every course keeps to its stages. -/
theorem Course.kept (course : Course s interval deadline cancelAt now r calls) :
    Progress s interval deadline cancelAt now r calls := by
  induction course with
  | start =>
    have none : ∀ j < 0, s.passes j = true := fun j before => absurd before (Nat.not_lt_zero j)
    exact ⟨.ready 0 none, fun _ _ => Nat.zero_le _, by simp⟩
  | step _ step ih => exact ih.step step
  | wait _ idle _ passes soonest ih => exact ih.wait idle passes soonest

/-! ### The end -/

/-- A retried call that ends uninterrupted was decided by its last reply. -/
theorem Progress.decided {out : Outcome α} {calls' : List Nat}
    (kept : Progress s interval deadline cancelAt now r calls)
    (going : Uninterrupted deadline cancelAt now)
    (step : tick s interval deadline cancelAt now r calls = some (out, calls'))
    (ended : ∀ r', out ≠ .waiting r') :
    ∃ m, s.First m ∧ now = s.finish interval m ∧ calls' = s.starts interval (m + 1) ∧
      ((∃ a, out = .answered a ∧ s.answer m = .ok a) ∨
        ∃ f, out = .failed f ∧ s.answer m = .error f) := by
  obtain ⟨stage, -, -⟩ := kept
  cases stage with
  | ready k passed =>
    rw [tick_ready going] at step
    cases step
    exact absurd rfl (ended _)
  | asking k passed since till =>
    by_cases there : s.finish interval k ≤ now
    · obtain rfl : now = s.finish interval k := Nat.le_antisymm till there
      rw [tick_answered going there] at step
      cases decides : s.passes k with
      | true =>
        rw [settle_of_passes decides] at step
        cases step
        exact absurd rfl (ended _)
      | false =>
        refine ⟨k, ⟨decides, passed⟩, rfl, ?_⟩
        rcases settle_of_decides decides with ⟨a, answer, ends⟩ | ⟨f, answer, ends⟩
        · rw [ends] at step
          cases step
          exact ⟨rfl, .inl ⟨a, rfl, answer⟩⟩
        · rw [ends] at step
          cases step
          exact ⟨rfl, .inr ⟨f, rfl, answer⟩⟩
    · rw [tick_unanswered going (Nat.lt_of_not_le there)] at step
      cases step
  | pausing k passed since till =>
    rw [tick_pausing going] at step
    split at step
    next =>
      cases step
      exact absurd rfl (ended _)
    next => cases step

/-- A retried call that is interrupted is so at a limit, after the calls that come before it. -/
theorem Progress.stopped {limit : Nat} (kept : Progress s interval deadline cancelAt now r calls)
    (listed : limit ∈ deadline.toList ++ cancelAt.toList) (late : limit ≤ now) :
    limit = now ∧ (∀ m, s.First m → limit ≤ s.finish interval m) ∧
      ∃ n, calls = s.starts interval n ∧ ∀ k, k < n ↔ s.start interval k < limit := by
  obtain ⟨stage, within, made⟩ := kept
  obtain rfl : limit = now := Nat.le_antisymm late (within limit listed)
  obtain ⟨n, rfl, next⟩ := stage.calls_eq
  refine ⟨rfl, fun m first => stage.undecided first, n, rfl, fun k => ⟨fun before => ?_, ?_⟩⟩
  · have call : s.start interval k ∈ s.starts interval n :=
      List.mem_map.mpr ⟨k, List.mem_range.mpr before, rfl⟩
    exact made _ call limit listed
  · intro before
    refine Nat.lt_of_not_le fun behind => ?_
    exact absurd (Nat.le_trans next (s.start_mono interval behind)) (Nat.not_le.mpr before)

/-- **A retried call ends by its timetable.** -/
theorem Over.timetable {result : Except Failure α}
    (ended : Over s interval deadline cancelAt now result calls) :
    Timetable s interval deadline cancelAt now result calls := by
  cases ended with
  | answered course step =>
    have going : Uninterrupted deadline cancelAt now := uninterrupted_of_tick step (by simp)
    obtain ⟨m, first, rfl, rfl, what⟩ := course.kept.decided going step (by simp)
    obtain ⟨a, same, answer⟩ | ⟨f, same, -⟩ := what
    · cases same
      rw [← answer]
      exact .decided first going
    · cases same
  | failed course step =>
    by_cases going : Uninterrupted deadline cancelAt now
    · obtain ⟨m, first, rfl, rfl, what⟩ := course.kept.decided going step (by simp)
      obtain ⟨a, same, -⟩ | ⟨f, same, answer⟩ := what
      · cases same
      · cases same
        rw [← answer]
        exact .decided first going
    · rcases stopped_of_interrupted going with ⟨c, rfl, late⟩ | ⟨d, rfl, late, kept⟩
      · rw [tick_stopped (stop_cancelled late)] at step
        cases step
        have listed : c ∈ deadline.toList ++ (some c).toList := by simp
        obtain ⟨rfl, undecided, n, rfl, made⟩ := course.kept.stopped listed late
        refine .cancelled rfl (fun d bound => ?_) undecided made
        exact course.kept.within d (mem_limits.mpr (.inl bound))
      · rw [tick_stopped (stop_timedOut late kept)] at step
        cases step
        have listed : d ∈ (some d).toList ++ cancelAt.toList := by simp
        obtain ⟨rfl, undecided, n, rfl, made⟩ := course.kept.stopped listed late
        exact .timedOut rfl kept undecided made

/-! ### The way there -/

/-- No limit has come at an earlier moment either. -/
theorem Uninterrupted.of_le (going : Uninterrupted deadline cancelAt now) (before : t ≤ now) :
    Uninterrupted deadline cancelAt t :=
  fun limit listed => Nat.lt_of_le_of_lt before (going limit listed)

/-- A retried call without a step has none until the next of its alarms. -/
theorem Course.until {later : Nat} (course : Course s interval deadline cancelAt now r calls)
    (le : now ≤ later)
    (idle : now < later → tick s interval deadline cancelAt now r calls = none)
    (alarms : ∀ alarm ∈ r.alarms, later ≤ alarm)
    (within : ∀ limit ∈ deadline.toList ++ cancelAt.toList, later ≤ limit) :
    Course s interval deadline cancelAt later r calls := by
  rcases Nat.eq_or_lt_of_le le with rfl | passes
  · exact course
  · refine course.wait (idle passes) later passes fun alarm listed _ => ?_
    rcases List.mem_append.mp listed with own | limit
    · exact alarms alarm own
    · exact within alarm limit

/-- A call is made, and its reply awaited up to any moment before it. -/
theorem Course.asked (course : Course s interval deadline cancelAt (s.start interval k) .ready
      (s.starts interval k)) (going : Uninterrupted deadline cancelAt (s.start interval k))
    (since : s.start interval k ≤ t) (till : t ≤ s.finish interval k)
    (within : ∀ limit ∈ deadline.toList ++ cancelAt.toList, t ≤ limit) :
    Course s interval deadline cancelAt t (.asking ⟨s.answer k, some (s.finish interval k)⟩)
      (s.starts interval (k + 1)) := by
  have asks :
      tick s interval deadline cancelAt (s.start interval k) .ready (s.starts interval k) = _ :=
    tick_ready going
  simp only [Replies.ask, Replies.length_starts, ← Replies.starts_succ] at asks
  refine (course.step asks).until since (fun passes => ?_) ?_ within
  · exact tick_unanswered going (Nat.lt_of_lt_of_le passes till)
  · intro alarm listed
    obtain rfl : alarm = s.finish interval k := List.mem_singleton.mp listed
    exact till

/-- A retryable failure is followed by a wait, up to any moment before its end. -/
theorem Course.paused (course : Course s interval deadline cancelAt (s.finish interval k)
      (.asking ⟨s.answer k, some (s.finish interval k)⟩) (s.starts interval (k + 1)))
    (passes : s.passes k = true) (going : Uninterrupted deadline cancelAt (s.finish interval k))
    (since : s.finish interval k ≤ t) (till : t ≤ s.start interval (k + 1))
    (within : ∀ limit ∈ deadline.toList ++ cancelAt.toList, t ≤ limit) :
    Course s interval deadline cancelAt t (.pausing (s.start interval (k + 1)))
      (s.starts interval (k + 1)) := by
  have rests : tick s interval deadline cancelAt (s.finish interval k)
      (.asking ⟨s.answer k, some (s.finish interval k)⟩) (s.starts interval (k + 1)) = _ :=
    tick_answered going (Nat.le_refl _)
  rw [settle_of_passes passes, ← s.start_succ] at rests
  refine (course.step rests).until since (fun passes => ?_) ?_ within
  · rw [tick_pausing going, if_neg (Nat.not_le.mpr (Nat.lt_of_lt_of_le passes till))]
  · simpa [alarms] using till

/-- As long as all replies are retryable failures and no limit comes, the next call is made. -/
theorem Course.at_start (passed : ∀ j < k, s.passes j = true)
    (going : Uninterrupted deadline cancelAt (s.start interval k)) :
    Course s interval deadline cancelAt (s.start interval k) .ready (s.starts interval k) := by
  induction k with
  | zero => exact .start
  | succ k ih =>
    have answered : s.finish interval k ≤ s.start interval (k + 1) := s.finish_le_start interval k
    have going' := going.of_le answered
    have asked : s.start interval k ≤ s.finish interval k := s.start_le_finish interval k
    have before := ih (fun j earlier => passed j (Nat.lt_succ_of_lt earlier)) (going'.of_le asked)
    have asking := before.asked (going'.of_le asked) asked (Nat.le_refl _)
      fun limit listed => Nat.le_of_lt (going' limit listed)
    have pausing := asking.paused (passed k (Nat.lt_succ_self k)) going' answered (Nat.le_refl _)
      fun limit listed => Nat.le_of_lt (going limit listed)
    refine pausing.step ?_
    rw [tick_pausing going, if_pos (Nat.le_refl _)]

/-- A retried call gets to the first reply that decides, if no limit comes before. -/
theorem Over.of_first (first : s.First m)
    (going : Uninterrupted deadline cancelAt (s.finish interval m)) :
    Over s interval deadline cancelAt (s.finish interval m) (s.answer m)
      (s.starts interval (m + 1)) := by
  have asked : s.start interval m ≤ s.finish interval m := s.start_le_finish interval m
  have before := Course.at_start first.before (going.of_le asked)
  have asking := before.asked (going.of_le asked) asked (Nat.le_refl _)
    fun limit listed => Nat.le_of_lt (going limit listed)
  have step : tick s interval deadline cancelAt (s.finish interval m)
      (.asking ⟨s.answer m, some (s.finish interval m)⟩) (s.starts interval (m + 1)) = _ :=
    tick_answered going (Nat.le_refl _)
  rcases settle_of_decides first.decides with ⟨a, answer, ends⟩ | ⟨f, answer, ends⟩
  · rw [ends] at step
    exact answer ▸ .answered asking step
  · rw [ends] at step
    exact answer ▸ .failed asking step

/-- A retried call that no reply has decided gets to the first of its limits. -/
theorem Over.of_stop {limit : Nat} {f : Failure}
    (undecided : ∀ m, s.First m → limit ≤ s.finish interval m)
    (made : ∀ k, k < n ↔ s.start interval k < limit)
    (within : ∀ other ∈ deadline.toList ++ cancelAt.toList, limit ≤ other)
    (stopped : stop deadline cancelAt limit = some f) :
    Over s interval deadline cancelAt limit (.error f) (s.starts interval n) := by
  have going {t : Nat} (before : t < limit) : Uninterrupted deadline cancelAt t :=
    fun other listed => Nat.lt_of_lt_of_le before (within other listed)
  suffices course : ∃ r, Course s interval deadline cancelAt limit r (s.starts interval n) by
    obtain ⟨r, course⟩ := course
    exact .failed course (tick_stopped stopped)
  cases n with
  | zero =>
    -- Not even the first call is made.
    have none : ¬ s.start interval 0 < limit := fun before => absurd ((made 0).mpr before) (by simp)
    obtain rfl : limit = 0 := Nat.le_zero.mp (Nat.le_of_not_lt none)
    exact ⟨.ready, .start⟩
  | succ k =>
    have last : s.start interval k < limit := (made k).mp (Nat.lt_succ_self k)
    have next : limit ≤ s.start interval (k + 1) :=
      Nat.le_of_not_lt fun before => absurd ((made (k + 1)).mpr before) (Nat.lt_irrefl _)
    have passed : ∀ j < k, s.passes j = true := by
      intro j earlier
      refine Replies.passes_of_undecided undecided ?_
      calc s.finish interval j ≤ s.start interval (j + 1) := s.finish_le_start interval j
        _ ≤ s.start interval k := s.start_mono interval earlier
        _ < limit := last
    have before := Course.at_start passed (going last)
    by_cases answered : s.finish interval k < limit
    · have asking := before.asked (going last) (s.start_le_finish interval k) (Nat.le_refl _)
        fun other listed => Nat.le_of_lt (going answered other listed)
      have passes := Replies.passes_of_undecided undecided answered
      exact ⟨_, asking.paused passes (going answered) (Nat.le_of_lt answered) next within⟩
    · exact ⟨_, before.asked (going last) (Nat.le_of_lt last) (Nat.le_of_not_lt answered) within⟩

/-- **A retried call comes to the end of its timetable.** -/
theorem Timetable.over {result : Except Failure α}
    (table : Timetable s interval deadline cancelAt now result calls) :
    Over s interval deadline cancelAt now result calls := by
  cases table with
  | decided first intime => exact .of_first first intime
  | cancelled isCancelled sooner undecided made =>
    subst isCancelled
    refine .of_stop undecided made (fun limit listed => ?_)
      (stop_cancelled (Nat.le_refl _))
    rcases mem_limits.mp listed with bound | isCancelled
    · exact sooner limit bound
    · exact Nat.le_of_eq (Option.some.inj isCancelled)
  | timedOut bound sooner undecided made =>
    subst bound
    refine .of_stop undecided made (fun limit listed => ?_)
      (stop_timedOut (Nat.le_refl _) sooner)
    rcases mem_limits.mp listed with bound | isCancelled
    · exact Nat.le_of_eq (Option.some.inj bound)
    · exact Nat.le_of_lt (sooner limit isCancelled)

/-! ### Together -/

/-- **A retried call ends by its timetable and in no other way.** -/
theorem over_iff {result : Except Failure α} :
    Over s interval deadline cancelAt now result calls ↔
      Timetable s interval deadline cancelAt now result calls :=
  ⟨Over.timetable, Timetable.over⟩

/-- There is one first reply that decides. -/
theorem Replies.First.unique (first : s.First m) (other : s.First k) : m = k := by
  have le {m k : Nat} (first : s.First m) (other : s.First k) : m ≤ k := by
    refine Nat.le_of_not_lt fun before => ?_
    have passes := first.before k before
    rw [other.decides] at passes
    cases passes
  exact Nat.le_antisymm (le first other) (le other first)

/-- The calls before a moment are so many and no more. -/
theorem calls_unique {n' : Nat} (calls : ∀ k, k < n ↔ s.start interval k < t)
    (calls' : ∀ k, k < n' ↔ s.start interval k < t) : n = n' := by
  have same (k : Nat) : k < n ↔ k < n' := (calls k).trans (calls' k).symm
  have up := same n
  have down := same n'
  omega

/-- **A retried call has one timetable.** -/
theorem Timetable.unique {now' : Nat} {result result' : Except Failure α} {calls' : List Nat}
    (table : Timetable s interval deadline cancelAt now result calls)
    (other : Timetable s interval deadline cancelAt now' result' calls') :
    now = now' ∧ result = result' ∧ calls = calls' := by
  -- An answer in time comes before every limit, and a limit that stops comes before every answer.
  have ahead {m limit : Nat} (first : s.First m)
      (intime : ∀ limit ∈ deadline.toList ++ cancelAt.toList, s.finish interval m < limit)
      (listed : deadline = some limit ∨ cancelAt = some limit)
      (undecided : ∀ m, s.First m → limit ≤ s.finish interval m) : False :=
    absurd (undecided m first) (Nat.not_le.mpr (intime limit (mem_limits.mpr listed)))
  cases table with
  | decided first intime =>
    cases other with
    | decided first' _ =>
      obtain rfl := first.unique first'
      exact ⟨rfl, rfl, rfl⟩
    | cancelled isCancelled _ undecided _ =>
      exact (ahead first intime (.inr isCancelled) undecided).elim
    | timedOut bound _ undecided _ => exact (ahead first intime (.inl bound) undecided).elim
  | cancelled isCancelled sooner undecided calls =>
    cases other with
    | decided first intime => exact (ahead first intime (.inr isCancelled) undecided).elim
    | cancelled isCancelled' _ _ calls' =>
      obtain rfl := Option.some.inj (isCancelled.symm.trans isCancelled')
      obtain rfl := calls_unique calls calls'
      exact ⟨rfl, rfl, rfl⟩
    | timedOut bound sooner' _ _ =>
      exact absurd (sooner _ bound) (Nat.not_le.mpr (sooner' _ isCancelled))
  | timedOut bound sooner undecided calls =>
    cases other with
    | decided first intime => exact (ahead first intime (.inl bound) undecided).elim
    | cancelled isCancelled sooner' _ _ =>
      exact absurd (sooner' _ bound) (Nat.not_le.mpr (sooner _ isCancelled))
    | timedOut bound' _ _ calls' =>
      obtain rfl := Option.some.inj (bound.symm.trans bound')
      obtain rfl := calls_unique calls calls'
      exact ⟨rfl, rfl, rfl⟩

/-- A retried call under way has not come past its end. -/
theorem Progress.le_of_timetable {result : Except Failure α} {calls' : List Nat}
    (kept : Progress s interval deadline cancelAt t r calls)
    (table : Timetable s interval deadline cancelAt now result calls') : t ≤ now := by
  cases table with
  | decided first _ => exact kept.stage.undecided first
  | cancelled isCancelled _ _ _ => exact kept.within _ (mem_limits.mpr (.inr isCancelled))
  | timedOut bound _ _ _ => exact kept.within _ (mem_limits.mpr (.inl bound))

/-- A retryable failure is never the result. -/
theorem Timetable.not_retryable {result : Except Failure α} {f : Failure}
    (table : Timetable s interval deadline cancelAt now result calls) (error : result = .error f) :
    f.isRetryable = false := by
  cases table with
  | decided first _ =>
    have decides := first.decides
    simpa only [Replies.passes, error] using decides
  | cancelled _ _ _ _ | timedOut _ _ _ _ =>
    cases error
    rfl

/-- A retried call that no reply has decided ends at the first of its limits. -/
theorem exists_timetable_of_limit {limit : Nat} (positive : 0 < interval)
    (listed : limit ∈ deadline.toList ++ cancelAt.toList)
    (within : ∀ other ∈ deadline.toList ++ cancelAt.toList, limit ≤ other)
    (undecided : ∀ m, s.First m → limit ≤ s.finish interval m) :
    ∃ result calls, Timetable s interval deadline cancelAt limit result calls := by
  obtain ⟨n, made⟩ := Replies.exists_calls positive s limit
  by_cases isCancelled : cancelAt = some limit
  · have sooner : ∀ d ∈ deadline, limit ≤ d := fun d bound => within d (mem_limits.mpr (.inl bound))
    exact ⟨_, _, .cancelled isCancelled sooner undecided made⟩
  · have bound : deadline = some limit := (mem_limits.mp listed).resolve_right isCancelled
    have sooner : ∀ c ∈ cancelAt, limit < c := by
      intro c other
      refine Nat.lt_of_le_of_ne (within c (mem_limits.mpr (.inr other))) ?_
      rintro rfl
      exact isCancelled other
    exact ⟨_, _, .timedOut bound sooner undecided made⟩

/-- Where a reply decides or there is a limit, there is an end. -/
theorem exists_timetable (positive : 0 < interval)
    (h : (∃ m, s.First m) ∨ deadline.toList ++ cancelAt.toList ≠ []) :
    ∃ now result calls, Timetable s interval deadline cancelAt now result calls := by
  cases least : (deadline.toList ++ cancelAt.toList).min? with
  | none =>
    have none : deadline.toList ++ cancelAt.toList = [] := List.min?_eq_none_iff.mp least
    obtain ⟨m, first⟩ := h.resolve_right (fun some => some none)
    exact ⟨_, _, _, .decided first (by simp [none])⟩
  | some limit =>
    obtain ⟨listed, within⟩ := List.min?_eq_some_iff.mp least
    by_cases early : ∃ m, s.First m ∧ s.finish interval m < limit
    · obtain ⟨m, first, before⟩ := early
      exact ⟨_, _, _, .decided first fun other listed =>
        Nat.lt_of_lt_of_le before (within other listed)⟩
    · have undecided : ∀ m, s.First m → limit ≤ s.finish interval m := fun m first =>
        Nat.le_of_not_lt fun before => early ⟨m, first, before⟩
      exact ⟨limit, exists_timetable_of_limit positive listed within undecided⟩

/-- **A retried call follows its timetable.**  It ends by it and in no other way, so in one way
    only, and never with a retryable failure; and it has an end exactly where a reply decides it or
    there is a cancellation or a deadline. -/
theorem follows_timetable (s : Replies α) {interval : Nat} (positive : 0 < interval)
    (deadline cancelAt : Option Nat) :
    (∀ now result calls, Over s interval deadline cancelAt now result calls ↔
      Timetable s interval deadline cancelAt now result calls) ∧
    (∀ now result calls now' result' calls', Over s interval deadline cancelAt now result calls →
      Over s interval deadline cancelAt now' result' calls' →
      now = now' ∧ result = result' ∧ calls = calls') ∧
    (∀ now f calls, Over s interval deadline cancelAt now (.error f) calls →
      f.isRetryable = false) ∧
    ((∃ now result calls, Over s interval deadline cancelAt now result calls) ↔
      (∃ m, s.First m) ∨ deadline.isSome ∨ cancelAt.isSome) := by
  refine ⟨fun _ _ _ => over_iff,
    fun _ _ _ _ _ _ ended ended' => ended.timetable.unique ended'.timetable,
    fun _ _ _ ended => ended.timetable.not_retryable rfl, ?_, ?_⟩
  · rintro ⟨now, result, calls, ended⟩
    cases ended.timetable with
    | decided first _ => exact .inl ⟨_, first⟩
    | cancelled isCancelled _ _ _ => exact .inr (.inr (by simp [isCancelled]))
    | timedOut bound _ _ _ => exact .inr (.inl (by simp [bound]))
  · intro ends
    have some : (∃ m, s.First m) ∨ deadline.toList ++ cancelAt.toList ≠ [] := by
      rcases ends with first | bound | isCancelled
      · exact .inl first
      · obtain ⟨d, rfl⟩ := Option.isSome_iff_exists.mp bound
        exact .inr (by simp)
      · obtain ⟨c, rfl⟩ := Option.isSome_iff_exists.mp isCancelled
        exact .inr (by simp)
    obtain ⟨now, result, calls, table⟩ := exists_timetable positive some
    exact ⟨now, result, calls, table.over⟩

/-- A `transientRpc` failure, and a reply to the call after it. -/
def second : Replies Nat where
  answer k := if k = 0 then .error (.transientRpc "eof") else .ok 42
  latency k := 3 + k

/-- The second call is made ten milliseconds after the first reply, and its own reply comes before
    the deadline. -/
theorem follows_timetable_second : 0 < 10 ∧ Over second 10 (some 100) none 17 (.ok 42) [0, 13] := by
  have first : second.First 1 := by
    refine ⟨rfl, fun k before => ?_⟩
    obtain rfl : k = 0 := Nat.lt_one_iff.mp before
    rfl
  have intime : ∀ limit ∈ (some 100).toList ++ (none : Option Nat).toList,
      second.finish 10 1 < limit := by decide
  exact ⟨by decide,
    ((follows_timetable second (by decide) _ _).1 _ _ _).mpr (.decided first intime)⟩

end Retry

end Relayer
