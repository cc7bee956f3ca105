import Relayer.Proofs.Send.Course
import Relayer.Rehearsal.Session

namespace Relayer

/-!
# Timeline — a rehearsed send takes a `Send.Course`

`Clockwork.run` takes all steps of a moment and then moves on to the least of the alarms ahead.  So
a send in a session takes a `Send.Course`, whatever other tasks run in it.

* `Clockwork.Reaches` — the states of a system by the clock, and `Clockwork.reaches_of_run`;
* `Session.Fronts` — the task in `front` is a send on its course, or the end of one;
* `Session.obey_send` — the result of a rehearsed send and its moment are those of a course.
-/

/-! ### The clock -/

namespace Clockwork

variable {α : Type} {s : System α} {finished : α → Bool} {now t : Nat} {a b : α}

/-- The states that a system passes through by the clock: `s.step` is taken wherever it is not
    `none`, and otherwise the clock moves to `nextAlarm`, unless the system is `finished`. -/
inductive Reaches (s : System α) (finished : α → Bool) (now : Nat) (a : α) : Nat → α → Prop
  | start : Reaches s finished now a now a
  | step {t b c} (before : Reaches s finished now a t b) (step : s.step t b = some c) :
      Reaches s finished now a t c
  | wait {t b later} (before : Reaches s finished now a t b) (idle : s.step t b = none)
      (going : finished b = false) (next : nextAlarm t (s.alarms b) = some later) :
      Reaches s finished now a later b

/-- `settle` is given enough fuel: no step is left at the moment that it settled. -/
def Patient (s : System α) (finished : α → Bool) (now : Nat) (a : α) : Prop :=
  ∀ t b, Reaches s finished now a t b → s.step t (settle s t b) = none

/-- `nextAlarm` is the least of the alarms ahead. -/
theorem nextAlarm_le {alarms : List Nat} {later : Nat} (h : nextAlarm now alarms = some later) :
    ∀ alarm ∈ alarms, now < alarm → later ≤ alarm := by
  intro alarm listed ahead
  exact (List.min?_eq_some_iff.mp h).2 alarm (List.mem_filter.mpr ⟨listed, by simpa using ahead⟩)

/-- `settleFor` passes through reached states. -/
theorem Reaches.settleFor (h : Reaches s finished now a t b) (fuel : Nat) :
    Reaches s finished now a t (settleFor s t fuel b) := by
  induction fuel generalizing b with
  | zero => exact h
  | succ fuel ih =>
    simp only [Clockwork.settleFor]
    split
    next c step => exact ih (h.step step)
    next => exact h

/-- Without a `nextAlarm`, no alarm lies ahead. -/
theorem not_lt_of_nextAlarm {alarms : List Nat} (h : nextAlarm now alarms = none) :
    ∀ alarm ∈ alarms, ¬ now < alarm := by
  intro alarm listed ahead
  have none : alarms.filter (now < ·) = [] := List.min?_eq_none_iff.mp h
  have some : alarm ∈ alarms.filter (now < ·) := List.mem_filter.mpr ⟨listed, by simpa using ahead⟩
  rw [none] at some
  cases some

/-- **`Clockwork.run` ends in a reached state without a step**: a finished one, or one without an
    alarm before the limit. -/
theorem run_reaches {limit : Nat} (patient : Patient s finished now a)
    (h : Reaches s finished now a t b) {ended : Option Nat} {c : α}
    (run : Clockwork.run s finished limit t b = (ended, c)) :
    ∃ last, Reaches s finished now a last c ∧ s.step last c = none ∧
      (ended = some last ∧ finished c = true ∨
        ended = none ∧ finished c = false ∧
          ∀ alarm ∈ s.alarms c, last < alarm → limit ≤ alarm) := by
  induction left : limit - t using Nat.strongRecOn generalizing t b with
  | ind n ih =>
    have settled : Reaches s finished now a t (settle s t b) := h.settleFor patience
    have idle : s.step t (settle s t b) = none := patient t b h
    rw [Clockwork.run] at run
    split at run
    next finish =>
      cases run
      exact ⟨t, settled, idle, .inl ⟨rfl, finish⟩⟩
    next going =>
      rw [Bool.not_eq_true] at going
      split at run
      next none =>
        cases run
        refine ⟨t, settled, idle, .inr ⟨rfl, going, fun alarm listed ahead => ?_⟩⟩
        exact absurd ahead (not_lt_of_nextAlarm none alarm listed)
      next later next =>
        split at run
        next before =>
          have ahead := lt_of_nextAlarm next
          exact ih _ (by omega) (settled.wait idle going next) run rfl
        next behind =>
          cases run
          refine ⟨t, settled, idle, .inr ⟨rfl, going, fun alarm listed ahead => ?_⟩⟩
          exact Nat.le_trans (Nat.le_of_not_lt behind) (nextAlarm_le next alarm listed ahead)

/-- The moment that a run returns is the one at which its state was reached. -/
theorem reaches_of_run {limit : Nat} (patient : Patient s finished now a)
    (h : Reaches s finished now a t b) {ended : Option Nat} {c : α}
    (run : Clockwork.run s finished limit t b = (ended, c)) :
    ∃ last, Reaches s finished now a last c ∧ ∀ moment ∈ ended, moment = last := by
  obtain ⟨last, here, -, ⟨rfl, -⟩ | ⟨rfl, -⟩⟩ := run_reaches patient h run
  · exact ⟨last, here, fun moment same => (Option.some.inj same).symm⟩
  · exact ⟨last, here, fun moment same => nomatch same⟩

end Clockwork

/-- A send on its course ends at `now` with `result`. -/
def Send.Course.Over {σ : Type} (desk : Desk σ) (call : Call) (begun : Nat)
    (cancelAt : Option Nat) (now : Nat) (result : Except Stop Receipt) : Prop :=
  ∃ trail s l outside l' outside', Course desk call begun cancelAt trail now s ∧
    s.step desk (Escalation.isPast cancelAt now) now l outside =
      some (.ended result, l', outside')

/-- A step that does not end the send prolongs its course. -/
theorem Send.Course.of_step {σ : Type} {desk : Desk σ} {call : Call} {begun now : Nat}
    {cancelAt : Option Nat} {trail : List Send.Event} {s s' : Send} {l l' : Leases}
    {outside outside' : σ} (course : Course desk call begun cancelAt trail now s)
    (h : s.step desk (Escalation.isPast cancelAt now) now l outside =
      some (.running s', l', outside')) :
    ∃ trail', Course desk call begun cancelAt trail' now s' := by
  obtain ⟨calls, step⟩ := exists_calls h
  exact ⟨_, .step course step⟩

/-! ### Sessions -/

namespace Session

variable {x y : Session} {now : Nat} {t t' : Task}

/-- `stepTask` leaves the desk, the front task and the cancellation of its own task alone. -/
theorem stepTask_fixed (h : stepTask now t x = some (t', y)) :
    y.desk = x.desk ∧ y.front = x.front ∧ t'.cancelled = t.cancelled ∧
      t'.cancelAt = t.cancelAt := by
  unfold stepTask at h
  split at h
  next => cases h
  next =>
    split at h
    next => cases h
    all_goals
      cases h
      exact ⟨rfl, rfl, rfl, rfl⟩
  next =>
    split at h
    next => cases h
    next =>
      cases h
      exact ⟨rfl, rfl, rfl, rfl⟩
  next =>
    cases h
    exact ⟨rfl, rfl, rfl, rfl⟩
  next =>
    split at h
    next => cases h
    next =>
      cases h
      exact ⟨rfl, rfl, rfl, rfl⟩
  next =>
    split at h
    next => cases h
    all_goals
      cases h
      exact ⟨rfl, rfl, rfl, rfl⟩

/-- `stepTasks` leaves the desk and the front task alone. -/
theorem stepTasks_fixed {done rest : List Task} (h : stepTasks now x done rest = some y) :
    y.desk = x.desk ∧ y.front = x.front := by
  induction rest generalizing done with
  | nil => cases h
  | cons t rest ih =>
    simp only [stepTasks] at h
    split at h
    next t' z step =>
      cases h
      obtain ⟨desk, front, -, -⟩ := stepTask_fixed step
      exact ⟨desk, front⟩
    next => exact ih h

/-- A step of a session is one of the front task, or leaves that alone. -/
theorem front_of_step (h : step now x = some y) :
    y.desk = x.desk ∧ (y.front = x.front ∨
      ∃ t t' z, x.front = some t ∧ stepTask now t x = some (t', z) ∧ y.front = some t') := by
  unfold step at h
  split at h
  next =>
    cases h
    exact ⟨rfl, .inl rfl⟩
  next =>
    rcases Option.or_eq_some_iff.mp h with others | ⟨-, own⟩
    · obtain ⟨desk, front⟩ := stepTasks_fixed others
      exact ⟨desk, .inl front⟩
    · unfold stepFront at own
      split at own
      next => cases own
      next t front =>
        split at own
        next t' z step =>
          cases own
          exact ⟨(stepTask_fixed step).1, .inr ⟨t, t', z, front, step, rfl⟩⟩
        next => cases own

/-- The token of a task that no `cancel` order names is cancelled from its own `cancelAt` on. -/
theorem isCancelled_eq (going : t.cancelled = false) :
    t.isCancelled now = Escalation.isPast t.cancelAt now := by
  rw [Task.isCancelled, going, Bool.false_or]
  rfl

/-- In a session without a step, the front task has none. -/
theorem stepTask_of_idle (h : step now x = none) (front : x.front = some t) :
    stepTask now t x = none := by
  unfold step at h
  split at h
  next => cases h
  next =>
    have own := (Option.or_eq_none_iff.mp h).2
    simp only [stepFront, front] at own
    split at own
    next => cases own
    next none => exact none

/-- The front task has its result, or there is none. -/
def isIdle (x : Session) : Bool :=
  match x.front with
  | some t => t.result?.isSome
  | none => true

variable {desk : Desk Record} {call : Call} {begun : Nat} {cancelAt : Option Nat}

/-- The front task is a send on its course at `now`, or has ended as one. -/
structure Fronts (desk : Desk Record) (call : Call) (begun : Nat) (cancelAt : Option Nat)
    (now : Nat) (x : Session) : Prop where
  same : x.desk = desk
  course : ∃ t, x.front = some t ∧ t.cancelled = false ∧ t.cancelAt = cancelAt ∧
    ((∃ s trail, t.work = .sending s ∧ Send.Course desk call begun cancelAt trail now s) ∨
      ∃ r, t.work = .over (.receipt r) ∧ Send.Course.Over desk call begun cancelAt now r)

/-- **A step of the session keeps `Fronts`.** -/
theorem Fronts.step (h : Fronts desk call begun cancelAt now x)
    (step : Session.step now x = some y) :
    Fronts desk call begun cancelAt now y := by
  obtain ⟨rfl, t, front, going, caller, course⟩ := h
  obtain ⟨same, others | ⟨t₀, t', z, front', own, front''⟩⟩ := front_of_step step
  · exact ⟨same, t, others.trans front, going, caller, course⟩
  obtain rfl := Option.some.inj (front.symm.trans front')
  obtain ⟨-, -, cancelled, cancelAt'⟩ := stepTask_fixed own
  refine ⟨same, t', front'', cancelled.trans going, cancelAt'.trans caller, ?_⟩
  rcases course with ⟨s, trail, work, course⟩ | ⟨r, work, -⟩
  · simp only [stepTask, work, isCancelled_eq going, caller] at own
    split at own
    next => cases own
    next s' l' record' goes =>
      cases own
      obtain ⟨trail', course'⟩ := course.of_step goes
      exact .inl ⟨s', trail', rfl, course'⟩
    next r l' record' ends =>
      cases own
      exact .inr ⟨r, rfl, trail, s, _, _, _, _, course, ends⟩
  · simp only [stepTask, work] at own
    cases own

/-- **The clock keeps `Fronts`**, since the alarms of the send are among those of the session. -/
theorem Fronts.wait {later : Nat} (h : Fronts desk call begun cancelAt now x)
    (idle : Session.step now x = none) (going : x.isIdle = false)
    (next : Clockwork.nextAlarm now (clock.alarms x) = some later) :
    Fronts desk call begun cancelAt later x := by
  obtain ⟨rfl, t, front, running, caller, ⟨s, trail, work, course⟩ | ⟨r, work, -⟩⟩ := h
  · refine ⟨rfl, t, front, running, caller, .inl ⟨s, trail, work, ?_⟩⟩
    have still := stepTask_of_idle idle front
    simp only [stepTask, work, isCancelled_eq running, caller] at still
    split at still
    next waits =>
      -- The alarms of the send are among those of the session, so none of its own is missed.
      refine course.wait waits later (Clockwork.lt_of_nextAlarm next) ?_
      intro alarm listed ahead
      refine Clockwork.nextAlarm_le next alarm ?_ ahead
      simp only [clock, front, Option.toList_some, List.flatMap_singleton, taskAlarms, caller,
        work, List.mem_append] at listed ⊢
      tauto
    next => cases still
    next => cases still
  · simp [isIdle, front, Task.result?, work] at going

/-- All reached states keep `Fronts`. -/
theorem Fronts.reaches {later : Nat} (h : Fronts desk call begun cancelAt now x)
    (reaches : Clockwork.Reaches clock isIdle now x later y) :
    Fronts desk call begun cancelAt later y := by
  induction reaches with
  | start => exact h
  | step _ step ih => exact ih.step step
  | wait _ idle going next ih => exact ih.wait idle going next

/-- A result that `await` reports was reached by the clock, at the reported moment. -/
theorem reaches_of_await {last : Nat} {late : Reply} {report : Report} {r : Task.Result}
    (patient : Clockwork.Patient clock isIdle now { x with front := some t })
    (h : await last now t x late = (report, y)) (replied : report.reply = .result r)
    (other : late ≠ .result r) :
    ∃ z t', Clockwork.Reaches clock isIdle now { x with front := some t } report.time z ∧
      z.front = some t' ∧ t'.result? = some r := by
  have run : Clockwork.run clock isIdle last now { x with front := some t } = (_, _) := rfl
  obtain ⟨moment, here, same⟩ := Clockwork.reaches_of_run patient .start run
  simp only [await] at h
  split at h
  next time r' finished found =>
    cases h
    cases replied
    obtain ⟨t', front, result⟩ := Option.bind_eq_some_iff.mp found
    obtain rfl := same _ finished
    exact ⟨_, t', here, front, result⟩
  next =>
    cases h
    exact absurd replied other

/-- The task that a `send` order starts, with `cancelAt` as its caller sets it. -/
def sending (x : Session) (call : Call) (now : Nat) (cancelAfter : Option Nat) : Task :=
  { Task.ofWork "" (.sending (.start x.desk.policy call now)) with
    cancelAt := cancelAfter.map (now + ·) }

/-- **The result of a rehearsed send, and its moment, are those of a `Send.Course`**, whatever else
    runs in the session. -/
theorem obey_send {limit : Nat} {cancelAfter : Option Nat} {report : Report}
    {r : Except Stop Receipt}
    (patient : Clockwork.Patient clock isIdle now
      { x with front := some (x.sending call now cancelAfter) })
    (h : x.obey limit now (.send call cancelAfter) = (report, y))
    (replied : report.reply = .result (.receipt r)) :
    Send.Course.Over x.desk call now (cancelAfter.map (now + ·)) report.time r := by
  have fronts : Fronts x.desk call now (cancelAfter.map (now + ·)) now
      { x with front := some (x.sending call now cancelAfter) } :=
    ⟨rfl, _, rfl, rfl, rfl, .inl ⟨_, _, rfl, .start⟩⟩
  obtain ⟨z, t, reached, front, result⟩ := reaches_of_await patient h replied (by simp)
  obtain ⟨-, t', front', -, -, ⟨s, -, work, -⟩ | ⟨r', work, ends⟩⟩ := fronts.reaches reached
  all_goals
    obtain rfl := Option.some.inj (front.symm.trans front')
    simp only [Task.result?, work] at result
  · cases result
  · cases result
    exact ends

end Session

end Relayer
