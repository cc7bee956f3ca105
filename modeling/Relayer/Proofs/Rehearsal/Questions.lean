import Relayer.Proofs.Rehearsal.Timeline
import Relayer.Proofs.Send.Asking
import Relayer.Rehearsal.Solo

namespace Relayer

/-!
# Questions — a rehearsed retried call keeps to its timetable

`Solo` runs one retried call alone, by the clock of a rehearsal.

* `Clockwork.patient_of_weight` — a system whose steps lower some weight settles in every moment;
* `Solo.Keeps` — a rehearsed retried call is on its course, or has ended;
* `Solo.retry_timetable` and `Solo.retry_of_timetable` — its result is that of its timetable.
-/

/-! ### Patience -/

namespace Clockwork

variable {α : Type} {s : System α} {finished : α → Bool} {now : Nat} {a : α}

/-- Where every step lowers a weight, `settleFor` with that much fuel leaves no step. -/
theorem step_settleFor {weight : α → Nat}
    (less : ∀ a b, s.step now a = some b → weight b < weight a) :
    ∀ fuel a, weight a ≤ fuel → s.step now (settleFor s now fuel a) = none := by
  intro fuel
  induction fuel with
  | zero =>
    intro a few
    show s.step now a = none
    cases h : s.step now a with
    | none => rfl
    | some b =>
      have used := less a b h
      omega
  | succ fuel ih =>
    intro a few
    simp only [settleFor]
    cases h : s.step now a with
    | none => exact h
    | some b =>
      have used := less a b h
      exact ih b (by omega)

/-- So a system whose weight never exceeds `patience` is `Patient`. -/
theorem patient_of_weight (weight : Nat → α → Nat)
    (less : ∀ t a b, s.step t a = some b → weight t b < weight t a)
    (few : ∀ t a, weight t a ≤ patience) : Patient s finished now a :=
  fun t b _ => step_settleFor (less t) patience b (few t b)

end Clockwork

/-! ### The calls of a question -/

namespace Solo

variable {answers : List (Entry Nat)} {interval limit now later : Nat}
  {deadline cancelAt : Option Nat} {a b : Asking}

/-- The replies of a script, in the order of the calls. -/
def replies (answers : List (Entry Nat)) : Retry.Replies Nat where
  answer k := match Script.nth? answers k with
    | some e => e.answer
    | none => .ok 0
  latency k := match Script.nth? answers k with
    | some e => e.latency
    | none => 0

/-- The record of calls that were made at some moments. -/
def tally (calls : List Nat) : Calls := ⟨calls.length, calls.reverse⟩

@[simp] theorem moments_tally (calls : List Nat) : (tally calls).moments.reverse = calls :=
  List.reverse_reverse calls

/-- The `n`-th call of a script gets its `n`-th reply. -/
theorem answerNth_tally (now : Nat) (calls : List Nat) :
    answerNth answers now (tally calls) =
      (((replies answers).ask now calls).1, tally ((replies answers).ask now calls).2) := by
  have noted : tally (calls ++ [now]) = ⟨calls.length + 1, now :: calls.reverse⟩ := by
    simp [tally]
  show _ = (_, tally (calls ++ [now]))
  rw [noted]
  cases entry : Script.nth? answers calls.length with
  | none => simp only [answerNth, tally, replies, Retry.Replies.ask, entry]; rfl
  | some e => simp only [answerNth, tally, replies, Retry.Replies.ask, entry]

/-- The steps of a retried call do not depend on how its calls are recorded. -/
theorem step_tally (question : Retry Nat) (limits : Limits) (calls : List Nat) :
    question.step (answerNth answers) interval limits now (tally calls) =
      (question.step (replies answers).ask interval limits now calls).map fun out =>
        (out.1, tally out.2) := by
  unfold Retry.step
  cases limits.verdict now with
  | some f => rfl
  | none =>
    cases question with
    | ready => simp only [answerNth_tally, Option.map_some]
    | asking reply =>
      cases ready : reply.ready? now with
      | none => simp only [ready, Option.map_none]
      | some answer => simp only [ready, Option.map_some]
    | pausing resume =>
      by_cases due : resume ≤ now
      · simp only [if_pos due, Option.map_some]
      · simp only [if_neg due, Option.map_none]

/-! ### The way of a question -/

/-- A rehearsed retried call is on its course, or has ended by it. -/
inductive Keeps (answers : List (Entry Nat)) (interval : Nat) (deadline cancelAt : Option Nat)
    (now : Nat) : Asking → Prop
  | going {question calls}
      (course : Retry.Course (replies answers) interval deadline cancelAt now question calls) :
      Keeps answers interval deadline cancelAt now ⟨question, tally calls, none⟩
  | ended {question calls result}
      (ended : Retry.Over (replies answers) interval deadline cancelAt now result calls) :
      Keeps answers interval deadline cancelAt now ⟨question, tally calls, some result⟩

/-- The state behind a step of a retried call. -/
def Asking.after : Retry.Outcome Nat × List Nat → Retry Nat → Asking
  | (.waiting question, calls), _ => ⟨question, tally calls, none⟩
  | (.answered n, calls), question => ⟨question, tally calls, some (.ok n)⟩
  | (.failed f, calls), question => ⟨question, tally calls, some (.error f)⟩

/-- A step of the rehearsal is one of the retried call. -/
theorem step_asking (question : Retry Nat) (calls : List Nat) :
    (asking answers interval deadline cancelAt).step now ⟨question, tally calls, none⟩ =
      (Retry.tick (replies answers) interval deadline cancelAt now question calls).map
        (Asking.after · question) := by
  unfold asking Retry.tick
  simp only [step_tally]
  cases question.step (replies answers).ask interval _ now calls with
  | none => rfl
  | some out =>
    obtain ⟨outcome, calls'⟩ := out
    cases outcome with
    | waiting _ | answered _ | failed _ => rfl

/-- **A step keeps `Keeps`.** -/
theorem Keeps.step (keeps : Keeps answers interval deadline cancelAt now a)
    (step : (asking answers interval deadline cancelAt).step now a = some b) :
    Keeps answers interval deadline cancelAt now b := by
  cases keeps with
  | ended _ => cases step
  | going course =>
    rw [step_asking] at step
    obtain ⟨⟨outcome, calls⟩, tick, rfl⟩ := Option.map_eq_some_iff.mp step
    cases outcome with
    | waiting _ => exact .going (course.step tick)
    | answered _ => exact .ended (.answered course tick)
    | failed _ => exact .ended (.failed course tick)

/-- **The clock keeps `Keeps`.** -/
theorem Keeps.wait (keeps : Keeps answers interval deadline cancelAt now a)
    (idle : (asking answers interval deadline cancelAt).step now a = none)
    (going : a.result.isSome = false)
    (next : Clockwork.nextAlarm now ((asking answers interval deadline cancelAt).alarms a) =
      some later) : Keeps answers interval deadline cancelAt later a := by
  cases keeps with
  | ended _ => cases going
  | going course =>
    rw [step_asking, Option.map_eq_none_iff] at idle
    refine .going (course.wait idle later (Clockwork.lt_of_nextAlarm next) ?_)
    intro alarm listed ahead
    refine Clockwork.nextAlarm_le next alarm ?_ ahead
    show alarm ∈ _ ++ deadline.toList ++ cancelAt.toList
    rwa [List.append_assoc]

/-- All reached states keep `Keeps`. -/
theorem Keeps.reaches
    (reached : Clockwork.Reaches (asking answers interval deadline cancelAt) (·.result.isSome) 0
      ⟨.ready, ⟨0, []⟩, none⟩ now a) : Keeps answers interval deadline cancelAt now a := by
  induction reached with
  | start => exact .going .start
  | step _ step ih => exact ih.step step
  | wait _ idle going next ih => exact ih.wait idle going next

/-! ### Its end -/

/-- A bound on the steps of a retried call at one moment. -/
def weight (now : Nat) : Retry Nat → Nat
  | .pausing resume => if resume ≤ now then 4 else 1
  | .ready => 3
  | .asking _ => 2

/-- Only a reply that is retried is followed by a wait. -/
theorem pausing_of_settle {answer : Except Failure Nat} {question : Retry Nat}
    (settles : Retry.settle interval now answer = .waiting question) :
    question = .pausing (now + interval) := by
  cases answer with
  | ok a => cases settles
  | error f =>
    by_cases passing : f.isRetryable = true
    · rw [Retry.settle, if_pos passing] at settles
      cases settles
      rfl
    · rw [Retry.settle, if_neg passing] at settles
      cases settles

/-- Every step lowers `weight`, as a wait takes time. -/
theorem weight_lt (positive : 0 < interval) {limits : Limits} {calls calls' : Calls}
    {question question' : Retry Nat}
    (step : question.step (answerNth answers) interval limits now calls =
      some (.waiting question', calls')) : weight now question' < weight now question := by
  unfold Retry.step at step
  cases verdict : limits.verdict now with
  | some f => simp [verdict] at step
  | none =>
    simp only [verdict] at step
    cases question with
    | ready =>
      cases step
      show 2 < 3
      omega
    | pausing resume =>
      by_cases due : resume ≤ now
      · simp only [if_pos due] at step
        cases step
        show 3 < if resume ≤ now then 4 else 1
        rw [if_pos due]
        omega
      · simp only [if_neg due] at step
        cases step
    | asking reply =>
      cases ready : reply.ready? now with
      | none => simp [ready] at step
      | some answer =>
        simp only [ready, Option.some.injEq, Prod.mk.injEq] at step
        -- The pause ends later than now, which is why it must not be an empty one.
        obtain rfl := pausing_of_settle step.1
        have later : ¬ now + interval ≤ now := by omega
        show (if now + interval ≤ now then 4 else 1) < 2
        rw [if_neg later]
        omega

theorem weight_pos (question : Retry Nat) : 0 < weight now question := by
  cases question with
  | ready | asking _ => exact Nat.succ_pos _
  | pausing resume =>
    show 0 < if resume ≤ now then 4 else 1
    split <;> omega

theorem weight_le (question : Retry Nat) : weight now question ≤ 4 := by
  cases question with
  | ready => exact Nat.le_succ 3
  | asking _ => exact Nat.le_add_right 2 2
  | pausing resume =>
    show (if resume ≤ now then 4 else 1) ≤ 4
    split <;> omega

/-- So a rehearsed retried call is `Patient`. -/
theorem patient (positive : 0 < interval) :
    Clockwork.Patient (asking answers interval deadline cancelAt) (·.result.isSome) now a := by
  let left (now : Nat) (a : Asking) : Nat := if a.result.isSome then 0 else weight now a.question
  refine Clockwork.patient_of_weight left ?_ ?_
  · rintro t ⟨question, calls, result⟩ b step
    cases result with
    | some _ => cases step
    | none =>
      have some_left : 0 < weight t question := weight_pos question
      simp only [asking] at step
      split at step
      next => cases step
      next goes =>
        cases step
        exact weight_lt positive goes
      next =>
        cases step
        exact some_left
      next =>
        cases step
        exact some_left
  · intro t a
    have four : left t a ≤ 4 := by
      show (if a.result.isSome then 0 else weight t a.question) ≤ 4
      split
      · omega
      · exact weight_le a.question
    exact Nat.le_trans four (by decide)

/-- A rehearsal ends with the result of the retried call, or with no alarm before the limit. -/
theorem retry_cases (positive : 0 < interval) :
    (∃ last result calls,
      retry answers interval deadline cancelAt limit = (some (last, result), calls) ∧
        Retry.Over (replies answers) interval deadline cancelAt last result calls) ∨
      ∃ last question calls, retry answers interval deadline cancelAt limit = (none, calls) ∧
        Retry.Course (replies answers) interval deadline cancelAt last question calls ∧
        Retry.tick (replies answers) interval deadline cancelAt last question calls = none ∧
        ∀ alarm ∈ question.alarms ++ (deadline.toList ++ cancelAt.toList),
          last < alarm → limit ≤ alarm := by
  obtain ⟨ended, a, run⟩ : ∃ ended a, Clockwork.run (asking answers interval deadline cancelAt)
      (·.result.isSome) limit 0 ⟨.ready, ⟨0, []⟩, none⟩ = (ended, a) := ⟨_, _, rfl⟩
  have shown : retry answers interval deadline cancelAt limit =
      (ended.bind fun t => a.result.map (t, ·), a.calls.moments.reverse) := by
    rw [retry, run]
  obtain ⟨last, reached, idle, stops⟩ := Clockwork.run_reaches (patient positive) .start run
  cases Keeps.reaches reached with
  | @going question calls course =>
    rcases stops with ⟨-, finished⟩ | ⟨rfl, -, ahead⟩
    · cases finished
    · refine .inr ⟨last, question, calls, ?_, course, ?_, ?_⟩
      · rw [shown, moments_tally]
        rfl
      · rwa [step_asking, Option.map_eq_none_iff] at idle
      · rw [← List.append_assoc]
        exact ahead
  | @ended question calls result ended =>
    rcases stops with ⟨rfl, -⟩ | ⟨-, going, -⟩
    · refine .inl ⟨last, result, calls, ?_, ended⟩
      rw [shown, moments_tally]
      rfl
    · cases going

/-- **The result of a rehearsed retried call is that of its timetable.** -/
theorem retry_timetable (positive : 0 < interval) {result : Except Failure Nat} {calls : List Nat}
    (h : retry answers interval deadline cancelAt limit = (some (now, result), calls)) :
    Retry.Timetable (replies answers) interval deadline cancelAt now result calls := by
  rcases retry_cases positive with ⟨last, result', calls', shown, ended⟩ | ⟨_, _, _, shown, -⟩
  · rw [h] at shown
    cases shown
    exact ended.timetable
  · rw [h] at shown
    cases shown

/-- **A rehearsal whose limit is late enough has this result.** -/
theorem retry_of_timetable (positive : 0 < interval) {result : Except Failure Nat}
    {calls : List Nat} (before : now < limit)
    (table : Retry.Timetable (replies answers) interval deadline cancelAt now result calls) :
    retry answers interval deadline cancelAt limit = (some (now, result), calls) := by
  rcases retry_cases positive with
    ⟨last, result', calls', shown, ended⟩ | ⟨last, question, calls', -, course, idle, ahead⟩
  · obtain ⟨rfl, rfl, rfl⟩ := table.unique ended.timetable
    exact shown
  · -- Nothing happens before the limit, so the question has not come to its end by then.
    have early : last ≤ now := course.kept.le_of_timetable table
    have waited := course.kept.wait idle (Nat.lt_of_le_of_lt early before) ahead
    have late : limit ≤ now := waited.le_of_timetable table
    omega

end Solo

end Relayer
