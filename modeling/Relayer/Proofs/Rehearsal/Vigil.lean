import Relayer.Proofs.Rehearsal.Questions
import Relayer.Proofs.Supervision

namespace Relayer

/-!
# Vigil — a rehearsed watch takes a `Supervisor.Course`

`Supervisor.step` tries `watchStep` before `serviceStep`, and the clock moves to the least alarm
where both are `none`.  This is one of the courses of a watch, for services whose `step` stays
`none` until one of their `alarms`.

* `Service.Punctual` — a service that waits for nothing but its alarms;
* `Supervisor.Course.of_step`, `Supervisor.Course.of_idle` — the steps and the waiting of the clock;
* `Vigil.punctual` and `Vigil.settles` — this holds of the services of a rehearsal;
* `Vigil.watch_verdict` and `Vigil.exists_verdict` — the verdict of a rehearsed watch is that of a
  course, and there is one.
-/

variable {σ : Type}

/-- A `service.step` that is `none` stays so until the first of `service.alarms`. -/
def Service.Punctual (service : Service σ) : Prop :=
  ∀ cancelled a now later, service.step cancelled now a = none →
    (∀ alarm ∈ service.alarms cancelled a, now < alarm → later ≤ alarm) →
    ∀ moment, now ≤ moment → moment < later → service.step cancelled moment a = none

namespace Supervisor

variable {service : Service σ} {plan : Plan} {s : σ} {trail : List (Nat × Event)}
  {now later moment : Nat} {x x' : Supervisor σ} {v : Verdict}

/-! ### The clock -/

/-- **A `Supervisor.step` prolongs the course** by one of the two steps, and only a `watchStep` adds
    a verdict. -/
theorem Course.of_step (course : Course service plan s trail now x)
    (step : x.step service plan now = some x') :
    ∃ event, Course service plan s (trail ++ [(now, event)]) now x' ∧
      ∀ v, x'.verdict? = some v → event = .over v := by
  rcases Option.or_eq_some_iff.mp step with watch | ⟨-, serve⟩
  · refine ⟨_, course.watch watch, fun v verdict => ?_⟩
    unfold verdict? at verdict
    unfold watchEvent
    split at verdict <;> simp_all
  · refine ⟨_, course.serve serve, fun v verdict => ?_⟩
    obtain ⟨a, c, -, going, -, rfl⟩ := serviceStep_cases serve
    unfold verdict? at verdict
    split at verdict
    · next decided => exact absurd decided (going _)
    · cases verdict

/-- A `watchStep` that is `none` stays so until the signal, or until the end of the grace. -/
theorem watchStep_until (idle : x.watchStep plan now = none)
    (next : ∀ alarm ∈ x.alarms service plan, now < alarm → later ≤ alarm)
    (before : moment < later) : x.watchStep plan moment = none := by
  obtain ⟨phase, c⟩ := x
  cases phase with
  | watching =>
    obtain ⟨a, rfl, ahead⟩ := idle_watching idle
    cases signal : plan.signal with
    | none => simp only [watchStep, signal]
    | some S =>
      have soon := next S (by simp [alarms, signal]) (ahead S signal)
      simp only [watchStep, signal]
      exact if_neg (by omega)
  | stopping deadline =>
    obtain ⟨a, rfl, ahead⟩ := idle_stopping idle
    have soon := next deadline (by simp [alarms]) ahead
    exact if_neg (by omega)
  | _ => rfl

/-- A `serviceStep` that is `none` stays so until the first of the service's alarms. -/
theorem serviceStep_until (punctual : service.Punctual) (idle : x.serviceStep service now = none)
    (next : ∀ alarm ∈ x.alarms service plan, now < alarm → later ≤ alarm)
    (from_now : now ≤ moment) (before : moment < later) : x.serviceStep service moment = none := by
  obtain ⟨phase, c⟩ := x
  cases c with
  | inr e => cases phase <;> rfl
  | inl a =>
    have own (alarm : Nat) (listed : alarm ∈ service.alarms (isCancelled ⟨phase, .inl a⟩) a) :=
      next alarm (List.mem_append_right _ listed)
    cases phase with
    | watching =>
      have waits := Option.map_eq_none_iff.mp idle
      exact Option.map_eq_none_iff.mpr (punctual _ a now later waits own moment from_now before)
    | stopping deadline =>
      have waits := Option.map_eq_none_iff.mp idle
      exact Option.map_eq_none_iff.mpr (punctual _ a now later waits own moment from_now before)
    | _ => rfl

/-- **The clock prolongs the course**, since neither step becomes possible before the next alarm. -/
theorem Course.of_idle (course : Course service plan s trail now x) (punctual : service.Punctual)
    (idle : x.step service plan now = none)
    (next : Clockwork.nextAlarm now (x.alarms service plan) = some later) :
    Course service plan s trail later x := by
  obtain ⟨watch, serve⟩ := Option.or_eq_none_iff.mp idle
  have first := Clockwork.nextAlarm_le next
  exact course.wait (Clockwork.lt_of_nextAlarm next) fun moment from_now before =>
    ⟨watchStep_until watch first before, serviceStep_until punctual serve first from_now before⟩

end Supervisor

namespace Vigil

variable {m : Manners} {plan : Supervisor.Plan} {now later moment : Nat} {x x' : Scene}

/-! ### Services by the book -/

theorem hasCome_until {t : Option Nat} (ahead : hasCome t now = false)
    (next : ∀ alarm ∈ t.toList, now < alarm → later ≤ alarm) (before : moment < later) :
    hasCome t moment = false := by
  cases t with
  | none => rfl
  | some t =>
    simp only [hasCome, decide_eq_false_iff_not, Nat.not_le] at ahead ⊢
    have soon := next t (.head _) ahead
    omega

theorem punctual (m : Manners) : (service m).Punctual := by
  intro cancelled ⟨cancelledAt⟩ now later idle next moment from_now before
  cases cancelledAt with
  | some t =>
    simp only [service, ite_eq_right_iff, reduceCtorEq, imp_false, Bool.not_eq_true] at idle next ⊢
    exact hasCome_until idle next before
  | none =>
    cases cancelled with
    | true => cases idle
    | false =>
      simp only [service, Bool.false_eq_true, if_false, ite_eq_right_iff, reduceCtorEq, imp_false,
        Bool.not_eq_true] at idle next ⊢
      exact hasCome_until idle next before

/-- A bound on the steps of a service at one moment: one to observe its token, one to exit. -/
def toDo (c : Polite ⊕ Service.Ending) : Nat :=
  match c with
  | .inl s => if s.cancelledAt.isNone then 2 else 1
  | .inr _ => 0

theorem toDo_step {cancelled : Bool} {a : Polite} {c : Polite ⊕ Service.Ending}
    (step : (service m).step cancelled now a = some c) : toDo c < toDo (.inl a) := by
  obtain ⟨cancelledAt⟩ := a
  cases cancelledAt with
  | some t =>
    obtain ⟨-, same⟩ := Option.ite_none_right_eq_some.mp step
    cases same
    exact Nat.one_pos
  | none =>
    cases cancelled with
    | true =>
      cases step
      exact Nat.one_lt_two
    | false =>
      obtain ⟨-, same⟩ := Option.ite_none_right_eq_some.mp step
      cases same
      exact Nat.two_pos

theorem settles (m : Manners) : (service m).Settles := fun _ _ =>
  Subrelation.wf (fun {_ _} step => toDo_step step) (measure fun a => toDo (.inl a)).wf

/-! ### The watch by the clock -/

/-- A scene is a watch on its course at `now`; its verdict was entered at `now`. -/
def Plays (m : Manners) (plan : Supervisor.Plan) (now : Nat) (x : Scene) : Prop :=
  ∃ trail, Supervisor.Course (service m) plan ⟨none⟩ trail now x.watched ∧
    ∀ v, x.watched.verdict? = some v → (now, .over v) ∈ trail

theorem Plays.step (plays : Plays m plan now x) (step : (clock m plan).step now x = some x') :
    Plays m plan now x' := by
  obtain ⟨trail, course, -⟩ := plays
  obtain ⟨w, goes, rfl⟩ := Option.map_eq_some_iff.mp step
  obtain ⟨event, on, verdict⟩ := course.of_step goes
  refine ⟨_, on, fun v decided => ?_⟩
  rw [verdict v decided]
  exact List.mem_concat_self

theorem Plays.reaches (plays : Plays m plan now x)
    (reaches : Clockwork.Reaches (clock m plan) (fun x => x.watched.verdict?.isSome)
      now x later x') : Plays m plan later x' := by
  induction reaches with
  | start => exact plays
  | step _ step ih => exact ih.step step
  | wait _ idle going next ih =>
    obtain ⟨trail, course, -⟩ := ih
    refine ⟨trail, course.of_idle (punctual m) (Option.map_eq_none_iff.mp idle) next, ?_⟩
    intro v decided
    rw [decided] at going
    cases going

/-- A bound on the steps of a scene at one moment. -/
def weight (x : Scene) : Nat :=
  (match x.watched.phase with
    | .watching => 2
    | .stopping _ => 1
    | .over _ => 0) + toDo x.watched.service

theorem weight_step (step : (clock m plan).step now x = some x') : weight x' < weight x := by
  obtain ⟨⟨phase, c⟩, cancelledAt⟩ := x
  obtain ⟨w, goes, rfl⟩ := Option.map_eq_some_iff.mp step
  rcases Option.or_eq_some_iff.mp goes with watch | ⟨-, serve⟩
  · rcases Supervisor.watchStep_cases watch with ⟨e, -, going, rfl⟩ | ⟨a, S, same, -, -, rfl⟩ |
      ⟨a, deadline, same, -, rfl⟩
    · cases phase <;> simp_all [weight]
    · cases same
      simp [weight]
    · cases same
      simp [weight]
  · obtain ⟨a, c', same, -, own, rfl⟩ := Supervisor.serviceStep_cases serve
    cases same
    exact Nat.add_lt_add_left (toDo_step own) _

theorem weight_le (x : Scene) : weight x ≤ 4 := by
  unfold weight toDo
  split <;> split <;> (try split) <;> omega

/-- A scene is `Patient`, by its weight. -/
theorem patient : Clockwork.Patient (clock m plan) (fun x => x.watched.verdict?.isSome) now x :=
  Clockwork.patient_of_weight (fun _ => weight) (fun _ _ _ => weight_step)
    fun _ x => Nat.le_trans (weight_le x) (by decide)

theorem plays_start (m : Manners) (plan : Supervisor.Plan) :
    Plays m plan 0 ⟨.start ⟨none⟩, none⟩ := ⟨[], .start, fun _ decided => nomatch decided⟩

/-- **The verdict of a rehearsed watch** is that of a course, at the same moment. -/
theorem watch_verdict {limit t : Nat} {v : Supervisor.Verdict} {cancelled : Option Nat}
    (h : watch m plan limit = (some (t, v), cancelled)) :
    ∃ trail w, Supervisor.Course (service m) plan ⟨none⟩ trail t w ∧ (t, .over v) ∈ trail := by
  unfold watch at h
  split at h
  next ended x run =>
    obtain ⟨last, here, same⟩ := Clockwork.reaches_of_run patient .start run
    obtain ⟨found, -⟩ := Prod.mk.inj h
    obtain ⟨moment, finished, verdict⟩ := Option.bind_eq_some_iff.mp found
    obtain ⟨v', decided, same'⟩ := Option.map_eq_some_iff.mp verdict
    cases same'
    obtain rfl := same _ finished
    obtain ⟨trail, course, cancelled⟩ := (plays_start m plan).reaches here
    exact ⟨trail, _, course, cancelled v decided⟩

/-- A rehearsed watch with a signal has a verdict, if its limit is late enough. -/
theorem exists_verdict {limit S : Nat} (signal : plan.signal = some S)
    (long : S + plan.grace < limit) :
    ∃ t v cancelled, watch m plan limit = (some (t, v), cancelled) := by
  unfold watch
  split
  next ended x run =>
    obtain ⟨last, here, idle, ⟨rfl, decided⟩ | ⟨-, going, rest⟩⟩ :=
      Clockwork.run_reaches patient .start run
    · obtain ⟨v, verdict⟩ := Option.isSome_iff_exists.mp decided
      exact ⟨last, v, x.cancelledAt, by simp [verdict]⟩
    · -- The signal or the end of the grace would be the next alarm, before the limit.
      obtain ⟨trail, course, -⟩ := (plays_start m plan).reaches here
      have waits := (Option.or_eq_none_iff.mp (Option.map_eq_none_iff.mp idle)).1
      obtain ⟨⟨phase, c⟩, cancelledAt⟩ := x
      cases course.tracks with
      | watching _ _ _ _ =>
        obtain ⟨a, rfl, ahead⟩ := Supervisor.idle_watching waits
        have soon := rest S (by simp [clock, Supervisor.alarms, signal]) (ahead S signal)
        omega
      | stopping _ _ signal' _ _ _ =>
        obtain rfl := Option.some.inj (signal.symm.trans signal')
        obtain ⟨a, rfl, ahead⟩ := Supervisor.idle_stopping waits
        have soon := rest _ (by simp [clock, Supervisor.alarms]) ahead
        omega
      | settled => cases going

end Vigil

end Relayer
