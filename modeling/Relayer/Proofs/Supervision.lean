import Relayer.Rehearsal.Vigil

namespace Relayer

/-!
# Supervision — the contract of `Supervisor` with any `Service`

`Service.step` may depend on the moment and on the token in any way, so the moment at which a
service exits is not a parameter.  It is given by two runs of the service alone: `Service.Run false`
from the start, and `Service.Run true` from the shutdown signal on.

* `Service.Run` — a service alone, with its token cancelled or not; by `Service.Run.leads` its exit
  is unique;
* `Supervisor.Course` — a service under watch, where `watchStep` and `serviceStep` may come in
  either order, and the `Supervisor.Event`s in it;
* `Supervisor.Timetable` — the three ways to a verdict, and `Supervisor.Tracks`, the invariant of
  all courses;
* `Supervisor.Contract` and `Supervisor.watch_contract` — an exit before the signal or within the
  grace is the verdict, the end of the grace makes it `unresponsive`, and no step follows a verdict.
-/

variable {σ : Type}

/-! ### A service on its own -/

namespace Service

/-- A service alone from state `a` at `now`, with its token `cancelled` or not, to a state or an
    exit at a later moment: `service.step` is taken wherever it is not `none`, and time passes only
    where it is. -/
inductive Run (service : Service σ) (cancelled : Bool) : Nat → σ → Nat → σ ⊕ Ending → Prop
  | stay {now a} : Run service cancelled now a now (.inl a)
  | stop {now a e} (ends : service.step cancelled now a = some (.inr e)) :
      Run service cancelled now a now (.inr e)
  | step {now a b t c} (step : service.step cancelled now a = some (.inl b))
      (rest : Run service cancelled now b t c) : Run service cancelled now a t c
  | wait {now a later t c} (ahead : now < later)
      (idle : ∀ moment, now ≤ moment → moment < later → service.step cancelled moment a = none)
      (rest : Run service cancelled later a t c) : Run service cancelled now a t c

/-- From the outcome `c` at `now`, the service exits at `t` with `e`: by a run where `c` is a state,
    at once where `c` is that exit itself. -/
def BoundFor (service : Service σ) (cancelled : Bool) (now : Nat) (c : σ ⊕ Ending) (t : Nat)
    (e : Ending) : Prop :=
  match c with
  | .inl b => Run service cancelled now b t (.inr e)
  | .inr e' => now = t ∧ e' = e

/-- `service.step` is well-founded at every moment: no infinite sequence of steps takes no time. -/
def Settles (service : Service σ) : Prop :=
  ∀ cancelled now, WellFounded fun b a => service.step cancelled now a = some (.inl b)

namespace Run

variable {service : Service σ} {cancelled : Bool} {now t t' later : Nat} {a b : σ} {c : σ ⊕ Ending}
  {e : Ending}

theorem le (run : service.Run cancelled now a t c) : now ≤ t := by
  induction run with
  | stay => exact Nat.le_refl _
  | stop => exact Nat.le_refl _
  | step _ _ ih => exact ih
  | wait ahead _ _ ih => exact Nat.le_trans (Nat.le_of_lt ahead) ih

theorem trans (run : service.Run cancelled now a t (.inl b))
    (rest : service.Run cancelled t b t' c) :
    service.Run cancelled now a t' c := by
  generalize mid : (Sum.inl b : σ ⊕ Ending) = m at run
  induction run with
  | stay =>
    cases mid
    exact rest
  | stop => cases mid
  | step step _ ih => exact .step step (ih rest mid)
  | wait ahead idle _ ih => exact .wait ahead idle (ih rest mid)

/-- A run followed by one more step. -/
theorem snoc (run : service.Run cancelled now a t (.inl b))
    (step : service.step cancelled t b = some c) :
    service.Run cancelled now a t c := by
  cases c with
  | inl d => exact run.trans (.step step .stay)
  | inr e => exact run.trans (.stop step)

/-- An exit later than `now` is also the exit from any `later` moment until which `service.step` is
    `none`. -/
theorem skip (ends : service.Run cancelled now a t (.inr e)) (reached : now ≤ later)
    (idle : ∀ moment, now ≤ moment → moment < later → service.step cancelled moment a = none) :
    service.Run cancelled later a t (.inr e) := by
  -- The run cannot begin with a step, since none is possible before `later`; so it begins with a
  -- wait, which reaches beyond `later` or is followed by the rest of the induction.
  generalize last : (Sum.inr e : σ ⊕ Ending) = c at ends
  induction ends with
  | stay => cases last
  | @stop now _ _ ends =>
    rcases Nat.eq_or_lt_of_le reached with rfl | ahead
    · exact .stop ends
    · rw [idle now (Nat.le_refl _) ahead] at ends
      cases ends
  | @step now _ _ _ _ step rest ih =>
    rcases Nat.eq_or_lt_of_le reached with rfl | ahead
    · exact .step step rest
    · rw [idle now (Nat.le_refl _) ahead] at step
      cases step
  | @wait now a mid _ _ ahead still rest ih =>
    rcases Nat.lt_or_ge later mid with before | behind
    · refine .wait before (fun moment from_later => ?_) rest
      exact still moment (Nat.le_trans reached from_later)
    · exact ih behind (fun moment from_mid => idle moment (by omega)) last

/-- **The exit is unique**: any other run from the same state leads to the same exit at the same
    moment. -/
theorem leads (ends : service.Run cancelled now a t (.inr e))
    (other : service.Run cancelled now a t' c) :
    service.BoundFor cancelled t' c t e := by
  -- The run that ends is followed along the other one: each begins as the other does.
  induction other with
  | stay => exact ends
  | stop stops =>
    cases ends with
    | stop ends =>
      rw [stops] at ends
      cases ends
      exact ⟨rfl, rfl⟩
    | step step =>
      rw [stops] at step
      cases step
    | wait ahead idle =>
      rw [idle _ (Nat.le_refl _) ahead] at stops
      cases stops
  | step step _ ih =>
    refine ih ?_
    cases ends with
    | stop ends =>
      rw [step] at ends
      cases ends
    | step step' rest =>
      rw [step] at step'
      cases step'
      exact rest
    | wait ahead idle =>
      rw [idle _ (Nat.le_refl _) ahead] at step
      cases step
  | wait ahead idle _ ih => exact ih (ends.skip (Nat.le_of_lt ahead) idle)

/-- No run from the same state reaches beyond the exit. -/
theorem le_of_ends (ends : service.Run cancelled now a t (.inr e))
    (other : service.Run cancelled now a t' c) : t' ≤ t := by
  have bound := ends.leads other
  cases c with
  | inl b => exact le bound
  | inr e' => exact Nat.le_of_eq bound.1

end Run

end Service

namespace Supervisor

/-! ### A service under watch -/

/-- One event of a supervised service. -/
inductive Event where
  /-- The service took a step and is still running. -/
  | worked
  | ended (e : Service.Ending)
  /-- The watch cancelled the token of the service. -/
  | cancelled
  | over (v : Verdict)
  deriving DecidableEq, Repr

/-- The event of a `watchStep` to `x`. -/
def watchEvent (x : Supervisor σ) : Event :=
  match x.phase with
  | .over v => .over v
  | _ => .cancelled

/-- The event of a `serviceStep` to `x`. -/
def serviceEvent (x : Supervisor σ) : Event :=
  match x.service with
  | .inl _ => .worked
  | .inr e => .ended e

/-- A service under watch from `Supervisor.start s`, with the moment of every event.  Where
    `watchStep` and `serviceStep` are both possible either may come first, and time passes only
    where both are `none`. -/
inductive Course (service : Service σ) (plan : Plan) (s : σ) :
    List (Nat × Event) → Nat → Supervisor σ → Prop
  | start : Course service plan s [] 0 (.start s)
  | watch {trail now x y} (before : Course service plan s trail now x)
      (step : x.watchStep plan now = some y) :
      Course service plan s (trail ++ [(now, watchEvent y)]) now y
  | serve {trail now x y} (before : Course service plan s trail now x)
      (step : x.serviceStep service now = some y) :
      Course service plan s (trail ++ [(now, serviceEvent y)]) now y
  | wait {trail now x later} (before : Course service plan s trail now x) (ahead : now < later)
      (idle : ∀ moment, now ≤ moment → moment < later →
        x.watchStep plan moment = none ∧ x.serviceStep service moment = none) :
      Course service plan s trail later x

/-- The moments of `Event.cancelled`. -/
def orders (trail : List (Nat × Event)) : List Nat :=
  trail.filterMap fun
    | (t, .cancelled) => some t
    | _ => none

/-- The trail has no verdict. -/
def Undecided (trail : List (Nat × Event)) : Prop := ∀ t v, (t, .over v) ∉ trail

variable {service : Service σ} {plan : Plan} {s a y z : σ} {trail : List (Nat × Event)}
  {now later t S : Nat} {x x' : Supervisor σ} {v : Verdict} {cancelled : List Nat}
  {e : Service.Ending}

theorem orders_concat (trail : List (Nat × Event)) (entry : Nat × Event) :
    orders (trail ++ [entry]) = orders trail ++ orders [entry] := List.filterMap_append

theorem orders_serviceEvent (now : Nat) (x : Supervisor σ) :
    orders [(now, serviceEvent x)] = [] := by
  unfold serviceEvent
  cases x.service <;> rfl

theorem undecided_nil : Undecided [] := fun _ _ => List.not_mem_nil

theorem Undecided.concat {event : Event} (undecided : Undecided trail)
    (no_verdict : ∀ v, event ≠ .over v) : Undecided (trail ++ [(now, event)]) := by
  intro t v here
  rcases List.mem_append.mp here with before | last
  · exact undecided t v before
  · cases List.mem_singleton.mp last
    exact no_verdict v rfl

theorem serviceEvent_ne_over (x : Supervisor σ) (v : Verdict) : serviceEvent x ≠ .over v := by
  unfold serviceEvent
  cases x.service <;> exact Event.noConfusion

/-! ### Steps -/

/-- A `serviceStep` is a `service.step` with the token as `isCancelled` says, and leaves the phase
    alone. -/
theorem serviceStep_cases (step : x.serviceStep service now = some x') :
    ∃ a c, x.service = .inl a ∧ (∀ v, x.phase ≠ .over v) ∧
      service.step x.isCancelled now a = some c ∧ x' = { x with service := c } := by
  obtain ⟨phase, state⟩ := x
  cases state with
  | inr e => cases phase <;> cases step
  | inl a =>
    cases phase with
    | watching =>
      obtain ⟨c, goes, rfl⟩ := Option.map_eq_some_iff.mp step
      exact ⟨a, c, rfl, fun _ => Phase.noConfusion, goes, rfl⟩
    | stopping deadline =>
      obtain ⟨c, goes, rfl⟩ := Option.map_eq_some_iff.mp step
      exact ⟨a, c, rfl, fun _ => Phase.noConfusion, goes, rfl⟩
    | _ => cases step

/-- A `watchStep` makes the exit of the service the verdict, cancels the token at the signal, or
    aborts the service at the end of its grace. -/
theorem watchStep_cases (step : x.watchStep plan now = some x') :
    (∃ e, x.service = .inr e ∧ (∀ v, x.phase ≠ .over v) ∧
      x' = { x with phase := .over (.ended e) }) ∨
    (∃ a S, x = ⟨.watching, .inl a⟩ ∧ plan.signal = some S ∧ S ≤ now ∧
      x' = ⟨.stopping (now + plan.grace), .inl a⟩) ∨
    (∃ a deadline, x = ⟨.stopping deadline, .inl a⟩ ∧ deadline ≤ now ∧
      x' = ⟨.over (.unresponsive plan.grace), .inl a⟩) := by
  obtain ⟨phase, state⟩ := x
  -- The exit of the service is looked at first, in every phase.
  cases state with
  | inr e =>
    refine .inl ⟨e, rfl, ?_⟩
    cases phase with
    | watching =>
      cases step
      exact ⟨fun _ => Phase.noConfusion, rfl⟩
    | stopping deadline =>
      cases step
      exact ⟨fun _ => Phase.noConfusion, rfl⟩
    | _ => cases step
  | inl a =>
    cases phase with
    | watching =>
      simp only [watchStep] at step
      split at step
      · next S signal =>
        obtain ⟨come, same⟩ := Option.ite_none_right_eq_some.mp step
        cases same
        exact .inr (.inl ⟨a, S, rfl, signal, come, rfl⟩)
      · cases step
    | stopping deadline =>
      obtain ⟨come, same⟩ := Option.ite_none_right_eq_some.mp step
      cases same
      exact .inr (.inr ⟨a, deadline, rfl, come, rfl⟩)
    | _ => cases step

/-- A `watching` phase without a step: the service is running and the signal lies ahead. -/
theorem idle_watching {w : σ ⊕ Service.Ending}
    (idle : watchStep plan now ⟨.watching, w⟩ = none) :
    ∃ a, w = .inl a ∧ ∀ S ∈ plan.signal, now < S := by
  cases w with
  | inr e => cases idle
  | inl a =>
    refine ⟨a, rfl, fun S signal => ?_⟩
    rw [Option.mem_def] at signal
    simp only [watchStep, signal, ite_eq_right_iff, reduceCtorEq, imp_false] at idle
    exact Nat.lt_of_not_le idle

/-- A `stopping` phase without a step: the service is running and the deadline lies ahead. -/
theorem idle_stopping {deadline : Nat} {w : σ ⊕ Service.Ending}
    (idle : watchStep plan now ⟨.stopping deadline, w⟩ = none) :
    ∃ a, w = .inl a ∧ now < deadline := by
  cases w with
  | inr e => cases idle
  | inl a =>
    refine ⟨a, rfl, ?_⟩
    simp only [watchStep, ite_eq_right_iff, reduceCtorEq, imp_false] at idle
    exact Nat.lt_of_not_le idle

/-! ### How a watch ends -/

/-- The three ways to a verdict at a moment, with the moments at which the token was cancelled. -/
inductive Timetable (service : Service σ) (plan : Plan) (s : σ) : Nat → Verdict → List Nat → Prop
  /-- The service exits, not later than the signal, and its token is never cancelled. -/
  | early {t : Nat} {e : Service.Ending} (ends : service.Run false 0 s t (.inr e))
      (before : ∀ S ∈ plan.signal, t ≤ S) : Timetable service plan s t (.ended e) []
  /-- The token is cancelled at the signal, and the service exits within its grace. -/
  | inTime {S t : Nat} {a : σ} {e : Service.Ending} (signal : plan.signal = some S)
      (alive : service.Run false 0 s S (.inl a))
      (ends : service.Run true S a t (.inr e)) (within : t ≤ S + plan.grace) :
      Timetable service plan s t (.ended e) [S]
  /-- The token is cancelled at the signal, and the service is still running when its grace is
      over. -/
  | dropped {S : Nat} {a b : σ} (signal : plan.signal = some S)
      (alive : service.Run false 0 s S (.inl a))
      (lasts : service.Run true S a (S + plan.grace) (.inl b)) :
      Timetable service plan s (S + plan.grace) (.unresponsive plan.grace) [S]

/-- The phase of a watch, its trail and its service, by runs of the service alone. -/
inductive Tracks (service : Service σ) (plan : Plan) (s : σ) :
    List (Nat × Event) → Nat → Supervisor σ → Prop
  | watching {trail : List (Nat × Event)} {now : Nat} {c : σ ⊕ Service.Ending}
      (undecided : Undecided trail) (untold : orders trail = []) (run : service.Run false 0 s now c)
      (before : ∀ S ∈ plan.signal, now ≤ S) :
      Tracks service plan s trail now ⟨.watching, c⟩
  | stopping {trail : List (Nat × Event)} {now S : Nat} {a : σ} {c : σ ⊕ Service.Ending}
      (undecided : Undecided trail) (cancelled : orders trail = [S])
      (signal : plan.signal = some S) (alive : service.Run false 0 s S (.inl a))
      (run : service.Run true S a now c) (within : now ≤ S + plan.grace) :
      Tracks service plan s trail now ⟨.stopping (S + plan.grace), c⟩
  | settled {trail : List (Nat × Event)} {t now : Nat} {v : Verdict} {c : σ ⊕ Service.Ending}
      (undecided : Undecided trail)
      (kept : Timetable service plan s t v (orders trail)) :
      Tracks service plan s (trail ++ [(t, .over v)]) now ⟨.over v, c⟩

/-- **A `watchStep` keeps `Tracks`**. -/
theorem Tracks.watch (tracks : Tracks service plan s trail now x)
    (step : x.watchStep plan now = some x') :
    Tracks service plan s (trail ++ [(now, watchEvent x')]) now x' := by
  rcases watchStep_cases step with ⟨e, ended, going, rfl⟩ | ⟨a, S, rfl, signal, come, rfl⟩ |
    ⟨a, deadline, rfl, come, rfl⟩
  · cases tracks with
    | watching undecided untold run before =>
      cases ended
      refine .settled undecided ?_
      rw [untold]
      exact .early run before
    | stopping undecided cancelled signal alive run within =>
      cases ended
      refine .settled undecided ?_
      rw [cancelled]
      exact .inTime signal alive run within
    | settled => exact absurd rfl (going _)
  · cases tracks with
    | watching undecided untold run before =>
      -- The signal cannot be noticed late, since the clock does not pass it.
      obtain rfl := Nat.le_antisymm come (before S signal)
      refine .stopping (undecided.concat fun _ => Event.noConfusion) ?_ signal run .stay
        (Nat.le_add_right _ _)
      rw [orders_concat, untold]
      rfl
  · cases tracks with
    | stopping undecided cancelled signal alive run within =>
      obtain rfl := Nat.le_antisymm come within
      refine .settled undecided ?_
      rw [cancelled]
      exact .dropped signal alive run

/-- **A `serviceStep` keeps `Tracks`**, since it is a step of the service alone. -/
theorem Tracks.serve (tracks : Tracks service plan s trail now x)
    (step : x.serviceStep service now = some x') :
    Tracks service plan s (trail ++ [(now, serviceEvent x')]) now x' := by
  obtain ⟨a, c, state, going, goes, rfl⟩ := serviceStep_cases step
  have orders_same : orders (trail ++ [(now, serviceEvent { x with service := c })]) =
      orders trail := by
    rw [orders_concat, orders_serviceEvent, List.append_nil]
  cases tracks with
  | watching undecided untold run before =>
    cases state
    exact .watching (undecided.concat (serviceEvent_ne_over _)) (orders_same.trans untold)
      (run.snoc goes) before
  | stopping undecided cancelled signal alive run within =>
    cases state
    exact .stopping (undecided.concat (serviceEvent_ne_over _)) (orders_same.trans cancelled) signal
      alive (run.snoc goes) within
  | settled => exact absurd rfl (going _)

/-- **Time keeps `Tracks`**: it passes for the service alone as well, and neither the signal nor the
    end of the grace is passed. -/
theorem Tracks.wait (tracks : Tracks service plan s trail now x) (ahead : now < later)
    (idle : ∀ moment, now ≤ moment → moment < later →
      x.watchStep plan moment = none ∧ x.serviceStep service moment = none) :
    Tracks service plan s trail later x := by
  -- The watch has nothing to do at the last moment before `later`, so its own moment is not passed.
  have last := idle (later - 1) (by omega) (by omega)
  cases tracks with
  | watching undecided untold run before =>
    obtain ⟨a, rfl, unsignalled⟩ := idle_watching last.1
    refine .watching undecided untold (run.trans (.wait ahead ?_ .stay)) fun S signal => ?_
    · exact fun moment from_now until_later =>
        Option.map_eq_none_iff.mp (idle moment from_now until_later).2
    · have ahead := unsignalled S signal
      omega
  | stopping undecided cancelled signal alive run within =>
    obtain ⟨a, rfl, graced⟩ := idle_stopping last.1
    refine .stopping undecided cancelled signal alive (run.trans (.wait ahead ?_ .stay)) (by omega)
    exact fun moment from_now until_later =>
      Option.map_eq_none_iff.mp (idle moment from_now until_later).2
  | settled undecided kept => exact .settled undecided kept

/-- **Every course is tracked.** -/
theorem Course.tracks (course : Course service plan s trail now x) :
    Tracks service plan s trail now x := by
  induction course with
  | start => exact .watching undecided_nil rfl .stay fun _ _ => Nat.zero_le _
  | watch _ step ih => exact ih.watch step
  | serve _ step ih => exact ih.serve step
  | wait _ ahead idle ih => exact ih.wait ahead idle

/-- A verdict is the last event of its trail, and comes by the timetable. -/
theorem Tracks.verdict (tracks : Tracks service plan s trail now x) (here : (t, .over v) ∈ trail) :
    trail.getLast? = some (t, .over v) ∧ Timetable service plan s t v (orders trail) := by
  cases tracks with
  | watching undecided => exact absurd here (undecided t v)
  | stopping undecided => exact absurd here (undecided t v)
  | @settled before _ _ _ _ undecided kept =>
    rcases List.mem_append.mp here with earlier | last
    · exact absurd earlier (undecided t v)
    · cases List.mem_singleton.mp last
      refine ⟨List.getLast?_concat, ?_⟩
      rw [orders_concat]
      show Timetable service plan s t v (orders before ++ [])
      rw [List.append_nil]
      exact kept

/-- Without a verdict, `now` is not behind the end of the grace; and without a signal, not behind
    the exit of the service. -/
theorem Tracks.le (tracks : Tracks service plan s trail now x) (undecided : Undecided trail) :
    (∀ S ∈ plan.signal, now ≤ S + plan.grace) ∧
      (plan.signal = none → ∀ t e, service.Run false 0 s t (.inr e) → now ≤ t) := by
  cases tracks with
  | watching _ _ run before =>
    exact ⟨fun S signal => Nat.le_trans (before S signal) (Nat.le_add_right _ _),
      fun _ t e ends => ends.le_of_ends run⟩
  | stopping _ _ signal _ _ within =>
    rw [signal]
    refine ⟨fun S' same => ?_, fun unsignalled => nomatch unsignalled⟩
    cases same
    exact within
  | settled => exact absurd List.mem_concat_self (undecided _ _)

/-- The token is cancelled once, at the signal, or not at all. -/
theorem Tracks.ordered (tracks : Tracks service plan s trail now x) :
    (orders trail = [] ∧ (Undecided trail → ∀ S ∈ plan.signal, now ≤ S)) ∨
      ∃ S ∈ plan.signal, orders trail = [S] ∧ ∃ a, service.Run false 0 s S (.inl a) := by
  cases tracks with
  | watching _ untold _ before => exact .inl ⟨untold, fun _ => before⟩
  | stopping _ cancelled signal alive => exact .inr ⟨_, signal, cancelled, _, alive⟩
  | @settled before t _ v _ _ kept =>
    rw [orders_concat, show orders [(t, Event.over v)] = [] from rfl, List.append_nil]
    generalize orders before = cancelled at kept ⊢
    cases kept with
    | early => exact .inl ⟨rfl, fun undecided => absurd List.mem_concat_self (undecided _ _)⟩
    | inTime signal alive => exact .inr ⟨_, signal, rfl, _, alive⟩
    | dropped signal alive => exact .inr ⟨_, signal, rfl, _, alive⟩

/-! ### Every watch comes to an end -/

/-- `x'` is the state behind a `watchStep` or a `serviceStep` at `now`. -/
def Moves (service : Service σ) (plan : Plan) (now : Nat) (x' x : Supervisor σ) : Prop :=
  x.watchStep plan now = some x' ∨ x.serviceStep service now = some x'

theorem acc_over (c : σ ⊕ Service.Ending) : Acc (Moves service plan now) ⟨.over v, c⟩ := by
  refine ⟨_, fun x' moves => ?_⟩
  rcases moves with watch | serve
  · cases watch
  · cases serve

theorem acc_ended (phase : Phase) : Acc (Moves service plan now) ⟨phase, .inr e⟩ := by
  refine ⟨_, fun x' moves => ?_⟩
  rcases moves with watch | serve
  · rcases watchStep_cases watch with ⟨_, -, -, rfl⟩ | ⟨_, _, same, -⟩ | ⟨_, _, same, -⟩
    · exact acc_over _
    · cases same
    · cases same
  · obtain ⟨_, _, same, -⟩ := serviceStep_cases serve
    cases same

/-- A phase whose every `watchStep` leads to an accessible state is accessible, by `Service.Settles`
    for the steps of the service. -/
theorem acc_alive (settles : service.Settles) {phase : Phase}
    (next : ∀ a x', watchStep plan now ⟨phase, .inl a⟩ = some x' → Acc (Moves service plan now) x')
    (a : σ) : Acc (Moves service plan now) ⟨phase, .inl a⟩ := by
  induction a using (settles (isCancelled (σ := σ) ⟨phase, .inl a⟩) now).induction with
  | _ a ih =>
    refine ⟨_, fun x' moves => ?_⟩
    rcases moves with watch | serve
    · exact next a x' watch
    · obtain ⟨_, c, same, -, goes, rfl⟩ := serviceStep_cases serve
      cases same
      cases c with
      | inl b => exact ih b goes
      | inr e => exact acc_ended phase

theorem acc_stopping (settles : service.Settles) (deadline : Nat) (a : σ) :
    Acc (Moves service plan now) ⟨.stopping deadline, .inl a⟩ := by
  refine acc_alive settles (fun a x' watch => ?_) a
  rcases watchStep_cases watch with ⟨_, same, -⟩ | ⟨_, _, same, -⟩ | ⟨_, _, -, -, rfl⟩
  · cases same
  · cases same
  · exact acc_over _

/-- **Only finitely many steps are possible at one moment**, if this is so of the service. -/
theorem wellFounded_moves (settles : service.Settles) (plan : Plan) (now : Nat) :
    WellFounded (Moves service plan now) := by
  refine ⟨fun ⟨phase, c⟩ => ?_⟩
  cases c with
  | inr e => exact acc_ended phase
  | inl a =>
    cases phase with
    | stopping deadline => exact acc_stopping settles deadline a
    | watching =>
      -- The only `watchStep` leads to `stopping`.
      refine acc_alive settles (fun a x' watch => ?_) a
      rcases watchStep_cases watch with ⟨_, same, -⟩ | ⟨_, _, -, -, -, rfl⟩ | ⟨_, _, same, -⟩
      · cases same
      · exact acc_stopping settles _ _
      · cases same
    | _ => exact acc_over _

/-- A course can be extended, within its moment, to where `watchStep` and `serviceStep` are both
    `none`. -/
theorem Course.rests (settles : service.Settles) (course : Course service plan s trail now x) :
    ∃ more x', Course service plan s (trail ++ more) now x' ∧
      x'.watchStep plan now = none ∧ x'.serviceStep service now = none := by
  induction x using (wellFounded_moves settles plan now).induction generalizing trail with
  | _ x ih =>
    cases watch : x.watchStep plan now with
    | some x' =>
      obtain ⟨more, y, on, idle⟩ := ih x' (.inl watch) (.watch course watch)
      exact ⟨_ :: more, y, by simpa using on, idle⟩
    | none =>
      cases serve : x.serviceStep service now with
      | some x' =>
        obtain ⟨more, y, on, idle⟩ := ih x' (.inr serve) (.serve course serve)
        exact ⟨_ :: more, y, by simpa using on, idle⟩
      | none => exact ⟨[], x, by simpa using course, watch, serve⟩

/-- **A course extends to a verdict**, if courses without one do not reach beyond some limit. -/
theorem Course.comes_to_verdict (settles : service.Settles) {limit : Nat}
    (bound : ∀ {trail now x}, Course service plan s trail now x → Undecided trail → now ≤ limit)
    (course : Course service plan s trail now x) :
    ∃ more later x', Course service plan s (trail ++ more) later x' ∧
      ∃ t v, (t, .over v) ∈ trail ++ more := by
  -- The induction is on the moments left until the limit, each of which comes to rest.
  induction left : limit + 1 - now using Nat.strongRecOn generalizing trail now x with
  | ind n ih =>
    obtain ⟨more, y, on, idle⟩ := course.rests settles
    by_cases decided : ∃ t v, (t, .over v) ∈ trail ++ more
    · exact ⟨more, now, y, on, decided⟩
    · have undecided : Undecided (trail ++ more) := fun t v here => decided ⟨t, v, here⟩
      have within := bound on undecided
      -- Nothing can happen at this moment any more, so the next one comes.
      have next : Course service plan s (trail ++ more) (now + 1) y := by
        refine on.wait (Nat.lt_succ_self now) fun moment from_now until_next => ?_
        obtain rfl : moment = now := by omega
        exact idle
      obtain ⟨further, later, x', on', decided'⟩ := ih _ (by omega) next rfl
      rw [List.append_assoc] at on' decided'
      exact ⟨more ++ further, later, x', on', decided'⟩

/-! ### What a watch owes -/

/-- `Verdict.report` is `.ok` for `.ended .done` alone, and `.error text` for `.ended (.failed
    text)`. -/
theorem report_own (task : String) (v : Verdict) :
    (v.report task = .ok () ↔ v = .ended .done) ∧
      ∀ text, v = .ended (.failed text) → v.report task = .error text := by
  cases v with
  | ended e => cases e <;> simp [Verdict.report]
  | unresponsive grace => simp [Verdict.report]

/-- The contract of a watch with its service, at a moment and with a trail. -/
structure Contract (service : Service σ) (plan : Plan) (s : σ) (trail : List (Nat × Event))
    (now : Nat) : Prop where
  /-- A service that exits before the signal is never cancelled, and its exit is the verdict, at the
      same moment. -/
  own : ∀ e ending, service.Run false 0 s e (.inr ending) → (∀ S ∈ plan.signal, e < S) →
    orders trail = [] ∧ ∀ t v, (t, .over v) ∈ trail → t = e ∧ v = .ended ending
  /-- A service that is running at the signal is cancelled then, in whatever state it is.  If it
      exits within its grace, that exit is the verdict; if not, the verdict is `unresponsive
      plan.grace` at the end of the grace. -/
  cancelled : ∀ S ∈ plan.signal, (∀ e ending, service.Run false 0 s e (.inr ending) → S < e) →
    ∀ t v, (t, .over v) ∈ trail → orders trail = [S] ∧
      ∃ a, service.Run false 0 s S (.inl a) ∧
        (∀ e ending, service.Run true S a e (.inr ending) → e < S + plan.grace →
          t = e ∧ v = .ended ending) ∧
        ((∀ e ending, service.Run true S a e (.inr ending) → S + plan.grace < e) →
          t = S + plan.grace ∧ v = .unresponsive plan.grace)
  /-- The token is cancelled at the signal and at no other moment; an undecided watch that has not
      cancelled it is not behind the signal. -/
  punctual : (orders trail = [] ∧ (Undecided trail → ∀ S ∈ plan.signal, now ≤ S)) ∨
    ∃ S ∈ plan.signal, orders trail = [S]
  /-- The verdict is not later than `S + plan.grace`, and an undecided watch is not either. -/
  graced : ∀ S ∈ plan.signal, (∀ t v, (t, .over v) ∈ trail → t ≤ S + plan.grace) ∧
    (Undecided trail → now ≤ S + plan.grace)
  /-- No `watchStep` and no `serviceStep` follows a verdict. -/
  last : ∀ t v, (t, .over v) ∈ trail → trail.getLast? = some (t, .over v)
  /-- Without a signal, only an exit of the service is a verdict. -/
  unsignalled : plan.signal = none → ∀ t v, (t, .over v) ∈ trail →
    ∃ ending, service.Run false 0 s t (.inr ending) ∧ v = .ended ending
  /-- Only `.ended .done` is reported as `.ok`, and a failure of the service with its own text. -/
  reported : ∀ t v, (t, .over v) ∈ trail → ∀ task, (v.report task = .ok () ↔ v = .ended .done) ∧
    ∀ text, v = .ended (.failed text) → v.report task = .error text
  /-- A verdict comes, if there is a signal or the service exits by itself. -/
  returns : service.Settles →
    (plan.signal.isSome ∨ ∃ e ending, service.Run false 0 s e (.inr ending)) →
    ∃ more later x, Course service plan s (trail ++ more) later x ∧
      ∃ t v, (t, .over v) ∈ trail ++ more

/-- An exit before the signal is the verdict. -/
theorem Timetable.before_signal (kept : Timetable service plan s t v cancelled) {t' : Nat}
    (ends : service.Run false 0 s t' (.inr e)) (before : ∀ S ∈ plan.signal, t' < S) :
    t = t' ∧ v = .ended e := by
  cases kept with
  | early ends' _ =>
    obtain ⟨rfl, rfl⟩ := ends.leads ends'
    exact ⟨rfl, rfl⟩
  | inTime signal alive => exact absurd (ends.le_of_ends alive) (Nat.not_le.mpr (before _ signal))
  | dropped signal alive => exact absurd (ends.le_of_ends alive) (Nat.not_le.mpr (before _ signal))

/-- A service that is running at the signal is cancelled then, and has `plan.grace` to exit. -/
theorem Timetable.after_signal (kept : Timetable service plan s t v cancelled)
    (signal : plan.signal = some S) (behind : ∀ t e, service.Run false 0 s t (.inr e) → S < t) :
    cancelled = [S] ∧ ∃ a, service.Run false 0 s S (.inl a) ∧
      (∀ t' e, service.Run true S a t' (.inr e) → t' < S + plan.grace → t = t' ∧ v = .ended e) ∧
      ((∀ t' e, service.Run true S a t' (.inr e) → S + plan.grace < t') →
        t = S + plan.grace ∧ v = .unresponsive plan.grace) := by
  cases kept with
  | early ends before => exact absurd (behind _ _ ends) (Nat.not_lt.mpr (before S signal))
  | inTime signal' alive ends within =>
    obtain rfl := Option.some.inj (signal.symm.trans signal')
    refine ⟨rfl, _, alive, fun t' e ends' _ => ?_, fun late => ?_⟩
    · obtain ⟨rfl, rfl⟩ := ends'.leads ends
      exact ⟨rfl, rfl⟩
    · exact absurd (late _ _ ends) (Nat.not_lt.mpr within)
  | dropped signal' alive lasts =>
    obtain rfl := Option.some.inj (signal.symm.trans signal')
    refine ⟨rfl, _, alive, fun t' e ends within => ?_, fun _ => ⟨rfl, rfl⟩⟩
    exact absurd (ends.le_of_ends lasts) (Nat.not_le.mpr within)

theorem Timetable.le (kept : Timetable service plan s t v cancelled) :
    ∀ S ∈ plan.signal, t ≤ S + plan.grace := by
  intro S here
  cases kept with
  | early _ before => exact Nat.le_trans (before S here) (Nat.le_add_right _ _)
  | inTime signal _ _ within =>
    obtain rfl := Option.some.inj (here.symm.trans signal)
    exact within
  | dropped signal =>
    obtain rfl := Option.some.inj (here.symm.trans signal)
    exact Nat.le_refl _

/-- **Every course keeps the contract**, for any `service.step` and any order of `watchStep` and
    `serviceStep`. -/
theorem watch_contract (course : Course service plan s trail now x) :
    Contract service plan s trail now where
  own e ending ends before := by
    refine ⟨?_, fun t v here => (course.tracks.verdict here).2.before_signal ends before⟩
    rcases course.tracks.ordered with ⟨untold, -⟩ | ⟨S, signal, -, a, alive⟩
    · exact untold
    · exact absurd (ends.le_of_ends alive) (Nat.not_le.mpr (before S signal))
  cancelled S signal behind t v here := (course.tracks.verdict here).2.after_signal signal behind
  punctual := by
    rcases course.tracks.ordered with untold | ⟨S, signal, cancelled, -⟩
    · exact .inl untold
    · exact .inr ⟨S, signal, cancelled⟩
  graced S signal := ⟨fun t v here => (course.tracks.verdict here).2.le S signal,
    fun undecided => (course.tracks.le undecided).1 S signal⟩
  last t v here := (course.tracks.verdict here).1
  unsignalled none t v here := by
    have kept := (course.tracks.verdict here).2
    generalize orders trail = cancelled at kept
    cases kept with
    | early ends => exact ⟨_, ends, rfl⟩
    | inTime signal => exact nomatch none.symm.trans signal
    | dropped signal => exact nomatch none.symm.trans signal
  reported _ v _ task := report_own task v
  -- The verdict comes by the end of the grace, or where no signal comes by the end of the service.
  returns settles bounded := by
    cases signal : plan.signal with
    | some S =>
      exact course.comes_to_verdict settles fun on undecided => (on.tracks.le undecided).1 S signal
    | none =>
      obtain signalled | ⟨e, ending, ends⟩ := bounded
      · rw [signal] at signalled
        cases signalled
      · exact course.comes_to_verdict settles fun on undecided =>
          (on.tracks.le undecided).2 signal e ending ends

/-- A service that exits one millisecond after its token is cancelled, with a grace of two. -/
theorem watch_contract_polite :
    Contract (Vigil.service ⟨none, .done, some 1, .done⟩) ⟨some 3, 2⟩ ⟨none⟩
      [(3, .cancelled), (3, .worked), (4, .ended .done), (4, .over (.ended .done))] 4 := by
  have signalled : Course (Vigil.service ⟨none, .done, some 1, .done⟩) ⟨some 3, 2⟩ ⟨none⟩ [] 3
      (.start ⟨none⟩) :=
    Course.start.wait (by decide) fun moment _ before => ⟨if_neg (Nat.not_le.mpr before), rfl⟩
  have cancelled := signalled.watch (y := ⟨.stopping 5, .inl ⟨none⟩⟩) rfl
  have leaving := cancelled.serve (y := ⟨.stopping 5, .inl ⟨some 3⟩⟩) rfl
  have waited := leaving.wait (show 3 < 4 by decide) fun moment from_now before => by
    obtain rfl : moment = 3 := by omega
    exact ⟨rfl, rfl⟩
  have ended := waited.serve (y := ⟨.stopping 5, .inr .done⟩) rfl
  exact watch_contract (ended.watch (y := ⟨.over (.ended .done), .inr .done⟩) rfl)

end Supervisor

end Relayer
