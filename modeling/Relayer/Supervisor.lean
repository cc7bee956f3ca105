import Relayer.Text.Duration
import Relayer.Text.Quoted

namespace Relayer

/-!
# Supervisor — a service, the shutdown signal, and the grace it is given

A service runs until it exits by itself or the signal comes.  The signal cancels the token of the
service, which then has `grace` to return.

* `Service` — anything that runs and observes a cancellation token;
* `Supervisor` — one service under watch;
* `Supervisor.step` — one step of the watch or of the service;
* `Supervisor.Verdict` — how the watch ends: `ended`, or `unresponsive`.
-/

/-! ### Services -/

/-- How a service exits by itself. -/
inductive Service.Ending where
  | done
  | failed (text : String)
  /-- It panicked with a message. -/
  | brokeDown (text : String)
  deriving DecidableEq, Repr

/-- A service with states `σ`: its steps, which may depend on whether its token is cancelled, and
    the moments it waits for. -/
structure Service (σ : Type) where
  step : (cancelled : Bool) → Nat → σ → Option (σ ⊕ Service.Ending)
  alarms : (cancelled : Bool) → σ → List Nat

/-! ### The watch -/

/-- How the watch over a service ends. -/
inductive Supervisor.Verdict where
  | ended (e : Service.Ending)
  /-- The service was aborted at the end of its grace. -/
  | unresponsive (grace : Nat)
  deriving DecidableEq, Repr

/-- The watch: at first for the exit of the service and the signal, then for its exit and the end of
    its grace. -/
inductive Supervisor.Phase where
  | watching
  | stopping (deadline : Nat)
  | over (v : Supervisor.Verdict)
  deriving DecidableEq, Repr

/-- When the shutdown signal comes, and how much time the service then has to return. -/
structure Supervisor.Plan where
  signal : Option Nat
  grace : Nat
  deriving DecidableEq, Repr

/-- A service under watch. -/
structure Supervisor (σ : Type) where
  phase : Supervisor.Phase
  /-- The service, or how it exited. -/
  service : σ ⊕ Service.Ending

namespace Supervisor

variable {σ : Type}

/-- The start of a service, with its token uncancelled. -/
def start (s : σ) : Supervisor σ := ⟨.watching, .inl s⟩

/-- Whether the token of the service is cancelled. -/
def isCancelled (x : Supervisor σ) : Bool :=
  match x.phase with
  | .watching => false
  | _ => true

/-- How the watch ended, once it has. -/
def verdict? (x : Supervisor σ) : Option Verdict :=
  match x.phase with
  | .over v => some v
  | _ => none

/-- One step of the watch, where one is possible.  The exit of the service comes first. -/
def watchStep (plan : Plan) (now : Nat) (x : Supervisor σ) : Option (Supervisor σ) :=
  match x.phase, x.service with
  | .over _, _ => none
  | _, .inr e => some { x with phase := .over (.ended e) }
  | .watching, .inl _ =>
    match plan.signal with
    | some t => if t ≤ now then some { x with phase := .stopping (now + plan.grace) } else none
    | none => none
  | .stopping deadline, .inl _ =>
    if deadline ≤ now then some { x with phase := .over (.unresponsive plan.grace) } else none

/-- One step of the service, where one is possible. -/
def serviceStep (service : Service σ) (now : Nat) (x : Supervisor σ) : Option (Supervisor σ) :=
  match x.phase, x.service with
  | .over _, _ => none
  | _, .inr _ => none
  | _, .inl s => (service.step x.isCancelled now s).map fun s => { x with service := s }

/-- One step, where one is possible: the watch before the service, so that a service whose grace is
    zero is aborted before it observes its token. -/
def step (service : Service σ) (plan : Plan) (now : Nat) (x : Supervisor σ) :
    Option (Supervisor σ) :=
  (x.watchStep plan now).or (x.serviceStep service now)

/-- The moments at which a step may become possible. -/
def alarms (service : Service σ) (plan : Plan) (x : Supervisor σ) : List Nat :=
  (match x.phase with
    | .watching => plan.signal.toList
    | .stopping deadline => [deadline]
    | .over _ => []) ++
  (match x.service with
    | .inl s => service.alarms x.isCancelled s
    | .inr _ => [])

/-- What the watch returns: nothing, or the text of an error.  `task` is the name of the task that
    the service ran in. -/
def Verdict.report (task : String) : Verdict → Except String Unit
  | .ended .done => .ok ()
  | .ended (.failed text) => .error text
  | .ended (.brokeDown text) =>
    .error ("service task failed: task " ++ task ++ " panicked with message " ++ Quoted.quote text)
  | .unresponsive grace => .error ("service unresponsive after " ++ Duration.write grace)

end Supervisor

end Relayer
