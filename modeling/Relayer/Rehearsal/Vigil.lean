import Relayer.Rehearsal.Clockwork
import Relayer.Supervisor

namespace Relayer.Vigil

/-!
# Vigil — a service by the book under watch

* `Manners` — when a service exits by itself, and what it does when its token is cancelled;
* `watch` — such a service under a supervisor, by the clock.
-/

/-- What a service does when its token is cancelled. -/
structure Farewell where
  /-- How long it takes; without a time it goes on forever. -/
  delay : Option Nat
  ending : Service.Ending

/-- What a service does. -/
structure Manners where
  /-- When it exits by itself, and how. -/
  exit : Option Nat
  ending : Service.Ending
  farewell : Farewell

/-- A service by the book: since when it has observed its token cancelled. -/
structure Polite where
  cancelledAt : Option Nat

/-- Whether a moment has come. -/
def hasCome (t : Option Nat) (now : Nat) : Bool :=
  match t with
  | some t => t ≤ now
  | none => false

/-- The end of the farewell of a service. -/
def lastMoment (m : Manners) (s : Polite) : Option Nat :=
  match s.cancelledAt, m.farewell.delay with
  | some t, some delay => some (t + delay)
  | _, _ => none

/-- The service of such manners.  Once its token is cancelled it does not exit by itself any
    more. -/
def service (m : Manners) : Service Polite where
  step cancelled now s :=
    match s.cancelledAt with
    | some _ => if hasCome (lastMoment m s) now then some (.inr m.farewell.ending) else none
    | none =>
      if cancelled then some (.inl ⟨some now⟩)
      else if hasCome m.exit now then some (.inr m.ending)
      else none
  alarms cancelled s :=
    match s.cancelledAt with
    | some _ => (lastMoment m s).toList
    | none => if cancelled then [] else m.exit.toList

/-- A service under watch, and since when its token was cancelled. -/
structure Scene where
  watched : Supervisor Polite
  cancelledAt : Option Nat

/-- The watch by the clock. -/
def clock (m : Manners) (plan : Supervisor.Plan) : Clockwork.System Scene where
  step now x :=
    (x.watched.step (service m) plan now).map fun w =>
      ⟨w, match w.service with
        | .inl s => s.cancelledAt
        | .inr _ => x.cancelledAt⟩
  alarms x := x.watched.alarms (service m) plan

/-- A service under watch until the end of the watch or a limit: the moment and the verdict, and
    when the token was cancelled. -/
def watch (m : Manners) (plan : Supervisor.Plan) (limit : Nat) :
    Option (Nat × Supervisor.Verdict) × Option Nat :=
  let (ended, x) := Clockwork.run (clock m plan) (fun x => x.watched.verdict?.isSome) limit 0
    ⟨.start ⟨none⟩, none⟩
  (ended.bind fun t => x.watched.verdict?.map (t, ·), x.cancelledAt)

end Relayer.Vigil
