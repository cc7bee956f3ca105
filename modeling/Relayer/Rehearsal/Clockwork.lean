import Relayer.Send.Clock

namespace Relayer.Clockwork

/-!
# Clockwork — runs in which waiting is the only thing that takes time

A system makes steps until it has to wait; then the clock jumps to the next moment at which
something may change.

* `settle` — all the steps of one moment;
* `run` — moment after moment, until the system is finished or a limit is reached;
* `pass` — moment after moment, up to a given one.
-/

variable {α : Type}

/-- A system that runs by the clock: its steps at a moment, and the moments it waits for. -/
structure System (α : Type) where
  step : Nat → α → Option α
  alarms : α → List Nat

/-- How many steps one moment may take. -/
def patience : Nat := 1000000

/-- Steps until the system has to wait, at most `fuel` of them. -/
def settleFor (s : System α) (now : Nat) : (fuel : Nat) → α → α
  | 0, a => a
  | fuel + 1, a =>
    match s.step now a with
    | some a => settleFor s now fuel a
    | none => a

/-- Steps until the system has to wait. -/
def settle (s : System α) (now : Nat) (a : α) : α := settleFor s now patience a

/-- The first moment after `now` in a list. -/
def nextAlarm (now : Nat) (alarms : List Nat) : Option Nat :=
  (alarms.filter (now < ·)).min?

/-- The next moment lies ahead. -/
theorem lt_of_nextAlarm {now t : Nat} {alarms : List Nat} (h : nextAlarm now alarms = some t) :
    now < t := by
  have hmem : t ∈ alarms.filter (now < ·) := List.min?_mem h
  simpa using (List.mem_filter.mp hmem).2

/-- Moment after moment from `now` on.  The result is the moment at which the system was finished;
    without one the limit came first, or nothing was left to wait for. -/
def run (s : System α) (finished : α → Bool) (limit : Nat) (now : Nat) (a : α) :
    Option Nat × α :=
  let a := settle s now a
  if finished a then (some now, a)
  else
    match _h : nextAlarm now (s.alarms a) with
    | none => (none, a)
    | some t => if _ : t < limit then run s finished limit t a else (none, a)
termination_by limit - now
decreasing_by
  have hlt : now < t := lt_of_nextAlarm _h
  omega

/-- Moment after moment from `now` on, up to and including `last`. -/
def pass (s : System α) (last now : Nat) (a : α) : α :=
  let a := settle s now a
  match _h : nextAlarm now (s.alarms a) with
  | none => a
  | some t => if _ : t ≤ last then pass s last t a else a
termination_by last + 1 - now
decreasing_by
  have hlt : now < t := lt_of_nextAlarm _h
  omega

end Relayer.Clockwork
