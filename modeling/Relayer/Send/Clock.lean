namespace Relayer

/-!
# Clock — replies that take time, and interval tickers

Time is counted in whole milliseconds from the start of a run.  Nothing here keeps a clock: the
time is always an argument.

* `Pending` — a reply together with the moment at which it arrives;
* `Ticker` — an interval whose missed ticks are delayed, never made up for.
-/

/-! ### Answers under way -/

/-- A reply that is under way.  Without a moment of arrival, `due`, it never comes. -/
structure Pending (α : Type) where
  answer : α
  due : Option Nat

namespace Pending

variable {α : Type}

/-- A reply that is there at once. -/
def immediate (now : Nat) (answer : α) : Pending α := ⟨answer, some now⟩

/-- The reply, once it has arrived. -/
def ready? (p : Pending α) (now : Nat) : Option α :=
  match p.due with
  | some t => if t ≤ now then some p.answer else none
  | none => none

/-- The moments at which the reply may arrive. -/
def alarms (p : Pending α) : List Nat := p.due.toList

end Pending

/-! ### Timers -/

/-- An interval: when it ticks next, and its period. -/
structure Ticker where
  next : Nat
  period : Nat
  deriving DecidableEq, Repr

namespace Ticker

/-- How late a tick may be noticed for the following ones to stay in step. -/
def slack : Nat := 5

/-- The ticker behind a tick at `now`, or nothing where none is due.  A missed tick delays all that
    follow: the period starts anew at `now`. -/
def tick? (t : Ticker) (now : Nat) : Option Ticker :=
  if t.next ≤ now then
    some { t with next := if t.next + slack < now then now + t.period else t.next + t.period }
  else none

end Ticker

end Relayer
