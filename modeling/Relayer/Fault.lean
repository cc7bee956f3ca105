namespace Relayer

/-!
# Fault — what makes a task panic instead of failing it

A failure is an answer; a fault is the end of the task that meets it.  Faults come from bounded
arithmetic, from tickers without a period, and from a collaborator that panics.
-/

/-- The reasons for which a task ends without an answer. -/
inductive Fault where
  /-- A sum of machine words leaves its width. -/
  | integerOverflow
  /-- A product of machine words leaves its width. -/
  | productOverflow
  /-- A sum or product of amounts leaves 256 bits. -/
  | amountOverflow
  /-- An amount is read as a 64-bit word that cannot hold it. -/
  | wordOverflow
  /-- A ticker is asked for with no period. -/
  | zeroPeriod
  /-- A collaborator panics with a message. -/
  | breakdown (text : String)
  deriving DecidableEq, Repr

/-- The text a fault leaves behind. -/
def Fault.message : Fault → String
  | .integerOverflow => "attempt to add with overflow"
  | .productOverflow => "attempt to multiply with overflow"
  | .amountOverflow => "arithmetic operation overflow"
  | .wordOverflow => "Integer overflow when casting to u64"
  | .zeroPeriod => "`period` must be non-zero."
  | .breakdown text => text

/-- One more than a counter below `size`, while it fits. -/
def countUp (size n : Nat) : Except Fault Nat :=
  if n + 1 < size then .ok (n + 1) else .error .integerOverflow

end Relayer
