import Relayer.Rehearsal.Clockwork
import Relayer.Rehearsal.Script
import Relayer.Send.Basic

namespace Relayer.Solo

/-!
# Solo — one part of a send at a time, by the clock

* `retry` — one question;
* `track` — one tracker;
* `escalate` — one escalation.
-/

/-! ### One question -/

/-- The calls made so far. -/
structure Calls where
  count : Nat
  /-- Their moments, the latest first. -/
  moments : List Nat

/-- A question under way. -/
structure Asking where
  question : Retry Nat
  calls : Calls
  result : Option (Except Failure Nat)

/-- A call whose answers come in order, the last one repeating. -/
def answerNth (answers : List (Entry Nat)) (now : Nat) (calls : Calls) :
    Pending (Except Failure Nat) × Calls :=
  let after : Calls := ⟨calls.count + 1, now :: calls.moments⟩
  match Script.nth? answers calls.count with
  | some e => (⟨e.answer, some (now + e.latency)⟩, after)
  | none => (.immediate now (.ok 0), after)

/-- A question by the clock. -/
def asking (answers : List (Entry Nat)) (interval : Nat) (deadline cancelAt : Option Nat) :
    Clockwork.System Asking where
  step now
    | ⟨_, _, some _⟩ => none
    | ⟨question, calls, none⟩ =>
      let limits : Limits := ⟨Escalation.isPast cancelAt now, deadline⟩
      match question.step (answerNth answers) interval limits now calls with
      | none => none
      | some (.waiting question, calls) => some ⟨question, calls, none⟩
      | some (.answered n, calls) => some ⟨question, calls, some (.ok n)⟩
      | some (.failed f, calls) => some ⟨question, calls, some (.error f)⟩
  alarms a := a.question.alarms ++ deadline.toList ++ cancelAt.toList

/-- A question until it is answered or the limit is reached: the moment and the answer, and the
    moments of the calls. -/
def retry (answers : List (Entry Nat)) (interval : Nat) (deadline cancelAt : Option Nat)
    (limit : Nat) : Option (Nat × Except Failure Nat) × List Nat :=
  let (ended, a) := Clockwork.run (asking answers interval deadline cancelAt)
    (·.result.isSome) limit 0 ⟨.ready, ⟨0, []⟩, none⟩
  (ended.bind fun t => a.result.map (t, ·), a.calls.moments.reverse)

/-! ### One tracker -/

/-- A tracker under way. -/
structure Tracking where
  tracker : Tracker
  record : Record
  /-- Hashes still to be watched, with their moments. -/
  plan : List (Nat × Digest)
  /-- Events with their moments, the latest first. -/
  events : List (Nat × TrackerEvent)
  dropped : Bool

/-- A tracker by the clock. -/
def tracking (script : Script) (dropAt : Option Nat) : Clockwork.System Tracking where
  step now a :=
    if a.dropped then none
    else match a.plan.find? (·.1 ≤ now) with
      | some (t, hash) =>
        some { a with tracker := a.tracker.watch hash, plan := a.plan.erase (t, hash) }
      | none =>
        if Escalation.isPast dropAt now then some { a with dropped := true }
        else match a.tracker.step script.chain now true a.record with
          | some (tracker, event, record) =>
            some { a with
              tracker, record
              events := (event.toList.map ((now, ·))) ++ a.events }
          | none => none
  alarms a := a.tracker.alarms ++ a.plan.map (·.1) ++ dropAt.toList

/-- A tracker until no event can follow or the limit is reached: the moment of its end, if it ended,
    the events with their moments, and what the node was asked. -/
def track (script : Script) (depth period : Nat) (plan : List (Nat × Digest))
    (dropAt : Option Nat) (limit : Nat) :
    Option Nat × List (Nat × TrackerEvent) × Record :=
  let (ended, a) := Clockwork.run (tracking script dropAt)
    (fun a => a.dropped || a.tracker.isClosed) limit 0
    ⟨.start depth period 0, .empty, plan, [], false⟩
  (ended, a.events.reverse, a.record)

/-! ### One escalation -/

/-- An escalation under way, or its result. -/
structure Escalating where
  state : Escalation ⊕ Except Stop Receipt
  record : Record

/-- An escalation by the clock. -/
def escalating (desk : Desk Record) (deadline cancelAt : Option Nat) :
    Clockwork.System Escalating where
  step now a :=
    match a.state with
    | .inr _ => none
    | .inl e =>
      match e.step desk ⟨Escalation.isPast cancelAt now, deadline⟩ now a.record with
      | none => none
      | some (.running e, record) => some ⟨.inl e, record⟩
      | some (.ended result, record) => some ⟨.inr result, record⟩
  alarms a :=
    match a.state with
    | .inr _ => []
    | .inl e => e.alarms desk.policy ⟨false, deadline⟩ ++ cancelAt.toList

/-- What came of an escalation. -/
def resultOf : Escalation ⊕ Except Stop Receipt → Option (Except Stop Receipt)
  | .inl _ => none
  | .inr result => some result

/-- An escalation until its end or the limit: the moment and the result, and what the node was
    asked. -/
def escalate (desk : Desk Record) (call : Call) (nonce : UInt64) (gasLimit bid : Amount)
    (cancelAt : Option Nat) (limit : Nat) : Option (Nat × Except Stop Receipt) × Record :=
  match Escalation.start desk.policy call nonce gasLimit bid 0 with
  | .error f => (some (0, .error (.fault f)), .empty)
  | .ok e =>
    let (ended, a) := Clockwork.run (escalating desk desk.policy.sendTimeout cancelAt)
      (fun a => (resultOf a.state).isSome) limit 0 ⟨.inl e, .empty⟩
    (ended.bind fun t => (resultOf a.state).map (t, ·), a.record)

end Relayer.Solo
