import Relayer.Rehearsal.Clockwork
import Relayer.Rehearsal.Script
import Relayer.Send.Lease

namespace Relayer

/-!
# Lineup — requests for leases, one order after the other

* `Lineup` — the requests of a run and the slots they ask for;
* `Lineup.Order` / `Lineup.Report` — what is done at one moment, and what has come of it;
* `Lineup.rehearse` — a whole run.
-/

namespace Lineup

/-! ### The state -/

/-- What has become of a request. -/
inductive Standing where
  | waiting (a : Acquire)
  | granted (lease : Lease)
  | failed (f : Failure)
  /-- Its lease was used up. -/
  | spent

/-- A request under its name. -/
structure Request where
  name : String
  account : Address
  standing : Standing
  /-- Whether its answer was reported. -/
  reported : Bool

/-- Whether a request still waits. -/
def Request.isWaiting (r : Request) : Bool :=
  match r.standing with
  | .waiting _ => true
  | _ => false

/-- The lease that a request was granted. -/
def Request.lease? (r : Request) : Option Lease :=
  match r.standing with
  | .granted lease => some lease
  | _ => none

/-- The answer to a request, once there is one. -/
def Request.answer? (r : Request) : Option (Except Failure UInt64) :=
  match r.standing with
  | .granted lease => some (.ok lease.nonce)
  | .failed f => some (.error f)
  | _ => none

end Lineup

/-- The requests of a run in the order in which they were made. -/
structure Lineup where
  requests : List Lineup.Request
  leases : Leases
  record : Record

namespace Lineup

/-- Nobody has asked for anything. -/
def empty : Lineup := ⟨[], .empty, .empty⟩

/-! ### Waiting -/

/-- One step of the first request in a list that can make one. -/
def stepFirst (chain : Chain Record) (now : Nat) (leases : Leases) (record : Record) :
    List Request → Option (List Request × Leases × Record)
  | [] => none
  | r :: rest =>
    let stepped := match r.standing with
      | .waiting a => a.step chain r.account now leases record
      | _ => none
    match stepped with
    | some (.waiting a, leases, record) =>
      some ({ r with standing := .waiting a } :: rest, leases, record)
    | some (.granted lease, leases, record) =>
      some ({ r with standing := .granted lease } :: rest, leases, record)
    | some (.failed f, leases, record) =>
      some ({ r with standing := .failed f } :: rest, leases, record)
    | none =>
      match stepFirst chain now leases record rest with
      | some (rest, leases, record) => some (r :: rest, leases, record)
      | none => none

/-- The requests by the clock. -/
def clock (chain : Chain Record) : Clockwork.System Lineup where
  step now x :=
    match stepFirst chain now x.leases x.record x.requests with
    | some (requests, leases, record) => some ⟨requests, leases, record⟩
    | none => none
  alarms x := x.requests.flatMap fun r => match r.standing with
    | .waiting a => a.alarms
    | _ => []

/-! ### Orders -/

/-- What can be done. -/
inductive Order where
  | acquire (name : String) (account : Address)
  /-- Give up a request that still waits. -/
  | abort (name : String)
  | commit (name : String)
  | resync (name : String)
  | drop (name : String)
  /-- Look at the next nonce, with one millisecond of patience. -/
  | peek (account : Address)
  | isLeased (account : Address)
  | sleep (ms : Nat)

/-- What an order itself answers. -/
inductive Note where
  | nothing
  /-- There is no lease of that name. -/
  | missing
  | fault (f : Fault)
  | next (nonce : Option UInt64)
  | blocked
  | leased (b : Bool)

/-- What is known one millisecond after an order. -/
structure Report where
  note : Note
  /-- The requests answered since the last report. -/
  answered : List (String × Except Failure UInt64)
  waiting : List String

/-- The requests without the waiting ones of that name. -/
def withoutWaiting (x : Lineup) (name : String) : Lineup :=
  x.requests.foldl (fun x r =>
    match r.standing with
    | .waiting a =>
      if r.name = name then { x with leases := a.abandon r.account x.leases }
      else { x with requests := x.requests ++ [r] }
    | _ => { x with requests := x.requests ++ [r] }) { x with requests := [] }

/-- Use up the lease of that name. -/
def spend (x : Lineup) (name : String) (use : Lease → Leases → Note × Leases) : Note × Lineup :=
  match x.requests.findSome? fun r => if r.name = name then r.lease? else none with
  | none => (.missing, x)
  | some lease =>
    let (note, leases) := use lease x.leases
    (note, { x with
      leases
      requests := x.requests.map fun r =>
        if r.name = name ∧ r.lease? = some lease then { r with standing := .spent } else r })

/-- Look at the next nonce: at once for an account that nobody has asked for, else after a place in
    line. -/
def look (chain : Chain Record) (account : Address) (now : Nat) (x : Lineup) :
    Note × Nat × Lineup :=
  match x.leases.slot? account with
  | none => (.next none, now, x)
  | some _ =>
    let (ticket, leases) := x.leases.ask account
    let x := { x with leases }
    if x.leases.holds account ticket then
      let leases := x.leases.leave account ticket
      (.next (leases.slot account).next, now, { x with leases })
    else
      let x := Clockwork.pass (clock chain) (now + 1) now x
      let leases := x.leases.leave account ticket
      let note := if x.leases.holds account ticket then .next (leases.slot account).next
        else .blocked
      (note, now + 1, { x with leases })

/-- Carry out an order; the number is the moment at which it is done. -/
def obey (chain : Chain Record) (now : Nat) (x : Lineup) : Order → Note × Nat × Lineup
  | .acquire name account =>
    (.nothing, now, { x with requests := x.requests ++ [⟨name, account, .waiting .start, false⟩] })
  | .abort name => (.nothing, now, x.withoutWaiting name)
  | .commit name =>
    let (note, x) := x.spend name fun lease l => match lease.commit l with
      | .ok l => (.nothing, l)
      | .error f => (.fault f, lease.release l)
    (note, now, x)
  | .resync name =>
    let (note, x) := x.spend name fun lease l => (.nothing, lease.resync l)
    (note, now, x)
  | .drop name =>
    let (note, x) := x.spend name fun lease l => (.nothing, lease.release l)
    (note, now, x)
  | .peek account => x.look chain account now
  | .isLeased account => (.leased (x.leases.isLeased account), now, x)
  | .sleep ms => (.nothing, now + ms, Clockwork.pass (clock chain) (now + ms) now x)

/-- What is to be reported, and the requests with their answers reported. -/
def report (note : Note) (x : Lineup) : Report × Lineup :=
  (⟨note,
    x.requests.filterMap fun r => if r.reported then none else r.answer?.map (r.name, ·),
    (x.requests.filter (·.isWaiting)).map (·.name)⟩,
    { x with
      requests := x.requests.map fun r => { r with reported := r.reported || !r.isWaiting } })

/-- Orders one after the other, one millisecond after each.  The result is a report for each order
    and what the chain was asked. -/
def rehearseFrom (chain : Chain Record) (now : Nat) (x : Lineup) :
    List Order → List Report × Record
  | [] => ([], x.record)
  | order :: rest =>
    let (note, done, x) := x.obey chain now order
    let (report, x) := report note (Clockwork.pass (clock chain) (done + 1) done x)
    let (reports, record) := rehearseFrom chain (done + 1) x rest
    (report :: reports, record)

/-- A whole run. -/
def rehearse (chain : Chain Record) (orders : List Order) : List Report × Record :=
  rehearseFrom chain 0 .empty orders

end Lineup

end Relayer
