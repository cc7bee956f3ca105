import Relayer.Gateway.Basic
import Relayer.Rehearsal.Clockwork
import Relayer.Rehearsal.Script

namespace Relayer

/-!
# Session — sends, queues and visits side by side

* `Session` — everything that runs for one account: its slots, its queues and its tasks;
* `Session.Order` / `Session.Reply` — what is done at one moment, and what it answers;
* `Session.rehearse` — a whole run.
-/

/-! ### Tasks -/

/-- What comes of a task. -/
inductive Task.Result where
  | receipt (r : Except Stop Receipt)
  | response (r : Response)
  | lease (r : Except Failure Lease)

/-- What a task is at. -/
inductive Task.Work where
  | sending (s : Send)
  /-- Waiting for the answer of a queue. -/
  | calling (queue : Nat) (ticket : Ticket)
  | visiting (queue : Nat) (v : Visit)
  | leasing (a : Acquire)
  | over (r : Task.Result)

/-- A task under its name, with its cancellation. -/
structure Task where
  name : String
  work : Task.Work
  cancelled : Bool
  cancelAt : Option Nat

namespace Task

/-- A task that is never cancelled. -/
def ofWork (name : String) (work : Work) : Task := ⟨name, work, false, none⟩

/-- What came of a task, once it is over. -/
def result? (t : Task) : Option Result :=
  match t.work with
  | .over r => some r
  | _ => none

/-- Whether the token of a task is cancelled. -/
def isCancelled (t : Task) (now : Nat) : Bool :=
  t.cancelled || (match t.cancelAt with
    | some moment => moment ≤ now
    | none => false)

end Task

/-! ### The state -/

/-- Everything that runs for one account. -/
structure Session where
  desk : Desk Record
  leases : Leases
  record : Record
  /-- The queues in the order in which they were opened; the newest one takes the calls. -/
  queues : List Queue
  /-- Whether the newest queue can be called. -/
  isOpen : Bool
  /-- Tasks in the background in the order in which they were started. -/
  tasks : List Task
  /-- The task that is being waited for. -/
  front : Option Task
  /-- A lease that is held by hand. -/
  held : Option Lease

namespace Session

/-- Nothing runs yet. -/
def fresh (desk : Desk Record) (record : Record) : Session where
  desk
  leases := .empty
  record
  queues := []
  isOpen := false
  tasks := []
  front := none
  held := none

/-- The account of the session. -/
def account (x : Session) : Address := x.desk.signer.address

/-- Change the queue of that index. -/
def modifyQueue (x : Session) (i : Nat) (f : Queue → Queue) : Session :=
  { x with queues := x.queues.modify i f }

/-- The index of the newest queue. -/
def newest (x : Session) : Nat := x.queues.length - 1

/-- The newest queue, while it can be called. -/
def queue? (x : Session) : Option Queue := if x.isOpen then x.queues.getLast? else none

/-! ### Steps -/

/-- One step of the first queue in a list that can make one. -/
def stepQueues (desk : Desk Record) (now : Nat) (leases : Leases) (record : Record) :
    List Queue → Option (List Queue × Leases × Record)
  | [] => none
  | q :: rest =>
    match q.step desk now leases record with
    | some (q, leases, record) => some (q :: rest, leases, record)
    | none =>
      match stepQueues desk now leases record rest with
      | some (rest, leases, record) => some (q :: rest, leases, record)
      | none => none

/-- One step of a task, where it can make one.  A task that is over lets go of its queue. -/
def stepTask (now : Nat) (t : Task) (x : Session) : Option (Task × Session) :=
  match t.work with
  | .over _ => none
  | .sending s =>
    match s.step x.desk (t.isCancelled now) now x.leases x.record with
    | none => none
    | some (.running s, leases, record) =>
      some ({ t with work := .sending s }, { x with leases, record })
    | some (.ended r, leases, record) =>
      some ({ t with work := .over (.receipt r) }, { x with leases, record })
  | .calling i ticket =>
    match x.queues[i]?.bind (·.answer? ticket) with
    | none => none
    | some r =>
      some ({ t with work := .over (.receipt (r.mapError .failure)) },
        x.modifyQueue i (·.release))
  | .visiting i (.answered r) =>
    some ({ t with work := .over (.response r) }, x.modifyQueue i (·.release))
  | .visiting i v =>
    match x.queues[i]?.bind fun q => v.step x.desk (now / 1000) x.leases q with
    | none => none
    | some (v, leases) => some ({ t with work := .visiting i v }, { x with leases })
  | .leasing a =>
    match a.step x.desk.chain x.account now x.leases x.record with
    | none => none
    | some (.waiting a, leases, record) =>
      some ({ t with work := .leasing a }, { x with leases, record })
    | some (.granted lease, leases, record) =>
      some ({ t with work := .over (.lease (.ok lease)) }, { x with leases, record })
    | some (.failed f, leases, record) =>
      some ({ t with work := .over (.lease (.error f)) }, { x with leases, record })

/-- One step of the first task in a list that can make one; `done` are the ones before it. -/
def stepTasks (now : Nat) (x : Session) (done : List Task) : List Task → Option Session
  | [] => none
  | t :: rest =>
    match stepTask now t x with
    | some (t, x) => some { x with tasks := done ++ t :: rest }
    | none => stepTasks now x (done ++ [t]) rest

/-- One step of the task that is being waited for. -/
def stepFront (now : Nat) (x : Session) : Option Session :=
  match x.front with
  | none => none
  | some t =>
    match stepTask now t x with
    | some (t, x) => some { x with front := some t }
    | none => none

/-- One step, where one is possible: first the queues, then the tasks, then the one that is being
    waited for. -/
def step (now : Nat) (x : Session) : Option Session :=
  match stepQueues x.desk now x.leases x.record x.queues with
  | some (queues, leases, record) => some { x with queues, leases, record }
  | none => (stepTasks now x [] x.tasks).or (stepFront now x)

/-- The moments at which a task may go on. -/
def taskAlarms (policy : Policy) (t : Task) : List Nat :=
  t.cancelAt.toList ++ match t.work with
    | .sending s => s.alarms policy
    | .leasing a => a.alarms
    | _ => []

/-- The session by the clock. -/
def clock : Clockwork.System Session where
  step
  alarms x :=
    x.queues.flatMap (·.alarms x.desk.policy) ++ x.tasks.flatMap (taskAlarms x.desk.policy) ++
      x.front.toList.flatMap (taskAlarms x.desk.policy)

/-! ### Dropping -/

/-- A task is dropped in the middle of its work. -/
def abandon (t : Task) (x : Session) : Session :=
  match t.work with
  | .over _ => x
  | .sending s => { x with leases := s.abandon x.account x.leases }
  | .calling i ticket => x.modifyQueue i fun q => (q.leave ticket).release
  | .visiting i v =>
    let leases := match x.queues[i]? with
      | some q => (v.abandon x.account x.leases q).1
      | none => x.leases
    { x with leases }.modifyQueue i fun q => (v.abandon x.account leases q).2.release
  | .leasing a => { x with leases := a.abandon x.account x.leases }

/-- Drop the tasks of that name. -/
def abort (name : String) (x : Session) : Session :=
  (x.tasks.filter (·.name = name)).foldl (fun x t => abandon t x)
    { x with tasks := x.tasks.filter (·.name ≠ name) }

/-! ### Orders -/

/-- What a lease that is held by hand is given back as. -/
inductive Return where
  | unused
  | used
  | stale

/-- What can be done. -/
inductive Order where
  /-- Send a call and wait for its end; its token may be cancelled after so many milliseconds. -/
  | send (call : Call) (cancelAfter : Option Nat)
  | spawn (name : String) (call : Call) (cancelAfter : Option Nat)
  | cancel (name : String)
  | abort (name : String)
  | join (name : String)
  | finished
  | sleep (ms : Nat)
  /-- Take the lease by hand, with one millisecond of patience. -/
  | hold
  | release (how : Return)
  | openQueue (buffer : Nat)
  | enqueue (name : String) (call : Call)
  | tryEnqueue (name : String) (call : Call)
  | shutDown
  | dropQueue
  | joinWorker
  | visit (r : Request)
  | spawnVisit (name : String) (r : Request)
  | view

/-- A look at a session. -/
structure View where
  leased : Bool
  next : Option UInt64
  account : Address
  chainId : UInt64
  /-- All places and free places of the queue. -/
  places : Option (Nat × Nat)

/-- What an order answers. -/
inductive Reply where
  | nothing
  | result (r : Task.Result)
  /-- It took longer than allowed and was dropped. -/
  | hang
  /-- There is no task of that name. -/
  | missing
  /-- The worker has stopped. -/
  | stopped
  | names (names : List String)
  | blocked
  | view (v : View)

/-- What an order answers, and when. -/
structure Report where
  time : Nat
  reply : Reply

/-- Let time pass. -/
def pass (ms now : Nat) (x : Session) : Report × Session :=
  (⟨now + ms, .nothing⟩, Clockwork.pass clock (now + ms) now x)

/-- Wait for a task in front, at most until `last`. -/
def await (last now : Nat) (t : Task) (x : Session) (late : Reply) : Report × Session :=
  let isOver (x : Session) : Bool := match x.front with
    | some t => t.result?.isSome
    | none => true
  let (ended, x) := Clockwork.run clock isOver last now { x with front := some t }
  match ended, x.front.bind (·.result?) with
  | some time, some r => (⟨time, .result r⟩, { x with front := none })
  | _, _ => (⟨last, late⟩, x.front.toList.foldl (fun x t => abandon t x) { x with front := none })

/-- Wait for a task in the background, at most until `last`. -/
def join (last now : Nat) (name : String) (x : Session) : Report × Session :=
  let over? (x : Session) : Option Task.Result :=
    (x.tasks.find? (·.name = name)).bind (·.result?)
  if x.tasks.any (·.name = name) then
    let (ended, x) := Clockwork.run clock (fun x => (over? x).isSome) last now x
    match ended, over? x with
    | some time, some r => (⟨time, .result r⟩, x.abort name)
    | _, _ => (⟨last, .hang⟩, x.abort name)
  else (⟨now, .missing⟩, x)

/-- Start a task in the background. -/
def spawn (now : Nat) (t : Task) (x : Session) : Report × Session :=
  pass 1 now { x with tasks := x.tasks ++ [t] }

/-- A call goes into the newest queue. -/
def putIn (offer : Queue → Ticket × Queue) (x : Session) : Task.Work × Session :=
  match x.queue? with
  | none => (.over (.receipt (.error (.failure .queueClosed))), x)
  | some q =>
    let (ticket, q) := offer q.retain
    (.calling x.newest ticket, x.modifyQueue x.newest fun _ => q)

/-- A request goes to the gateway in front of the newest queue. -/
def callOn (r : Request) (x : Session) : Task.Work × Session :=
  match x.queue? with
  | none => (.over (.response ⟨503, none⟩), x)
  | some q =>
    let (v, leases, q) := Visit.start x.desk r x.leases q.retain
    (.visiting x.newest v, { x with leases }.modifyQueue x.newest fun _ => q)

/-- Take the lease by hand. -/
def hold (now : Nat) (x : Session) : Report × Session :=
  let (report, x) := await (now + 2) now (.ofWork "" (.leasing .start)) x .blocked
  match report.reply with
  | .result (.lease (.ok lease)) => (report, { x with held := some lease })
  | .blocked => (⟨now + 1, .blocked⟩, x)
  | _ => (report, x)

/-- Give the lease held by hand back. -/
def giveBack (how : Return) (x : Session) : Session :=
  match x.held with
  | none => x
  | some lease =>
    let leases := match how with
      | .unused => lease.release x.leases
      | .stale => lease.resync x.leases
      | .used => match lease.commit x.leases with
        | .ok leases => leases
        | .error _ => lease.release x.leases
    { x with leases, held := none }

/-- Look at the session. -/
def look (x : Session) : View where
  leased := x.leases.isLeased x.account
  next := (x.leases.slot x.account).next
  account := x.account
  chainId := x.desk.chainId
  places := x.queue?.map fun q => (q.capacity, q.available)

/-- Whether the worker of the newest queue has stopped. -/
def isStopped (x : Session) : Bool :=
  match x.queues.getLast? with
  | some q => q.isClosed
  | none => true

/-- Carry out an order that may take up to `limit` milliseconds. -/
def obey (limit now : Nat) (x : Session) : Order → Report × Session
  | .send call cancelAfter =>
    let t := Task.ofWork "" (.sending (.start x.desk.policy call now))
    await (now + limit) now { t with cancelAt := cancelAfter.map (now + ·) } x .hang
  | .spawn name call cancelAfter =>
    let t := Task.ofWork name (.sending (.start x.desk.policy call now))
    spawn now { t with cancelAt := cancelAfter.map (now + ·) } x
  | .cancel name =>
    (⟨now, .nothing⟩, { x with
      tasks := x.tasks.map fun t => if t.name = name then { t with cancelled := true } else t })
  | .abort name => (⟨now, .nothing⟩, x.abort name)
  | .join name => join (now + limit) now name x
  | .finished =>
    let names := (x.tasks.filter (·.result?.isSome)).map (·.name)
    (⟨now, .names (names.mergeSort (· ≤ ·))⟩, x)
  | .sleep ms => pass ms now x
  | .hold => hold now x
  | .release how => pass 1 now (x.giveBack how)
  | .openQueue buffer =>
    let x := if x.isOpen then x.modifyQueue x.newest (·.release) else x
    pass 1 now { x with queues := x.queues ++ [.ofBuffer buffer], isOpen := true }
  | .enqueue name call =>
    let (work, x) := x.putIn (·.offer call)
    spawn now (.ofWork name work) x
  | .tryEnqueue name call =>
    let (work, x) := x.putIn (·.tryOffer call)
    spawn now (.ofWork name work) x
  | .shutDown => pass 1 now (x.modifyQueue x.newest fun q => { q with shutdown := true })
  | .dropQueue =>
    let x := if x.isOpen then x.modifyQueue x.newest (·.release) else x
    pass 1 now { x with isOpen := false }
  | .joinWorker =>
    match Clockwork.run clock isStopped (now + limit) now x with
    | (some time, x) => (⟨time, .stopped⟩, x)
    | (none, x) => (⟨now + limit, .hang⟩, x)
  | .visit r =>
    let (work, x) := x.callOn r
    await (now + limit) now (.ofWork "" work) x .hang
  | .spawnVisit name r =>
    let (work, x) := x.callOn r
    spawn now (.ofWork name work) x
  | .view => (⟨now, .view x.look⟩, x)

/-- Orders one after the other: what each answers, and what the chain was asked. -/
def rehearseFrom (limit now : Nat) (x : Session) : List Order → List Report × Record
  | [] => ([], x.record)
  | order :: rest =>
    let (report, x) := x.obey limit now order
    let (reports, record) := rehearseFrom limit report.time x rest
    (report :: reports, record)

/-- A whole run.  A policy that is not valid, or a chain that does not say which one it is, ends it
    before it begins. -/
def rehearse (policy : Policy) (chain : Chain Record) (signer : Signer Record) (limit : Nat)
    (orders : List Order) : Except Failure (List Report × Record) := do
  policy.validate
  let (reply, record) := chain.chainId 0 .empty
  let chainId ← reply.answer
  let start := .fresh ⟨policy, chain, signer, chainId⟩ record
  return rehearseFrom limit (reply.due.getD 0) start orders

end Session

end Relayer
