import Relayer.Send.Basic

namespace Relayer

/-!
# Queue — the buffered submission queue with its single worker

Callers hand calls to a bounded buffer; a single worker feeds them to `Send` in arrival order and
answers each caller.

* `Queue` — the buffer, the callers waiting for buffer space, the worker, and the answers;
* `Queue.offer` / `Queue.tryOffer` / `Queue.leave` — what callers do;
* `Queue.step` — one step of the worker;
* `Queue.stop` — the worker stops, and answers every call that is still queued.
-/

/-! ### The state -/

/-- A queued call under the ticket of its caller. -/
structure Job where
  ticket : Ticket
  call : Call
  deriving DecidableEq, Repr

/-- What the worker is doing. -/
inductive Queue.Worker where
  | idle
  | sending (ticket : Ticket) (s : Send)
  | stopped

/-- A submission queue. -/
structure Queue where
  /-- Slots of the buffer. -/
  capacity : Nat
  /-- Queued calls, the oldest first. -/
  buffer : List Job
  /-- Callers that wait for buffer space, the longest first. -/
  waiting : List Job
  worker : Queue.Worker
  /-- Whether the shutdown token is cancelled. -/
  shutdown : Bool
  /-- How many handles to the queue exist. -/
  handles : Nat
  /-- The outcomes that were sent to callers, by ticket. -/
  answers : List (Ticket × Except Failure Receipt)
  fresh : Ticket

namespace Queue

/-- A queue with an idle worker and one handle.  Its capacity is one at least. -/
def ofBuffer (buffer : Nat) : Queue where
  capacity := max buffer 1
  buffer := []
  waiting := []
  worker := .idle
  shutdown := false
  handles := 1
  answers := []
  fresh := 0

/-- Whether the worker has stopped, so that the channel is closed. -/
def isClosed (q : Queue) : Bool :=
  match q.worker with
  | .stopped => true
  | _ => false

/-- Free buffer slots. -/
def available (q : Queue) : Nat := q.capacity - q.buffer.length

/-- The outcome of a ticket, once it is sent. -/
def answer? (q : Queue) (t : Ticket) : Option (Except Failure Receipt) :=
  (q.answers.find? (·.1 == t)).map (·.2)

/-- Send the caller of a ticket its outcome. -/
def reply (q : Queue) (t : Ticket) (answer : Except Failure Receipt) : Queue :=
  { q with answers := q.answers ++ [(t, answer)] }

/-- Fail several calls alike. -/
def replyAll (q : Queue) (jobs : List Job) (f : Failure) : Queue :=
  { q with answers := q.answers ++ jobs.map fun job => (job.ticket, .error f) }

/-! ### Callers -/

/-- A handle is cloned. -/
def retain (q : Queue) : Queue := { q with handles := q.handles + 1 }

/-- A handle is dropped. -/
def release (q : Queue) : Queue := { q with handles := q.handles - 1 }

/-- A caller queues a call, waiting for buffer space; a stopped worker fails it with
    `queueClosed`. -/
def offer (q : Queue) (call : Call) : Ticket × Queue :=
  let t := q.fresh
  let q := { q with fresh := t + 1 }
  (t,
    if q.isClosed then q.reply t (.error .queueClosed)
    else if q.available = 0 then { q with waiting := q.waiting ++ [⟨t, call⟩] }
    else { q with buffer := q.buffer ++ [⟨t, call⟩] })

/-- A caller queues a call only if there is a free slot right now, and fails with `queueFull` or
    `queueClosed` otherwise. -/
def tryOffer (q : Queue) (call : Call) : Ticket × Queue :=
  let t := q.fresh
  let q := { q with fresh := t + 1 }
  (t,
    if q.isClosed then q.reply t (.error .queueClosed)
    else if q.available = 0 then q.reply t (.error .queueFull)
    else { q with buffer := q.buffer ++ [⟨t, call⟩] })

/-- A caller goes away.  Its call stays if it is in the buffer already. -/
def leave (q : Queue) (t : Ticket) : Queue :=
  { q with waiting := q.waiting.filter (·.ticket != t) }

/-! ### The worker -/

/-- Take the oldest call out; the caller that waited longest gets its slot. -/
def take? (q : Queue) : Option (Job × Queue) :=
  match q.buffer with
  | [] => none
  | job :: rest =>
    some (job, { q with buffer := rest ++ q.waiting.take 1, waiting := q.waiting.drop 1 })

/-- The worker stops: callers that wait for space fail with `queueClosed`, queued calls with
    `why`. -/
def stop (q : Queue) (why : Failure) : Queue :=
  let q := (q.replyAll q.waiting .queueClosed).replyAll q.buffer why
  { q with worker := .stopped, buffer := [], waiting := [] }

variable {σ : Type}

/-- The send of a ticket has ended: its caller gets the outcome.  A send that breaks down takes the
    worker with it. -/
def finish (q : Queue) (t : Ticket) : Except Stop Receipt → Queue
  | .ok receipt => { q.reply t (.ok receipt) with worker := .idle }
  | .error (.failure f) => { q.reply t (.error f) with worker := .idle }
  | .error (.fault _) => (q.reply t (.error .queueClosed)).stop .queueClosed

/-- One step of the worker, where one is possible.  Between two sends a cancelled token comes before
    the next call. -/
def step (desk : Desk σ) (now : Nat) (q : Queue) (leases : Leases) (outside : σ) :
    Option (Queue × Leases × σ) :=
  match q.worker with
  | .stopped => none
  | .idle =>
    if q.shutdown then some (q.stop .cancelled, leases, outside)
    else match q.take? with
      | some (job, q) =>
        let s := Send.start desk.policy job.call now
        some ({ q with worker := .sending job.ticket s }, leases, outside)
      | none => if q.handles = 0 then some (q.stop .cancelled, leases, outside) else none
  | .sending t s =>
    match s.step desk q.shutdown now leases outside with
    | none => none
    | some (.running s, leases, outside) =>
      some ({ q with worker := .sending t s }, leases, outside)
    | some (.ended result, leases, outside) => some (q.finish t result, leases, outside)

/-- The moments at which a step may become possible. -/
def alarms (policy : Policy) (q : Queue) : List Nat :=
  match q.worker with
  | .sending _ s => s.alarms policy
  | _ => []

end Queue

end Relayer
