import Relayer.Proofs.Send.Noted
import Relayer.Proofs.Send.Phases
import Relayer.Queue

namespace Relayer

/-!
# Queue moves — what a queue shows, and what one step of it can be

A queue is judged by its history: callers that come and go, calls that get a buffer slot, sends that
begin and end, and outcomes sent to callers.

* `Queue.Event` — one event of a history;
* `Queue.changes` / `Queue.shown` — the events between two states, and those of a worker's step;
* `Queue.Run` — the histories of a queue: callers come and go, the shutdown token is cancelled and
  the worker steps, in any order and among any slots and any outside;
* `Queue.Move` — all that can happen to a queue at once, with what it shows;
* `Queue.Run.induction` — a history grows by moves.
-/

variable {σ : Type}

namespace Queue

/-! ### Events -/

/-- One event of a history. -/
inductive Event where
  /-- A caller comes with a call, and gets a ticket. -/
  | came (job : Job)
  /-- A caller goes away. -/
  | left (ticket : Ticket)
  /-- A call gets a buffer slot. -/
  | accepted (job : Job)
  /-- A call is taken out of the buffer, and its send begins. -/
  | handed (job : Job)
  /-- That send ends. -/
  | returned (ticket : Ticket) (result : Except Stop Receipt)
  /-- A caller is sent its outcome. -/
  | answered (ticket : Ticket) (answer : Except Failure Receipt)
  /-- The shutdown token is cancelled. -/
  | cancelled
  /-- The worker notices that, and stops. -/
  | shut

namespace Event

/-- The call that comes. -/
def came? : Event → Option Job
  | .came job => some job
  | _ => none

/-- The call that gets a buffer slot. -/
def accepted? : Event → Option Job
  | .accepted job => some job
  | _ => none

/-- The call whose send begins. -/
def handed? : Event → Option Job
  | .handed job => some job
  | _ => none

/-- The outcome that is sent. -/
def answered? : Event → Option (Ticket × Except Failure Receipt)
  | .answered t a => some (t, a)
  | _ => none

/-- The event, if it is the beginning or the end of a send. -/
def turn? : Event → Option Event
  | .handed job => some (.handed job)
  | .returned t result => some (.returned t result)
  | _ => none

/-- The calls that came, the first one first. -/
def arrivals (history : List Event) : List Job := history.filterMap (·.came?)

/-- The calls that got a buffer slot, in that order. -/
def acceptances (history : List Event) : List Job := history.filterMap (·.accepted?)

/-- The calls whose sends began, in that order. -/
def handovers (history : List Event) : List Job := history.filterMap (·.handed?)

/-- The outcomes that were sent, in that order. -/
def replies (history : List Event) : List (Ticket × Except Failure Receipt) :=
  history.filterMap (·.answered?)

/-- The beginnings and the ends of sends. -/
def turns (history : List Event) : List Event := history.filterMap (·.turn?)

variable {history later : List Event}

@[simp] theorem arrivals_append :
    arrivals (history ++ later) = arrivals history ++ arrivals later := List.filterMap_append

@[simp] theorem acceptances_append :
    acceptances (history ++ later) = acceptances history ++ acceptances later :=
  List.filterMap_append

@[simp] theorem handovers_append :
    handovers (history ++ later) = handovers history ++ handovers later := List.filterMap_append

@[simp] theorem replies_append :
    replies (history ++ later) = replies history ++ replies later := List.filterMap_append

@[simp] theorem turns_append :
    turns (history ++ later) = turns history ++ turns later := List.filterMap_append

/-- An outcome is in `replies` where its event is in the history. -/
theorem mem_replies {t : Ticket} {a : Except Failure Receipt} :
    (t, a) ∈ replies history ↔ .answered t a ∈ history := by
  simp only [replies, List.mem_filterMap]
  constructor
  · rintro ⟨e, listed, same⟩
    cases e <;> cases same
    exact listed
  · intro listed
    exact ⟨_, listed, rfl⟩

/-- The beginnings and ends of sends are events of the history. -/
theorem mem_of_turns {e : Event} (h : e ∈ turns history) : e ∈ history := by
  obtain ⟨e', listed, same⟩ := List.mem_filterMap.mp h
  cases e' <;> cases same <;> exact listed

end Event

open Event

/-! ### What comes to light -/

/-- The call whose send begins between two states. -/
def begun (before after : Queue) : List Job :=
  match before.worker, after.worker with
  | .idle, .sending t s => [⟨t, s.call⟩]
  | _, _ => []

/-- The calls that get a buffer slot between two states. -/
def admitted (before after : Queue) : List Job :=
  after.buffer.drop (before.buffer.length - (before.begun after).length)

/-- The outcomes that are sent between two states. -/
def given (before after : Queue) : List (Ticket × Except Failure Receipt) :=
  after.answers.drop before.answers.length

/-- The events between two states. -/
def changes (before after : Queue) : List Event :=
  (before.begun after).map .handed ++ (before.admitted after).map .accepted ++
    (before.given after).map fun x => .answered x.1 x.2

/-- `shut`, where the next step of the worker is to notice that the token is cancelled. -/
def notices (q : Queue) : List Event :=
  match q.worker with
  | .idle => if q.shutdown then [.shut] else []
  | _ => []

/-- The result with which a step of the worker ends its send. -/
def concluded (desk : Desk σ) (now : Nat) (q : Queue) (leases : Leases) (outside : σ) :
    List Event :=
  match q.worker with
  | .sending t s =>
    match s.step desk q.shutdown now leases outside with
    | some (.ended result, _, _) => [.returned t result]
    | _ => []
  | _ => []

/-- The events of a step of the worker. -/
def shown (desk : Desk σ) (now : Nat) (q : Queue) (leases : Leases) (outside : σ)
    (after : Queue) : List Event :=
  q.notices ++ q.concluded desk now leases outside ++ q.changes after

/-! ### Histories -/

/-- A history, and the queue as it is now.  Callers come and go at any moment, the shutdown token is
    cancelled at any moment or never, and each step of the worker may meet other slots, another
    outside and another moment, since both have other clients. -/
inductive Run (desk : Desk σ) : List Event → Queue → Prop where
  | opened (buffer : Nat) : Run desk [] (.ofBuffer buffer)
  | offers {history q} (call : Call) (run : Run desk history q) :
      Run desk (history ++ .came ⟨(q.offer call).1, call⟩ :: q.changes (q.offer call).2)
        (q.offer call).2
  | tries {history q} (call : Call) (run : Run desk history q) :
      Run desk (history ++ .came ⟨(q.tryOffer call).1, call⟩ :: q.changes (q.tryOffer call).2)
        (q.tryOffer call).2
  | leaves {history q} (t : Ticket) (run : Run desk history q) :
      Run desk (history ++ [.left t]) (q.leave t)
  | retains {history q} (run : Run desk history q) : Run desk history q.retain
  | releases {history q} (run : Run desk history q) : Run desk history q.release
  | cancels {history q} (run : Run desk history q) :
      Run desk (history ++ [.cancelled]) { q with shutdown := true }
  | reschedules {history q t s s'} (run : Run desk history q) (sending : q.worker = .sending t s)
      (order : s.Rescheduled s') : Run desk history { q with worker := .sending t s' }
  | works {history q q' now leases leases' outside outside'} (run : Run desk history q)
      (step : q.step desk now leases outside = some (q', leases', outside')) :
      Run desk (history ++ q.shown desk now leases outside q') q'

/-! ### Moves -/

variable {q : Queue}

/-- One and the same outcome sent to several callers. -/
def dismissals (jobs : List Job) (why : Failure) : List Event :=
  jobs.map fun job => .answered job.ticket (.error why)

/-- The events of a worker that stops, besides `shut`. -/
def partings (q : Queue) (why : Failure) : List Event :=
  dismissals q.waiting .queueClosed ++ dismissals q.buffer why

/-- They are outcomes and nothing else. -/
theorem answered_of_partings {why : Failure} {e : Event} (h : e ∈ q.partings why) :
    ∃ t answer, e = .answered t answer := by
  rcases List.mem_append.mp h with waiting | buffered
  · obtain ⟨job, -, rfl⟩ := List.mem_map.mp waiting
    exact ⟨_, _, rfl⟩
  · obtain ⟨job, -, rfl⟩ := List.mem_map.mp buffered
    exact ⟨_, _, rfl⟩

/-- So there is no event of another kind in them. -/
theorem filterMap_partings {α : Type} {f : Event → Option α}
    (none : ∀ t answer, f (.answered t answer) = none) (q : Queue) (why : Failure) :
    (q.partings why).filterMap f = [] := by
  rw [List.filterMap_eq_nil_iff]
  intro e listed
  obtain ⟨t, answer, rfl⟩ := answered_of_partings listed
  exact none t answer

/-- The outcomes among them. -/
theorem replies_partings (q : Queue) (why : Failure) :
    replies (q.partings why) = q.waiting.map (fun job => (job.ticket, .error .queueClosed)) ++
      q.buffer.map fun job => (job.ticket, .error why) := by
  simp [replies, partings, dismissals, answered?, List.filterMap_append, List.filterMap_map]

/-- `notices` is empty, or `shut` alone. -/
theorem eq_shut_of_notices {e : Event} (h : e ∈ q.notices) : e = .shut := by
  unfold notices at h
  split at h
  · split at h
    · exact List.mem_singleton.mp h
    · cases h
  · cases h

/-- Where the worker stops, there are only `shut` and outcomes. -/
theorem filterMap_stops {α : Type} {f : Event → Option α} (shut : f .shut = none)
    (answered : ∀ t answer, f (.answered t answer) = none) (q : Queue) (why : Failure) :
    (q.notices ++ q.partings why).filterMap f = [] := by
  rw [List.filterMap_append, filterMap_partings answered, List.append_nil,
    List.filterMap_eq_nil_iff]
  intro e noticed
  rw [eq_shut_of_notices noticed, shut]

/-- Where a call is taken out, there are only `handed` and `accepted`. -/
theorem filterMap_handed {α : Type} {f : Event → Option α}
    (none : ∀ job, f (.accepted job) = none) (job : Job) (jobs : List Job) :
    (.handed job :: jobs.map .accepted : List Event).filterMap f = (f (.handed job)).toList := by
  cases handed : f (.handed job) <;> simp [handed, none, List.filterMap_map]

/-- The call that gets the slot then. -/
theorem acceptances_handed (job : Job) (jobs : List Job) :
    acceptances (.handed job :: jobs.map .accepted) = jobs := by
  simp [acceptances, accepted?, List.filterMap_map]

/-- All that can happen to a queue at once, with what it shows and the queue it leads to. -/
inductive Move (desk : Desk σ) (q : Queue) : List Event → Queue → Prop where
  | bars (call) (closed : q.isClosed = true) :
      Move desk q [.came ⟨q.fresh, call⟩, .answered q.fresh (.error .queueClosed)]
        { q with
          answers := q.answers ++ [(q.fresh, .error .queueClosed)]
          fresh := q.fresh + 1 }
  | refuses (call) (open' : q.isClosed = false) (full : q.available = 0) :
      Move desk q [.came ⟨q.fresh, call⟩, .answered q.fresh (.error .queueFull)]
        { q with
          answers := q.answers ++ [(q.fresh, .error .queueFull)]
          fresh := q.fresh + 1 }
  | queues (call) (open' : q.isClosed = false) (full : q.available = 0) :
      Move desk q [.came ⟨q.fresh, call⟩]
        { q with waiting := q.waiting ++ [⟨q.fresh, call⟩], fresh := q.fresh + 1 }
  | admits (call) (open' : q.isClosed = false) (room : q.available ≠ 0) :
      Move desk q [.came ⟨q.fresh, call⟩, .accepted ⟨q.fresh, call⟩]
        { q with buffer := q.buffer ++ [⟨q.fresh, call⟩], fresh := q.fresh + 1 }
  | leaves (t) : Move desk q [.left t] (q.leave t)
  | counts (handles) : Move desk q [] { q with handles }
  | cancels : Move desk q [.cancelled] { q with shutdown := true }
  | reschedules {t s s'} (sending : q.worker = .sending t s) (order : s.Rescheduled s') :
      Move desk q [] { q with worker := .sending t s' }
  | stops (idle : q.worker = .idle) (due : q.shutdown = true ∨ q.buffer = []) :
      Move desk q (q.notices ++ q.partings .cancelled) (q.stop .cancelled)
  | takes {job rest} (now) (idle : q.worker = .idle) (going : q.shutdown = false)
      (buffer : q.buffer = job :: rest) :
      Move desk q (.handed job :: (q.waiting.take 1).map .accepted)
        { q with
          buffer := rest ++ q.waiting.take 1
          waiting := q.waiting.drop 1
          worker := .sending job.ticket (.start desk.policy job.call now) }
  | sends {t s s' now leases leases' outside outside'} (sending : q.worker = .sending t s)
      (step : s.step desk q.shutdown now leases outside =
        some (.running s', leases', outside')) :
      Move desk q [] { q with worker := .sending t s' }
  | returns {t s now leases leases' outside outside'} (answer : Except Failure Receipt)
      (sending : q.worker = .sending t s)
      (step : s.step desk q.shutdown now leases outside =
        some (.ended (answer.mapError .failure), leases', outside')) :
      Move desk q [.returned t (answer.mapError .failure), .answered t answer]
        { q with answers := q.answers ++ [(t, answer)], worker := .idle }
  | breaks {t s f now leases leases' outside outside'} (sending : q.worker = .sending t s)
      (step : s.step desk q.shutdown now leases outside =
        some (.ended (.error (.fault f)), leases', outside')) :
      Move desk q
        (.returned t (.error (.fault f)) :: .answered t (.error .queueClosed) ::
          q.partings .queueClosed)
        ((q.reply t (.error .queueClosed)).stop .queueClosed)

variable {desk : Desk σ} {q' : Queue} {history : List Event}

/-- No send begins where the worker stays as it is. -/
theorem begun_of_worker (same : q'.worker = q.worker) : q.begun q' = [] := by
  unfold begun
  rw [same]
  cases q.worker <;> rfl

/-- The queue behind a call that somebody comes with; `full` is what becomes of it without a free
    slot. -/
def entered (q : Queue) (call : Call) (full : Queue) : Queue :=
  if q.isClosed then
    { q with
      answers := q.answers ++ [(q.fresh, .error .queueClosed)]
      fresh := q.fresh + 1 }
  else if q.available = 0 then full
  else { q with buffer := q.buffer ++ [⟨q.fresh, call⟩], fresh := q.fresh + 1 }

/-- `offer` waits where there is no free slot. -/
theorem offer_snd (q : Queue) (call : Call) : (q.offer call).2 = q.entered call
    { q with waiting := q.waiting ++ [⟨q.fresh, call⟩], fresh := q.fresh + 1 } := rfl

/-- `tryOffer` fails with `queueFull` there. -/
theorem tryOffer_snd (q : Queue) (call : Call) : (q.tryOffer call).2 = q.entered call
    { q with
      answers := q.answers ++ [(q.fresh, .error .queueFull)]
      fresh := q.fresh + 1 } := rfl

/-- A call that comes leaves the worker alone. -/
theorem worker_entered {full : Queue} (call : Call) (same : full.worker = q.worker) :
    (q.entered call full).worker = q.worker := by
  unfold entered
  split
  · rfl
  · split
    · exact same
    · rfl

/-- **A call that comes** fails or gets a buffer slot, unless none is free. -/
theorem move_of_entered {call : Call} {full : Queue}
    (noPlace : q.isClosed = false → q.available = 0 →
      Move desk q (.came ⟨q.fresh, call⟩ :: q.changes full) full) :
    Move desk q (.came ⟨q.fresh, call⟩ :: q.changes (q.entered call full))
      (q.entered call full) := by
  unfold entered
  split
  next closed =>
    simpa [changes, admitted, given, begun_of_worker] using Move.bars call closed
  next open' =>
    replace open' : q.isClosed = false := by simpa using open'
    split
    next none => exact noPlace open' none
    next room =>
      simpa [changes, admitted, given, begun_of_worker] using Move.admits call open' room

/-- A call that is offered fails, waits or gets a slot. -/
theorem move_of_offer (desk : Desk σ) (q : Queue) (call : Call) :
    Move desk q (.came ⟨q.fresh, call⟩ :: q.changes (q.offer call).2) (q.offer call).2 := by
  rw [offer_snd]
  refine move_of_entered fun open' none => ?_
  simpa [changes, admitted, given, begun_of_worker] using Move.queues call open' none

/-- A call that does not wait fails or gets a slot. -/
theorem move_of_tryOffer (desk : Desk σ) (q : Queue) (call : Call) :
    Move desk q (.came ⟨q.fresh, call⟩ :: q.changes (q.tryOffer call).2) (q.tryOffer call).2 := by
  rw [tryOffer_snd]
  refine move_of_entered fun open' none => ?_
  simpa [changes, admitted, given, begun_of_worker] using Move.refuses call open' none

variable {now : Nat} {leases leases' : Leases} {outside outside' : σ}

/-- The queue that a step of the worker's send leads to. -/
def carry (q : Queue) (t : Ticket) : Send.Outcome → Queue
  | .running s => { q with worker := .sending t s }
  | .ended result => q.finish t result

/-- **What the worker can do in a step**: stop, take the oldest call, or step its send, which alone
    touches the slots. -/
theorem step_cases (step : q.step desk now leases outside = some (q', leases', outside')) :
    (q.worker = .idle ∧ (q.shutdown = true ∨ q.buffer = []) ∧ q' = q.stop .cancelled ∧
      leases' = leases) ∨
    (∃ job rest, q.worker = .idle ∧ q.shutdown = false ∧ q.buffer = job :: rest ∧
      q' = { q with
        buffer := rest ++ q.waiting.take 1
        waiting := q.waiting.drop 1
        worker := .sending job.ticket (.start desk.policy job.call now) } ∧
      leases' = leases) ∨
    ∃ t s out, q.worker = .sending t s ∧
      s.step desk q.shutdown now leases outside = some (out, leases', outside') ∧
      q' = q.carry t out := by
  unfold Queue.step at step
  cases worker : q.worker with
  | stopped => simp [worker] at step
  | idle =>
    simp only [worker] at step
    split at step
    next cancelled =>
      cases step
      exact .inl ⟨rfl, .inl cancelled, rfl, rfl⟩
    next going =>
      replace going : q.shutdown = false := by simpa using going
      unfold take? at step
      cases buffer : q.buffer with
      -- With nothing in the buffer the worker stops where no producer is left, and rests otherwise.
      | nil =>
        simp only [buffer] at step
        split at step
        next =>
          cases step
          exact .inl ⟨rfl, .inr rfl, rfl, rfl⟩
        next => cases step
      | cons job rest =>
        simp only [buffer] at step
        cases step
        exact .inr (.inl ⟨job, rest, rfl, going, rfl, rfl, rfl⟩)
  | sending t s =>
    simp only [worker] at step
    split at step
    next => cases step
    next inner =>
      cases step
      exact .inr (.inr ⟨t, s, _, rfl, inner, rfl⟩)
    next inner =>
      cases step
      exact .inr (.inr ⟨t, s, _, rfl, inner, rfl⟩)

/-- **A step of the worker** is one of its moves. -/
theorem move_of_step (step : q.step desk now leases outside = some (q', leases', outside')) :
    Move desk q (q.shown desk now leases outside q') q' := by
  rcases step_cases step with ⟨idle, due, rfl, -⟩ | ⟨job, rest, idle, going, buffer, rfl, -⟩ |
    ⟨t, s, out, sending, inner, rfl⟩
  · -- All is answered that was not.
    have concluded : q.concluded desk now leases outside = [] := by simp [concluded, idle]
    have changes : q.changes (q.stop .cancelled) = q.partings .cancelled := by
      simp [changes, begun, idle, stop, admitted, given, replyAll, partings, dismissals,
        Function.comp_def]
    rw [shown, concluded, changes, List.append_nil]
    exact .stops idle due
  · simpa [shown, concluded, notices, going, changes, begun, idle, buffer, admitted, given,
      Send.start] using Move.takes now idle going buffer
  · have notices : q.notices = [] := by simp [notices, sending]
    match out with
    | .running s' =>
      simpa [shown, notices, concluded, changes, begun, sending, admitted, given, inner, carry]
        using Move.sends sending inner
    | .ended (.ok receipt) =>
      simpa [shown, notices, concluded, changes, begun, sending, admitted, given, inner, carry,
        finish, reply, Except.mapError] using Move.returns (.ok receipt) sending inner
    | .ended (.error (.failure f)) =>
      simpa [shown, notices, concluded, changes, begun, sending, admitted, given, inner, carry,
        finish, reply, Except.mapError] using Move.returns (.error f) sending inner
    | .ended (.error (.fault f)) =>
      simpa [shown, notices, concluded, changes, begun, sending, admitted, given, inner, carry,
        finish, reply, stop, replyAll, partings, dismissals, Function.comp_def] using
        Move.breaks sending inner

/-- **A history grows by moves.** -/
@[elab_as_elim]
theorem Run.induction {motive : ∀ history q, Run desk history q → Prop}
    (opened : ∀ buffer, motive [] (.ofBuffer buffer) (.opened buffer))
    (move : ∀ {history q shown q'} (run : Run desk history q) (_ : Move desk q shown q')
      (run' : Run desk (history ++ shown) q'), motive history q run →
        motive (history ++ shown) q' run')
    {history : List Event} {q : Queue} (run : Run desk history q) : motive history q run := by
  -- Nothing comes to light in some moves, and then the history is the one before.
  have quiet {history : List Event} {q q' : Queue} {run : Run desk history q}
      (run' : Run desk history q') (h : motive history q run) (still : Move desk q [] q') :
      motive history q' run' := by
    have grown : Run desk (history ++ []) q' := by rwa [List.append_nil]
    simpa only [List.append_nil] using move run still grown h
  induction run with
  | opened buffer => exact opened buffer
  | offers call run ih => exact move run (move_of_offer ..) _ ih
  | tries call run ih => exact move run (move_of_tryOffer ..) _ ih
  | leaves t run ih => exact move run (.leaves t) _ ih
  | retains run ih => exact quiet _ ih (.counts _)
  | releases run ih => exact quiet _ ih (.counts _)
  | cancels run ih => exact move run .cancels _ ih
  | reschedules run sending order ih => exact quiet _ ih (.reschedules sending order)
  | works run step ih => exact move run (move_of_step step) _ ih

end Queue

end Relayer
