import Relayer.Gateway.Basic
import Relayer.Proofs.Leases.Stakes
import Relayer.Proofs.Queue.Moves

namespace Relayer

/-!
# House — a transaction manager with its queue and its API

The slots are shared by the sends of the queue's worker, by sends that were begun without the queue,
and by the `/status` requests that peek at the next nonce.  All of them come and go at any moment.

* `Queue.Handling` — what callers and the shutdown token do to a queue;
* `House` — the slots, the queue and the guests, that is sends without the queue and requests;
* `House.Step` / `House.Run` — one step in a house, and the houses that any steps lead to;
* `House.Run.sound` — slots and guests always fit together;
* `House.Run.holder` — the ticket of a lease holds the lock of the account.
-/

variable {σ : Type}

/-- A step of a send moves its stake. -/
theorem Send.stake_of_step {desk : Desk σ} {s : Send} {cancelled : Bool} {now : Nat}
    {l l' : Leases} {outside outside' : σ} {out : Send.Outcome}
    (step : s.step desk cancelled now l outside = some (out, l', outside')) :
    Stake.Move l (s.stake desk.signer.address) l' (out.stake desk.signer.address) := by
  obtain ⟨calls, noted⟩ := exists_calls step
  exact (move_of_noted noted).stake

/-! ### The queue from outside -/

namespace Queue

/-- What is done to a queue from outside. -/
inductive Handling (q : Queue) : Queue → Prop where
  | offers (call) : Handling q (q.offer call).2
  | tries (call) : Handling q (q.tryOffer call).2
  | leaves (t) : Handling q (q.leave t)
  | retains : Handling q q.retain
  | releases : Handling q q.release
  | cancels : Handling q { q with shutdown := true }

/-- It leaves the worker alone. -/
theorem Handling.worker {q q' : Queue} (h : q.Handling q') : q'.worker = q.worker := by
  cases h with
  | offers call =>
    rw [offer_snd]
    exact worker_entered call rfl
  | tries call =>
    rw [tryOffer_snd]
    exact worker_entered call rfl
  | _ => rfl

/-- The stake of the worker: that of its send. -/
def stake (account : Address) (q : Queue) : Stake :=
  match q.worker with
  | .sending _ s => s.stake account
  | _ => .idle

/-- Where the worker stays as it is, so does its stake. -/
theorem stake_of_worker {q q' : Queue} (same : q'.worker = q.worker) (account : Address) :
    q'.stake account = q.stake account := by
  rw [stake, same, stake]

variable {desk : Desk σ} {q q' : Queue} {now : Nat} {l l' : Leases} {outside outside' : σ}

/-- Behind a step of its send the queue has the stake of the send. -/
theorem stake_carry (account : Address) (q : Queue) (t : Ticket) (out : Send.Outcome) :
    (q.carry t out).stake account = out.stake account := by
  match out with
  | .running _ | .ended (.ok _) | .ended (.error (.failure _)) | .ended (.error (.fault _)) => rfl

/-- **A step of the worker moves the stake of its send.** -/
theorem stake_of_step (step : q.step desk now l outside = some (q', l', outside')) :
    Stake.Move l (q.stake desk.signer.address) l' (q'.stake desk.signer.address) := by
  rcases step_cases step with ⟨idle, -, rfl, rfl⟩ | ⟨job, rest, idle, -, -, rfl, rfl⟩ |
    ⟨t, s, out, sending, inner, rfl⟩
  · rw [show q.stake desk.signer.address = .idle by simp [stake, idle]]
    exact .stays .idle
  · rw [show q.stake desk.signer.address = .idle by simp [stake, idle]]
    exact .stays .idle
  · rw [show q.stake desk.signer.address = s.stake desk.signer.address by simp [stake, sending],
      stake_carry]
    exact Send.stake_of_step inner

/-- The send of the worker has a run of its own. -/
def Employed (desk : Desk σ) (q : Queue) : Prop :=
  ∀ t s, q.worker = .sending t s → ∃ call trail, Send.Run desk call trail s

/-- A move of the queue begins a send, or prolongs the run of its send. -/
theorem Employed.move {shown : List Event} (h : q.Employed desk) (move : Move desk q shown q') :
    q'.Employed desk := by
  intro t s sending
  cases move with
  | reschedules before order =>
    cases sending
    obtain ⟨call, trail, run⟩ := h _ _ before
    exact ⟨call, trail, .reschedule run order⟩
  | stops _ _ | returns _ _ _ | breaks _ _ => cases sending
  | takes now _ _ _ =>
    cases sending
    exact ⟨_, [], .start now⟩
  | sends before inner =>
    cases sending
    obtain ⟨call, trail, run⟩ := h _ _ before
    obtain ⟨calls, run'⟩ := run.of_step inner
    exact ⟨call, _, run'⟩
  | _ => exact h t s sending

end Queue

/-! ### Visits -/

namespace Visit

/-- The stake of a visit: it waits for the lock to peek at the next nonce. -/
def stake (account : Address) : Visit → Stake
  | .peeking t _ => .waiting account t
  | .submitted _ | .answered _ => .idle

/-- A request that arrives gets in line, or has no stake; it leaves the worker alone. -/
theorem stake_of_start (desk : Desk σ) (r : Request) (l : Leases) (q : Queue) :
    Stake.Move l .idle (start desk r l q).2.1 ((start desk r l q).1.stake desk.signer.address) ∧
      (start desk r l q).2.2.worker = q.worker := by
  unfold start
  split
  next => exact ⟨.stays .idle, rfl⟩
  next route _ =>
    split
    next => exact ⟨.stays .idle, rfl⟩
    next =>
      cases route with
      | health => exact ⟨.stays .idle, rfl⟩
      | status => exact ⟨.joins _, rfl⟩
      | send =>
        dsimp only
        split
        next => exact ⟨.stays .idle, rfl⟩
        next call _ => exact ⟨.stays .idle, (Queue.Handling.offers call).worker⟩

/-- A visit that steps leaves the line. -/
theorem stake_of_step {desk : Desk σ} {uptime : Nat} {l l' : Leases} {q : Queue} {v v' : Visit}
    (step : v.step desk uptime l q = some (v', l')) :
    Stake.Move l (v.stake desk.signer.address) l' (v'.stake desk.signer.address) := by
  cases v with
  | peeking t bare =>
    simp only [Visit.step] at step
    split at step
    next =>
      cases step
      exact .leaves rfl
    next => cases step
  | submitted t =>
    obtain ⟨answer, -, same⟩ := Option.map_eq_some_iff.mp step
    cases same
    exact .stays .idle
  | answered _ => cases step

/-- So does one that is dropped, which leaves the worker alone. -/
theorem stake_of_abandon (account : Address) (l : Leases) (q : Queue) (v : Visit) :
    Stake.Move l (v.stake account) (v.abandon account l q).1 .idle ∧
      (v.abandon account l q).2.worker = q.worker := by
  cases v with
  | peeking _ _ => exact ⟨.leaves rfl, rfl⟩
  | submitted _ | answered _ => exact ⟨.stays .idle, rfl⟩

end Visit

/-! ### The house -/

/-- A user of the slots besides the worker. -/
inductive Guest where
  | absent
  /-- A send that was begun without the queue. -/
  | sending (s : Send)
  | visiting (v : Visit)
  | gone

/-- The stake of a guest. -/
def Guest.stake (account : Address) : Guest → Stake
  | .sending s => s.stake account
  | .visiting v => v.stake account
  | .absent | .gone => .idle

/-- The slots of a transaction manager, its queue, and the guests: sends without the queue, and
    requests. -/
structure House where
  leases : Leases
  queue : Queue
  guest : Nat → Guest

namespace House

/-- No guest has come yet. -/
def opened (buffer : Nat) : House := ⟨.empty, .ofBuffer buffer, fun _ => .absent⟩

/-- One guest has made a step, after which slots and queue are these. -/
def put (w : House) (k : Nat) (g : Guest) (leases : Leases) (queue : Queue) : House :=
  ⟨leases, queue, Function.update w.guest k g⟩

@[simp] theorem guest_put_self (w : House) (k : Nat) (g : Guest) (leases : Leases)
    (queue : Queue) : (w.put k g leases queue).guest k = g := Function.update_self ..

theorem guest_put_other (w : House) {k k' : Nat} (other : k' ≠ k) (g : Guest) (leases : Leases)
    (queue : Queue) : (w.put k g leases queue).guest k' = w.guest k' :=
  Function.update_of_ne other ..

/-- One step in a house. -/
inductive Step (desk : Desk σ) (w : House) : House → Prop where
  /-- The queue is handled from outside. -/
  | handles {q} (handling : w.queue.Handling q) : Step desk w { w with queue := q }
  /-- The worker of the queue makes a step. -/
  | works {q now leases outside outside'}
      (step : w.queue.step desk now w.leases outside = some (q, leases, outside')) :
      Step desk w { w with queue := q, leases }
  /-- The scheduler orders the parties of the worker's send anew. -/
  | arranges {t s s'} (sending : w.queue.worker = .sending t s) (order : s.Rescheduled s') :
      Step desk w { w with queue := { w.queue with worker := .sending t s' } }
  | begins {k call now} (absent : w.guest k = .absent) :
      Step desk w (w.put k (.sending (.start desk.policy call now)) w.leases w.queue)
  | reschedules {k s s'} (here : w.guest k = .sending s) (order : s.Rescheduled s') :
      Step desk w (w.put k (.sending s') w.leases w.queue)
  | advances {k s s' cancelled now leases outside outside'} (here : w.guest k = .sending s)
      (step : s.step desk cancelled now w.leases outside =
        some (.running s', leases, outside')) :
      Step desk w (w.put k (.sending s') leases w.queue)
  | ends {k s result cancelled now leases outside outside'} (here : w.guest k = .sending s)
      (step : s.step desk cancelled now w.leases outside =
        some (.ended result, leases, outside')) :
      Step desk w (w.put k .gone leases w.queue)
  /-- The caller of a send drops it, in whatever phase. -/
  | drops {k s} (here : w.guest k = .sending s) :
      Step desk w (w.put k .gone (s.abandon desk.signer.address w.leases) w.queue)
  /-- A request arrives. -/
  | visits {k} (r : Request) (absent : w.guest k = .absent) :
      Step desk w (w.put k (.visiting (Visit.start desk r w.leases w.queue).1)
        (Visit.start desk r w.leases w.queue).2.1 (Visit.start desk r w.leases w.queue).2.2)
  | proceeds {k v v' uptime leases} (here : w.guest k = .visiting v)
      (step : v.step desk uptime w.leases w.queue = some (v', leases)) :
      Step desk w (w.put k (.visiting v') leases w.queue)
  /-- A visitor goes away. -/
  | abandons {k v} (here : w.guest k = .visiting v) :
      Step desk w (w.put k .gone (v.abandon desk.signer.address w.leases w.queue).1
        (v.abandon desk.signer.address w.leases w.queue).2)

/-- A house that some steps lead to. -/
inductive Run (desk : Desk σ) : House → Prop where
  | opened (buffer : Nat) : Run desk (.opened buffer)
  | step {w w'} (run : Run desk w) (step : Step desk w w') : Run desk w'

/-! ### Slots and guests -/

/-- The stakes of the worker and all guests: the worker comes first. -/
def stake (w : House) (account : Address) : Nat → Stake
  | 0 => w.queue.stake account
  | k + 1 => (w.guest k).stake account

/-- A step of the worker changes its own stake only. -/
theorem stake_queue (w : House) (account : Address) (q : Queue) (leases : Leases) :
    stake { w with queue := q, leases } account =
      Function.update (w.stake account) 0 (q.stake account) := by
  funext k
  cases k <;> simp [stake]

/-- A step of a guest that leaves the worker alone changes its own stake only. -/
theorem stake_put (w : House) (account : Address) (k : Nat) (g : Guest) (leases : Leases)
    {queue : Queue} (same : queue.worker = w.queue.worker) :
    (w.put k g leases queue).stake account =
      Function.update (w.stake account) (k + 1) (g.stake account) := by
  funext k'
  cases k' with
  | zero => simp [stake, put, Queue.stake, same]
  | succ k' =>
    by_cases own : k' = k
    · subst own
      simp [stake, put]
    · simp [stake, put, own]

variable {desk : Desk σ} {w w' : House}

/-- What a guest does with its own stake is a move in the house. -/
theorem exists_move_put {account : Address} {k : Nat} {g g' : Guest} {leases : Leases}
    {queue : Queue} (here : w.guest k = g) (same : queue.worker = w.queue.worker)
    (move : Stake.Move w.leases (g.stake account) leases (g'.stake account)) : ∃ id st,
      (w.put k g' leases queue).stake account = Function.update (w.stake account) id st ∧
        Stake.Move w.leases (w.stake account id) leases st := by
  refine ⟨k + 1, _, stake_put w account k g' leases same, ?_⟩
  rw [House.stake, here]
  exact move

/-- A step is a move of the worker or of one guest. -/
theorem Step.stake (step : Step desk w w') : ∃ id st,
    w'.stake desk.signer.address = Function.update (w.stake desk.signer.address) id st ∧
      Stake.Move w.leases (w.stake desk.signer.address id) w'.leases st := by
  cases step with
  | handles handling =>
    refine ⟨0, _, stake_queue w _ _ w.leases, ?_⟩
    rw [Queue.stake_of_worker handling.worker]
    exact .stays _
  | works step => exact ⟨0, _, stake_queue .., Queue.stake_of_step step⟩
  | @arranges t s s' sending order =>
    refine ⟨0, _, stake_queue w _ _ w.leases, ?_⟩
    -- The order of the work at hand is no matter of the slots.
    have same : Queue.stake desk.signer.address { w.queue with worker := .sending t s' } =
        w.queue.stake desk.signer.address := by
      simp [Queue.stake, sending, order.stake]
    rw [same]
    exact .stays _
  | begins absent => exact exists_move_put absent rfl (.stays .idle)
  | reschedules here order =>
    refine exists_move_put here rfl ?_
    rw [Guest.stake, Guest.stake, order.stake]
    exact .stays _
  | advances here step | ends here step => exact exists_move_put here rfl (Send.stake_of_step step)
  | drops here => exact exists_move_put here rfl (Send.stake_of_abandon ..)
  | visits r absent =>
    obtain ⟨move, same⟩ := Visit.stake_of_start desk r w.leases w.queue
    exact exists_move_put absent same move
  | proceeds here step => exact exists_move_put here rfl (Visit.stake_of_step step)
  | @abandons k v here =>
    obtain ⟨move, same⟩ := Visit.stake_of_abandon desk.signer.address w.leases w.queue v
    exact exists_move_put here same move

/-- **Slots and guests fit together** in every house. -/
theorem Run.sound (run : Run desk w) :
    Stakes.Sound w.leases (w.stake desk.signer.address) := by
  induction run with
  | opened buffer =>
    have idle : (House.opened buffer).stake desk.signer.address = fun _ => .idle := by
      funext k
      cases k <;> rfl
    rw [idle]
    exact .empty
  | step _ step ih =>
    obtain ⟨id, st, after, move⟩ := step.stake
    rw [after]
    exact ih.move move

/-! ### Sends -/

/-- The sends in a house: that of the worker, and those among the guests. -/
def Sends (w : House) (s : Send) : Prop :=
  (∃ t, w.queue.worker = .sending t s) ∨ ∃ k, w.guest k = .sending s

/-- Some send in the house has this lease. -/
def Held (w : House) (lease : Lease) : Prop := ∃ s, w.Sends s ∧ s.lease? = some lease

/-- All sends in a house have runs of their own. -/
def Lively (desk : Desk σ) (w : House) : Prop :=
  w.queue.Employed desk ∧
    ∀ k s, w.guest k = .sending s → ∃ call trail, Send.Run desk call trail s

/-- A step of one guest keeps the others. -/
theorem Lively.put (h : w.Lively desk) {k : Nat} {g : Guest} {leases : Leases} {queue : Queue}
    (same : queue.worker = w.queue.worker)
    (own : ∀ s, g = .sending s → ∃ call trail, Send.Run desk call trail s) :
    (w.put k g leases queue).Lively desk := by
  refine ⟨fun t s sending => h.1 t s (same ▸ sending), fun k' s here => ?_⟩
  by_cases stepped : k' = k
  · subst stepped
    rw [guest_put_self] at here
    exact own s here
  · rw [guest_put_other w stepped] at here
    exact h.2 k' s here

/-- A step begins a send, or prolongs the run of one. -/
theorem Lively.step (h : w.Lively desk) (step : Step desk w w') : w'.Lively desk := by
  cases step with
  | handles handling => exact ⟨fun t s sending => h.1 t s (handling.worker ▸ sending), h.2⟩
  | works step => exact ⟨h.1.move (Queue.move_of_step step), h.2⟩
  | arranges sending order => exact ⟨h.1.move (.reschedules sending order), h.2⟩
  | @begins k call now absent =>
    refine h.put rfl fun s here => ?_
    cases here
    exact ⟨call, [], .start now⟩
  | reschedules here order =>
    refine h.put rfl fun s own => ?_
    cases own
    obtain ⟨call, trail, run⟩ := h.2 _ _ here
    exact ⟨call, trail, .reschedule run order⟩
  | advances here step =>
    refine h.put rfl fun s own => ?_
    cases own
    obtain ⟨call, trail, run⟩ := h.2 _ _ here
    obtain ⟨calls, run'⟩ := run.of_step step
    exact ⟨call, _, run'⟩
  | ends _ _ | drops _ => exact h.put rfl fun s here => by cases here
  | visits r _ =>
    exact h.put (Visit.stake_of_start desk r w.leases w.queue).2 fun s here => by cases here
  | proceeds _ _ => exact h.put rfl fun s here => by cases here
  | @abandons k v _ =>
    exact h.put (Visit.stake_of_abandon desk.signer.address w.leases w.queue v).2
      fun s here => by cases here

/-- **Every send in a house has a run of its own.** -/
theorem Run.lively (run : Run desk w) : w.Lively desk := by
  induction run with
  | opened buffer =>
    exact ⟨fun t s sending => (by cases sending), fun k s here => (by cases here)⟩
  | step _ step ih => exact ih.step step

/-- So has each of them. -/
theorem Run.sends (run : Run desk w) {s : Send} (here : w.Sends s) :
    ∃ call trail, Send.Run desk call trail s := by
  rcases here with ⟨t, sending⟩ | ⟨k, guest⟩
  · exact run.lively.1 t s sending
  · exact run.lively.2 k s guest

/-- **The ticket of a lease holds the lock of its account.** -/
theorem Run.holder (run : Run desk w) {lease : Lease} (held : w.Held lease) :
    lease.account = desk.signer.address ∧
      (w.leases.slot desk.signer.address).holder = some lease.ticket ∧
      ∃ id, w.stake desk.signer.address id = .leased lease := by
  obtain ⟨s, here, leased⟩ := held
  obtain ⟨call, trail, own⟩ := run.sends here
  have account := own.lease_account leased
  have stake : ∃ id, w.stake desk.signer.address id = .leased lease := by
    rcases here with ⟨t, sending⟩ | ⟨k, guest⟩
    · exact ⟨0, by simp [House.stake, Queue.stake, sending, Send.stake_eq_leased.mpr leased]⟩
    · exact ⟨k + 1, by simp [House.stake, Guest.stake, guest, Send.stake_eq_leased.mpr leased]⟩
  obtain ⟨id, stake⟩ := stake
  refine ⟨account, ?_, id, stake⟩
  rw [← account]
  exact (run.sound.holds id lease.account lease.ticket (some lease.nonce) (by rw [stake]; rfl)).1

end House

end Relayer
