import Mathlib.Data.List.Perm.Basic
import Relayer.Proofs.Queue.Moves

namespace Relayer

/-!
# Ledger — what has become of every call

A call with a ticket waits for buffer space, or was refused, or was accepted; and one that was
accepted is buffered, being sent, sent, or dismissed unsent.  The ledger keeps these apart, and
every move carries entries from one column to the next.

* `Queue.Places` — tickets and buffer slots, whichever calls have them;
* `Queue.Ledger` — the columns;
* `Queue.Ledger.Fits` — a ledger is that of a history and the queue it leads to;
* `Queue.Ledger.Fits.move` — every move keeps some ledger fitting;
* `Queue.Run.ledger` — every history without a breakdown has its ledger.
-/

variable {σ : Type}

namespace Queue

open Event

/-! ### Tickets and places -/

/-- What holds of tickets and buffer slots, where `turned` are the tickets that were refused. -/
structure Places (history : List Event) (q : Queue) (turned : List Ticket) : Prop where
  /-- The buffer has a slot at least. -/
  place : 0 < q.capacity
  /-- No caller waits while a slot is free. -/
  room : q.waiting ≠ [] → q.capacity ≤ q.buffer.length
  /-- No call is left where the worker has stopped. -/
  closed : q.isClosed = true → q.buffer = [] ∧ q.waiting = []
  /-- Tickets are numbered. -/
  numbered : (arrivals history).map (·.ticket) = List.range q.fresh
  /-- Calls are accepted in the order in which they came. -/
  inLine : (acceptances history ++ q.waiting).Sublist (arrivals history)
  /-- No ticket is refused and accepted, or either of them twice. -/
  apart : ((acceptances history ++ q.waiting).map (·.ticket) ++ turned).Nodup
  /-- A refused call has a ticket, too. -/
  issued : ∀ t ∈ turned, t < q.fresh

variable {desk : Desk σ} {q q' : Queue} {history shown : List Event} {turned : List Ticket}

namespace Places

/-- At the beginning there are no tickets. -/
theorem opened (buffer : Nat) : Places [] (.ofBuffer buffer) [] where
  place := Nat.lt_of_lt_of_le Nat.one_pos (Nat.le_max_right ..)
  room some := absurd rfl some
  closed stopped := by cases stopped
  numbered := rfl
  inLine := .slnil
  apart := .nil
  issued := by simp

/-- Where no call comes and none is accepted, tickets and slots stay. -/
theorem still (h : Places history q turned) (came : arrivals shown = [])
    (accepted : acceptances shown = []) (capacity : q'.capacity = q.capacity)
    (buffer : q'.buffer = q.buffer) (waiting : q'.waiting = q.waiting)
    (closed : q'.isClosed = true → q.isClosed = true) (fresh : q'.fresh = q.fresh) :
    Places (history ++ shown) q' turned where
  place := capacity ▸ h.place
  room := by
    rw [waiting, capacity, buffer]
    exact h.room
  closed stopped := by
    rw [buffer, waiting]
    exact h.closed (closed stopped)
  numbered := by simpa [came, fresh] using h.numbered
  inLine := by simpa [came, accepted, waiting] using h.inLine
  apart := by simpa [accepted, waiting] using h.apart
  issued := fresh ▸ h.issued

/-- All tickets are numbers that were given out. -/
theorem lt_fresh (h : Places history q turned) {t : Ticket}
    (listed : t ∈ (acceptances history ++ q.waiting).map (·.ticket) ++ turned) : t < q.fresh := by
  rcases List.mem_append.mp listed with among | turned
  · have came := (h.inLine.map _).subset among
    rwa [h.numbered, List.mem_range] at came
  · exact h.issued t turned

/-- The next ticket is apart from all others. -/
theorem fresh_apart (h : Places history q turned) :
    ((acceptances history ++ q.waiting).map (·.ticket) ++ turned ++ [q.fresh]).Nodup := by
  refine List.nodup_append.mpr ⟨h.apart, by simp, ?_⟩
  rintro t listed _ here rfl
  rw [List.mem_singleton] at here
  exact Nat.lt_irrefl _ (here ▸ h.lt_fresh listed)

/-- A call that comes gets the next ticket. -/
theorem numbered_comes (h : Places history q turned) (call : Call)
    (came : arrivals shown = [⟨q.fresh, call⟩]) :
    (arrivals (history ++ shown)).map (·.ticket) = List.range (q.fresh + 1) := by
  rw [arrivals_append, came, List.map_append, h.numbered, List.range_succ]
  rfl

/-- A call is refused at once. -/
theorem turnsAway (h : Places history q turned) (call : Call) (answer : Except Failure Receipt) :
    Places (history ++ [.came ⟨q.fresh, call⟩, .answered q.fresh answer])
      { q with answers := q.answers ++ [(q.fresh, answer)], fresh := q.fresh + 1 }
      (turned ++ [q.fresh]) where
  place := h.place
  room := h.room
  closed := h.closed
  numbered := h.numbered_comes call rfl
  inLine := by simpa [arrivals, acceptances, came?, accepted?] using
    h.inLine.trans (List.sublist_append_left _ _)
  apart := by simpa [acceptances, accepted?] using h.fresh_apart
  issued := by
    intro t listed
    rcases List.mem_append.mp listed with old | new
    · exact Nat.lt_succ_of_lt (h.issued t old)
    · rw [List.mem_singleton.mp new]
      exact Nat.lt_succ_self _

/-- A caller waits for buffer space. -/
theorem waits (h : Places history q turned) (call : Call) (open' : q.isClosed = false)
    (full : q.available = 0) :
    Places (history ++ [.came ⟨q.fresh, call⟩])
      { q with waiting := q.waiting ++ [⟨q.fresh, call⟩], fresh := q.fresh + 1 } turned where
  place := h.place
  room _ := Nat.le_of_sub_eq_zero full
  closed stopped := absurd (open'.symm.trans stopped) Bool.false_ne_true
  numbered := h.numbered_comes call rfl
  inLine := by
    have last := h.inLine.append (List.Sublist.refl [(⟨q.fresh, call⟩ : Job)])
    simpa [arrivals, acceptances, came?, accepted?] using last
  apart := by
    refine h.fresh_apart.perm ?_
    have last := (List.perm_append_singleton q.fresh turned).append_left
      ((acceptances history ++ q.waiting).map (·.ticket))
    simpa [acceptances, accepted?] using last
  issued t listed := Nat.lt_succ_of_lt (h.issued t listed)

/-- A call is accepted at once, since no caller waits. -/
theorem admits (h : Places history q turned) (call : Call) (open' : q.isClosed = false)
    (room : q.available ≠ 0) :
    Places (history ++ [.came ⟨q.fresh, call⟩, .accepted ⟨q.fresh, call⟩])
      { q with buffer := q.buffer ++ [⟨q.fresh, call⟩], fresh := q.fresh + 1 } turned := by
  have alone : q.waiting = [] := by
    by_contra some
    exact room (Nat.sub_eq_zero_of_le (h.room some))
  -- So the ticket is the newest of the acceptances, and there is no line that it could jump.
  have inLine := h.inLine
  have apart := h.fresh_apart
  rw [alone, List.append_nil] at inLine apart
  refine ⟨h.place, fun some => absurd alone some,
    fun stopped => absurd (open'.symm.trans stopped) Bool.false_ne_true,
    h.numbered_comes call rfl, ?_, ?_, ?_⟩
  · have last := inLine.append (List.Sublist.refl [(⟨q.fresh, call⟩ : Job)])
    simpa [alone, arrivals, acceptances, came?, accepted?] using last
  · refine apart.perm ?_
    have last := (List.perm_append_singleton q.fresh turned).append_left
      ((acceptances history).map (·.ticket))
    simpa [alone, acceptances, accepted?] using last
  · exact fun t listed => Nat.lt_succ_of_lt (h.issued t listed)

/-- A caller goes away. -/
theorem leaves (h : Places history q turned) (t : Ticket) :
    Places (history ++ [.left t]) (q.leave t) turned := by
  have fewer : (acceptances history ++ (q.leave t).waiting).Sublist
      (acceptances history ++ q.waiting) := List.filter_sublist.append_left _
  refine ⟨h.place, fun some => h.room fun none => some (by simp [leave, none]), ?_, ?_, ?_, ?_,
    h.issued⟩
  · intro stopped
    obtain ⟨buffer, waiting⟩ := h.closed stopped
    exact ⟨buffer, by simp [leave, waiting]⟩
  · rw [arrivals_append, show arrivals [.left t] = [] from rfl, List.append_nil]
    exact h.numbered
  · simpa [arrivals, acceptances, came?, accepted?] using fewer.trans h.inLine
  · have kept := h.apart.sublist ((fewer.map (·.ticket)).append_right turned)
    simpa [acceptances, accepted?] using kept

/-- The caller that waited longest gets the slot of the call that is taken out. -/
theorem takes (h : Places history q turned) {job : Job} {rest : List Job} (s : Send)
    (buffer : q.buffer = job :: rest) :
    Places (history ++ .handed job :: (q.waiting.take 1).map .accepted)
      { q with
        buffer := rest ++ q.waiting.take 1
        waiting := q.waiting.drop 1
        worker := .sending job.ticket s } turned := by
  have same : acceptances (history ++ .handed job :: (q.waiting.take 1).map .accepted) ++
      q.waiting.drop 1 = acceptances history ++ q.waiting := by
    rw [acceptances_append, acceptances_handed, List.append_assoc, List.take_append_drop]
  have came : arrivals (history ++ .handed job :: (q.waiting.take 1).map .accepted) =
      arrivals history := by
    rw [arrivals_append, arrivals, arrivals, filterMap_handed fun _ => rfl]
    exact List.append_nil _
  refine ⟨h.place, ?_, fun stopped => absurd stopped Bool.false_ne_true,
    came ▸ h.numbered, ?_, ?_, h.issued⟩
  · -- The place goes to the one who waited longest, so the buffer is full again.
    intro some
    cases waiting : q.waiting with
    | nil => simp [waiting] at some
    | cons first others =>
      have full := h.room (by simp [waiting])
      simpa [buffer] using full
  · rw [came]
    exact same ▸ h.inLine
  · show ((_ ++ q.waiting.drop 1).map (·.ticket) ++ turned).Nodup
    rw [same]
    exact h.apart

/-- The worker stops, and callers that wait fail. -/
theorem stops (h : Places history q turned) (why : Failure) (came : arrivals shown = [])
    (accepted : acceptances shown = []) :
    Places (history ++ shown) (q.stop why) (turned ++ q.waiting.map (·.ticket)) where
  place := h.place
  room some := absurd rfl some
  closed _ := ⟨rfl, rfl⟩
  numbered := by
    rw [arrivals_append, came, List.append_nil]
    exact h.numbered
  inLine := by
    have let_in := (List.sublist_append_left (acceptances history) q.waiting).trans h.inLine
    simpa [came, accepted, stop] using let_in
  apart := by
    refine h.apart.perm ?_
    have swapped : ((acceptances history).map (·.ticket) ++
          (q.waiting.map (·.ticket) ++ turned)).Perm
        ((acceptances history).map (·.ticket) ++ (turned ++ q.waiting.map (·.ticket))) :=
      List.perm_append_comm.append_left _
    simpa [accepted, stop, replyAll] using swapped
  issued := by
    intro t listed
    rcases List.mem_append.mp listed with old | new
    · exact h.issued t old
    · exact h.lt_fresh (by simp [List.map_append, new])

end Places

/-! ### The columns -/

/-- What has become of every ticket. -/
structure Ledger where
  /-- The calls whose sends have ended, with their outcomes. -/
  done : List (Job × Except Failure Receipt)
  /-- The call that is being sent. -/
  running : Option Job
  /-- The accepted calls that were failed unsent. -/
  dismissed : List Job
  /-- The calls that were refused, and why. -/
  refused : List (Ticket × Failure)

namespace Ledger

/-- The calls whose sends have begun. -/
def handed (b : Ledger) : List Job := b.done.map (·.1) ++ b.running.toList

/-- Their beginnings and ends: each send ends before the next one begins. -/
def turns (b : Ledger) : List Event :=
  b.done.flatMap (fun x => [.handed x.1, .returned x.1.ticket (x.2.mapError .failure)]) ++
    b.running.toList.map .handed

/-- The outcomes of these columns. -/
def replies (b : Ledger) : List (Ticket × Except Failure Receipt) :=
  b.done.map (fun x => (x.1.ticket, x.2)) ++
    b.dismissed.map (fun job => (job.ticket, .error .cancelled)) ++
    b.refused.map fun x => (x.1, .error x.2)

/-- The worker is at what the ledger says. -/
def Employs (desk : Desk σ) (b : Ledger) : Worker → Prop
  | .idle => b.running = none ∧ b.dismissed = []
  | .sending t s =>
    b.running = some ⟨t, s.call⟩ ∧ b.dismissed = [] ∧ ∃ trail, Send.Run desk s.call trail s
  | .stopped => b.running = none

/-- A ledger is that of a history and of the queue it leads to. -/
structure Fits (desk : Desk σ) (history : List Event) (q : Queue) (b : Ledger) : Prop where
  places : Places history q (b.refused.map (·.1))
  /-- An accepted call is in one of the columns, or in the buffer. -/
  accepted : acceptances history = b.handed ++ b.dismissed ++ q.buffer
  turns : Event.turns history = b.turns
  employs : b.Employs desk q.worker
  /-- The outcome of a send is what it ended with. -/
  ends : ∀ x ∈ b.done, ∃ trail, Send.Ends desk x.1.call trail (x.2.mapError .failure)
  cancelled : Event.replies history = q.answers
  answers : q.answers.Perm b.replies
  refusals : ∀ x ∈ b.refused, x.2 = .queueFull ∨ x.2 = .queueClosed

namespace Fits

variable {b : Ledger}

/-- All columns are empty. -/
theorem opened (desk : Desk σ) (buffer : Nat) :
    Fits desk [] (.ofBuffer buffer) ⟨[], none, [], []⟩ where
  places := .opened buffer
  accepted := rfl
  turns := rfl
  employs := ⟨rfl, rfl⟩
  ends := by simp
  cancelled := rfl
  answers := .refl _
  refusals := by simp

/-- A call is refused at once. -/
theorem turnsAway (h : Fits desk history q b) (call : Call) {why : Failure}
    (refusal : why = .queueFull ∨ why = .queueClosed) :
    Fits desk (history ++ [.came ⟨q.fresh, call⟩, .answered q.fresh (.error why)])
      { q with answers := q.answers ++ [(q.fresh, .error why)], fresh := q.fresh + 1 }
      { b with refused := b.refused ++ [(q.fresh, why)] } where
  places := by
    rw [List.map_append]
    exact h.places.turnsAway call (.error why)
  accepted := by
    rw [acceptances_append, h.accepted]
    exact List.append_nil _
  turns := by
    rw [turns_append, h.turns]
    exact List.append_nil _
  employs := h.employs
  ends := h.ends
  cancelled := by
    rw [replies_append, h.cancelled]
    rfl
  answers := by
    simpa [replies] using h.answers.append_right [(q.fresh, .error why)]
  refusals := by
    intro x listed
    rcases List.mem_append.mp listed with old | new
    · exact h.refusals x old
    · rw [List.mem_singleton.mp new]
      exact refusal

/-- Where no call moves on and no outcome is sent, the ledger stays. -/
theorem still (h : Fits desk history q b)
    (places : Places (history ++ shown) q' (b.refused.map (·.1)))
    (accepted : acceptances shown = []) (turns : Event.turns shown = [])
    (replies : Event.replies shown = []) (buffer : q'.buffer = q.buffer)
    (answers : q'.answers = q.answers) (employs : b.Employs desk q'.worker) :
    Fits desk (history ++ shown) q' b where
  places := places
  accepted := by rw [acceptances_append, accepted, List.append_nil, buffer, h.accepted]
  turns := by rw [turns_append, turns, List.append_nil, h.turns]
  employs := employs
  ends := h.ends
  cancelled := by rw [replies_append, replies, List.append_nil, answers, h.cancelled]
  answers := answers ▸ h.answers
  refusals := h.refusals

/-- A call is accepted. -/
theorem admits (h : Fits desk history q b) (call : Call) (open' : q.isClosed = false)
    (room : q.available ≠ 0) :
    Fits desk (history ++ [.came ⟨q.fresh, call⟩, .accepted ⟨q.fresh, call⟩])
      { q with buffer := q.buffer ++ [⟨q.fresh, call⟩], fresh := q.fresh + 1 } b where
  places := h.places.admits call open' room
  accepted := by
    rw [acceptances_append, h.accepted, List.append_assoc]
    rfl
  turns := by
    rw [turns_append, h.turns]
    exact List.append_nil _
  employs := h.employs
  ends := h.ends
  cancelled := by
    rw [replies_append, h.cancelled]
    exact List.append_nil _
  answers := h.answers
  refusals := h.refusals

/-- The worker takes the oldest call. -/
theorem takes (h : Fits desk history q b) {job : Job} {rest : List Job} (now : Nat)
    (idle : q.worker = .idle) (buffer : q.buffer = job :: rest) :
    Fits desk (history ++ .handed job :: (q.waiting.take 1).map .accepted)
      { q with
        buffer := rest ++ q.waiting.take 1
        waiting := q.waiting.drop 1
        worker := .sending job.ticket (.start desk.policy job.call now) }
      { b with running := some job } := by
  have employs := h.employs
  rw [idle] at employs
  obtain ⟨none, undismissed⟩ := employs
  refine ⟨h.places.takes _ buffer, ?_, ?_, ⟨rfl, undismissed, [], .start now⟩, h.ends, ?_,
    h.answers, h.refusals⟩
  · rw [acceptances_append, acceptances_handed, h.accepted]
    simp [handed, none, undismissed, buffer]
  · have turned : Event.turns (.handed job :: (q.waiting.take 1).map .accepted) = [.handed job] :=
      filterMap_handed (fun _ => rfl) job _
    rw [turns_append, turned, h.turns]
    simp [Ledger.turns, none]
  · have silent : Event.replies (.handed job :: (q.waiting.take 1).map .accepted) = [] :=
      filterMap_handed (fun _ => rfl) job _
    rw [replies_append, silent, h.cancelled, List.append_nil]

/-- The send advances. -/
theorem advances (h : Fits desk history q b) {t : Ticket} {s s' : Send}
    (sending : q.worker = .sending t s)
    (runs : ∀ trail, Send.Run desk s.call trail s → ∃ trail', Send.Run desk s.call trail' s') :
    Fits desk (history ++ []) { q with worker := .sending t s' } b := by
  have employs := h.employs
  rw [sending] at employs
  obtain ⟨running, undismissed, trail, run⟩ := employs
  obtain ⟨trail', run'⟩ := runs trail run
  have same := run'.call_eq
  refine h.still (h.places.still rfl rfl rfl rfl rfl (fun stopped => ?_) rfl) rfl rfl rfl rfl rfl
    ⟨same ▸ running, undismissed, trail', same ▸ run'⟩
  exact absurd stopped Bool.false_ne_true

/-- A send ends, and its caller gets the outcome. -/
theorem returns (h : Fits desk history q b) {t : Ticket} {s : Send}
    (answer : Except Failure Receipt) (sending : q.worker = .sending t s)
    (ends : ∀ trail, Send.Run desk s.call trail s →
      ∃ trail', Send.Ends desk s.call trail' (answer.mapError .failure)) :
    Fits desk
      (history ++ [.returned t (answer.mapError .failure), .answered t answer])
      { q with answers := q.answers ++ [(t, answer)], worker := .idle }
      { b with done := b.done ++ [(⟨t, s.call⟩, answer)], running := none } := by
  have employs := h.employs
  rw [sending] at employs
  obtain ⟨running, undismissed, trail, run⟩ := employs
  refine ⟨?_, ?_, ?_, ⟨rfl, undismissed⟩, ?_, ?_, ?_, h.refusals⟩
  · refine h.places.still rfl rfl rfl rfl rfl (fun stopped => ?_) rfl
    exact absurd stopped Bool.false_ne_true
  · rw [acceptances_append, h.accepted]
    simp [acceptances, accepted?, handed, running, undismissed]
  · rw [turns_append, h.turns]
    simp [Event.turns, turn?, Ledger.turns, running]
  · intro x listed
    rcases List.mem_append.mp listed with old | new
    · exact h.ends x old
    · rw [List.mem_singleton.mp new]
      exact ends trail run
  · rw [replies_append, h.cancelled]
    rfl
  · -- The answer comes last, and belongs to the first column, before those who were refused.
    have more := h.answers.append_right [(t, answer)]
    simp only [Ledger.replies, undismissed, List.map_append, List.map_nil, List.append_nil,
      List.append_assoc, List.map_cons] at more ⊢
    exact more.trans (List.perm_append_comm.append_left _)

/-- The worker stops. -/
theorem stops (h : Fits desk history q b) (idle : q.worker = .idle) :
    Fits desk (history ++ (q.notices ++ q.partings .cancelled)) (q.stop .cancelled)
      { b with
        dismissed := q.buffer
        refused := b.refused ++ q.waiting.map fun job => (job.ticket, .queueClosed) } := by
  have employs := h.employs
  rw [idle] at employs
  obtain ⟨none, undismissed⟩ := employs
  have came : arrivals (q.notices ++ q.partings .cancelled) = [] :=
    filterMap_stops rfl (fun _ _ => rfl) q _
  have accepted : acceptances (q.notices ++ q.partings .cancelled) = [] :=
    filterMap_stops rfl (fun _ _ => rfl) q _
  have unturned : Event.turns (q.notices ++ q.partings .cancelled) = [] :=
    filterMap_stops rfl (fun _ _ => rfl) q _
  have replies : Event.replies (q.notices ++ q.partings .cancelled) =
      q.waiting.map (fun job => (job.ticket, .error .queueClosed)) ++
        q.buffer.map fun job => (job.ticket, .error .cancelled) := by
    have noticed : Event.replies q.notices = [] :=
      List.filterMap_eq_nil_iff.mpr fun e h => by rw [eq_shut_of_notices h]; rfl
    rw [replies_append, replies_partings, noticed, List.nil_append]
  refine ⟨?_, ?_, ?_, none, h.ends, ?_, ?_, ?_⟩
  · have stopped := h.places.stops .cancelled came accepted
    simpa [Function.comp_def] using stopped
  · rw [acceptances_append, accepted, h.accepted]
    simp [handed, none, undismissed, stop]
  · rw [turns_append, unturned, h.turns, List.append_nil]
    rfl
  · rw [replies_append, replies, h.cancelled, ← List.append_assoc]
    rfl
  · -- Those who wait are answered before those who have a place; the columns have it the other way.
    have more := h.answers.append_right
      (q.waiting.map (fun job => (job.ticket, .error .queueClosed)) ++
        q.buffer.map fun job => (job.ticket, .error .cancelled))
    simp only [Ledger.replies, undismissed, List.map_append, List.map_nil, List.append_nil,
      List.append_assoc, List.map_map, stop, replyAll] at more ⊢
    refine more.trans (List.Perm.append_left _ ?_)
    rw [← List.append_assoc]
    exact List.perm_append_comm
  · intro x listed
    rcases List.mem_append.mp listed with old | new
    · exact h.refusals x old
    · obtain ⟨job, -, rfl⟩ := List.mem_map.mp new
      exact .inr rfl

/-- **Every move keeps some ledger fitting**, unless it is the breakdown of a send. -/
theorem move (h : Fits desk history q b) (move : Move desk q shown q')
    (whole : ∀ t f, .returned t (.error (.fault f)) ∉ shown) :
    ∃ b', Fits desk (history ++ shown) q' b' := by
  cases move with
  | bars call closed => exact ⟨_, h.turnsAway call (.inr rfl)⟩
  | refuses call open' full => exact ⟨_, h.turnsAway call (.inl rfl)⟩
  | queues call open' full =>
    exact ⟨b, h.still (h.places.waits call open' full) rfl rfl rfl rfl rfl h.employs⟩
  | admits call open' room => exact ⟨b, h.admits call open' room⟩
  | leaves t => exact ⟨b, h.still (h.places.leaves t) rfl rfl rfl rfl rfl h.employs⟩
  | counts _ =>
    exact ⟨b, h.still (h.places.still rfl rfl rfl rfl rfl id rfl) rfl rfl rfl rfl rfl h.employs⟩
  | cancels =>
    exact ⟨b, h.still (h.places.still rfl rfl rfl rfl rfl id rfl) rfl rfl rfl rfl rfl h.employs⟩
  | reschedules sending order =>
    exact ⟨b, h.advances sending fun trail run => ⟨trail, .reschedule run order⟩⟩
  | stops idle due => exact ⟨_, h.stops idle⟩
  | takes now idle going buffer => exact ⟨_, h.takes now idle buffer⟩
  | sends sending step =>
    refine ⟨b, h.advances sending fun trail run => ?_⟩
    obtain ⟨calls, run'⟩ := run.of_step step
    exact ⟨_, run'⟩
  | returns answer sending step =>
    refine ⟨_, h.returns answer sending fun trail run => ?_⟩
    obtain ⟨calls, ends⟩ := Send.Ends.of_step run step
    exact ⟨_, ends⟩
  | breaks sending step => exact absurd List.mem_cons_self (whole _ _)

end Fits

end Ledger

/-- **Every history without a breakdown has its ledger.** -/
theorem Run.ledger (run : Run desk history q)
    (whole : ∀ t f, .returned t (.error (.fault f)) ∉ history) :
    ∃ b, Ledger.Fits desk history q b := by
  induction run using Run.induction with
  | opened buffer => exact ⟨_, .opened desk buffer⟩
  | move run move _ ih =>
    obtain ⟨b, fits⟩ := ih fun t f listed => whole t f (List.mem_append_left _ listed)
    exact fits.move move fun t f listed => whole t f (List.mem_append_right _ listed)

end Queue

end Relayer
