import Mathlib.Data.List.Nodup
import Relayer.Proofs.Queue.Ledger
import Relayer.Proofs.Send.Prompt

namespace Relayer

/-!
# Contract — what the callers of a queue can rely on

Callers, the worker, the send under way and the cancellation of the shutdown token come in any
order.  Whatever the order: calls are sent one at a time and in the order in which they were
accepted, and every accepted call gets one outcome: that of its own send, or `cancelled` unsent.

* `Queue.Contract` — all of that, for one history;
* `Queue.Ledger.Fits.answered_iff` — the outcome of an accepted call, by the ledger;
* `Queue.Run.obeyed` / `Queue.Run.shut` — what comes behind `cancelled`, and behind `shut`;
* `Queue.Run.contract` — every history without a breakdown keeps the contract.
-/

variable {σ : Type}

namespace Queue

open Event

/-- The calls that are being sent or buffered. -/
def underway (q : Queue) : List Job :=
  match q.worker with
  | .sending t s => ⟨t, s.call⟩ :: q.buffer
  | _ => q.buffer

/-- What the callers of a queue can rely on. -/
structure Contract (desk : Desk σ) (history : List Event) (q : Queue) : Prop where
  /-- One send at a time: the first of two ends before the second one begins. -/
  alone : ∀ a b before between rest,
    history = before ++ .handed a :: (between ++ .handed b :: rest) →
      ∃ result, .returned a.ticket result ∈ between
  /-- Calls are sent in the order in which they were accepted. -/
  inOrder : handovers history <+: acceptances history
  /-- They are accepted in the order in which they came. -/
  byArrival : (acceptances history).Sublist (arrivals history)
  /-- Every call has a ticket of its own. -/
  named : ((arrivals history).map (·.ticket)).Nodup
  /-- No ticket gets two outcomes. -/
  once : ((replies history).map (·.1)).Nodup
  /-- An accepted call has its outcome as soon as it is not under way any more. -/
  settled : ∀ job ∈ acceptances history,
    (∃ answer, .answered job.ticket answer ∈ history) ↔ job ∉ q.underway
  /-- The outcome is what its own send ended with, or `cancelled` where there was none. -/
  own : ∀ job ∈ acceptances history, ∀ answer, .answered job.ticket answer ∈ history →
    (job ∈ handovers history ∧
      .returned job.ticket (answer.mapError .failure) ∈ history ∧
      ∃ trail, Send.Ends desk job.call trail (answer.mapError .failure)) ∨
    (job ∉ handovers history ∧ answer = .error .cancelled)
  /-- Behind `cancelled` no send begins. -/
  obeyed : ∀ before rest, history = before ++ .cancelled :: rest → handovers rest = []
  /-- At `shut` the buffered calls are cancelled, and no call is sent or accepted any more. -/
  shut : ∀ before rest, history = before ++ .shut :: rest →
    (∀ job ∈ acceptances before, job ∉ handovers before →
      .answered job.ticket (.error .cancelled) ∈ rest) ∧
    handovers rest = [] ∧ acceptances rest = []
  /-- A call that gets `queueFull` or `queueClosed` has not been sent, unless just this is what its
      own send ended with. -/
  turnedAway : ∀ t f, f = .queueFull ∨ f = .queueClosed → .answered t (.error f) ∈ history →
    (∀ job ∈ handovers history, job.ticket ≠ t) ∨ .returned t (.error (.failure f)) ∈ history
  /-- A caller that goes away with its call accepted leaves the queue as it is. -/
  gone : ∀ job ∈ acceptances history, q.leave job.ticket = q
  /-- While a call is under way, the worker can step, or waits for what the send itself waits
      for. -/
  driven : ∀ now leases outside, q.underway ≠ [] → q.step desk now leases outside = none →
    ∃ t s, q.worker = .sending t s ∧ s.step desk q.shutdown now leases outside = none

variable {desk : Desk σ} {q q' : Queue} {history shown : List Event}

/-! ### By the ledger -/

namespace Ledger

/-- Between two beginnings there is the end of the first. -/
theorem returned_between {done : List (Job × Except Failure Receipt)} {running : Option Job}
    {a b : Job} {before between rest : List Event}
    (split : done.flatMap (fun x => [Event.handed x.1,
        .returned x.1.ticket (x.2.mapError .failure)]) ++ running.toList.map .handed =
      before ++ .handed a :: (between ++ .handed b :: rest)) :
    ∃ result, .returned a.ticket result ∈ between := by
  induction done generalizing before with
  | nil =>
    -- A single beginning is not two.
    have length := congrArg List.length split
    cases running <;> simp at length
    omega
  | cons x done ih =>
    simp only [List.flatMap_cons, List.cons_append, List.nil_append] at split
    match before with
    | [] =>
      simp only [List.nil_append, List.cons.injEq, Event.handed.injEq] at split
      obtain ⟨rfl, split⟩ := split
      cases between with
      | nil => simp at split
      | cons e between =>
        obtain ⟨rfl, -⟩ := List.cons.inj split
        exact ⟨_, List.mem_cons_self⟩
    | [_] => simp at split
    | _ :: _ :: before =>
      simp only [List.cons_append, List.cons.injEq] at split
      exact ih split.2.2

/-- The calls whose sends have begun, by `turns`. -/
theorem handovers_turns (b : Ledger) : handovers b.turns = b.handed := by
  have ended : ∀ done : List (Job × Except Failure Receipt),
      handovers (done.flatMap fun x => [Event.handed x.1,
        .returned x.1.ticket (x.2.mapError .failure)]) = done.map (·.1) := by
    intro done
    induction done with
    | nil => rfl
    | cons x done ih =>
      rw [List.flatMap_cons, handovers_append, ih]
      rfl
  rw [turns, handovers_append, ended]
  cases running : b.running <;> simp [handed, running, handovers, handed?]

namespace Fits

variable {b : Ledger} {job : Job}

/-- The calls whose sends have begun, by the ledger. -/
theorem handovers_eq (h : Fits desk history q b) : handovers history = b.handed := by
  have same : handovers (Event.turns history) = handovers history := by
    simp only [handovers, Event.turns, List.filterMap_filterMap]
    refine List.filterMap_congr fun e _ => ?_
    cases e <;> rfl
  rw [← same, h.turns, handovers_turns]

/-- The first of two sends ends before the second one begins. -/
theorem alone (h : Fits desk history q b) {job job' : Job} {before between rest : List Event}
    (split : history = before ++ .handed job :: (between ++ .handed job' :: rest)) :
    ∃ result, .returned job.ticket result ∈ between := by
  have turns : b.turns = Event.turns before ++
      .handed job :: (Event.turns between ++ .handed job' :: Event.turns rest) := by
    rw [← h.turns, split, turns_append]
    show _ ++ .handed job :: Event.turns (between ++ _) = _
    rw [turns_append]
    rfl
  obtain ⟨result, returned⟩ := returned_between turns
  exact ⟨result, mem_of_turns returned⟩

/-- The calls under way, by the ledger. -/
theorem underway_eq (h : Fits desk history q b) : q.underway = b.running.toList ++ q.buffer := by
  have employs := h.employs
  unfold underway
  cases worker : q.worker <;> rw [worker] at employs
  case idle => simp [employs.1]
  case sending => simp [employs.1]
  case stopped => simp [show b.running = none from employs]

/-- No ticket is accepted and refused, or either of them twice. -/
theorem apart (h : Fits desk history q b) :
    ((acceptances history).map (·.ticket) ++ b.refused.map (·.1)).Nodup :=
  h.places.apart.sublist
    (((List.sublist_append_left _ q.waiting).map (·.ticket)).append_right _)

/-- Accepted calls have distinct tickets. -/
theorem ticket_inj (h : Fits desk history q b) {job job' : Job} (listed : job ∈ acceptances history)
    (listed' : job' ∈ acceptances history) (same : job.ticket = job'.ticket) : job = job' :=
  List.inj_on_of_nodup_map (List.nodup_append.mp h.apart).1 listed listed' same

/-- **The outcome of an accepted call**: what its send ended with, or `cancelled` where it was
    dismissed. -/
theorem answered_iff (h : Fits desk history q b) (listed : job ∈ acceptances history)
    {answer : Except Failure Receipt} :
    .answered job.ticket answer ∈ history ↔
      (job, answer) ∈ b.done ∨ job ∈ b.dismissed ∧ answer = .error .cancelled := by
  rw [← mem_replies, h.cancelled, h.answers.mem_iff]
  -- A ticket in a list of accepted calls is that of this call.
  have place {job' : Job} (there : job' ∈ b.handed ++ b.dismissed)
      (same : job'.ticket = job.ticket) : job' = job := by
    refine h.ticket_inj ?_ listed same
    rw [h.accepted]
    exact List.mem_append_left _ there
  simp only [replies, List.mem_append, List.mem_map, Prod.mk.injEq]
  constructor
  · rintro ((⟨x, done, same, rfl⟩ | ⟨job', dismissed, same, rfl⟩) | ⟨x, refused, same, -⟩)
    · obtain rfl := place (List.mem_append_left _
        (List.mem_append_left _ (List.mem_map_of_mem done))) same
      exact .inl done
    · obtain rfl := place (List.mem_append_right _ dismissed) same
      exact .inr ⟨dismissed, rfl⟩
    · -- Who was turned away got no place.
      have apart := (List.nodup_append.mp h.apart).2.2
      exact absurd rfl (apart _ (List.mem_map_of_mem listed) _ (same ▸ List.mem_map_of_mem refused))
  · rintro (done | ⟨dismissed, rfl⟩)
    · exact .inl (.inl ⟨_, done, rfl, rfl⟩)
    · exact .inl (.inr ⟨_, dismissed, rfl, rfl⟩)

/-- An accepted call is in one column only. -/
theorem columns (h : Fits desk history q b) :
    (∀ x ∈ b.done, x.1 ∉ b.running.toList) ∧ (∀ job ∈ b.handed, job ∉ b.dismissed) ∧
      ∀ job ∈ b.handed ++ b.dismissed, job ∉ q.buffer := by
  have nodup := (List.nodup_append.mp h.apart).1.of_map
  rw [h.accepted] at nodup
  obtain ⟨nodup, -, buffer⟩ := List.nodup_append.mp nodup
  obtain ⟨nodup, -, dismissed⟩ := List.nodup_append.mp nodup
  obtain ⟨-, -, running⟩ := List.nodup_append.mp nodup
  exact ⟨fun x done here => running _ (List.mem_map_of_mem done) _ here rfl,
    fun job handed here => dismissed job handed _ here rfl,
    fun job there here => buffer job there _ here rfl⟩

/-- No ticket gets two outcomes. -/
theorem once (h : Fits desk history q b) : ((Event.replies history).map (·.1)).Nodup := by
  rw [h.cancelled]
  -- The tickets that were answered are among those of the acceptances and the refused.
  refine (h.answers.map (·.1)).nodup_iff.mpr (h.apart.sublist ?_)
  rw [h.accepted]
  simp only [Ledger.replies, handed, List.map_append, List.map_map, Function.comp_def]
  refine List.Sublist.append_right ?_ _
  exact ((List.sublist_append_left _ _).append_right _).trans (List.sublist_append_left _ _)

/-- An accepted call has its outcome exactly where it is not under way any more. -/
theorem settled (h : Fits desk history q b) (listed : job ∈ acceptances history) :
    (∃ answer, .answered job.ticket answer ∈ history) ↔ job ∉ q.underway := by
  obtain ⟨running, dismissed, buffer⟩ := h.columns
  simp only [h.answered_iff listed, h.underway_eq]
  constructor
  · rintro ⟨answer, done | ⟨gone, -⟩⟩ here
    · have handed : job ∈ b.handed := List.mem_append_left _ (List.mem_map_of_mem done)
      rcases List.mem_append.mp here with here | here
      · exact running _ done here
      · exact buffer job (List.mem_append_left _ handed) here
    · rcases List.mem_append.mp here with here | here
      · exact dismissed job (List.mem_append_right _ here) gone
      · exact buffer job (List.mem_append_right _ gone) here
  · intro gone
    rw [h.accepted, handed] at listed
    rcases List.mem_append.mp listed with there | here
    · rcases List.mem_append.mp there with handed | gone
      · rcases List.mem_append.mp handed with done | here
        · obtain ⟨x, ended, rfl⟩ := List.mem_map.mp done
          exact ⟨x.2, .inl ended⟩
        · exact absurd (List.mem_append_left _ here) gone
      · exact ⟨_, .inr ⟨gone, rfl⟩⟩
    · exact absurd (List.mem_append_right _ here) gone

/-- The outcome is what the send of that call ended with. -/
theorem own (h : Fits desk history q b) (listed : job ∈ acceptances history)
    {answer : Except Failure Receipt} (answered : .answered job.ticket answer ∈ history) :
    (job ∈ handovers history ∧ .returned job.ticket (answer.mapError .failure) ∈ history ∧
      ∃ trail, Send.Ends desk job.call trail (answer.mapError .failure)) ∨
    (job ∉ handovers history ∧ answer = .error .cancelled) := by
  rw [h.handovers_eq]
  rcases (h.answered_iff listed).mp answered with done | ⟨dismissed, rfl⟩
  · refine .inl ⟨List.mem_append_left _ (List.mem_map_of_mem done), mem_of_turns ?_, h.ends _ done⟩
    rw [h.turns]
    exact List.mem_append_left _ (List.mem_flatMap.mpr ⟨_, done, by simp⟩)
  · exact .inr ⟨fun handed => h.columns.2.1 job handed dismissed, rfl⟩

/-- An accepted call does not wait for buffer space. -/
theorem gone (h : Fits desk history q b) (listed : job ∈ acceptances history) :
    q.leave job.ticket = q := by
  have tickets := (List.nodup_append.mp h.places.apart).1
  rw [List.map_append, List.nodup_append] at tickets
  have others : q.waiting.filter (·.ticket != job.ticket) = q.waiting := by
    rw [List.filter_eq_self]
    intro job' waits
    rw [bne_iff_ne]
    exact fun same => tickets.2.2 _ (List.mem_map_of_mem listed) _ (List.mem_map_of_mem waits)
      same.symm
  rw [leave, others]

/-- While a call is under way, the worker waits at most for its send. -/
theorem driven (h : Fits desk history q b) {now : Nat} {leases : Leases} {outside : σ}
    (some : q.underway ≠ []) (stuck : q.step desk now leases outside = none) :
    ∃ t s, q.worker = .sending t s ∧ s.step desk q.shutdown now leases outside = none := by
  unfold underway at some
  unfold Queue.step at stuck
  cases worker : q.worker with
  | sending t s =>
    refine ⟨t, s, rfl, ?_⟩
    simp only [worker] at stuck
    split at stuck
    next inner => exact inner
    all_goals cases stuck
  | stopped =>
    -- A worker that has stopped has left nothing behind.
    rw [worker] at some
    exact absurd (h.places.closed (by simp [isClosed, worker])).1 some
  | idle =>
    rw [worker] at some
    simp only [worker] at stuck
    split at stuck
    next => cases stuck
    next =>
      cases buffer : q.buffer with
      | nil => exact absurd buffer some
      | cons job rest => simp [take?, buffer] at stuck

end Fits

end Ledger

/-! ### Behind the word to stop -/

/-- An event of a history that has grown was there before, or is new. -/
theorem split_cases {e : Event} {before rest : List Event}
    (split : history ++ shown = before ++ e :: rest) :
    (∃ later, history = before ++ e :: later ∧ rest = later ++ shown) ∨
      ∃ first, before = history ++ first ∧ shown = first ++ e :: rest := by
  rcases List.append_eq_append_iff.mp split with ⟨first, old, new⟩ | ⟨back, old, new⟩
  · exact .inr ⟨first, old, new⟩
  · cases back with
    | nil => exact .inr ⟨[], by simpa using old.symm, by simpa using new.symm⟩
    | cons e' back =>
      obtain ⟨rfl, rest⟩ := List.cons.inj new
      exact .inl ⟨back, old, rest⟩

/-- A queue whose token is cancelled begins no send. -/
theorem Move.of_cancelled (move : Move desk q shown q') (cancelled : q.shutdown = true) :
    q'.shutdown = true ∧ handovers shown = [] := by
  cases move with
  | takes _ _ going _ => exact absurd (going.symm.trans cancelled) Bool.false_ne_true
  | stops idle due => exact ⟨cancelled, filterMap_stops rfl (fun _ _ => rfl) q _⟩
  | breaks _ _ => exact ⟨cancelled, filterMap_partings (fun _ _ => rfl) q _⟩
  | cancels => exact ⟨rfl, rfl⟩
  | _ => exact ⟨cancelled, rfl⟩

/-- A worker that has stopped neither sends nor accepts. -/
theorem Move.of_stopped (move : Move desk q shown q') (stopped : q.worker = .stopped) :
    q'.worker = .stopped ∧ handovers shown = [] ∧ acceptances shown = [] := by
  have closed : q.isClosed = true := by simp [isClosed, stopped]
  cases move with
  | admits _ open' _ => exact absurd (open'.symm.trans closed) Bool.false_ne_true
  | stops idle _ | takes _ idle _ _ =>
    rw [stopped] at idle
    cases idle
  | reschedules sending _ | sends sending _ | returns _ sending _ | breaks sending _ =>
    rw [stopped] at sending
    cases sending
  | _ => exact ⟨stopped, rfl, rfl⟩

/-- `partings` are outcomes and nothing else. -/
theorem not_mem_partings {e : Event} (other : ∀ t answer, e ≠ .answered t answer) (why : Failure) :
    e ∉ q.partings why := by
  intro listed
  obtain ⟨t, answer, same⟩ := answered_of_partings listed
  exact other t answer same

/-- Where a call is taken out, there are only `handed` and `accepted`. -/
theorem not_mem_handed {e : Event} (other : ∀ job, e ≠ .handed job ∧ e ≠ .accepted job) (job : Job)
    (jobs : List Job) : e ∉ (.handed job :: jobs.map .accepted : List Event) := by
  rw [List.mem_cons, List.mem_map, not_or]
  exact ⟨(other job).1, fun ⟨job', _, same⟩ => (other job').2 same.symm⟩

/-- The cancellation of the token shows `cancelled` alone. -/
theorem Move.of_mem_cancelled (move : Move desk q shown q') (listed : .cancelled ∈ shown) :
    shown = [.cancelled] ∧ q'.shutdown = true := by
  have unanswered (why : Failure) : .cancelled ∉ q.partings why := not_mem_partings (by simp) why
  cases move with
  | cancels => exact ⟨rfl, rfl⟩
  | stops idle due =>
    rcases List.mem_append.mp listed with noticed | parting
    · cases eq_shut_of_notices noticed
    · exact absurd parting (unanswered _)
  | breaks _ _ =>
    have parting : .cancelled ∈ q.partings .queueClosed := by simpa using listed
    exact absurd parting (unanswered _)
  | takes _ _ _ _ => exact absurd listed (not_mem_handed (by simp) _ _)
  | _ => simp at listed

/-- Only an idle worker shows `shut`, and shows it first. -/
theorem Move.shut (move : Move desk q shown q') (listed : .shut ∈ shown) :
    q.worker = .idle ∧ q'.worker = .stopped ∧ shown = .shut :: q.partings .cancelled := by
  have unanswered (why : Failure) : .shut ∉ q.partings why := not_mem_partings (by simp) why
  cases move with
  | stops idle due =>
    have noticed : .shut ∈ q.notices :=
      (List.mem_append.mp listed).resolve_right (unanswered _)
    have cancelled : q.shutdown = true := by
      by_contra going
      simp [notices, idle, going] at noticed
    refine ⟨idle, rfl, ?_⟩
    rw [show q.notices = [.shut] by simp [notices, idle, cancelled]]
    rfl
  | breaks _ _ =>
    have parting : .shut ∈ q.partings .queueClosed := by simpa using listed
    exact absurd parting (unanswered _)
  | takes _ _ _ _ => exact absurd listed (not_mem_handed (by simp) _ _)
  | _ => simp at listed

/-- **Behind `cancelled` no send begins.** -/
theorem Run.obeyed (run : Run desk history q) : ∀ before rest,
    history = before ++ .cancelled :: rest → q.shutdown = true ∧ handovers rest = [] := by
  induction run using Run.induction with
  | opened buffer =>
    intro before rest split
    simp at split
  | move run move _ ih =>
    intro before rest split
    rcases split_cases split with ⟨later, old, rfl⟩ | ⟨first, -, new⟩
    · obtain ⟨cancelled, none⟩ := ih before later old
      obtain ⟨answered', none'⟩ := move.of_cancelled cancelled
      exact ⟨answered', by rw [handovers_append, none, none', List.append_nil]⟩
    · -- `cancelled` is the only event of its move, so nothing is behind it yet.
      obtain ⟨only, answered'⟩ := move.of_mem_cancelled (by simp [new])
      rw [only] at new
      cases first with
      | nil =>
        obtain rfl : [] = rest := (List.cons.inj new).2
        exact ⟨answered', rfl⟩
      | cons e first => simp at new

/-- **At `shut` the buffered calls are cancelled**, and no call is sent or accepted any more. -/
theorem Run.shut (run : Run desk history q)
    (whole : ∀ t f, .returned t (.error (.fault f)) ∉ history) : ∀ before rest,
    history = before ++ .shut :: rest → q.worker = .stopped ∧
      (∀ job ∈ acceptances before, job ∉ handovers before →
        .answered job.ticket (.error .cancelled) ∈ rest) ∧
      handovers rest = [] ∧ acceptances rest = [] := by
  induction run using Run.induction with
  | opened buffer =>
    intro before rest split
    simp at split
  | @move history q shown q' run move _ ih =>
    intro before rest split
    have whole' : ∀ t f, .returned t (.error (.fault f)) ∉ history := fun t f listed =>
      whole t f (List.mem_append_left _ listed)
    rcases split_cases split with ⟨later, old, rfl⟩ | ⟨first, rfl, new⟩
    · obtain ⟨stopped, cancelled, unsent, unlet⟩ := ih whole' before later old
      obtain ⟨stopped', unsent', unlet'⟩ := move.of_stopped stopped
      refine ⟨stopped', ?_, ?_, ?_⟩
      · exact fun job listed behind => List.mem_append_left _ (cancelled job listed behind)
      · rw [handovers_append, unsent, unsent', List.append_nil]
      · rw [acceptances_append, unlet, unlet', List.append_nil]
    · obtain ⟨idle, stopped', only⟩ := move.shut (by simp [new])
      rw [only] at new
      cases first with
      | nil =>
        obtain rfl := (List.cons.inj new).2
        refine ⟨stopped', ?_, filterMap_partings (fun _ _ => rfl) q _,
          filterMap_partings (fun _ _ => rfl) q _⟩
        rw [List.append_nil]
        intro job listed behind
        obtain ⟨b, fits⟩ := run.ledger whole'
        -- An idle worker has dismissed no call yet, so a call that was not sent is still buffered.
        have employs := fits.employs
        rw [idle] at employs
        rw [fits.handovers_eq] at behind
        rw [fits.accepted, employs.2, List.append_nil, List.mem_append] at listed
        exact List.mem_append_right _ (List.mem_map_of_mem (listed.resolve_left behind))
      | cons e first =>
        have parting : .shut ∈ q.partings .cancelled := by
          rw [(List.cons.inj new).2]
          simp
        exact absurd parting (not_mem_partings (by simp) _)

/-- **Every history without a breakdown keeps the contract.** -/
theorem Run.contract (run : Run desk history q)
    (whole : ∀ t f, .returned t (.error (.fault f)) ∉ history) : Contract desk history q := by
  obtain ⟨b, fits⟩ := run.ledger whole
  have inOrder : handovers history <+: acceptances history := by
    rw [fits.handovers_eq, fits.accepted, List.append_assoc]
    exact List.prefix_append ..
  refine
    { alone := ?_
      inOrder
      byArrival := (List.sublist_append_left ..).trans fits.places.inLine
      named := ?_
      once := fits.once
      settled := fun job listed => fits.settled listed
      own := fun job listed answer answered => fits.own listed answered
      obeyed := fun before rest split => (run.obeyed before rest split).2
      shut := fun before rest split => (run.shut whole before rest split).2
      turnedAway := ?_
      gone := fun job listed => fits.gone listed
      driven := fun now leases outside some stuck => fits.driven some stuck }
  · intro a b before between rest split
    exact fits.alone split
  · rw [fits.places.numbered]
    exact List.nodup_range
  · intro t f refusal answered
    -- Whoever was sent is answered by its own send, so the refusal would be what that ended with.
    by_cases sent : ∃ job ∈ handovers history, job.ticket = t
    · obtain ⟨job, handed, rfl⟩ := sent
      rcases fits.own (inOrder.subset handed) answered with ⟨-, returned, -⟩ | ⟨unsent, -⟩
      · exact .inr returned
      · exact absurd handed unsent
    · exact .inl fun job handed same => sent ⟨job, handed, same⟩

/-- Two calls come, and the token is cancelled while the first one is being sent. -/
theorem Run.cancelled_while_sending (desk : Desk σ) (outside : σ) (call : Call) : ∃ q,
    Run desk
      [ .came ⟨0, call⟩, .accepted ⟨0, call⟩, .handed ⟨0, call⟩, .came ⟨1, call⟩,
        .accepted ⟨1, call⟩, .cancelled, .returned 0 (.error (.failure .cancelled)),
        .answered 0 (.error .cancelled), .shut, .answered 1 (.error .cancelled) ] q := by
  have comes : Run desk [.came ⟨0, call⟩, .accepted ⟨0, call⟩]
      ⟨1, [⟨0, call⟩], [], .idle, false, 1, [], 1⟩ := (Run.opened 1).offers call
  have takes : Queue.step desk 0 ⟨1, [⟨0, call⟩], [], .idle, false, 1, [], 1⟩ .empty outside =
      some (⟨1, [], [], .sending 0 (.start desk.policy call 0), false, 1, [], 1⟩, .empty,
        outside) := rfl
  have follows : Run desk
      [ .came ⟨0, call⟩, .accepted ⟨0, call⟩, .handed ⟨0, call⟩, .came ⟨1, call⟩,
        .accepted ⟨1, call⟩, .cancelled ]
      ⟨1, [⟨1, call⟩], [], .sending 0 (.start desk.policy call 0), true, 1, [], 2⟩ :=
    ((comes.works takes).offers call).cancels
  have ends : Queue.step desk 0
      ⟨1, [⟨1, call⟩], [], .sending 0 (.start desk.policy call 0), true, 1, [], 2⟩ .empty outside =
      some (⟨1, [⟨1, call⟩], [], .idle, true, 1, [(0, .error .cancelled)], 2⟩, .empty,
        outside) := rfl
  have stops : Queue.step desk 0
      ⟨1, [⟨1, call⟩], [], .idle, true, 1, [(0, .error .cancelled)], 2⟩ .empty outside =
      some (⟨1, [], [], .stopped, true, 1, [(0, .error .cancelled), (1, .error .cancelled)], 2⟩,
        .empty, outside) := rfl
  exact ⟨_, (follows.works ends).works stops⟩

/-- Such a history keeps the contract: the send under way ends with `cancelled`, and the other call
    is never sent. -/
theorem Run.contract_when_cancelled : ∃ (history : List Event) (q : Queue),
    Run Send.Errand.bare.desk history q ∧
    (∀ t f, .returned t (.error (.fault f)) ∉ history) ∧
    .handed ⟨0, Send.Errand.bare.call⟩ ∈ history ∧ .answered 0 (.error .cancelled) ∈ history ∧
    .accepted ⟨1, Send.Errand.bare.call⟩ ∈ history ∧ .answered 1 (.error .cancelled) ∈ history ∧
    Contract Send.Errand.bare.desk history q := by
  obtain ⟨q, run⟩ := Run.cancelled_while_sending Send.Errand.bare.desk () Send.Errand.bare.call
  exact ⟨_, q, run, by simp, by simp, by simp, by simp, by simp, run.contract (by simp)⟩

/-! ### Sent, and yet cancelled that the queue is closed -/

/-- A desk whose node, asked for an estimate, fails with `queueClosed`. -/
def closing : Desk Unit :=
  { Send.Errand.bare.desk with
    chain := { Send.Errand.bare.desk.chain with
      estimate := fun _ => .prompt (.error .queueClosed) } }

/-- A call without a gas limit of its own. -/
def unlimited : Call := { Send.Errand.bare.call with gasLimit := none }

/-- A queue whose worker has this send in hand. -/
def inHand (phase : Send.Phase) : Queue :=
  ⟨1, [], [], .sending 0 ⟨unlimited, none, phase⟩, false, 1, [], 1⟩

/-- **`queueClosed` may also be the failure of the node**: then it comes from a send that has begun,
    and is the outcome of its call. -/
theorem Run.closed_though_sent : ∃ (desk : Desk Unit) (history : List Event) (q : Queue)
    (job : Job), Run desk history q ∧ (∀ t f, .returned t (.error (.fault f)) ∉ history) ∧
    .answered job.ticket (.error .queueClosed) ∈ history ∧ job ∈ handovers history := by
  have comes : Run closing [.came ⟨0, unlimited⟩, .accepted ⟨0, unlimited⟩]
      ⟨1, [⟨0, unlimited⟩], [], .idle, false, 1, [], 1⟩ := (Run.opened 1).offers unlimited
  have takes : Queue.step closing 0 ⟨1, [⟨0, unlimited⟩], [], .idle, false, 1, [], 1⟩ .empty () =
      some (inHand (.leasing (.asking .start)), .empty, ()) := rfl
  have joins : (inHand (.leasing (.asking .start))).step closing 0 .empty () =
      some (inHand (.leasing (.asking (.queued 0))), _, ()) := rfl
  have leases : (inHand (.leasing (.asking (.queued 0)))).step closing 0
      (Send.Errand.slotted 0 [] 1) () =
        some (inHand (.estimating Send.Errand.bare.lease .ready), _, ()) := rfl
  have asks : (inHand (.estimating Send.Errand.bare.lease .ready)).step closing 0
      (Send.Errand.slotted 0 [] 1) () =
        some (inHand (.estimating Send.Errand.bare.lease
          (.asking (.immediate 0 (.error .queueClosed)))), _, ()) := rfl
  have fails : (inHand (.estimating Send.Errand.bare.lease
      (.asking (.immediate 0 (.error .queueClosed))))).step closing 0
      (Send.Errand.slotted 0 [] 1) () =
        some (⟨1, [], [], .idle, false, 1, [(0, .error .queueClosed)], 1⟩, _, ()) := rfl
  have run : Run closing
      [ .came ⟨0, unlimited⟩, .accepted ⟨0, unlimited⟩, .handed ⟨0, unlimited⟩,
        .returned 0 (.error (.failure .queueClosed)), .answered 0 (.error .queueClosed) ] _ :=
    ((((comes.works takes).works joins).works leases).works asks).works fails
  exact ⟨_, _, _, ⟨0, unlimited⟩, run, by simp, by simp, by simp [handovers, handed?]⟩

end Queue

end Relayer
