import Relayer.Proofs.Send.Ticks

namespace Relayer

/-!
# Mirror — the loop's send state mirrors its tracker

The tracker notes which hashes are mined and whether any is `visible`; the loop learns both from
events that it receives later.  So the send state agrees with the tracker as that was when it
emitted the last event that the loop has received.

* `Emission` — an event with the tracker right behind it;
* `Tracker.Matches` — a send state with the tracker's mined hashes, and `seen = visible`;
* `Tracker.Leads` — a send state that receives one event after the other matches the tracker behind
  each;
* `Send.Chronicle` — a run with all events that were emitted and all that were received;
* `Send.Chronicle.mirrored` — the invariant of such runs;
* `Send.Chronicle.mirrors` — the mirror, and what a resubmission tick makes of it.
-/

variable {σ : Type}

/-! ### Emissions -/

/-- An event that the tracker emitted, with the tracker as it was right behind it. -/
structure Emission where
  event : TrackerEvent
  tracker : Tracker

/-- The tracker right behind the last of these emissions, `first` if there is none. -/
def Emission.behind (first : Tracker) : List Emission → Tracker
  | [] => first
  | x :: rest => behind x.tracker rest

/-- The send state that has received these events and nothing else. -/
def Book.ofEvents (events : List TrackerEvent) : Book := events.foldl received (.opening .zero)

@[simp] theorem Book.ofEvents_append (events later : List TrackerEvent) :
    ofEvents (events ++ later) = later.foldl received (ofEvents events) := List.foldl_append

/-- What an event does to `seen` does not depend on the rest of the send state. -/
theorem Book.received_seen {b b' : Book} (same : b.seen = b'.seen) (event : TrackerEvent) :
    (b.received event).seen = (b'.received event).seen := by
  cases event <;> first | rfl | exact same

/-- Where no `mined` event is received, `mined` stays empty. -/
theorem Book.foldl_received_unmined {b : Book} (unmined : b.mined = []) {events : List TrackerEvent}
    (none : ∀ hash block, .mined hash block ∉ events) : (events.foldl received b).mined = [] := by
  induction events generalizing b with
  | nil => exact unmined
  | cons event rest ih =>
    refine ih ?_ fun hash block listed => none hash block (List.mem_cons_of_mem _ listed)
    cases event with
    | inMempool _ | confirmed _ => exact unmined
    | mined hash block => exact absurd List.mem_cons_self (none hash block)
    | reorged hash => simp [received, noteReorged, unmined]

namespace Tracker

variable {t t' : Tracker} {b : Book} {emitted later : List Emission}

/-- The hashes with a block are the ones in `mined`. -/
theorem minedIn?_isSome (t : Tracker) (hash : Digest) :
    (t.minedIn? hash).isSome = true ↔ hash ∈ t.mined.map (·.1) := by
  simp [minedIn?]

/-- The send state has the mined hashes of the tracker, and `seen = visible`. -/
def Matches (t : Tracker) (b : Book) : Prop := t.KnownTo b ∧ b.seen = t.visible

/-- **A move of the tracker emits all that it changes**: who matched it before and receives its
    event matches it behind. -/
theorem Move.matches {desk : Desk σ} {now : Nat} {room : Bool} {calls : List Inquiry}
    {event : Option TrackerEvent} (h : t.Matches b) (move : Move desk now room t calls t' event) :
    t'.Matches (event.toList.foldl Book.received b) := by
  refine ⟨move.knownTo h.1, ?_⟩
  cases move with
  | sights _ _ _ | announces _ _ => rfl
  | mines _ _ known _ => exact known.symm
  | _ => exact h.2

/-- A send state that receives one emission after the other matches the tracker behind each of them,
    and comes to match the tracker as it is now. -/
def Leads (t : Tracker) : Book → List Emission → Prop
  | b, [] => t.Matches b
  | b, x :: rest => x.tracker.Matches (b.received x.event) ∧ t.Leads (b.received x.event) rest

/-- `Leads` depends on the tracker by `Matches` alone. -/
theorem Leads.of_same (same : ∀ b, t.Matches b → t'.Matches b) (h : t.Leads b emitted) :
    t'.Leads b emitted := by
  induction emitted generalizing b with
  | nil => exact same b h
  | cons x rest ih => exact ⟨h.1, ih h.2⟩

/-- **A move appends its emission to the others**, if it has one. -/
theorem Leads.emits {desk : Desk σ} {now : Nat} {room : Bool} {calls : List Inquiry}
    {event : Option TrackerEvent} (h : t.Leads b emitted)
    (move : Move desk now room t calls t' event) :
    t'.Leads b (emitted ++ event.toList.map (⟨·, t'⟩)) := by
  induction emitted generalizing b with
  | nil =>
    have matched : t'.Matches (event.toList.foldl Book.received b) := move.matches h
    cases event with
    | none => exact matched
    | some event => exact ⟨matched, matched⟩
  | cons x rest ih => exact ⟨h.1, ih h.2⟩

/-- **The send state that has received the first emissions** matches the tracker behind the last of
    them. -/
theorem Leads.behind {first : Tracker} (start : first.Matches b)
    (h : t.Leads b (emitted ++ later)) :
    (Emission.behind first emitted).Matches ((emitted.map (·.event)).foldl Book.received b) := by
  induction emitted generalizing b first with
  | nil => exact start
  | cons x rest ih => exact ih h.1 h.2

end Tracker

/-! ### What is emitted and received along a run -/

namespace Escalation

/-- The emissions of a step: what it appends to the inbox. -/
def emits (before after : Escalation) : List Emission :=
  (after.inbox.drop before.inbox.length).map (⟨·, after.tracker⟩)

/-- The events that a step receives: what it takes from the inbox. -/
def receives (before after : Escalation) : List TrackerEvent :=
  before.inbox.take (before.inbox.length - after.inbox.length)

/-- The tracker of an escalation right behind the last of these emissions. -/
def behind (policy : Policy) (e : Escalation) (emitted : List Emission) : Tracker :=
  Emission.behind (.start policy.confirmations.toNat policy.receiptInterval e.started) emitted

variable {emitted : List Emission} {received : List TrackerEvent} {e e' : Escalation}

/-- The invariant: `emitted` is `received` and then the inbox; the emissions lead up to the tracker;
    and the send state has received `received`. -/
structure Mirrored (emitted : List Emission) (received : List TrackerEvent) (e : Escalation) :
    Prop where
  order : emitted.map (·.event) = received ++ e.inbox
  leads : e.tracker.Leads (.opening .zero) emitted
  mined : e.book.mined = (Book.ofEvents received).mined
  seen : e.book.seen = (Book.ofEvents received).seen

/-- A step that emits and receives nothing keeps the mirror. -/
theorem Mirrored.of_quiet (h : Mirrored emitted received e) (inbox : e'.inbox = e.inbox)
    (tracker : ∀ b, e.tracker.Matches b → e'.tracker.Matches b)
    (mined : e'.book.mined = e.book.mined) (seen : e'.book.seen = e.book.seen) :
    Mirrored (emitted ++ e.emits e') (received ++ e.receives e') e' := by
  have silent : e.emits e' = [] := by simp [emits, inbox]
  have unread : e.receives e' = [] := by simp [receives, inbox]
  rw [silent, unread, List.append_nil, List.append_nil]
  exact ⟨inbox ▸ h.order, h.leads.of_same tracker, mined.trans h.mined, seen.trans h.seen⟩

variable {desk : Desk σ} {limits : Limits} {now : Nat} {calls : List Inquiry}

/-- **Every move keeps the mirror**, with what it emits and receives. -/
theorem Move.mirrored (h : Mirrored emitted received e)
    (move : Move desk limits now e calls (.running e')) :
    Mirrored (emitted ++ e.emits e') (received ++ e.receives e') e' := by
  cases move with
  | @receives event rest _ _ inbox _ =>
    -- The first event of the inbox is received.
    have silent : (rest.drop e.inbox.length).map (Emission.mk · e.tracker) = [] := by
      simp [inbox]
    have first : e.inbox.take (e.inbox.length - rest.length) = [event] := by simp [inbox]
    rw [emits, Escalation.receives, silent, first, List.append_nil]
    refine ⟨?_, h.leads, ?_, ?_⟩
    · rw [h.order, inbox, List.append_assoc, List.singleton_append]
    · rw [Book.ofEvents_append]
      exact Book.received_mined h.mined event
    · rw [Book.ofEvents_append]
      exact Book.received_seen h.seen event
  | @tracks _ tracker event move =>
    -- The event of the tracker, if any, is the last of the emissions and of the inbox.
    have emitted' : ((e.inbox ++ event.toList).drop e.inbox.length).map (Emission.mk · tracker) =
        event.toList.map (Emission.mk · tracker) := by rw [List.drop_left]
    have unread : e.inbox.take (e.inbox.length - (e.inbox ++ event.toList).length) = [] := by
      simp
    rw [emits, Escalation.receives, emitted', unread, List.append_nil]
    refine ⟨?_, h.leads.emits move, h.mined, h.seen⟩
    rw [List.map_append, h.order, List.append_assoc, List.map_map]
    simp [Function.comp_def]
  | folds _ _ _ _ folded =>
    obtain ⟨accepted, tooLow, rfl⟩ := Book.fold_ok folded
    exact h.of_quiet rfl (fun _ same => same) rfl rfl
  | publishes _ _ =>
    -- One more hash is watched, of which nothing is noted yet.
    refine h.of_quiet rfl ?_ rfl rfl
    intro b same
    refine ⟨fun hash => ?_, ?_⟩
    · rw [same.1 hash]
      simp [handOut]
    · rw [same.2]
      simp only [handOut, Tracker.watch]
      split <;> rfl
  | _ => exact h.of_quiet rfl (fun _ same => same) rfl rfl

/-- The send state behind the events `earlier` matches the tracker behind the last of their
    emissions. -/
theorem Mirrored.matches (policy : Policy) (h : Mirrored emitted received e)
    {earlier later : List TrackerEvent} (split : received = earlier ++ later) :
    (e.behind policy (emitted.take earlier.length)).Matches (Book.ofEvents earlier) := by
  -- As many emissions as events were received earlier, and they are of the same events.
  have parts := List.take_append_drop earlier.length emitted
  have first : (emitted.take earlier.length).map (·.event) = earlier := by
    rw [List.map_take, h.order, split, List.append_assoc, List.take_left]
  have start : (Tracker.start policy.confirmations.toNat policy.receiptInterval
      e.started).Matches (.opening .zero) :=
    ⟨fun _ => by simp [Book.opening, Tracker.start, Tracker.minedIn?], rfl⟩
  have matched := Tracker.Leads.behind start (parts.symm ▸ h.leads)
  rw [first] at matched
  exact matched

end Escalation

namespace Send

/-- The emissions of a step of a send. -/
def emits (before after : Send) : List Emission :=
  match before.phase, after.phase with
  | .escalating _ e, .escalating _ e' => e.emits e'
  | _, _ => []

/-- The events that the loop receives in a step of a send. -/
def receives (before after : Send) : List TrackerEvent :=
  match before.phase, after.phase with
  | .escalating _ e, .escalating _ e' => e.receives e'
  | _, _ => []

/-- A send of `call` under way, with its trail, all that its tracker has emitted and all that its
    loop has received. -/
inductive Chronicle (desk : Desk σ) (call : Call) :
    List Event → List Emission → List TrackerEvent → Send → Prop where
  | start (now : Nat) : Chronicle desk call [] [] [] (.start desk.policy call now)
  | reschedule {trail emitted received s s'}
      (chronicle : Chronicle desk call trail emitted received s)
      (order : s.Rescheduled s') : Chronicle desk call trail emitted received s'
  | step {trail emitted received s s' limits now leases leases' outside outside' calls}
      (chronicle : Chronicle desk call trail emitted received s)
      (step : s.stepWithin desk.noted limits now leases (outside, []) =
        some (.running s', leases', outside', calls)) :
      Chronicle desk call (trail ++ s.shown calls (.running s')) (emitted ++ s.emits s')
        (received ++ s.receives s') s'

namespace Chronicle

variable {desk : Desk σ} {call : Call} {trail : List Event} {emitted : List Emission}
  {received : List TrackerEvent} {s : Send} {lease : Lease} {e : Escalation}

/-- A chronicle is one of a run. -/
theorem run (chronicle : Chronicle desk call trail emitted received s) : Run desk call trail s := by
  induction chronicle with
  | start now => exact .start now
  | reschedule _ order ih => exact .reschedule ih order
  | step _ step ih => exact .step ih step

/-- **Every run has its chronicle.** -/
theorem of_run (run : Run desk call trail s) :
    ∃ emitted received, Chronicle desk call trail emitted received s := by
  induction run with
  | start now => exact ⟨[], [], .start now⟩
  | reschedule _ order ih =>
    obtain ⟨emitted, received, chronicle⟩ := ih
    exact ⟨emitted, received, .reschedule chronicle order⟩
  | step _ step ih =>
    obtain ⟨emitted, received, chronicle⟩ := ih
    exact ⟨_, _, .step chronicle step⟩

/-- Before its escalation a send has emitted and received nothing; then its loop mirrors its
    tracker. -/
def Mirrored (emitted : List Emission) (received : List TrackerEvent) (s : Send) : Prop :=
  match s.phase with
  | .escalating _ e => e.Mirrored emitted received
  | _ => emitted = [] ∧ received = []

/-- **The loop mirrors its tracker** all along a run. -/
theorem mirrored (chronicle : Chronicle desk call trail emitted received s) :
    Mirrored emitted received s := by
  induction chronicle with
  | start now => exact ⟨rfl, rfl⟩
  | reschedule _ order ih =>
    obtain ⟨lease, e, turn, outstanding, phase, -, rfl⟩ := order
    rw [Mirrored, phase] at ih
    exact ⟨ih.order, ih.leads, ih.mined, ih.seen⟩
  | @step trail emitted received s s' limits now l l' outside outside' calls _ step ih =>
    cases move_of_noted step with
    | @escalates lease e e' turn _ phase move =>
      rw [Mirrored, phase] at ih
      simp only [Mirrored, emits, receives, phase]
      exact Escalation.Move.mirrored (e := { e with turn })
        ⟨ih.order, ih.leads, ih.mined, ih.seen⟩ move
    | bids phase _ first =>
      rw [Mirrored, phase] at ih
      obtain ⟨rfl, rfl⟩ := ih
      obtain ⟨bid, -, rfl⟩ := firstBid_ok first
      simp only [Mirrored, emits, receives, phase]
      exact ⟨rfl, ⟨fun _ => by simp [Book.opening, Tracker.start, Tracker.minedIn?], rfl⟩, rfl, rfl⟩
    | inherits phase _ _ | learns phase _ =>
      rw [Mirrored, phase] at ih
      obtain ⟨rfl, rfl⟩ := ih
      cases own : s.call.gasLimit <;> simp [Mirrored, emits, receives, phase, afterLease, own]
    | joins phase | reads phase _ _ _ | retries phase _ _ | resumes phase _ | estimates phase _
    | pads phase _ _ | prices phase _ =>
      rw [Mirrored, phase] at ih
      obtain ⟨rfl, rfl⟩ := ih
      simp [Mirrored, emits, receives, phase]

/-- Where the last mined candidate was reorged, `book.mined` is empty until another `mined` event is
    received. -/
theorem unmined_of_reorged (chronicle : Chronicle desk call trail emitted received s)
    (phase : s.phase = .escalating lease e) {earlier later : List TrackerEvent} {hash : Digest}
    (split : received = earlier ++ .reorged hash :: later)
    (last : ∀ other ∈ (e.behind desk.policy (emitted.take earlier.length)).mined.map (·.1),
      other = hash)
    (none : ∀ other block, .mined other block ∉ later) : e.book.mined = [] := by
  have mirrored := chronicle.mirrored
  rw [Mirrored, phase] at mirrored
  have before := mirrored.matches desk.policy split
  have cleared : ((Book.ofEvents earlier).received (.reorged hash)).mined = [] := by
    rw [List.eq_nil_iff_forall_not_mem]
    intro other listed
    -- Any other mined candidate was noted before, and would be the forgotten one.
    obtain ⟨mined, different⟩ := (Book.mem_noteReorged ..).mp listed
    have noted := (before.1 other).mp mined
    rw [Tracker.minedIn?_isSome] at noted
    exact different (last other noted)
  rw [mirrored.mined, split, Book.ofEvents_append]
  exact Book.foldl_received_unmined cleared none

/-- **The loop mirrors its tracker.**
    * The events emitted are those received followed by the inbox, in this order.
    * `book.mined` holds the hashes that the tracker had mined right behind the last emission
      received, and `book.seen` is its `visible` then.
    * A resubmission tick asks for no suggestion and keeps the send state as long as a candidate is
      mined, and asks for one where none is: so where the last mined candidate was reorged and no
      `mined` event was received behind that. -/
theorem mirrors (chronicle : Chronicle desk call trail emitted received s)
    (phase : s.phase = .escalating lease e) :
    emitted.map (·.event) = received ++ e.inbox ∧
    (∀ hash, hash ∈ e.book.mined ↔
      hash ∈ (e.behind desk.policy (emitted.take received.length)).mined.map (·.1)) ∧
    e.book.seen = (e.behind desk.policy (emitted.take received.length)).visible ∧
    ∀ limits now l s' l' outside outside' calls,
      s.stepWithin desk.noted limits now l (outside, []) =
        some (.running s', l', outside', calls) → s.ticks s' = true →
      ∃ e', s'.phase = .escalating lease e' ∧
        (e.book.mined ≠ [] → calls = [] ∧ e'.phase = .listening ∧ e'.book = e.book ∧
          e'.outstanding = e.outstanding) ∧
        (e.book.mined = [] → ∃ reply, calls = [.gasPrice reply] ∧ e'.phase = .pricing reply) ∧
        ∀ earlier hash later, received = earlier ++ .reorged hash :: later →
          (∀ other ∈ (e.behind desk.policy (emitted.take earlier.length)).mined.map (·.1),
            other = hash) →
          (∀ other block, .mined other block ∉ later) →
          ∃ reply, calls = [.gasPrice reply] ∧ e'.phase = .pricing reply := by
  have mirrored := chronicle.mirrored
  rw [Mirrored, phase] at mirrored
  have behind := mirrored.matches desk.policy (List.append_nil received).symm
  refine ⟨mirrored.order, ?_, ?_, ?_⟩
  · intro hash
    rw [mirrored.mined, behind.1 hash, Tracker.minedIn?_isSome]
  · rw [mirrored.seen, behind.2]
  · intro limits now l s' l' outside outside' calls step ticks
    obtain ⟨e', rfl, due, round⟩ := ticked_of_step phase step ticks
    have listening : e.phase = .listening := (Escalation.due_eq_some.mp due).1
    refine ⟨e', rfl, ?_⟩
    rcases round with ⟨known, rfl, same⟩ | ⟨unknown, reply, rfl, -, same⟩
    · -- The round is let pass, so no candidate was cleared from the books either.
      rw [same]
      refine ⟨fun _ => ⟨rfl, listening, rfl, rfl⟩, fun none => absurd none known, ?_⟩
      intro earlier hash later split last none
      exact absurd (chronicle.unmined_of_reorged phase split last none) known
    · rw [same]
      exact ⟨fun known => absurd unknown known, fun _ => ⟨reply, rfl, rfl⟩,
        fun _ _ _ _ _ _ => ⟨reply, rfl, rfl⟩⟩

/-- The resubmission ticker ticks at 12 ms, when the first candidate is mined and the answer to the
    second one has not been joined: no suggestion is asked for. -/
theorem mirrors_mined : ∃ trail emitted received others calls e', Chronicle
      (Errand.bare.tardy ⟨1, ⟨.accepted, some 10⟩, 8⟩ none) Errand.bare.call trail emitted received
      (Errand.bare.underWay none (.escalating Errand.bare.lease
        (Errand.bare.aware others ⟨.accepted, some 10⟩))) ∧
    (Errand.bare.underWay none (.escalating Errand.bare.lease
        (Errand.bare.aware others ⟨.accepted, some 10⟩))).stepWithin
      (Errand.bare.tardy ⟨1, ⟨.accepted, some 10⟩, 8⟩ none).noted ⟨false, none⟩ 12 .empty ((), []) =
        some (.running (Errand.bare.underWay none (.escalating Errand.bare.lease e')), .empty, (),
          calls) ∧
    e'.ticker.next = 18 ∧ calls = [] ∧ emitted.map (·.event) = received := by
  obtain ⟨others, trail, course, -⟩ :=
    Errand.mines 8 .accepted Errand.bare_fits (by decide)
  obtain ⟨emitted, received, chronicle⟩ := of_run course.run
  obtain ⟨order, -, -, rounds⟩ := chronicle.mirrors rfl
  have step : (Errand.bare.underWay none (.escalating Errand.bare.lease
        (Errand.bare.aware others ⟨.accepted, some 10⟩))).stepWithin
      (Errand.bare.tardy ⟨1, ⟨.accepted, some 10⟩, 8⟩ none).noted ⟨false, none⟩ 12 .empty ((), []) =
        some (.running (Errand.bare.underWay none (.escalating Errand.bare.lease
          { Errand.bare.aware others ⟨.accepted, some 10⟩ with ticker := ⟨18, 6⟩ })), .empty, (),
          []) := rfl
  obtain ⟨e', -, passes, -⟩ := rounds _ _ _ _ _ _ _ _ step rfl
  obtain ⟨quiet, -⟩ := passes (List.cons_ne_nil _ _)
  exact ⟨trail, emitted, received, others, [], _, chronicle, step, rfl, quiet,
    order.trans (List.append_nil received)⟩

end Chronicle

end Send

end Relayer
