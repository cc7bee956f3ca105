import Mathlib.Data.List.Nodup
import Relayer.Proofs.Send.Prompt
import Relayer.Proofs.Tracker.Trace

namespace Relayer

/-!
# Stream — what the events of a tracker say together

Whoever reads the events of a tracker knows at every time what it has noted: the latest `mined` or
`reorged` event of a hash says in which block it is, if in any.  That is what makes the stream
consistent, and it is all that an event has to fit.

* `TrackerEvent.latest` — the latest `mined` or `reorged` event of a hash;
* `TrackerEvent.Apt` — an event that fits the events before it;
* `Tracker.Voiced` — what the events of a tracker say is what it has noted;
* `Tracker.Trace.truthful` — that is so all along, and every event fits the earlier ones;
* `Tracker.Stage.learnt` — the hashes whose lookup was answered in a poll;
* `Tracker.Grounded` — what a poll has emitted and noted is about hashes whose lookup was answered;
* `Tracker.Trace.consistent` — every event fits, and a failed reading or lookup changes nothing.
-/

variable {σ : Type}

/-! ### Events -/

namespace TrackerEvent

/-- The hash that an event is about. -/
def about : TrackerEvent → Digest
  | .inMempool hash | .mined hash _ | .reorged hash => hash
  | .confirmed receipt => receipt.hash

/-- Whether the event is `mined` or `reorged` for that hash. -/
def isWord (hash : Digest) : TrackerEvent → Bool
  | .mined other _ | .reorged other => other = hash
  | .inMempool _ | .confirmed _ => false

/-- Such an event is about the hash. -/
theorem about_of_isWord {event : TrackerEvent} {hash : Digest} (word : event.isWord hash = true) :
    event.about = hash := by
  cases event with
  | mined _ _ | reorged _ => simpa [isWord, about] using word
  | inMempool _ | confirmed _ => cases word

/-- The latest `mined` or `reorged` event of a hash. -/
def latest (events : List TrackerEvent) (hash : Digest) : Option TrackerEvent :=
  (events.filter (·.isWord hash)).getLast?

/-- The block that the event names. -/
def block? : TrackerEvent → Option Nat
  | .mined _ block => some block
  | _ => none

/-- One more event counts for its own hash. -/
@[simp] theorem latest_append_singleton (events : List TrackerEvent) (event : TrackerEvent)
    (hash : Digest) :
    latest (events ++ [event]) hash =
      if event.isWord hash then some event else latest events hash := by
  unfold latest
  cases word : event.isWord hash <;> simp [word]

/-- The latest event of a hash is `mined` or `reorged`. -/
theorem of_latest {events : List TrackerEvent} {hash : Digest} {event : TrackerEvent}
    (h : latest events hash = some event) :
    (∃ block, event = .mined hash block) ∨ event = .reorged hash := by
  have listed : event ∈ events.filter (·.isWord hash) := List.mem_of_getLast? h
  have word := (List.mem_filter.mp listed).2
  cases event with
  | mined other block => exact .inl ⟨block, by simpa [isWord] using word⟩
  | reorged other => exact .inr (by simpa [isWord] using word)
  | inMempool _ | confirmed _ => cases word

/-- The block that the latest event names is that of a hash that is mined. -/
theorem latest_block {events : List TrackerEvent} {hash : Digest} {block : Nat} :
    (latest events hash).bind (·.block?) = some block ↔
      latest events hash = some (.mined hash block) := by
  constructor
  · intro named
    obtain ⟨event, last, named⟩ := Option.bind_eq_some_iff.mp named
    rcases of_latest last with ⟨block', rfl⟩ | rfl
    · rw [last, Option.some.inj named]
    · cases named
  · intro last
    rw [last]
    rfl

/-- An event that fits the events before it. -/
def Apt (earlier : List TrackerEvent) : TrackerEvent → Prop
  -- `inMempool` is emitted only once.
  | .inMempool _ => ∀ hash, .inMempool hash ∉ earlier
  -- What is mined was visible before, and was not mined in the same block already.
  | .mined hash block =>
    (∃ other, .inMempool other ∈ earlier) ∧ latest earlier hash ≠ some (.mined hash block)
  -- A reorged hash was mined.
  | .reorged hash => ∃ block, latest earlier hash = some (.mined hash block)
  -- What is confirmed is mined in that block.
  | .confirmed receipt => latest earlier receipt.hash = some (.mined receipt.hash receipt.block)

/-- Every event fits the earlier ones, and nothing follows `confirmed`. -/
def Consistent (events : List TrackerEvent) : Prop :=
  ∀ earlier event later, events = earlier ++ event :: later →
    event.Apt earlier ∧ ∀ receipt, event = .confirmed receipt → later = []

/-- One more event that fits leaves the events consistent. -/
theorem Consistent.append {events : List TrackerEvent} {event : TrackerEvent}
    (h : Consistent events) (apt : event.Apt events)
    (going : ∀ receipt, .confirmed receipt ∉ events) : Consistent (events ++ [event]) := by
  intro earlier event' later split
  rcases List.eq_nil_or_concat later with rfl | ⟨before, last, rfl⟩
  · obtain ⟨rfl, single⟩ := List.append_inj' split rfl
    obtain rfl : event = event' := by simpa using single
    exact ⟨apt, fun _ _ => rfl⟩
  · have same : events ++ [event] = (earlier ++ event' :: before) ++ [last] := by simpa using split
    obtain ⟨rfl, -⟩ := List.append_inj' same rfl
    refine ⟨(h _ _ _ rfl).1, ?_⟩
    rintro receipt rfl
    exact absurd (by simp) (going receipt)

end TrackerEvent

namespace Tracker

variable {desk : Desk σ} {now : Nat} {room : Bool} {t t' : Tracker} {calls : List Inquiry}
  {event : Option TrackerEvent} {events : List TrackerEvent} {notes : List Note}

/-! ### What was noted is what was emitted -/

/-- The receipt that a poll is at carries the hash that it is at. -/
def Stage.Named : Stage → Prop
  | .asking _ _ hash _ reply => ∀ answer, reply.answer = .ok (some answer) → answer.hash = hash
  | .found _ _ hash receipt _ => receipt.hash = hash
  | _ => True

/-- Receipts carry the hashes that they were looked up by. -/
theorem Move.named
    (faithful : ∀ hash now outside answer,
      (desk.chain.receipt hash now outside).1.answer = .ok (some answer) → answer.hash = hash)
    (h : t.stage.Named) (move : Move desk now room t calls t' event) : t'.stage.Named := by
  cases move with
  | asks stage genuine =>
    obtain ⟨now, outside, rfl⟩ := genuine
    exact faithful _ now outside
  | finds stage ready found =>
    rw [stage] at h
    obtain ⟨answer, rfl, read⟩ := Option.bind_eq_some_iff.mp found
    exact (Receipt.of_ofChain? read).1.trans (h answer (Pending.answer_of_ready ready))
  | sights stage _ _ | mines stage _ _ _ =>
    rw [stage] at h
    exact h
  | comesRound stage => cases t.visible <;> trivial
  | idles stage _ _ => exact h
  | _ => trivial

/-- Whether a poll asks the node for hashes that have no receipt. -/
def Stage.isSearching : Stage → Bool
  | .looking _ | .lookingAt _ _ _ | .sighted _ => true
  | _ => false

/-- What the events of a tracker say is what it has noted. -/
structure Voiced (events : List TrackerEvent) (t : Tracker) : Prop where
  blocks : ∀ hash, t.minedIn? hash = (TrackerEvent.latest events hash).bind (·.block?)
  visible : t.visible = true ↔ ∃ hash, .inMempool hash ∈ events
  /-- The node is asked for hashes only while `visible` is not set. -/
  searching : t.stage.isSearching = true → t.visible = false
  confirmed : ∀ receipt, .confirmed receipt ∈ events → t.stage = .done

/-- **An event fits the events before it.** -/
theorem Move.apt {event : TrackerEvent} (voiced : Voiced events t) (named : t.stage.Named)
    (move : Move desk now room t calls t' (some event)) : event.Apt events := by
  cases move with
  | sights stage _ unseen =>
    intro hash emitted
    rw [voiced.visible.mpr ⟨hash, emitted⟩] at unseen
    cases unseen
  | announces stage _ =>
    intro hash emitted
    have unseen := voiced.searching (by rw [stage]; rfl)
    rw [voiced.visible.mpr ⟨hash, emitted⟩] at unseen
    cases unseen
  | mines stage _ known news =>
    refine ⟨voiced.visible.mp known, fun last => news ?_⟩
    rw [voiced.blocks, TrackerEvent.latest_block.mpr last]
  | forgets stage _ old =>
    rw [voiced.blocks, Option.isSome_iff_exists] at old
    exact old.imp fun _ named => TrackerEvent.latest_block.mp named
  | confirms stage _ _ old _ =>
    rw [stage] at named
    rw [TrackerEvent.Apt, show _ = _ from named, ← TrackerEvent.latest_block, ← voiced.blocks, old]

/-- A tracker that has emitted `confirmed` makes no step. -/
theorem Move.not_done (move : Move desk now room t calls t' event) : t.stage ≠ .done := by
  intro done
  cases move with
  | breaks stage _ | idles stage _ _ | begins stage _ _ | heads stage _ | loses stage _
  | asks stage _ | comesRound stage | skips stage _ | finds stage _ _ | misses stage _ _
  | sights stage _ _ | mines stage _ _ _ | confirms stage _ _ _ _ | passes stage _ _ _
  | forgets stage _ _ | lacks stage _ | despairs stage | looks stage _ | spots stage _
  | overlooks stage _ _ | announces stage _ => cases done.symm.trans stage

/-- **The blocks that a move notes are those of its event.** -/
theorem Move.minedIn?_eq (move : Move desk now room t calls t' event) (hash : Digest) :
    t'.minedIn? hash =
      match event.filter (·.isWord hash) with
      | some event => event.block?
      | none => t.minedIn? hash := by
  cases move with
  | @mines _ _ own receipt _ _ _ _ _ =>
    show (t.noteMined own receipt.block).minedIn? hash = _
    by_cases same : hash = own
    · simp [TrackerEvent.isWord, Option.filter, TrackerEvent.block?, same]
    · simp [TrackerEvent.isWord, Option.filter, same, Ne.symm same]
  | @forgets _ _ own _ _ _ _ =>
    show (t.forget own).minedIn? hash = _
    by_cases same : hash = own
    · simp [TrackerEvent.isWord, Option.filter, TrackerEvent.block?, same]
    · simp [TrackerEvent.isWord, Option.filter, same, Ne.symm same]
  | _ => rfl

/-- A move sets `visible` exactly where its event is `inMempool`. -/
theorem Move.visible_iff (move : Move desk now room t calls t' event) :
    t'.visible = true ↔ t.visible = true ∨ ∃ hash, event = some (.inMempool hash) := by
  cases move with
  | sights _ _ _ | announces _ _ => simp
  | _ => simp [noteMined, forget]

/-- The node is asked for hashes only while `visible` is not set. -/
theorem Move.searching (move : Move desk now room t calls t' event)
    (h : t.stage.isSearching = true → t.visible = false)
    (search : t'.stage.isSearching = true) : t'.visible = false := by
  cases move with
  | comesRound stage =>
    cases unseen : t.visible with
    | false => rfl
    | true => simp [Stage.isSearching, unseen] at search
  | looks stage _ | spots stage _ | overlooks stage _ _ => exact h (by rw [stage]; rfl)
  | idles stage _ _ => exact h search
  | _ => cases search

/-- **Every move emits what it notes**, so the events go on saying what is noted. -/
theorem Move.voiced (voiced : Voiced events t) (move : Move desk now room t calls t' event) :
    Voiced (events ++ event.toList) t' where
  blocks hash := by
    rw [move.minedIn?_eq hash, voiced.blocks]
    cases event with
    | none => simp
    | some event => cases word : event.isWord hash <;> simp [Option.filter, word]
  visible := by
    rw [move.visible_iff, voiced.visible]
    cases event <;> simp [exists_or, eq_comm]
  searching := move.searching voiced.searching
  confirmed receipt emitted := by
    rcases List.mem_append.mp emitted with old | new
    · exact absurd (voiced.confirmed receipt old) move.not_done
    · obtain rfl : event = some (.confirmed receipt) := by simpa using new
      cases move
      rfl

/-- A tracker whose events say what it has noted, each of them fitting the earlier ones. -/
structure Truthful (notes : List Note) (t : Tracker) : Prop where
  named : t.stage.Named
  voiced : Voiced (emitted notes) t
  consistent : TrackerEvent.Consistent (emitted notes)

/-- Every move keeps it truthful. -/
theorem Truthful.move
    (faithful : ∀ hash now outside answer,
      (desk.chain.receipt hash now outside).1.answer = .ok (some answer) → answer.hash = hash)
    (h : Truthful notes t) (move : Move desk now room t calls t' event) :
    Truthful (notes ++ noted calls event) t' := by
  refine ⟨move.named faithful h.named, ?_, ?_⟩ <;> rw [emitted_append, emitted_noted]
  · exact move.voiced h.voiced
  · cases event with
    | none => simpa using h.consistent
    | some event =>
      exact h.consistent.append (move.apt h.voiced h.named)
        fun receipt emitted => move.not_done (h.voiced.confirmed receipt emitted)

/-- **All along a trace** the events say what is noted, and each of them fits the earlier ones. -/
theorem Trace.truthful {depth period start : Nat}
    (faithful : ∀ hash now outside answer,
      (desk.chain.receipt hash now outside).1.answer = .ok (some answer) → answer.hash = hash)
    (trace : Trace desk (.start depth period start) notes t) : Truthful notes t := by
  refine trace.induction (P := Truthful) ?_ ?_ ?_ ?_
  · refine ⟨trivial, ⟨fun _ => rfl, ?_, nofun, nofun⟩, ?_⟩
    · simp [Tracker.start, emitted]
    · intro earlier event later split
      simp [emitted] at split
  · rintro notes t hash ⟨named, voiced, consistent⟩
    obtain ⟨seen, -⟩ := visible_watch t hash
    refine ⟨by rwa [stage_watch], ⟨fun other => ?_, ?_, ?_, ?_⟩, consistent⟩
    · rw [minedIn?_watch]
      exact voiced.blocks other
    · rw [seen]
      exact voiced.visible
    · rw [stage_watch, seen]
      exact voiced.searching
    · rw [stage_watch]
      exact voiced.confirmed
  · rintro notes t hashes order ⟨-, voiced, consistent⟩ stage -
    refine ⟨trivial, ⟨voiced.blocks, voiced.visible, ?_, ?_⟩, consistent⟩
    · exact fun _ => voiced.searching (by rw [stage]; rfl)
    · intro receipt emitted
      cases stage.symm.trans (voiced.confirmed receipt emitted)
  · exact fun h move => h.move faithful move

/-! ### What cannot be read -/

/-- The hashes whose lookup was answered in a poll, as far as it still goes back to them. -/
def Stage.learnt : Stage → List Digest
  | .next _ unseen _ | .asking _ unseen _ _ _ => unseen
  | .found _ unseen hash _ _ | .absent _ unseen hash _ => hash :: unseen
  | .looking hashes => hashes
  | .lookingAt hash rest _ => hash :: rest
  | .sighted hash => [hash]
  | .resting | .readingHead _ _ | .done | .broken => []

/-- The event of a move is about a hash whose lookup was answered. -/
theorem Move.about_learnt {event : TrackerEvent} (named : t.stage.Named)
    (move : Move desk now room t calls t' (some event)) : event.about ∈ t.stage.learnt := by
  cases move with
  | confirms stage _ _ _ _ =>
    rw [stage] at named ⊢
    rw [TrackerEvent.about, show _ = _ from named]
    exact List.mem_cons_self
  | sights stage _ _ | mines stage _ _ _ | forgets stage _ _ | announces stage _ =>
    rw [stage]
    exact List.mem_cons_self

/-- A lookup that is answered adds its hash. -/
theorem Move.learnt {hash : Digest} (move : Move desk now room t calls t' event)
    (learnt : hash ∈ t'.stage.learnt) : hash ∈ t.stage.learnt ∨
      ∃ head unseen rest reply answer, t.stage = .asking head unseen hash rest reply ∧
        reply.answer = .ok answer := by
  cases move with
  | finds stage ready _ | misses stage ready _ =>
    rcases List.mem_cons.mp learnt with rfl | old
    · exact .inr ⟨_, _, _, _, _, stage, Pending.answer_of_ready ready⟩
    · exact .inl (by rw [stage]; exact old)
  | comesRound stage =>
    left
    rw [stage]
    revert learnt
    cases t.visible
    · exact id
    · exact nofun
  | idles _ _ _ => exact .inl learnt
  | asks stage _ | skips stage _ | sights stage _ _ | mines stage _ _ _ | looks stage _ =>
    exact .inl (by rw [stage]; exact learnt)
  | passes stage _ _ _ | overlooks stage _ _ =>
    exact .inl (by rw [stage]; exact List.mem_cons_of_mem _ learnt)
  | forgets stage _ _ | lacks stage _ =>
    left
    rw [stage]
    simpa [Stage.learnt, or_comm] using learnt
  | spots stage _ =>
    left
    rw [stage]
    exact List.mem_cons.mpr (.inl (List.mem_singleton.mp learnt))
  | breaks _ _ | begins _ _ _ | heads _ _ | loses _ _ | confirms _ _ _ _ _ | despairs _
  | announces _ _ => cases learnt

/-- A lookup of the hash was answered, with a receipt or without. -/
def Answered (looked : List Look) (hash : Digest) : Prop :=
  ∃ look ∈ looked, look.hash = hash ∧ ∃ answer, look.reply.answer = .ok answer

/-- It stays so. -/
theorem Answered.append {looked later : List Look} {hash : Digest} (h : Answered looked hash) :
    Answered (looked ++ later) hash :=
  h.imp fun _ => And.imp_left (List.mem_append_left _)

/-- What a poll that began at `t` has learnt, emitted and noted is about hashes whose lookup was
    answered. -/
structure Grounded (t : Tracker) (hashes : List Digest) (reply : Pending (Except Failure Nat))
    (notes : List Note) (t' : Tracker) : Prop where
  survey : t'.stage.Surveys t'.depth hashes reply (looks notes)
  named : t'.stage.Named
  learnt : ∀ hash ∈ t'.stage.learnt, Answered (looks notes) hash
  emitted : ∀ event ∈ emitted notes, Answered (looks notes) event.about
  noted : ∀ hash, t'.minedIn? hash ≠ t.minedIn? hash → Answered (looks notes) hash

/-- Every move of a poll keeps to such hashes. -/
theorem Grounded.move {hashes : List Digest} {reply : Pending (Except Failure Nat)} {t'' : Tracker}
    (faithful : ∀ hash now outside answer,
      (desk.chain.receipt hash now outside).1.answer = .ok (some answer) → answer.hash = hash)
    (h : Grounded t hashes reply notes t') (no_head : ∀ reply, .head reply ∉ calls)
    (move : Move desk now room t' calls t'' event) :
    Grounded t hashes reply (notes ++ Tracker.noted calls event) t'' := by
  -- What is emitted or noted is about a hash that was learnt of before the move.
  have emits (event' : TrackerEvent) (now : event = some event') :
      Answered (looks notes) event'.about := by
    subst now
    exact h.learnt _ (move.about_learnt h.named)
  constructor
  case survey =>
    rw [looks_append, looks_noted]
    exact move.surveys h.survey no_head
  case named => exact move.named faithful h.named
  all_goals rw [looks_append]
  case learnt =>
    intro hash listed
    rcases move.learnt listed with old | ⟨head, unseen, rest, reply', answer, stage, ok⟩
    · exact (h.learnt hash old).append
    · have survey := h.survey
      rw [stage] at survey
      exact Answered.append ⟨_, List.mem_of_getLast? survey.2.2, rfl, answer, ok⟩
  case emitted =>
    intro event' listed
    rw [emitted_append, emitted_noted] at listed
    rcases List.mem_append.mp listed with old | new
    · exact (h.emitted event' old).append
    · exact (emits event' (Option.mem_toList.mp new)).append
  case noted =>
    intro hash changed
    rw [move.minedIn?_eq hash] at changed
    split at changed
    next event' word =>
      obtain ⟨now, word⟩ := Option.filter_eq_some_iff.mp word
      rw [← TrackerEvent.about_of_isWord word]
      exact (emits event' now).append
    next => exact (h.noted hash changed).append

/-- **A poll emits and notes nothing of a hash whose lookup failed.** -/
theorem Round.grounded {hashes : List Digest} {reply : Pending (Except Failure Nat)}
    (faithful : ∀ hash now outside answer,
      (desk.chain.receipt hash now outside).1.answer = .ok (some answer) → answer.hash = hash)
    (round : Round desk t notes t') (reading : t.stage = .readingHead hashes reply) :
    Grounded t hashes reply notes t' := by
  refine round.induction (P := Grounded t hashes reply) ?_ ?_ ?_ ?_
  · constructor
    case survey => exact reading ▸ ⟨rfl, rfl, rfl⟩
    case named => exact reading ▸ trivial
    case learnt => simp [reading, Stage.learnt]
    case emitted => simp [Tracker.emitted]
    case noted => exact fun _ changed => absurd rfl changed
  · intro notes t' hash h
    constructor
    case survey => simpa only [stage_watch, depth_watch] using h.survey
    case named => simpa only [stage_watch] using h.named
    case learnt => simpa only [stage_watch] using h.learnt
    case emitted => exact h.emitted
    case noted => simpa only [minedIn?_watch] using h.noted
  · intro notes t' hashes' order h stage same
    have survey := h.survey
    have learnt := h.learnt
    rw [stage] at survey learnt
    exact ⟨survey, trivial, fun hash listed => learnt hash ((same hash).mp listed), h.emitted,
      h.noted⟩
  · exact fun h no_head move => h.move faithful no_head move

/-- A poll whose head reading fails changes nothing. -/
theorem Round.of_lost {hashes : List Digest} {reply : Pending (Except Failure Nat)} {f : Failure}
    (round : Round desk t notes t') (reading : t.stage = .readingHead hashes reply)
    (lost : reply.answer = .error f) :
    emitted notes = [] ∧ t'.mined = t.mined ∧ t'.visible = t.visible := by
  -- The stage is part of the invariant: a poll whose head reading fails never gets to a receipt.
  refine (round.induction (P := fun notes t' =>
    (emitted notes = [] ∧ t'.mined = t.mined ∧ t'.visible = t.visible) ∧
      (t'.stage = .readingHead hashes reply ∨ t'.stage = .resting ∨ t'.stage = .broken))
    ?_ ?_ ?_ ?_).1
  · exact ⟨⟨rfl, rfl, rfl⟩, .inl reading⟩
  · rintro notes t' hash ⟨⟨silent, noted, seen⟩, stage⟩
    obtain ⟨seen', noted'⟩ := visible_watch t' hash
    rw [stage_watch]
    exact ⟨⟨silent, noted'.trans noted, seen'.trans seen⟩, stage⟩
  · rintro notes t' hashes' order ⟨-, stage⟩ search -
    rw [search] at stage
    simp at stage
  · rintro notes t' t'' now room calls event ⟨⟨silent, noted, seen⟩, stage⟩ no_head move
    rw [emitted_append, emitted_noted, silent]
    cases move with
    | begins _ _ _ => simp at no_head
    | heads reading' ready =>
      rw [reading'] at stage
      obtain ⟨rfl, rfl⟩ : _ ∧ _ := by simpa using stage
      cases lost.symm.trans (Pending.answer_of_ready ready)
    | loses _ _ => exact ⟨⟨rfl, noted, seen⟩, .inr (.inl rfl)⟩
    | breaks _ _ => exact ⟨⟨rfl, noted, seen⟩, .inr (.inr rfl)⟩
    | idles _ _ _ => exact ⟨⟨rfl, noted, seen⟩, stage⟩
    | asks stage' _ | comesRound stage' | skips stage' _ | finds stage' _ _ | misses stage' _ _
    | sights stage' _ _ | mines stage' _ _ _ | confirms stage' _ _ _ _ | passes stage' _ _ _
    | forgets stage' _ _ | lacks stage' _ | despairs stage' | looks stage' _ | spots stage' _
    | overlooks stage' _ _ | announces stage' _ =>
      rw [stage'] at stage
      simp at stage

/-- No hash is looked up twice in a poll. -/
theorem Trace.distinct {depth period start : Nat}
    (trace : Trace desk (.start depth period start) notes t) {hashes : List Digest}
    {reply : Pending (Except Failure Nat)} (reading : t.stage = .readingHead hashes reply) :
    hashes.Nodup := by
  suffices h : t.watched.Nodup ∧
      ∀ hashes reply, t.stage = .readingHead hashes reply → hashes.Nodup from h.2 _ _ reading
  refine trace.induction (P := fun _ t => t.watched.Nodup ∧
    ∀ hashes reply, t.stage = .readingHead hashes reply → hashes.Nodup) ?_ ?_ ?_ ?_
  · exact ⟨List.nodup_nil, nofun⟩
  · rintro _ t hash ⟨watched, distinct⟩
    rw [stage_watch, watched_watch]
    exact ⟨nodup_enlist watched hash, distinct⟩
  · exact fun _ _ _ _ h _ _ => ⟨h.1, nofun⟩
  · rintro _ t t' now room calls event ⟨watched, distinct⟩ move
    refine ⟨move.fixed.2 ▸ watched, fun hashes reply reading => ?_⟩
    cases move with
    | begins _ _ _ =>
      cases reading
      exact watched
    | idles _ _ _ => exact distinct hashes reply reading
    | sights stage _ _ | mines stage _ _ _ => cases reading
    | comesRound stage =>
      revert reading
      cases t.visible <;> exact nofun
    | _ => cases reading

/-- **What a tracker emits.**  Whatever the node answers, and whatever is watched in between, from
    the start on:
    * every event fits the earlier ones, and nothing follows `confirmed`;
    * a poll whose head reading fails emits nothing and changes nothing;
    * a poll in which the lookup of a hash fails emits nothing about that hash and leaves its
      `minedIn?` alone. -/
theorem Trace.consistent {depth period start : Nat}
    (faithful : ∀ hash now outside answer,
      (desk.chain.receipt hash now outside).1.answer = .ok (some answer) → answer.hash = hash)
    (trace : Trace desk (.start depth period start) notes t) :
    TrackerEvent.Consistent (emitted notes) ∧
    ∀ (hashes : List Digest) (reply : Pending (Except Failure Nat)) (during : List Note)
      (t' : Tracker), t.stage = .readingHead hashes reply → Round desk t during t' →
      (∀ f, reply.answer = .error f →
        emitted during = [] ∧ t'.mined = t.mined ∧ t'.visible = t.visible) ∧
      ∀ hash reply' f, .asked (.receipt hash reply') ∈ during → reply'.answer = .error f →
        (∀ event ∈ emitted during, event.about ≠ hash) ∧ t'.minedIn? hash = t.minedIn? hash := by
  refine ⟨(trace.truthful faithful).consistent, ?_⟩
  refine fun hashes reply during t' reading round => ⟨?_, ?_⟩
  · exact fun f lost => round.of_lost reading lost
  · intro hash reply' f asked failed
    -- The hash is looked up once, so that lookup would be the one that was answered.
    have unanswered : ¬ Answered (looks during) hash := by
      rintro ⟨look, listed, own, answer, ok⟩
      have once : ((looks during).map (·.hash)).Nodup :=
        (trace.distinct reading).sublist (round.surveys reading).isPrefix.sublist
      have looked : ⟨hash, reply'⟩ ∈ looks during := mem_looks.mpr asked
      have same := List.inj_on_of_nodup_map once listed looked own
      rw [same] at ok
      cases failed.symm.trans ok
    have grounded := round.grounded faithful reading
    refine ⟨fun event listed own => ?_, by_contra fun changed => ?_⟩
    · exact unanswered (own ▸ grounded.emitted event listed)
    · exact unanswered (grounded.noted hash changed)

end Tracker

/-! ### A node that changes its mind -/

/-- The receipt of a hash that is in block 100, a moment later in block 99, and from then on in
    block 100 again. -/
def ChainReceipt.restless (hash : Digest) (now : Nat) : ChainReceipt :=
  { ChainReceipt.prompt hash with block := some (if now = 1 then 99 else 100) }

/-- A node at which every transaction moves about like that. -/
def Desk.restless : Desk Unit :=
  let desk := Desk.prompt (.repeated 1) Transaction.payload
  { desk with
    chain :=
      { desk.chain with
        head := .prompt (.ok 105)
        receipt := fun hash now outside =>
          (.immediate now (.ok (some (.restless hash now))), outside) } }

/-- The receipt of a hash carries that hash. -/
theorem Desk.restless_faithful (hash : Digest) (now : Nat) (outside : Unit) (answer : ChainReceipt)
    (h : (restless.chain.receipt hash now outside).1.answer = .ok (some answer)) :
    answer.hash = hash := by
  obtain rfl : ChainReceipt.restless hash now = answer := Option.some.inj (Except.ok.inj h)
  rfl

namespace Tracker

/-- What a tracker emits there in three polls, one at each moment. -/
theorem exists_restless : ∃ notes t, Trace Desk.restless (.start 10 1 0) notes t ∧
    emitted notes = [.inMempool (.repeated 1), .mined (.repeated 1) 100, .mined (.repeated 1) 99,
      .mined (.repeated 1) 100] := by
  have start : Trace Desk.restless (.start 10 1 0) [] (.start 10 1 0) := .here
  have watches := start.watch (.repeated 1)
  have rounds := watches.stepsAt ()
    (List.replicate 8 0 ++ List.replicate 7 1 ++ List.replicate 5 2) rfl
  exact ⟨_, _, rounds, rfl⟩

/-- The events are consistent there as well. -/
theorem consistent_restless : ∃ notes t, Trace Desk.restless (.start 10 1 0) notes t ∧
    TrackerEvent.Consistent (emitted notes) ∧
    emitted notes = [.inMempool (.repeated 1), .mined (.repeated 1) 100, .mined (.repeated 1) 99,
      .mined (.repeated 1) 100] := by
  obtain ⟨notes, t, trace, emitted⟩ := exists_restless
  exact ⟨notes, t, trace, (trace.consistent Desk.restless_faithful).1, emitted⟩

/-- `mined` may be emitted twice for the same hash and block without a `reorged` in between: only
    the latest block of a hash counts. -/
theorem mined_back : ∃ (desk : Desk Unit) (notes : List Note) (t : Tracker) (hash : Digest)
    (block : Nat) (earlier between later : List TrackerEvent),
    (∀ hash now outside answer,
      (desk.chain.receipt hash now outside).1.answer = .ok (some answer) → answer.hash = hash) ∧
    Trace desk (.start 10 1 0) notes t ∧
    emitted notes = earlier ++ .mined hash block :: (between ++ .mined hash block :: later) ∧
    .reorged hash ∉ between := by
  obtain ⟨notes, t, trace, emitted⟩ := exists_restless
  exact ⟨Desk.restless, notes, t, .repeated 1, 100, [.inMempool (.repeated 1)],
    [.mined (.repeated 1) 99], [], Desk.restless_faithful, trace, emitted, by simp⟩

end Tracker

end Relayer
