import Relayer.Proofs.Send.Looks
import Relayer.Proofs.Send.Sightings

namespace Relayer

/-!
# Trace — what a tracker calls and emits, one poll after the other

A tracker is judged by itself here: by the calls it makes to the node, and by the events it emits.
Between two of its steps others may have it watch more hashes, and any time may pass.

* `Tracker.Note` — one call that a tracker makes, or one event that it emits;
* `Tracker.Trace` — a tracker under way with its notes;
* `Tracker.Trace.induction` — a property that every move keeps holds all along a trace;
* `Tracker.Round` — a trace that stays within one poll;
* `Tracker.Stage.Surveys` — how far a poll has come through its hashes;
* `Tracker.Round.surveys` — a poll looks them up in order, each of them once.
-/

variable {σ : Type}

/-- The receipt that `Receipt.ofChain?` takes from the reply to a lookup, if it takes one. -/
def Receipt.read? (head : Nat) : Except Failure (Option ChainReceipt) → Option Receipt
  | .ok answer => answer.bind (ofChain? · head)
  | .error _ => none

/-- A lookup is a call for a receipt. -/
theorem Inquiry.look?_eq_some {i : Inquiry} {look : Look} :
    i.look? = some look ↔ i = .receipt look.hash look.reply := by
  constructor
  · intro h
    cases i with
    | receipt hash reply => rw [← Option.some.inj h]
    | _ => cases h
  · rintro rfl
    rfl

namespace Tracker

/-! ### Notes -/

/-- One call that a tracker makes, or one event that it emits. -/
inductive Note where
  | asked (i : Inquiry)
  | emitted (event : TrackerEvent)

/-- The event that is emitted, if one is. -/
def Note.emitted? : Note → Option TrackerEvent
  | .emitted event => some event
  | .asked _ => none

/-- The receipt lookup that is made, if one is. -/
def Note.look? : Note → Option Look
  | .asked i => i.look?
  | .emitted _ => none

/-- The notes of one step. -/
def noted (calls : List Inquiry) (event : Option TrackerEvent) : List Note :=
  calls.map .asked ++ event.toList.map .emitted

/-- The events of a trace, the oldest first. -/
def emitted (notes : List Note) : List TrackerEvent := notes.filterMap (·.emitted?)

/-- The receipt lookups of a trace, the oldest first. -/
def looks (notes : List Note) : List Look := notes.filterMap (·.look?)

@[simp] theorem emitted_append (notes later : List Note) :
    emitted (notes ++ later) = emitted notes ++ emitted later := List.filterMap_append

@[simp] theorem looks_append (notes later : List Note) :
    looks (notes ++ later) = looks notes ++ looks later := List.filterMap_append

@[simp] theorem emitted_noted (calls : List Inquiry) (event : Option TrackerEvent) :
    emitted (noted calls event) = event.toList := by
  cases event <;> simp [emitted, noted, Note.emitted?, List.filterMap_none]

@[simp] theorem looks_noted (calls : List Inquiry) (event : Option TrackerEvent) :
    looks (noted calls event) = calls.filterMap (·.look?) := by
  cases event <;> simp [looks, noted, Note.look?, List.filterMap_map]

@[simp] theorem asked_mem_noted {calls : List Inquiry} {event : Option TrackerEvent}
    {i : Inquiry} : .asked i ∈ noted calls event ↔ i ∈ calls := by
  simp [noted]

/-- A lookup is a call in the notes. -/
theorem mem_looks {notes : List Note} {look : Look} :
    look ∈ looks notes ↔ .asked (.receipt look.hash look.reply) ∈ notes := by
  rw [looks, List.mem_filterMap]
  constructor
  · rintro ⟨note, listed, shown⟩
    cases note with
    | emitted _ => cases shown
    | asked i => rwa [Inquiry.look?_eq_some.mp shown] at listed
  · exact fun listed => ⟨_, listed, rfl⟩

/-! ### Traces -/

/-- A tracker under way from one state to another, with its notes.  Every step may meet another
    outside and another moment, and the channel may have room for an event or not.  The node is
    asked for the hashes without receipt in any order, and for any of them more than once. -/
inductive Trace (desk : Desk σ) (t : Tracker) : List Note → Tracker → Prop where
  | here : Trace desk t [] t
  /-- One more hash is watched. -/
  | watch {notes t'} (trace : Trace desk t notes t') (hash : Digest) :
      Trace desk t notes (t'.watch hash)
  /-- The hashes without receipt are put in another order. -/
  | reorder {notes t' hashes order} (trace : Trace desk t notes t')
      (stage : t'.stage = .looking hashes) (same : ∀ hash, hash ∈ order ↔ hash ∈ hashes) :
      Trace desk t notes { t' with stage := .looking order }
  | step {notes t' t'' now room outside outside' calls event} (trace : Trace desk t notes t')
      (step : t'.step desk.chain.noted now room (outside, []) =
        some (t'', event, outside', calls)) :
      Trace desk t (notes ++ noted calls event) t''

variable {desk : Desk σ} {t t' t'' : Tracker} {notes later : List Note}

/-- What holds at the start and is kept by whatever happens to a tracker holds along a trace. -/
theorem Trace.induction {P : List Note → Tracker → Prop} (trace : Trace desk t notes t')
    (here : P [] t) (watch : ∀ notes t' hash, P notes t' → P notes (t'.watch hash))
    (reorder : ∀ notes t' hashes order, P notes t' → t'.stage = .looking hashes →
      (∀ hash, hash ∈ order ↔ hash ∈ hashes) → P notes { t' with stage := .looking order })
    (move : ∀ {notes t' t'' now room calls event}, P notes t' →
      Move desk now room t' calls t'' event → P (notes ++ noted calls event) t'') :
    P notes t' := by
  induction trace with
  | here => exact here
  | watch _ hash ih => exact watch _ _ hash ih
  | reorder _ stage same ih => exact reorder _ _ _ _ ih stage same
  | step _ step ih =>
    obtain ⟨calls', rfl, moves⟩ := move_of_step step
    exact move ih moves

/-- The calls of a tracker get replies that the desk gives. -/
theorem Move.genuine {now : Nat} {room : Bool} {calls : List Inquiry} {event : Option TrackerEvent}
    (move : Move desk now room t calls t' event) : ∀ i ∈ calls, i.Genuine desk := by
  cases move
  case begins genuine | asks genuine | looks genuine => simpa using genuine
  all_goals simp

/-- One trace may follow another. -/
theorem Trace.trans (trace : Trace desk t notes t') (onward : Trace desk t' later t'') :
    Trace desk t (notes ++ later) t'' := by
  induction onward with
  | here => simpa using trace
  | watch _ hash ih => exact .watch ih hash
  | reorder _ stage same ih => exact .reorder ih stage same
  | step _ step ih =>
    rw [← List.append_assoc]
    exact .step ih step

/-- Steps at these moments, one after the other, with room for every event. -/
def stepsAt (desk : Desk σ) : List Nat → Tracker → σ → Option (List Note × Tracker)
  | [], t, _ => some ([], t)
  | now :: later, t, outside =>
    match t.step desk.chain.noted now true (outside, []) with
    | none => none
    | some (t', event, outside', calls) =>
      (stepsAt desk later t' outside').map fun (notes, t'') => (noted calls event ++ notes, t'')

/-- Such steps prolong a trace. -/
theorem Trace.stepsAt (trace : Trace desk t notes t') (outside : σ) (times : List Nat)
    (h : t'.stepsAt desk times outside = some (later, t'')) :
    Trace desk t (notes ++ later) t'' := by
  induction times generalizing notes t' later outside with
  | nil =>
    obtain ⟨rfl, rfl⟩ := by simpa [Tracker.stepsAt] using h
    simpa using trace
  | cons now times ih =>
    rw [Tracker.stepsAt] at h
    split at h
    next => cases h
    next t₁ event outside' calls step =>
      obtain ⟨⟨later', _⟩, onward, same⟩ := Option.map_eq_some_iff.mp h
      obtain ⟨rfl, rfl⟩ := Prod.mk.inj same
      rw [← List.append_assoc]
      exact ih (.step trace step) outside' onward

/-- Watching one more hash leaves `depth` alone. -/
@[simp] theorem depth_watch (t : Tracker) (hash : Digest) : (t.watch hash).depth = t.depth := by
  unfold watch
  split <;> rfl

/-- The hashes with one more at the end, unless it is among them already. -/
def enlist (hashes : List Digest) (hash : Digest) : List Digest :=
  if hashes.contains hash then hashes else hashes ++ [hash]

@[simp] theorem watched_watch (t : Tracker) (hash : Digest) :
    (t.watch hash).watched = enlist t.watched hash := by
  unfold watch enlist
  split <;> rfl

/-- No hash is listed twice. -/
theorem nodup_enlist {hashes : List Digest} (distinct : hashes.Nodup) (hash : Digest) :
    (enlist hashes hash).Nodup := by
  unfold enlist
  split
  next => exact distinct
  next fresh =>
    rw [List.nodup_append]
    refine ⟨distinct, by simp, ?_⟩
    rintro old listed new single rfl
    rw [List.mem_singleton] at single
    simp [single ▸ listed] at fresh

/-- Listing hashes one after the other leaves the first of each. -/
theorem eraseDups_concat (hashes : List Digest) (hash : Digest) :
    (hashes ++ [hash]).eraseDups = enlist hashes.eraseDups hash := by
  rw [List.eraseDups_append, enlist]
  by_cases listed : hash ∈ hashes <;> simp [List.removeAll, List.eraseDups_cons, listed]

/-! ### Rounds -/

/-- No new poll is begun. -/
def Quiet (notes : List Note) : Prop := ∀ reply, .asked (.head reply) ∉ notes

/-- A trace within one poll. -/
structure Round (desk : Desk σ) (t : Tracker) (notes : List Note) (t' : Tracker) : Prop where
  trace : Trace desk t notes t'
  quiet : Quiet notes

/-- A poll that is just where it was. -/
theorem Round.here (desk : Desk σ) (t : Tracker) : Round desk t [] t := ⟨.here, fun _ => by simp⟩

/-- A poll prolonged by further moves of the same poll. -/
theorem Round.trans (round : Round desk t notes t') (onward : Round desk t' later t'') :
    Round desk t (notes ++ later) t'' := by
  refine ⟨round.trace.trans onward.trace, fun reply asked => ?_⟩
  rcases List.mem_append.mp asked with old | new
  · exact round.quiet reply old
  · exact onward.quiet reply new

/-- What every move but the beginning of another poll keeps holds all along a poll. -/
theorem Round.induction {P : List Note → Tracker → Prop} (round : Round desk t notes t')
    (here : P [] t) (watch : ∀ notes t' hash, P notes t' → P notes (t'.watch hash))
    (reorder : ∀ notes t' hashes order, P notes t' → t'.stage = .looking hashes →
      (∀ hash, hash ∈ order ↔ hash ∈ hashes) → P notes { t' with stage := .looking order })
    (move : ∀ {notes t' t'' now room calls event}, P notes t' → (∀ reply, .head reply ∉ calls) →
      Move desk now room t' calls t'' event → P (notes ++ noted calls event) t'') :
    P notes t' := by
  refine round.trace.induction (P := fun notes t' => Quiet notes → P notes t') (fun _ => here)
    ?_ ?_ ?_ round.quiet
  · exact fun notes t' hash ih quiet => watch notes t' hash (ih quiet)
  · exact fun notes t' hashes order ih stage same quiet =>
      reorder notes t' hashes order (ih quiet) stage same
  · intro notes t' t'' now room calls event ih moves quiet
    refine move (ih ?_) ?_ moves
    · exact fun reply asked => quiet reply (List.mem_append_left _ asked)
    · exact fun reply asked => quiet reply (List.mem_append_right _ (asked_mem_noted.mpr asked))

/-! ### How far a round has come -/

/-- The stage of a poll that began with these hashes, reads the head with this reply and has made
    these lookups. -/
def Stage.Surveys (depth : Nat) (hashes : List Digest) (reply : Pending (Except Failure Nat))
    (looks : List Look) : Stage → Prop
  | .readingHead hashes' reply' => hashes' = hashes ∧ reply' = reply ∧ looks = []
  | .next head _ rest | .absent head _ _ rest =>
    reply.answer = .ok head ∧ looks.map (·.hash) ++ rest = hashes
  | .asking head _ hash rest reply' =>
    reply.answer = .ok head ∧ looks.map (·.hash) ++ rest = hashes ∧
      looks.getLast? = some ⟨hash, reply'⟩
  | .found head _ hash receipt rest =>
    reply.answer = .ok head ∧ looks.map (·.hash) ++ rest = hashes ∧
      ∃ look, looks.getLast? = some look ∧ look.hash = hash ∧
        Receipt.read? head look.reply.answer = some receipt
  | .looking _ | .lookingAt _ _ _ | .sighted _ =>
    (∃ head, reply.answer = .ok head) ∧ looks.map (·.hash) = hashes
  -- A poll is over once all hashes are looked up, or where the head reading fails.
  | .resting | .broken =>
    (∃ head, reply.answer = .ok head) ∧ looks.map (·.hash) = hashes ∨
      (∃ f, reply.answer = .error f) ∧ looks = []
  | .done => ∃ head look receipt rest, reply.answer = .ok head ∧
      looks.map (·.hash) ++ rest = hashes ∧ looks.getLast? = some look ∧
      Receipt.read? head look.reply.answer = some receipt ∧ depth ≤ receipt.confirmations

variable {now : Nat} {room : Bool} {calls : List Inquiry} {event : Option TrackerEvent}
  {depth : Nat} {hashes : List Digest} {reply : Pending (Except Failure Nat)} {looked : List Look}

/-- The hashes are looked up in their order. -/
theorem Stage.Surveys.isPrefix {stage : Stage} (h : stage.Surveys depth hashes reply looked) :
    looked.map (·.hash) <+: hashes := by
  cases stage with
  | readingHead hashes' reply' =>
    obtain ⟨-, -, rfl⟩ := h
    exact List.nil_prefix
  | next head unseen rest | absent head unseen hash rest => exact ⟨rest, h.2⟩
  | asking head unseen hash rest reply' => exact ⟨rest, h.2.1⟩
  | found head unseen hash receipt rest => exact ⟨rest, h.2.1⟩
  | looking hashes' | lookingAt hash rest reply' | sighted hash => exact h.2 ▸ List.prefix_refl _
  | resting | broken =>
    rcases h with ⟨-, all⟩ | ⟨-, rfl⟩
    · exact all ▸ List.prefix_refl _
    · exact List.nil_prefix
  | done =>
    obtain ⟨_, _, _, rest, -, some, -⟩ := h
    exact ⟨rest, some⟩

/-- The hashes that a poll has still to look up. -/
def Stage.pending : Stage → List Digest
  | .readingHead hashes _ => hashes
  | .next _ _ rest | .asking _ _ _ rest _ | .found _ _ _ _ rest | .absent _ _ _ rest => rest
  | .resting | .looking _ | .lookingAt _ _ _ | .sighted _ | .done | .broken => []

/-- The poll was ended by the lookup of an earlier hash, whose receipt is deep enough. -/
def EndedBefore (depth : Nat) (hashes : List Digest) (reply : Pending (Except Failure Nat))
    (looked : List Look) (hash : Digest) : Prop :=
  ∃ head receipt, ∃ look ∈ looked, ∃ earlier later, reply.answer = .ok head ∧
    Receipt.read? head look.reply.answer = some receipt ∧ depth ≤ receipt.confirmations ∧
    hashes = earlier ++ look.hash :: later ∧ hash ∈ later

/-- **Every hash is looked up**, or will be, unless the head reading fails or an earlier hash was
    confirmed. -/
theorem Stage.Surveys.looked_or {stage : Stage} (h : stage.Surveys depth hashes reply looked)
    {hash : Digest} (listed : hash ∈ hashes) :
    (∃ look ∈ looked, look.hash = hash) ∨ hash ∈ stage.pending ∨
      (∃ f, reply.answer = .error f) ∨
      stage = .done ∧ EndedBefore depth hashes reply looked hash := by
  have sides {rest : List Digest} (all : looked.map (·.hash) ++ rest = hashes) :
      (∃ look ∈ looked, look.hash = hash) ∨ hash ∈ rest := by
    rw [← all] at listed
    simpa using listed
  cases stage with
  | readingHead hashes' reply' =>
    obtain ⟨rfl, -, -⟩ := h
    exact .inr (.inl listed)
  | next head unseen rest | absent head unseen hash' rest =>
    exact (sides h.2).imp_right .inl
  | asking head unseen hash' rest reply' => exact (sides h.2.1).imp_right .inl
  | found head unseen hash' receipt rest => exact (sides h.2.1).imp_right .inl
  | looking hashes' | lookingAt hash' rest reply' | sighted hash' =>
    exact .inl ((@sides [] (by simpa using h.2)).resolve_right (by simp))
  | resting | broken =>
    rcases h with ⟨-, all⟩ | ⟨lost, -⟩
    · exact .inl ((@sides [] (by simpa using all)).resolve_right (by simp))
    · exact .inr (.inr (.inl lost))
  | done =>
    obtain ⟨head, look, receipt, rest, headed, all, last, read, deep⟩ := h
    refine (sides all).imp_right fun later => .inr (.inr ⟨rfl, ?_⟩)
    obtain ⟨before, rfl⟩ := List.getLast?_eq_some_iff.mp last
    exact ⟨head, receipt, look, by simp, before.map (·.hash), rest, headed, read, deep,
      by simpa using all.symm, later⟩

/-- **Every move but `begins`** keeps the survey of the poll under way. -/
theorem Move.surveys (h : t.stage.Surveys t.depth hashes reply looked)
    (move : Move desk now room t calls t' event) (no_head : ∀ reply, .head reply ∉ calls) :
    t'.stage.Surveys t'.depth hashes reply (looked ++ calls.filterMap (·.look?)) := by
  cases move with
  | begins _ _ _ => simp at no_head
  | idles stage _ _ => simpa [stage] using h
  | heads stage ready =>
    rw [stage] at h
    obtain ⟨rfl, rfl, rfl⟩ := h
    exact ⟨Pending.answer_of_ready ready, rfl⟩
  | loses stage ready =>
    rw [stage] at h
    obtain ⟨rfl, rfl, rfl⟩ := h
    exact .inr ⟨⟨_, Pending.answer_of_ready ready⟩, rfl⟩
  | asks stage _ =>
    rw [stage] at h
    obtain ⟨headed, rfl⟩ := h
    refine ⟨headed, ?_, ?_⟩ <;> simp [Inquiry.look?]
  | comesRound stage =>
    rw [stage] at h
    obtain ⟨headed, all⟩ := h
    rw [List.append_nil] at all
    rw [List.filterMap_nil, List.append_nil]
    cases t.visible
    · exact ⟨⟨_, headed⟩, all⟩
    · exact .inl ⟨⟨_, headed⟩, all⟩
  | finds stage ready found =>
    rw [stage] at h
    rw [List.filterMap_nil, List.append_nil]
    refine ⟨h.1, h.2.1, _, h.2.2, rfl, ?_⟩
    rw [Pending.answer_of_ready ready]
    exact found
  | confirms stage _ _ _ deep =>
    rw [stage] at h
    obtain ⟨headed, some, look, last, -, read⟩ := h
    rw [List.filterMap_nil, List.append_nil]
    exact ⟨_, look, _, _, headed, some, last, read, deep⟩
  -- A hash is done with, then all of them are.
  | skips stage _ | misses stage _ _ | passes stage _ _ _ =>
    rw [stage] at h
    rw [List.filterMap_nil, List.append_nil]
    exact ⟨h.1, h.2.1⟩
  | despairs stage | announces stage _ =>
    rw [stage] at h
    rw [List.filterMap_nil, List.append_nil]
    exact .inl h
  | breaks stage _ | sights stage _ _ | mines stage _ _ _ | forgets stage _ _ | lacks stage _
  | looks stage _ | spots stage _ | overlooks stage _ _ =>
    rw [stage] at h
    simp only [List.filterMap_cons, List.filterMap_nil, Inquiry.look?, List.append_nil]
    exact h

/-- **A poll looks its hashes up in order**, under the head that it read. -/
theorem Round.surveys {notes : List Note} (round : Round desk t notes t')
    (reading : t.stage = .readingHead hashes reply) :
    t'.stage.Surveys t'.depth hashes reply (looks notes) := by
  refine round.induction (P := fun notes t' => t'.stage.Surveys t'.depth hashes reply (looks notes))
    ?_ ?_ ?_ ?_
  · rw [reading]
    exact ⟨rfl, rfl, rfl⟩
  · intro notes t' hash h
    rwa [stage_watch, depth_watch]
  · intro notes t' hashes' order h stage _
    rw [stage] at h
    exact h
  · intro notes t' t'' now room calls event h no_head move
    rw [looks_append, looks_noted]
    exact move.surveys h no_head

end Tracker

end Relayer
