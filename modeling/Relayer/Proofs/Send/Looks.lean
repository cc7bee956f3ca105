import Relayer.Proofs.Send.Bidding

namespace Relayer

/-!
# Looks — the receipt lookups so far, and how much of them the loop knows

The tracker looks receipts up one after the other, and emits an event where one appears or
disappears.  So the loop lags behind the node: by the events in its inbox, and by the lookup that
the tracker is at.

* `Look.inBlock` — whether a hash is in a block, by the lookups that were answered;
* `Tracker.Reads` — the tracker's `mined`, against the lookups up to the one it is at;
* `Tracker.KnownTo` — a send state with the mined hashes of the tracker;
* `Send.Run.apprised` — both hold all along a run, the latter once the inbox is received.
-/

variable {σ : Type}

/-! ### Looks -/

/-- A receipt lookup, with its reply. -/
structure Look where
  hash : Digest
  reply : Pending (Except Failure (Option ChainReceipt))

namespace Look

/-- Whether the reply names a block.  A lookup that fails says nothing. -/
def word? (look : Look) : Option Bool :=
  match look.reply.answer with
  | .ok answer => some (answer.bind (·.block)).isSome
  | .error _ => none

/-- Whether a hash is in a block, by its latest lookup that did not fail. -/
def inBlock (looks : List Look) (hash : Digest) : Bool :=
  looks.foldl (fun known look => if look.hash = hash then look.word?.getD known else known) false

/-- One more lookup counts for its own hash, unless it fails. -/
@[simp] theorem inBlock_append_singleton (looks : List Look) (look : Look) (hash : Digest) :
    inBlock (looks ++ [look]) hash =
      if look.hash = hash then look.word?.getD (inBlock looks hash) else inBlock looks hash := by
  simp [inBlock]

/-- A receipt that `Receipt.ofChain?` takes is one that names a block. -/
theorem word?_eq (look : Look) {answer : Option ChainReceipt} (head : Nat)
    (answers : look.reply.answer = .ok answer) :
    look.word? = some (answer.bind (Receipt.ofChain? · head)).isSome := by
  simp only [word?, answers]
  cases answer with
  | none => rfl
  | some receipt => simp [Receipt.ofChain?]

end Look

/-- The lookup that a call is, if it is one. -/
def Inquiry.look? : Inquiry → Option Look
  | .receipt hash reply => some ⟨hash, reply⟩
  | _ => none

/-- The lookup that is shown, if one is. -/
def Send.Event.look? : Send.Event → Option Look
  | .asked i => i.look?
  | _ => none

/-- The receipt lookups of a trail, the oldest first. -/
def Send.looks (trail : List Send.Event) : List Look := trail.filterMap (·.look?)

/-- The lookups of a step are those among its calls. -/
theorem Send.looks_append_shown (trail : List Send.Event) (s : Send) (calls : List Inquiry)
    (out : Outcome) :
    looks (trail ++ s.shown calls out) = looks trail ++ calls.filterMap (·.look?) := by
  cases out <;> simp [looks, shown, Event.look?, List.filterMap_map, List.filterMap_none]

/-! ### What the tracker has noted -/

namespace Tracker

variable {t t' : Tracker} {looks : List Look}

/-- `forget` clears the block of its hash alone. -/
@[simp] theorem minedIn?_forget (t : Tracker) (hash other : Digest) :
    (t.forget hash).minedIn? other = if other = hash then none else t.minedIn? other := by
  unfold minedIn? forget
  rw [List.find?_filter]
  split
  next same =>
    subst same
    simp
  next different =>
    congr 2
    funext entry
    by_cases mine : entry.1 = other <;> simp [mine, different]

/-- `noteMined` sets the block of its hash alone. -/
@[simp] theorem minedIn?_noteMined (t : Tracker) (hash : Digest) (block : Nat) (other : Digest) :
    (t.noteMined hash block).minedIn? other =
      if other = hash then some block else t.minedIn? other := by
  have forgotten := t.minedIn?_forget hash other
  unfold minedIn? forget at forgotten
  unfold minedIn? noteMined
  by_cases same : other = hash
  · simp [same]
  · have different : hash ≠ other := fun h => same h.symm
    simpa [same, different] using forgotten

/-- Watching one more hash leaves all blocks alone. -/
@[simp] theorem minedIn?_watch (t : Tracker) (hash other : Digest) :
    (t.watch hash).minedIn? other = t.minedIn? other := by
  unfold watch
  split <;> rfl

/-- Watching one more hash leaves the stage alone. -/
@[simp] theorem stage_watch (t : Tracker) (hash : Digest) : (t.watch hash).stage = t.stage := by
  unfold watch
  split <;> rfl

/-- The mined hashes of the tracker are those that are `inBlock` by these lookups. -/
def Agrees (t : Tracker) (looks : List Look) : Prop :=
  ∀ hash, (t.minedIn? hash).isSome = Look.inBlock looks hash

/-- The mined hashes of the tracker are those of the lookups, up to the one that it is at. -/
def Reads (looks : List Look) (t : Tracker) : Prop :=
  match t.stage with
  | .asking _ _ hash _ reply => ∃ earlier, looks = earlier ++ [⟨hash, reply⟩] ∧ t.Agrees earlier
  | .found _ _ hash _ _ =>
    ∃ earlier look, looks = earlier ++ [look] ∧ look.hash = hash ∧ look.word? = some true ∧
      (t.Agrees earlier ∨ t.Agrees looks)
  | .absent _ _ hash _ =>
    ∃ earlier look, looks = earlier ++ [look] ∧ look.hash = hash ∧ look.word? = some false ∧
      t.Agrees earlier
  | _ => t.Agrees looks

/-- Whatever the stage, `Agrees` holds of the lookups, or of all but the latest one. -/
theorem Reads.looked (h : t.Reads looks) :
    ∃ looked, (looked = looks ∨ looked = looks.dropLast) ∧ t.Agrees looked := by
  unfold Reads at h
  split at h
  next =>
    obtain ⟨earlier, rfl, agrees⟩ := h
    exact ⟨earlier, .inr (by simp), agrees⟩
  next =>
    obtain ⟨earlier, look, rfl, -, -, agrees | agrees⟩ := h
    · exact ⟨earlier, .inr (by simp), agrees⟩
    · exact ⟨_, .inl rfl, agrees⟩
  next =>
    obtain ⟨earlier, look, rfl, -, -, agrees⟩ := h
    exact ⟨earlier, .inr (by simp), agrees⟩
  next => exact ⟨looks, .inl rfl, h⟩

/-- `Reads` depends on `mined` and the stage alone. -/
theorem Reads.of_same (h : t.Reads looks) (stage : t'.stage = t.stage)
    (noted : ∀ hash, t'.minedIn? hash = t.minedIn? hash) : t'.Reads looks := by
  have agrees (looks : List Look) : t'.Agrees looks = t.Agrees looks := by simp [Agrees, noted]
  simpa only [Reads, stage, agrees] using h

variable {look : Look}

/-- A lookup counts where it says what is noted of its hash, or fails. -/
theorem Agrees.of_noted (h : t.Agrees looks)
    (noted : look.word?.all (· == (t.minedIn? look.hash).isSome)) : t.Agrees (looks ++ [look]) := by
  intro hash
  have same := h hash
  by_cases own : look.hash = hash
  · subst own
    cases word : look.word? with
    | none => simpa [word] using same
    | some block =>
      have known : block = (t.minedIn? look.hash).isSome := by simpa [word] using noted
      simp [word, known]
  · simpa [own] using same

/-- A lookup of one hash counts for no other. -/
theorem Agrees.of_other (h : t.Agrees looks ∨ t.Agrees (looks ++ [look])) {hash : Digest}
    (other : look.hash ≠ hash) :
    (t.minedIn? hash).isSome = Look.inBlock (looks ++ [look]) hash := by
  rcases h with before | behind
  · simpa [other] using before hash
  · exact behind hash

/-- Behind `noteMined` the lookup that found the block counts. -/
theorem Agrees.noteMined (h : t.Agrees looks ∨ t.Agrees (looks ++ [look]))
    (found : look.word? = some true) (block : Nat) :
    (t.noteMined look.hash block).Agrees (looks ++ [look]) := by
  intro hash
  rw [minedIn?_noteMined]
  split
  next own => simp [own, found]
  next other => exact Agrees.of_other h fun own => other own.symm

/-- Behind `forget` the lookup that found no receipt counts. -/
theorem Agrees.forget (h : t.Agrees looks) (absent : look.word? = some false) :
    (t.forget look.hash).Agrees (looks ++ [look]) := by
  intro hash
  rw [minedIn?_forget]
  split
  next own => simp [own, absent]
  next other => exact Agrees.of_other (.inl h) fun own => other own.symm

/-- Where the block that a lookup found is noted already, the lookup counts. -/
theorem Agrees.of_found (h : t.Agrees looks ∨ t.Agrees (looks ++ [look]))
    (found : look.word? = some true) {block : Nat} (noted : t.minedIn? look.hash = some block) :
    t.Agrees (looks ++ [look]) := by
  rcases h with before | behind
  · exact before.of_noted (by simp [found, noted])
  · exact behind

variable {desk : Desk σ} {now : Nat} {room : Bool} {calls : List Inquiry}
  {event : Option TrackerEvent}

/-- **Every move of the tracker keeps `Reads`.** -/
theorem Move.reads (h : t.Reads looks) (move : Move desk now room t calls t' event) :
    t'.Reads (looks ++ calls.filterMap (·.look?)) := by
  -- The stage before the move says what there is to know of the lookups.
  unfold Reads at h
  cases move with
  | asks stage _ =>
    rw [stage] at h
    exact ⟨looks, rfl, h⟩
  | @skips _ _ hash _ reply f stage ready =>
    rw [stage] at h
    obtain ⟨earlier, rfl, agrees⟩ := h
    have silent : Look.word? ⟨hash, reply⟩ = none := by
      simp only [Look.word?, Pending.answer_of_ready ready]
    rw [List.filterMap_nil, List.append_nil]
    exact agrees.of_noted (by simp [silent])
  | @finds head _ hash _ reply _ _ stage ready found =>
    rw [stage] at h
    obtain ⟨earlier, rfl, agrees⟩ := h
    have word := Look.word?_eq ⟨hash, reply⟩ head (Pending.answer_of_ready ready)
    rw [found] at word
    rw [List.filterMap_nil, List.append_nil]
    exact ⟨earlier, _, rfl, rfl, word, .inl agrees⟩
  | @misses head _ hash _ reply _ stage ready missing =>
    rw [stage] at h
    obtain ⟨earlier, rfl, agrees⟩ := h
    have word := Look.word?_eq ⟨hash, reply⟩ head (Pending.answer_of_ready ready)
    rw [missing] at word
    rw [List.filterMap_nil, List.append_nil]
    exact ⟨earlier, _, rfl, rfl, word, agrees⟩
  | sights stage _ _ =>
    rw [stage] at h
    rw [List.filterMap_nil, List.append_nil]
    exact h
  | mines stage _ _ _ =>
    rw [stage] at h
    obtain ⟨earlier, look, rfl, rfl, found, agrees⟩ := h
    rw [List.filterMap_nil, List.append_nil]
    exact ⟨earlier, look, rfl, rfl, found, .inr (Agrees.noteMined agrees found _)⟩
  | confirms stage _ _ noted _ | passes stage _ noted _ =>
    rw [stage] at h
    obtain ⟨earlier, look, rfl, rfl, found, agrees⟩ := h
    rw [List.filterMap_nil, List.append_nil]
    exact Agrees.of_found agrees found noted
  | forgets stage _ _ =>
    rw [stage] at h
    obtain ⟨earlier, look, rfl, rfl, absent, agrees⟩ := h
    rw [List.filterMap_nil, List.append_nil]
    exact Agrees.forget agrees absent
  | lacks stage unknown =>
    rw [stage] at h
    obtain ⟨earlier, look, rfl, rfl, absent, agrees⟩ := h
    rw [List.filterMap_nil, List.append_nil]
    exact agrees.of_noted (by simp [absent, unknown])
  | comesRound stage =>
    rw [stage] at h
    rw [List.filterMap_nil, List.append_nil]
    cases visible : t.visible <;> exact h
  | idles stage _ _ =>
    rw [List.filterMap_nil, List.append_nil, Reads]
    exact h
  | begins stage _ _ | heads stage _ | loses stage _ | breaks stage _ | despairs stage
  | looks stage _ | spots stage _ | overlooks stage _ _ | announces stage _ =>
    rw [stage] at h
    simp only [List.filterMap_cons, List.filterMap_nil, Inquiry.look?, List.append_nil]
    exact h

end Tracker

/-! ### What the loop knows -/

namespace Book

variable {b b' : Book}

/-- The hash is mined behind `noteMined`, besides the others. -/
@[simp] theorem mem_noteMined (b : Book) (hash other : Digest) :
    other ∈ (b.noteMined hash).mined ↔ other = hash ∨ other ∈ b.mined := by
  unfold noteMined
  by_cases listed : hash ∈ b.mined
  · simp only [List.contains_iff_mem.mpr listed, if_true, iff_or_self]
    rintro rfl
    exact listed
  · simp [listed, or_comm]

/-- The hash is not mined behind `noteReorged`, the others are. -/
@[simp] theorem mem_noteReorged (b : Book) (hash other : Digest) :
    other ∈ (b.noteReorged hash).mined ↔ other ∈ b.mined ∧ other ≠ hash := by
  simp [noteReorged]

/-- What an event does to `mined` does not depend on the rest of the send state. -/
theorem received_mined (same : b.mined = b'.mined) (event : TrackerEvent) :
    (b.received event).mined = (b'.received event).mined := by
  cases event <;> simp [received, noteMined, noteReorged, same]

/-- Nor do any number of events. -/
theorem foldl_received_mined (same : b.mined = b'.mined) (events : List TrackerEvent) :
    (events.foldl received b).mined = (events.foldl received b').mined := by
  induction events generalizing b b' with
  | nil => exact same
  | cons event rest ih => exact ih (received_mined same event)

end Book

/-- The send state has the mined hashes of the tracker. -/
def Tracker.KnownTo (b : Book) (t : Tracker) : Prop :=
  ∀ hash, hash ∈ b.mined ↔ (t.minedIn? hash).isSome

/-- **A move of the tracker keeps `KnownTo`**, once the send state has received its event. -/
theorem Tracker.Move.knownTo {desk : Desk σ} {now : Nat} {room : Bool} {t t' : Tracker}
    {calls : List Inquiry} {event : Option TrackerEvent} {b : Book} (h : t.KnownTo b)
    (move : Move desk now room t calls t' event) :
    t'.KnownTo (event.toList.foldl Book.received b) := by
  cases move with
  | mines _ _ _ _ =>
    intro other
    simp only [Option.toList_some, List.foldl_cons, List.foldl_nil, Book.received,
      Book.mem_noteMined, h other]
    change _ ↔ ((t.noteMined _ _).minedIn? other).isSome
    rw [minedIn?_noteMined]
    split <;> simp [*]
  | forgets _ _ _ =>
    intro other
    simp only [Option.toList_some, List.foldl_cons, List.foldl_nil, Book.received,
      Book.mem_noteReorged, h other]
    change _ ↔ ((t.forget _).minedIn? other).isSome
    rw [minedIn?_forget]
    split <;> simp [*]
  | _ => exact h

namespace Escalation

variable {desk : Desk σ} {limits : Limits} {now : Nat} {e e' : Escalation}
  {calls : List Inquiry}

/-- Once the loop has received its inbox, it has the mined hashes of the tracker. -/
def Abreast (e : Escalation) : Prop := e.tracker.KnownTo (e.inbox.foldl Book.received e.book)

/-- A step that emits, receives and notes nothing keeps the loop abreast. -/
theorem Abreast.of_quiet (h : e.Abreast) (mined : e'.book.mined = e.book.mined)
    (inbox : e'.inbox = e.inbox)
    (noted : ∀ hash, e'.tracker.minedIn? hash = e.tracker.minedIn? hash) : e'.Abreast := by
  intro hash
  rw [inbox, Book.foldl_received_mined mined, noted]
  exact h hash

/-- **Every move keeps the loop abreast** of the tracker. -/
theorem Move.abreast (h : e.Abreast) (move : Move desk limits now e calls (.running e')) :
    e'.Abreast := by
  cases move with
  | receives _ _ inbox _ =>
    rw [Abreast, inbox] at h
    exact h
  | tracks move =>
    rw [Abreast, List.foldl_append]
    exact move.knownTo h
  | folds _ _ _ _ folded =>
    obtain ⟨accepted, tooLow, rfl⟩ := Book.fold_ok folded
    exact h.of_quiet rfl rfl fun _ => rfl
  | publishes _ _ => exact h.of_quiet rfl rfl fun _ => Tracker.minedIn?_watch ..
  | _ => exact h.of_quiet rfl rfl fun _ => rfl

/-- A move of an escalation keeps `Reads`. -/
theorem Move.reads {looks : List Look} (h : e.tracker.Reads looks)
    (move : Move desk limits now e calls (.running e')) :
    e'.tracker.Reads (looks ++ calls.filterMap (·.look?)) := by
  cases move with
  | tracks move => exact move.reads h
  | publishes _ _ =>
    rw [List.filterMap_nil, List.append_nil]
    exact h.of_same (Tracker.stage_watch ..) fun _ => Tracker.minedIn?_watch ..
  | _ =>
    simp only [List.filterMap_cons, List.filterMap_nil, Inquiry.look?, List.append_nil]
    exact h

end Escalation

namespace Send

variable {desk : Desk σ} {call : Call} {trail : List Event} {lease : Lease} {e : Escalation}
  {s : Send}

/-- Before its escalation a send looks nothing up; then `Reads` holds of its tracker, and its loop
    is abreast. -/
def Apprised (trail : List Event) (s : Send) : Prop :=
  match s.phase with
  | .escalating _ e => e.tracker.Reads (looks trail) ∧ e.Abreast
  | _ => looks trail = []

/-- **A send is apprised of the lookups** all along its run. -/
theorem Run.apprised (run : Run desk call trail s) : s.Apprised trail := by
  refine run.induction (P := fun trail s => s.Apprised trail) (fun _ => rfl) ?_ ?_
  · rintro trail s s' h ⟨lease, e, turn, outstanding, phase, -, rfl⟩
    rw [Apprised, phase] at h
    exact h
  · intro trail s s' limits now l l' calls h move
    rw [Apprised, looks_append_shown]
    cases move with
    | @escalates _ e _ turn _ phase move =>
      rw [Apprised, phase] at h
      exact ⟨Escalation.Move.reads (e := { e with turn }) h.1 move,
        Escalation.Move.abreast (e := { e with turn }) h.2 move⟩
    | joins phase | reads phase _ _ _ | retries phase _ _ | resumes phase _ =>
      rw [Apprised, phase] at h
      simpa [Inquiry.look?] using h
    | inherits phase _ _ | learns phase _ =>
      rw [Apprised, phase] at h
      cases own : s.call.gasLimit <;> simpa [afterLease, own] using h
    | estimates phase move | pads phase move _ | prices phase move =>
      rw [Apprised, phase] at h
      rcases move.calls_eq with rfl | ⟨reply, rfl, -⟩ <;> simpa [Inquiry.look?] using h
    | bids phase move first =>
      rw [Apprised, phase] at h
      obtain ⟨bid, -, rfl⟩ := firstBid_ok first
      rcases move.calls_eq with rfl | ⟨reply, rfl, -, none⟩
      · rw [h]
        exact ⟨fun _ => rfl, fun _ => by simp [Book.opening, Tracker.start, Tracker.minedIn?]⟩
      · cases none

end Send

end Relayer
