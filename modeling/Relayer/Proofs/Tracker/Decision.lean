import Relayer.Proofs.Send.Moment
import Relayer.Proofs.Tracker.Trace

namespace Relayer

/-!
# Decision — what a poll confirms, by nothing but the replies it gets

A poll reads the head and looks the receipts up; on its way it notes blocks, emits events, skips
failed lookups and stops at the first receipt that is deep enough.  What it decides depends on none
of that: at every point of a poll, the events it has emitted and those it has still to emit are
together what the replies say.

* `Answers` — what the node answers in one poll;
* `Tracker.Stage.verdict` — the receipt that a poll will confirm from its stage on;
* `Tracker.Stage.Shows` — whether a poll will emit `inMempool` from its stage on;
* `Tracker.Poll` — a whole poll;
* `Tracker.Round.completes` — a poll comes to its end where the node answers;
* `Tracker.decides` — what a poll confirms, and when it emits `inMempool`.
-/

variable {σ : Type}

/-! ### Answers -/

/-- What the node answers in one poll: the head, the receipts, and the hashes that it knows. -/
structure Answers where
  head : Except Failure Nat
  receipt : Digest → Except Failure (Option ChainReceipt)
  knows : Digest → Except Failure Bool

/-- A hash is seen by its receipt in a block, or else because the node knows it. -/
def ChainReceipt.Sighted (head : Nat) (knows : Except Failure Bool) :
    Except Failure (Option ChainReceipt) → Prop
  | .ok answer => (answer.bind (Receipt.ofChain? · head)).isSome = true ∨ knows = .ok true
  | .error _ => False

namespace Answers

/-- The reply to this call is one of these answers. -/
def Give (a : Answers) : Inquiry → Prop
  | .head reply => reply.answer = a.head
  | .receipt hash reply => reply.answer = a.receipt hash
  | .knows hash reply => reply.answer = a.knows hash
  | _ => True

/-- The receipt of a hash, where it is deep enough under that head. -/
def deep? (a : Answers) (depth head : Nat) (hash : Digest) : Option Receipt :=
  (Receipt.read? head (a.receipt hash)).filter (depth ≤ ·.confirmations)

/-- The hash is seen under that head. -/
def Sights (a : Answers) (head : Nat) (hash : Digest) : Prop :=
  ChainReceipt.Sighted head (a.knows hash) (a.receipt hash)

/-- The node knows one of the hashes. -/
def KnowsOf (a : Answers) (hashes : List Digest) : Prop := ∃ hash ∈ hashes, a.knows hash = .ok true

/-- A receipt is deep enough where its block is. -/
theorem deep?_isSome {a : Answers} {depth head : Nat} {hash : Digest} :
    (a.deep? depth head hash).isSome = true ↔ ∃ answer block,
      a.receipt hash = .ok (some answer) ∧ answer.block = some block ∧ depth ≤ head - block := by
  unfold deep? Receipt.read?
  split
  next answer read =>
    cases answer with
    | none => simp [read]
    | some answer =>
      cases mined : answer.block <;> simp [read, Receipt.ofChain?, mined, Option.filter]
  next f failed => simp [failed]

/-- A hash is seen where it is in a block, or is not but known to the node. -/
theorem sights_iff {a : Answers} {head : Nat} {hash : Digest} : a.Sights head hash ↔
    (∃ answer block, a.receipt hash = .ok (some answer) ∧ answer.block = some block) ∨
      ∃ answer, a.receipt hash = .ok answer ∧ answer.bind (·.block) = none ∧
        a.knows hash = .ok true := by
  unfold Sights ChainReceipt.Sighted
  split
  next answer read =>
    cases answer with
    | none => simp [read]
    | some answer => cases mined : answer.block <;> simp [read, Receipt.ofChain?, mined]
  next f failed => simp [failed]

end Answers

/-- The node gives these answers to receipt lookups and mempool lookups, each of them at some
    time. -/
structure Chain.Gives (chain : Chain σ) (a : Answers) : Prop where
  receipt : ∀ hash now outside, (chain.receipt hash now outside).1.answer = a.receipt hash ∧
    (chain.receipt hash now outside).1.due.isSome = true
  knows : ∀ hash now outside, (chain.knows hash now outside).1.answer = a.knows hash ∧
    (chain.knows hash now outside).1.due.isSome = true

/-- The receipt of a `confirmed` event. -/
def TrackerEvent.confirmed? : TrackerEvent → Option Receipt
  | .confirmed receipt => some receipt
  | _ => none

/-- Whether the event is `inMempool`. -/
def TrackerEvent.IsSighting : TrackerEvent → Prop
  | .inMempool _ => True
  | _ => False

namespace Tracker

variable {desk : Desk σ} {now : Nat} {room : Bool} {t t' : Tracker} {calls : List Inquiry}
  {event : Option TrackerEvent} {notes later : List Note} {a : Answers}

/-! ### What is still to be emitted -/

/-- The receipt that a poll will confirm from its stage on. -/
def Stage.verdict (a : Answers) (depth : Nat) : Stage → Option Receipt
  | .readingHead hashes reply =>
    match reply.answer with
    | .ok head => hashes.findSome? (a.deep? depth head)
    | .error _ => none
  | .next head _ rest | .absent head _ _ rest => rest.findSome? (a.deep? depth head)
  | .asking head _ _ rest reply =>
    ((Receipt.read? head reply.answer).filter (depth ≤ ·.confirmations)).or
      (rest.findSome? (a.deep? depth head))
  | .found head _ _ receipt rest =>
    ((some receipt).filter (depth ≤ ·.confirmations)).or (rest.findSome? (a.deep? depth head))
  | _ => none

/-- A poll will emit `inMempool` from its stage on. -/
def Stage.Shows (a : Answers) (visible : Bool) : Stage → Prop
  | .readingHead hashes reply =>
    match reply.answer with
    | .ok head => visible = false ∧ ∃ hash ∈ hashes, a.Sights head hash
    | .error _ => False
  | .next head unseen rest =>
    visible = false ∧ (a.KnowsOf unseen ∨ ∃ hash ∈ rest, a.Sights head hash)
  | .asking head unseen hash rest reply =>
    visible = false ∧ (a.KnowsOf unseen ∨
      ChainReceipt.Sighted head (a.knows hash) reply.answer ∨ ∃ hash ∈ rest, a.Sights head hash)
  | .found _ _ _ _ _ => visible = false
  | .absent head unseen hash rest =>
    visible = false ∧ (a.KnowsOf (unseen ++ [hash]) ∨ ∃ hash ∈ rest, a.Sights head hash)
  | .looking hashes => a.KnowsOf hashes
  | .lookingAt _ rest reply => reply.answer = .ok true ∨ a.KnowsOf rest
  | .sighted _ => True
  | .resting | .done | .broken => False

/-- **What a move confirms and what is still to be confirmed** is what was to be confirmed before
    it. -/
theorem Move.verdict (move : Move desk now room t calls t' event)
    (given : ∀ i ∈ calls, a.Give i) (no_head : ∀ reply, .head reply ∉ calls) :
    (event.bind (·.confirmed?)).toList ++ (t'.stage.verdict a t'.depth).toList =
      (t.stage.verdict a t.depth).toList := by
  cases move with
  | begins _ _ _ => simp at no_head
  | heads stage ready | loses stage ready =>
    simp [Stage.verdict, stage, Pending.answer_of_ready ready]
  | asks stage _ =>
    have answer := given _ (List.mem_singleton_self _)
    simp only [Answers.Give] at answer
    simp only [Stage.verdict, stage, answer, List.findSome?_cons, Answers.deep?]
    cases Option.filter _ _ <;> rfl
  | skips stage ready =>
    simp [Stage.verdict, stage, Pending.answer_of_ready ready, Receipt.read?]
  | finds stage ready found =>
    simp [Stage.verdict, stage, Pending.answer_of_ready ready, Receipt.read?, found]
  | misses stage ready missing =>
    simp [Stage.verdict, stage, Pending.answer_of_ready ready, Receipt.read?, missing]
  | confirms stage _ _ _ deep =>
    simp [Stage.verdict, stage, Option.filter, deep, TrackerEvent.confirmed?]
  | passes stage _ _ shallow => simp [Stage.verdict, stage, Option.filter, shallow]
  | comesRound stage => cases visible : t.visible <;> simp [Stage.verdict, stage]
  | sights stage _ _ | mines stage _ _ _ | forgets stage _ _ | announces stage _ =>
    simp [Stage.verdict, stage, TrackerEvent.confirmed?, noteMined, forget]
  | idles stage _ _ | breaks stage _ | lacks stage _ | despairs stage | looks stage _
  | spots stage _ | overlooks stage _ _ =>
    simp [Stage.verdict, stage]

/-- Whether a move emits `inMempool`, or has it still to be emitted, was known before it. -/
theorem Move.shows (move : Move desk now room t calls t' event)
    (given : ∀ i ∈ calls, a.Give i) (no_head : ∀ reply, .head reply ∉ calls) :
    ((∃ emitted ∈ event, emitted.IsSighting) ∨ t'.stage.Shows a t'.visible) ↔
      t.stage.Shows a t.visible := by
  cases move with
  | begins _ _ _ => simp at no_head
  | heads stage ready | loses stage ready =>
    simp [Stage.Shows, stage, Pending.answer_of_ready ready, Answers.KnowsOf]
  | asks stage _ =>
    have answer := given _ (List.mem_singleton_self _)
    simp only [Answers.Give] at answer
    simp [Stage.Shows, stage, answer, Answers.Sights]
  | skips stage ready =>
    simp [Stage.Shows, stage, Pending.answer_of_ready ready, ChainReceipt.Sighted]
  | finds stage ready found =>
    simp [Stage.Shows, stage, Pending.answer_of_ready ready, ChainReceipt.Sighted, found]
  | misses stage ready missing =>
    simp [Stage.Shows, stage, Pending.answer_of_ready ready, ChainReceipt.Sighted, missing,
      Answers.KnowsOf, or_assoc]
  -- Here `inMempool` is emitted, so that it is no longer to come.
  | sights stage _ unseen => simp [Stage.Shows, stage, TrackerEvent.IsSighting, unseen]
  | announces stage _ => simp [Stage.Shows, stage, TrackerEvent.IsSighting]
  | mines stage _ known _ | confirms stage _ known _ _ | passes stage known _ _ =>
    simp [Stage.Shows, stage, TrackerEvent.IsSighting, known, noteMined]
  | forgets stage _ _ | lacks stage _ =>
    simp [Stage.Shows, stage, TrackerEvent.IsSighting, forget]
  | comesRound stage => cases visible : t.visible <;> simp [Stage.Shows, stage]
  | looks stage _ =>
    have answer := given _ (List.mem_singleton_self _)
    simp only [Answers.Give] at answer
    simp [Stage.Shows, stage, answer, Answers.KnowsOf]
  | spots stage ready => simp [Stage.Shows, stage, Pending.answer_of_ready ready]
  | overlooks stage ready unknown =>
    simp [Stage.Shows, stage, Pending.answer_of_ready ready, unknown]
  | idles stage _ _ | breaks stage _ | despairs stage =>
    simp [Stage.Shows, stage, Answers.KnowsOf]

/-- What every move of a poll keeps holds all along it, where each call gets the answer that is
    given. -/
theorem Round.induction_given {P : List Note → Tracker → Prop} (round : Round desk t notes t')
    (given : ∀ i, .asked i ∈ notes → a.Give i) (here : P [] t)
    (watch : ∀ notes t' hash, P notes t' → P notes (t'.watch hash))
    (reorder : ∀ notes t' hashes order, P notes t' → t'.stage = .looking hashes →
      (∀ hash, hash ∈ order ↔ hash ∈ hashes) → P notes { t' with stage := .looking order })
    (move : ∀ {notes t' t'' now room calls event}, P notes t' → (∀ i ∈ calls, a.Give i) →
      (∀ reply, .head reply ∉ calls) → Move desk now room t' calls t'' event →
      P (notes ++ noted calls event) t'') :
    P notes t' := by
  refine round.induction (P := fun notes t' => (∀ i, .asked i ∈ notes → a.Give i) → P notes t')
    (fun _ => here) ?_ ?_ ?_ given
  · exact fun notes t' hash ih given => watch notes t' hash (ih given)
  · exact fun notes t' hashes order ih stage same given =>
      reorder notes t' hashes order (ih given) stage same
  · intro notes t' t'' now room calls event ih no_head moves given
    refine move (ih ?_) ?_ no_head moves
    · exact fun i asked => given i (List.mem_append_left _ asked)
    · exact fun i asked => given i (List.mem_append_right _ (asked_mem_noted.mpr asked))

/-- **All along a poll**, what it has confirmed and what it has still to confirm is what it had to
    confirm where it began. -/
theorem Round.verdict (round : Round desk t notes t') (given : ∀ i, .asked i ∈ notes → a.Give i) :
    (emitted notes).filterMap (·.confirmed?) ++ (t'.stage.verdict a t'.depth).toList =
      (t.stage.verdict a t.depth).toList := by
  refine round.induction_given (P := fun notes t' =>
    (emitted notes).filterMap (·.confirmed?) ++ (t'.stage.verdict a t'.depth).toList =
      (t.stage.verdict a t.depth).toList) given rfl ?_ ?_ ?_
  · intro notes t' hash ih
    rwa [stage_watch, depth_watch]
  · intro notes t' hashes order ih stage _
    rw [← ih, stage]
    rfl
  · intro notes t' t'' now room calls event ih given no_head move
    rw [← ih, ← move.verdict given no_head, emitted_append, emitted_noted, List.filterMap_append,
      List.append_assoc]
    cases event <;> rfl

/-- **All along a poll**, it has emitted `inMempool`, or has still to emit it, exactly where it had
    to emit it where it began. -/
theorem Round.shows (round : Round desk t notes t') (given : ∀ i, .asked i ∈ notes → a.Give i) :
    ((∃ event ∈ emitted notes, event.IsSighting) ∨ t'.stage.Shows a t'.visible) ↔
      t.stage.Shows a t.visible := by
  refine round.induction_given (P := fun notes t' =>
    ((∃ event ∈ emitted notes, event.IsSighting) ∨ t'.stage.Shows a t'.visible) ↔
      t.stage.Shows a t.visible) given (by simp [emitted]) ?_ ?_ ?_
  · intro notes t' hash ih
    rwa [stage_watch, (visible_watch t' hash).1]
  -- Hashes in another order are known to the node where they were.
  · intro notes t' hashes order ih stage same
    rw [← ih, stage]
    simp only [Stage.Shows, Answers.KnowsOf, same]
  · intro notes t' t'' now room calls event ih given no_head move
    rw [← ih, ← move.shows given no_head, emitted_append, emitted_noted]
    simp only [List.mem_append, Option.mem_toList, Option.mem_def, or_and_right, exists_or,
      or_assoc]

/-! ### Whole rounds -/

/-- No step of a poll is left. -/
def Stage.isOver : Stage → Bool
  | .resting | .done | .broken => true
  | _ => false

/-- A whole poll over these hashes in that order, with these answers. -/
structure Poll (desk : Desk σ) (a : Answers) (hashes : List Digest) (t : Tracker)
    (notes : List Note) (t' : Tracker) : Prop where
  begins : ∃ reply, t.stage = .readingHead hashes reply ∧ reply.answer = a.head
  round : Round desk t notes t'
  given : ∀ i, .asked i ∈ notes → a.Give i
  ended : t'.stage.isOver = true

/-- What is confirmed in a whole poll. -/
theorem Poll.confirmed_iff {hashes : List Digest} {receipt : Receipt}
    (poll : Poll desk a hashes t notes t') : .confirmed receipt ∈ emitted notes ↔
      ∃ head, a.head = .ok head ∧ hashes.findSome? (a.deep? t.depth head) = some receipt := by
  obtain ⟨reply, stage, headed⟩ := poll.begins
  have confirmed := poll.round.verdict poll.given
  have nothing : t'.stage.verdict a t'.depth = none := by
    have ended := poll.ended
    cases stage : t'.stage <;> simp_all [Stage.isOver, Stage.verdict]
  rw [nothing, Option.toList_none, List.append_nil, stage, Stage.verdict, headed] at confirmed
  have listed : .confirmed receipt ∈ emitted notes ↔
      receipt ∈ (emitted notes).filterMap (·.confirmed?) := by
    rw [List.mem_filterMap]
    constructor
    · exact fun listed => ⟨_, listed, rfl⟩
    · rintro ⟨event, listed, emits⟩
      cases event <;> cases emits
      exact listed
  rw [listed, confirmed]
  cases a.head <;> simp

/-- When a whole poll emits `inMempool`. -/
theorem Poll.sighted_iff {hashes : List Digest} (poll : Poll desk a hashes t notes t') :
    (∃ hash, .inMempool hash ∈ emitted notes) ↔
      t.visible = false ∧ ∃ head, a.head = .ok head ∧ ∃ hash ∈ hashes, a.Sights head hash := by
  obtain ⟨reply, stage, headed⟩ := poll.begins
  have shown := poll.round.shows poll.given
  have nothing : ¬ t'.stage.Shows a t'.visible := by
    have ended := poll.ended
    cases stage : t'.stage <;> simp_all [Stage.isOver, Stage.Shows]
  have listed : (∃ hash, .inMempool hash ∈ emitted notes) ↔
      ∃ event ∈ emitted notes, event.IsSighting := by
    constructor
    · exact fun ⟨hash, listed⟩ => ⟨_, listed, trivial⟩
    · rintro ⟨event, listed, emits⟩
      cases event <;> cases emits
      exact ⟨_, listed⟩
  rw [or_iff_left nothing, stage, Stage.Shows, headed] at shown
  rw [listed, shown]
  cases a.head <;> simp

/-! ### Rounds come to an end -/

/-- The reply that the tracker waits for arrives at some time. -/
def Stage.Comes : Stage → Prop
  | .readingHead _ reply => reply.due.isSome = true
  | .asking _ _ _ _ reply => reply.due.isSome = true
  | .lookingAt _ _ reply => reply.due.isSome = true
  | _ => True

/-- A poll is begun only where the last one is over. -/
theorem Move.quiet (move : Move desk now room t calls t' event) (within : t.stage ≠ .resting) :
    ∀ reply, .head reply ∉ calls := by
  cases move with
  | begins stage _ _ => exact absurd stage within
  | _ => simp

/-- A move within a poll waits only for replies that arrive, and gets the answers that are given. -/
theorem Move.comes (move : Move desk now room t calls t' event)
    (no_head : ∀ reply, .head reply ∉ calls) (comes : t.stage.Comes)
    (gives : desk.chain.Gives a) : t'.stage.Comes ∧ ∀ i ∈ calls, a.Give i := by
  cases move with
  | begins _ _ _ => simp at no_head
  | @asks _ _ hash _ _ stage genuine =>
    obtain ⟨now, outside, rfl⟩ := genuine
    have given := gives.receipt hash now outside
    exact ⟨given.2, by simp [Answers.Give, given.1]⟩
  | @looks hash _ _ stage genuine =>
    obtain ⟨now, outside, rfl⟩ := genuine
    have given := gives.knows hash now outside
    exact ⟨given.2, by simp [Answers.Give, given.1]⟩
  | comesRound stage => exact ⟨by cases t.visible <;> trivial, by simp⟩
  | sights stage _ _ | mines stage _ _ _ => exact ⟨trivial, by simp⟩
  | idles stage _ _ => exact ⟨comes, by simp⟩
  | _ => exact ⟨trivial, by simp⟩

/-- So does a whole poll. -/
theorem Round.comes (round : Round desk t notes t') (comes : t.stage.Comes)
    (gives : desk.chain.Gives a) : t'.stage.Comes ∧ ∀ i, .asked i ∈ notes → a.Give i := by
  refine round.induction
    (P := fun notes t' => t'.stage.Comes ∧ ∀ i, .asked i ∈ notes → a.Give i)
    ⟨comes, by simp⟩ ?_ ?_ ?_
  · intro notes t' hash ih
    rwa [stage_watch]
  · exact fun notes t' hashes order ih _ _ => ⟨trivial, ih.2⟩
  · intro notes t' t'' now room calls event ih no_head move
    obtain ⟨comes', given⟩ := move.comes no_head ih.1 gives
    refine ⟨comes', fun i asked => ?_⟩
    rcases List.mem_append.mp asked with old | new
    · exact ih.2 i old
    · exact given i (asked_mem_noted.mp new)

/-- A tracker within a poll can make a step at some moment. -/
theorem exists_step_of_comes (going : t.stage.isOver = false) (comes : t.stage.Comes)
    (chain : Chain σ) (outside : σ) : ∃ now, t.step chain now true outside ≠ none := by
  -- A stage that awaits a reply steps when it is due, every other one at once.
  have ready {α : Type} {reply : Pending α} (due : reply.due.isSome = true) :
      ∃ now, reply.ready? now = some reply.answer := by
    obtain ⟨now, due⟩ := Option.isSome_iff_exists.mp due
    exact ⟨now, by simp [Pending.ready?, due]⟩
  cases stage : t.stage with
  | resting | done | broken => simp [stage, Stage.isOver] at going
  | found | sighted => exact ⟨0, step_of_sighting (by rw [stage]; rfl)⟩
  | next head unseen rest => exact ⟨0, by cases rest <;> simp [step, stage, inside, silent]⟩
  | looking hashes => exact ⟨0, by cases hashes <;> simp [step, stage, inside, silent]⟩
  | absent head unseen hash rest =>
    refine ⟨0, ?_⟩
    simp only [step, stage, atAbsence, emit, if_true]
    split <;> simp [inside, silent]
  | readingHead hashes reply =>
    rw [stage] at comes
    obtain ⟨now, ready⟩ := ready comes
    refine ⟨now, ?_⟩
    simp only [step, stage, ready]
    cases reply.answer <;> simp [inside, silent]
  | asking head unseen hash rest reply =>
    rw [stage] at comes
    obtain ⟨now, ready⟩ := ready comes
    refine ⟨now, ?_⟩
    simp only [step, stage, ready]
    split
    next none => cases none
    next => simp [inside, silent]
    next => split <;> simp [inside, silent]
  | lookingAt hash rest reply =>
    rw [stage] at comes
    obtain ⟨now, ready⟩ := ready comes
    refine ⟨now, ?_⟩
    simp only [step, stage, ready]
    split
    next none => cases none
    all_goals simp [inside, silent]

/-- **A poll comes to its end** where the node answers. -/
theorem Round.completes (gives : desk.chain.Gives a) (outside : σ) (comes : t.stage.Comes) :
    ∃ notes t', Round desk t notes t' ∧ t'.stage.isOver = true := by
  -- Every step leaves less of the poll.
  induction left : t.left using Nat.strongRecOn generalizing t with
  | ind n ih =>
    subst left
    cases ended : t.stage.isOver with
    | true => exact ⟨[], t, .here desk t, ended⟩
    | false =>
      have within : t.stage ≠ .resting := by
        intro resting
        simp [resting, Stage.isOver] at ended
      obtain ⟨now, moves⟩ :=
        exists_step_of_comes ended comes desk.chain.noted (outside, ([] : List Inquiry))
      obtain ⟨⟨t', event, outside', calls⟩, step⟩ := Option.ne_none_iff_exists'.mp moves
      obtain ⟨_, rfl, move⟩ := move_of_step step
      have no_head := move.quiet within
      obtain ⟨later, t'', round, ended'⟩ :=
        ih t'.left (move.left_lt_within within).2.2 (move.comes no_head comes gives).1 rfl
      have first : Round desk t (noted calls event) t' :=
        ⟨by simpa using Trace.here.step step, fun reply asked =>
          no_head reply (asked_mem_noted.mp asked)⟩
      exact ⟨noted calls event ++ later, t'', first.trans round, ended'⟩

/-! ### The decision -/

/-- **What a poll decides.**  The hashes are looked up in order under the head that was read, and
    whatever the tracker has noted before:
    * from every point of the poll it comes to its end, where the node answers;
    * it confirms the receipt of the first hash whose block is deep enough, where the head reading
      did not fail, and nothing else;
    * it confirms something exactly where one of the hashes is deep enough;
    * where `visible` was not set before, it emits `inMempool` exactly where the head reading did
      not fail and a hash is in a block, or was looked up without one but is known to the node, in
      whatever order the node is asked for the latter;
    * two trackers with the same hashes, depth and answers confirm the same. -/
theorem decides {hashes : List Digest} {reply : Pending (Except Failure Nat)}
    (reading : t.stage = .readingHead hashes reply) (headed : reply.answer = a.head) :
    (∀ desk : Desk σ, desk.chain.Gives a → reply.due.isSome = true → Nonempty σ →
      ∀ notes t', Round desk t notes t' →
        ∃ later t'', Poll desk a hashes t (notes ++ later) t'') ∧
    ∀ (desk : Desk σ) (notes : List Note) (t' : Tracker), Poll desk a hashes t notes t' →
      (∀ receipt, .confirmed receipt ∈ emitted notes ↔
        ∃ head before hash after, a.head = .ok head ∧ hashes = before ++ hash :: after ∧
          a.deep? t.depth head hash = some receipt ∧
          ∀ earlier ∈ before, a.deep? t.depth head earlier = none) ∧
      ((∃ receipt, .confirmed receipt ∈ emitted notes) ↔
        ∃ head, a.head = .ok head ∧ ∃ hash ∈ hashes, ∃ answer block,
          a.receipt hash = .ok (some answer) ∧ answer.block = some block ∧
            t.depth ≤ head - block) ∧
      (∀ head, a.head = .ok head → t.visible = false →
        ((∃ hash, .inMempool hash ∈ emitted notes) ↔ ∃ hash ∈ hashes,
          (∃ answer block, a.receipt hash = .ok (some answer) ∧ answer.block = some block) ∨
          ∃ answer, a.receipt hash = .ok answer ∧ answer.bind (·.block) = none ∧
            a.knows hash = .ok true)) ∧
      ∀ (desk' : Desk σ) (other : Tracker) (notes' : List Note) (other' : Tracker),
        Poll desk' a hashes other notes' other' → other.depth = t.depth →
          ∀ receipt, .confirmed receipt ∈ emitted notes' ↔ .confirmed receipt ∈ emitted notes := by
  refine ⟨?_, fun desk notes t' poll => ⟨?_, ?_, ?_, ?_⟩⟩
  · rintro desk gives due ⟨outside⟩ notes t' round
    obtain ⟨comes, -⟩ := round.comes (by rwa [reading]) gives
    obtain ⟨later, t'', onward, ended⟩ := Round.completes gives outside comes
    have whole := round.trans onward
    exact ⟨later, t'', ⟨reply, reading, headed⟩, whole,
      (whole.comes (by rwa [reading]) gives).2, ended⟩
  · intro receipt
    simp only [poll.confirmed_iff, List.findSome?_eq_some_iff]
    constructor
    · rintro ⟨head, ok, before, hash, after, split, first⟩
      exact ⟨head, before, hash, after, ok, split, first⟩
    · rintro ⟨head, before, hash, after, ok, split, first⟩
      exact ⟨head, ok, before, hash, after, split, first⟩
  · -- Whether any hash is deep does not depend on the order; which is confirmed does.
    have some_deep (head : Nat) :
        (∃ receipt, hashes.findSome? (a.deep? t.depth head) = some receipt) ↔
          ∃ hash ∈ hashes, (a.deep? t.depth head hash).isSome = true := by
      rw [← Option.isSome_iff_exists, List.findSome?_isSome_iff]
    simp only [poll.confirmed_iff, ← Answers.deep?_isSome, ← some_deep]
    exact exists_comm.trans (exists_congr fun head => exists_and_left)
  · intro head ok unseen
    rw [poll.sighted_iff]
    simp [ok, unseen, Answers.sights_iff]
  · intro desk' other notes' other' poll' depth receipt
    rw [poll'.confirmed_iff, poll.confirmed_iff, depth]

/-- Of two hashes that are both ten blocks deep the first one is confirmed, and `inMempool` is
    emitted. -/
theorem decides_first :
    let hashes : List Digest := [.repeated 1, .repeated 2]
    let a : Answers := ⟨.ok 110, fun hash => .ok (some (.prompt hash)), fun _ => .ok true⟩
    let t : Tracker :=
      ⟨10, ⟨1, 1⟩, hashes, [], false, .readingHead hashes (.immediate 0 (.ok 110))⟩
    ∃ notes t', Poll (Desk.prompt (.repeated 1) Transaction.payload) a hashes t notes t' ∧
      .confirmed ⟨.repeated 1, 100, none, true, none, none, 10⟩ ∈ emitted notes ∧
      ∃ hash, .inMempool hash ∈ emitted notes := by
  intro hashes a t
  have reading : t.stage = .readingHead hashes (.immediate 0 (.ok 110)) := rfl
  obtain ⟨completes, decided⟩ := decides (σ := Unit) (a := a) reading rfl
  obtain ⟨notes, t', poll⟩ := completes (Desk.prompt (.repeated 1) Transaction.payload)
    ⟨fun _ _ _ => ⟨rfl, rfl⟩, fun _ _ _ => ⟨rfl, rfl⟩⟩ rfl ⟨()⟩ [] t (.here _ t)
  obtain ⟨confirmed, -, sighted, -⟩ := decided _ _ _ poll
  refine ⟨_, t', poll, ?_, ?_⟩
  · exact (confirmed _).mpr ⟨110, [], .repeated 1, [.repeated 2], rfl, rfl, rfl, by simp⟩
  · exact (sighted 110 rfl rfl).mpr
      ⟨.repeated 1, List.mem_cons_self, .inl ⟨.prompt (.repeated 1), 100, rfl, rfl⟩⟩

end Tracker

end Relayer
