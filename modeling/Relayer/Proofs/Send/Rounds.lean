import Relayer.Proofs.Send.Trail

namespace Relayer

/-!
# Rounds — what one step of the tracker can be

A poll of the tracker reads the head, looks up the receipt of every watched hash under it, and asks
the node for those without receipt while none is `visible`.  This file says once what a single step
does, so that no later proof opens `Tracker.step`.

* `Tracker.Move` — the steps, each with its condition, the calls it makes and the event it emits;
* `Tracker.move_of_step` — there are no others.
-/

variable {σ : Type}

namespace Tracker

/-- What one step of the tracker can be, with the calls it makes and the event it emits.  `room`
    says whether the channel takes an event now. -/
inductive Move (desk : Desk σ) (now : Nat) (room : Bool) (t : Tracker) :
    List Inquiry → Tracker → Option TrackerEvent → Prop where
  /-- The ticker has no period: the tracker stops. -/
  | breaks (stage : t.stage = .resting) (period : t.ticker.period = 0) :
      Move desk now room t [] { t with stage := .broken } none
  /-- A tick is due while no hash is watched. -/
  | idles {ticker} (stage : t.stage = .resting) (due : t.ticker.tick? now = some ticker)
      (watched : t.watched = []) :
      Move desk now room t [] { t with ticker } none
  /-- A tick is due and a poll begins: the head is asked for. -/
  | begins {ticker reply} (stage : t.stage = .resting) (due : t.ticker.tick? now = some ticker)
      (genuine : (Inquiry.head reply).Genuine desk) :
      Move desk now room t [.head reply] { t with ticker, stage := .readingHead t.watched reply }
        none
  | heads {hashes reply head} (stage : t.stage = .readingHead hashes reply)
      (ready : reply.ready? now = some (.ok head)) :
      Move desk now room t [] { t with stage := .next head [] hashes } none
  /-- The head reading fails, which skips the poll. -/
  | loses {hashes reply f} (stage : t.stage = .readingHead hashes reply)
      (ready : reply.ready? now = some (.error f)) :
      Move desk now room t [] { t with stage := .resting } none
  | asks {head unseen hash rest reply} (stage : t.stage = .next head unseen (hash :: rest))
      (genuine : (Inquiry.receipt hash reply).Genuine desk) :
      Move desk now room t [.receipt hash reply]
        { t with stage := .asking head unseen hash rest reply } none
  /-- The receipts of all hashes were looked up. -/
  | comesRound {head unseen} (stage : t.stage = .next head unseen []) :
      Move desk now room t []
        { t with stage := if t.visible then .resting else .looking unseen } none
  /-- A receipt lookup fails, which skips the hash. -/
  | skips {head unseen hash rest reply f} (stage : t.stage = .asking head unseen hash rest reply)
      (ready : reply.ready? now = some (.error f)) :
      Move desk now room t [] { t with stage := .next head unseen rest } none
  | finds {head unseen hash rest reply answer receipt}
      (stage : t.stage = .asking head unseen hash rest reply)
      (ready : reply.ready? now = some (.ok answer))
      (found : answer.bind (Receipt.ofChain? · head) = some receipt) :
      Move desk now room t [] { t with stage := .found head unseen hash receipt rest } none
  | misses {head unseen hash rest reply answer}
      (stage : t.stage = .asking head unseen hash rest reply)
      (ready : reply.ready? now = some (.ok answer))
      (missing : answer.bind (Receipt.ofChain? · head) = none) :
      Move desk now room t [] { t with stage := .absent head unseen hash rest } none
  /-- The first watched hash to be seen at all has a receipt: `inMempool` is emitted. -/
  | sights {head unseen hash receipt rest}
      (stage : t.stage = .found head unseen hash receipt rest) (free : room = true)
      (unknown : t.visible = false) :
      Move desk now room t []
        { t with visible := true, stage := .found head unseen hash receipt rest }
        (some (.inMempool hash))
  | mines {head unseen hash receipt rest}
      (stage : t.stage = .found head unseen hash receipt rest) (free : room = true)
      (known : t.visible = true) (news : t.minedIn? hash ≠ some receipt.block) :
      Move desk now room t []
        { t.noteMined hash receipt.block with stage := .found head unseen hash receipt rest }
        (some (.mined hash receipt.block))
  | confirms {head unseen hash receipt rest}
      (stage : t.stage = .found head unseen hash receipt rest) (free : room = true)
      (known : t.visible = true) (old : t.minedIn? hash = some receipt.block)
      (deep : t.depth ≤ receipt.confirmations) :
      Move desk now room t [] { t with stage := .done } (some (.confirmed receipt))
  | passes {head unseen hash receipt rest}
      (stage : t.stage = .found head unseen hash receipt rest)
      (known : t.visible = true) (old : t.minedIn? hash = some receipt.block)
      (shallow : ¬ t.depth ≤ receipt.confirmations) :
      Move desk now room t [] { t with stage := .next head unseen rest } none
  | forgets {head unseen hash rest} (stage : t.stage = .absent head unseen hash rest)
      (free : room = true) (old : (t.minedIn? hash).isSome = true) :
      Move desk now room t []
        { t.forget hash with stage := .next head (unseen ++ [hash]) rest } (some (.reorged hash))
  | lacks {head unseen hash rest} (stage : t.stage = .absent head unseen hash rest)
      (news : (t.minedIn? hash).isSome = false) :
      Move desk now room t [] { t with stage := .next head (unseen ++ [hash]) rest } none
  /-- The node knows none of the hashes without receipt. -/
  | despairs (stage : t.stage = .looking []) :
      Move desk now room t [] { t with stage := .resting } none
  | looks {hash rest reply} (stage : t.stage = .looking (hash :: rest))
      (genuine : (Inquiry.knows hash reply).Genuine desk) :
      Move desk now room t [.knows hash reply] { t with stage := .lookingAt hash rest reply } none
  | spots {hash rest reply} (stage : t.stage = .lookingAt hash rest reply)
      (ready : reply.ready? now = some (.ok true)) :
      Move desk now room t [] { t with stage := .sighted hash } none
  | overlooks {hash rest reply answer} (stage : t.stage = .lookingAt hash rest reply)
      (ready : reply.ready? now = some answer) (unknown : answer ≠ .ok true) :
      Move desk now room t [] { t with stage := .looking rest } none
  | announces {hash} (stage : t.stage = .sighted hash) (free : room = true) :
      Move desk now room t [] { t with visible := true, stage := .resting }
        (some (.inMempool hash))

/-- A step of `atReceipt` is one of four moves. -/
theorem move_of_atReceipt {desk : Desk σ} {now : Nat} {room : Bool} {t t' : Tracker}
    {event : Option TrackerEvent} {head : Nat} {unseen rest : List Digest} {hash : Digest}
    {receipt : Receipt} (stage : t.stage = .found head unseen hash receipt rest)
    (h : t.atReceipt room head unseen hash receipt rest = some (t', event)) :
    Move desk now room t [] t' event := by
  simp only [atReceipt] at h
  split at h
  next unknown =>
    obtain ⟨free, rfl, rfl⟩ : room = true ∧ _ ∧ _ := by simpa [emit] using h
    exact .sights stage free (by simpa using unknown)
  next known =>
    replace known : t.visible = true := by simpa using known
    split at h
    next news =>
      obtain ⟨free, rfl, rfl⟩ : room = true ∧ _ ∧ _ := by simpa [emit] using h
      exact .mines stage free known news
    next old =>
      replace old : t.minedIn? hash = some receipt.block := by simpa using old
      split at h
      next deep =>
        obtain ⟨free, rfl, rfl⟩ : room = true ∧ _ ∧ _ := by simpa [emit] using h
        exact .confirms stage free known old deep
      next shallow =>
        obtain ⟨rfl, rfl⟩ : _ ∧ _ := by simpa [silent] using h
        exact .passes stage known old shallow

/-- A step of `atAbsence` is one of two moves. -/
theorem move_of_atAbsence {desk : Desk σ} {now : Nat} {room : Bool} {t t' : Tracker}
    {event : Option TrackerEvent} {head : Nat} {unseen rest : List Digest} {hash : Digest}
    (stage : t.stage = .absent head unseen hash rest)
    (h : t.atAbsence room head unseen hash rest = some (t', event)) :
    Move desk now room t [] t' event := by
  simp only [atAbsence] at h
  split at h
  next old =>
    obtain ⟨free, rfl, rfl⟩ : room = true ∧ _ ∧ _ := by simpa [emit] using h
    exact .forgets stage free old
  next news =>
    obtain ⟨rfl, rfl⟩ : _ ∧ _ := by simpa [silent] using h
    exact .lacks stage (by simpa using news)

/-- A step that makes no call leaves the outside alone. -/
theorem inside_eq_some {α : Type} {outside outside' : α} {t' : Tracker}
    {event : Option TrackerEvent} {r : Option (Tracker × Option TrackerEvent)} :
    inside outside r = some (t', event, outside') ↔ r = some (t', event) ∧ outside = outside' := by
  cases r <;> simp [inside, Prod.ext_iff, and_assoc]

/-- **Every step of the tracker is a move**, and its calls are appended to the log. -/
theorem move_of_step {desk : Desk σ} {now : Nat} {room : Bool} {t t' : Tracker}
    {event : Option TrackerEvent} {outside outside' : σ} {log log' : List Inquiry}
    (h : t.step desk.chain.noted now room (outside, log) = some (t', event, outside', log')) :
    ∃ calls, log' = log ++ calls ∧ Move desk now room t calls t' event := by
  unfold step at h
  -- Where the tracker is decides what it can do, and what it asks is known from there.
  cases stage : t.stage with
  | resting =>
    simp only [stage] at h
    split at h
    next period =>
      obtain ⟨⟨rfl, rfl⟩, rfl, rfl⟩ := by simpa [inside_eq_some, silent] using h
      exact ⟨[], by simp, .breaks stage period⟩
    next =>
      cases due : t.ticker.tick? now with
      | none => simp [due] at h
      | some ticker =>
        simp only [due] at h
        split at h
        next watched =>
          obtain ⟨rfl, rfl, rfl, rfl⟩ := by simpa using h
          refine ⟨[], by simp, ?_⟩
          rw [← stage]
          exact .idles stage due (by simpa using watched)
        next =>
          obtain ⟨⟨rfl, rfl⟩, rfl, rfl⟩ := by
            simpa [inside_eq_some, silent, Chain.noted, Call.Effect.noted] using h
          exact ⟨_, rfl, .begins stage due ⟨now, outside, rfl⟩⟩
  | readingHead hashes reply =>
    simp only [stage] at h
    split at h
    · cases h
    next head ready =>
      obtain ⟨⟨rfl, rfl⟩, rfl, rfl⟩ := by simpa [inside_eq_some, silent] using h
      exact ⟨[], by simp, .heads stage ready⟩
    next f ready =>
      obtain ⟨⟨rfl, rfl⟩, rfl, rfl⟩ := by simpa [inside_eq_some, silent] using h
      exact ⟨[], by simp, .loses stage ready⟩
  | next head unseen rest =>
    cases rest with
    | cons hash rest =>
      simp only [stage] at h
      obtain ⟨⟨rfl, rfl⟩, rfl, rfl⟩ := by
        simpa [inside_eq_some, silent, Chain.noted, Call.Effect.noted] using h
      exact ⟨_, rfl, .asks stage ⟨now, outside, rfl⟩⟩
    | nil =>
      simp only [stage] at h
      obtain ⟨⟨rfl, rfl⟩, rfl, rfl⟩ := by simpa [inside_eq_some, silent] using h
      exact ⟨[], by simp, .comesRound stage⟩
  | asking head unseen hash rest reply =>
    simp only [stage] at h
    split at h
    · cases h
    next f ready =>
      obtain ⟨⟨rfl, rfl⟩, rfl, rfl⟩ := by simpa [inside_eq_some, silent] using h
      exact ⟨[], by simp, .skips stage ready⟩
    next answer ready =>
      split at h
      next receipt found =>
        obtain ⟨⟨rfl, rfl⟩, rfl, rfl⟩ := by simpa [inside_eq_some, silent] using h
        exact ⟨[], by simp, .finds stage ready found⟩
      next missing =>
        obtain ⟨⟨rfl, rfl⟩, rfl, rfl⟩ := by simpa [inside_eq_some, silent] using h
        exact ⟨[], by simp, .misses stage ready missing⟩
  | found head unseen hash receipt rest =>
    simp only [stage] at h
    obtain ⟨emitted, same⟩ := inside_eq_some.mp h
    obtain ⟨rfl, rfl⟩ := Prod.mk.inj same
    exact ⟨[], by simp, move_of_atReceipt stage emitted⟩
  | absent head unseen hash rest =>
    simp only [stage] at h
    obtain ⟨emitted, same⟩ := inside_eq_some.mp h
    obtain ⟨rfl, rfl⟩ := Prod.mk.inj same
    exact ⟨[], by simp, move_of_atAbsence stage emitted⟩
  | looking hashes =>
    cases hashes with
    | nil =>
      simp only [stage] at h
      obtain ⟨⟨rfl, rfl⟩, rfl, rfl⟩ := by simpa [inside_eq_some, silent] using h
      exact ⟨[], by simp, .despairs stage⟩
    | cons hash rest =>
      simp only [stage] at h
      obtain ⟨⟨rfl, rfl⟩, rfl, rfl⟩ := by
        simpa [inside_eq_some, silent, Chain.noted, Call.Effect.noted] using h
      exact ⟨_, rfl, .looks stage ⟨now, outside, rfl⟩⟩
  | lookingAt hash rest reply =>
    simp only [stage] at h
    split at h
    · cases h
    next ready =>
      obtain ⟨⟨rfl, rfl⟩, rfl, rfl⟩ := by simpa [inside_eq_some, silent] using h
      exact ⟨[], by simp, .spots stage ready⟩
    next answer unknown ready =>
      obtain ⟨⟨rfl, rfl⟩, rfl, rfl⟩ := by simpa [inside_eq_some, silent] using h
      exact ⟨[], by simp, .overlooks stage ready unknown⟩
  | sighted hash =>
    simp only [stage] at h
    obtain ⟨⟨free, rfl, rfl⟩, rfl, rfl⟩ := by simpa [inside_eq_some, emit] using h
    exact ⟨[], by simp, .announces stage free⟩
  | done | broken =>
    simp only [stage] at h
    cases h

end Tracker

end Relayer
