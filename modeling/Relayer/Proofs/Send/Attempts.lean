import Relayer.Proofs.Send.Ticks

namespace Relayer

/-!
# Attempts — one signature a resubmission tick, until the ceiling is accepted

A resubmission tick asks for a suggestion and then has one candidate signed, even at the bid of the
last one.  There is one exception: the bid is the ceiling, and was accepted.  Answers come late and
in any order, so it has to be this very bid that was accepted, not a lower one.

* `FoldedAnswer.accepts` — an answer that accepts a broadcast;
* `Escalation.Reckoned` — `book.accepted` against the answers that were folded;
* `Escalation.Reckoned.bid_kept` — nothing is signed where the ceiling was accepted;
* `Escalation.Attempted` — what has come of a resubmission tick so far;
* `Send.Tally.Final` — the current bid is the ceiling, and was accepted;
* `Send.Tally.attempts` — what comes of every tick, and that nothing more is signed or published
  once the bid is final.
-/

variable {σ : Type}

/-- The signature that is asked for, if one is. -/
def Inquiry.signed? : Inquiry → Option (Pending (Except Stop (List UInt8)))
  | .sign _ _ reply => some reply
  | _ => none

/-- The signature that is shown to be asked for, if one is. -/
def Send.Event.signed? : Send.Event → Option (Pending (Except Stop (List UInt8)))
  | .asked i => i.signed?
  | _ => none

/-- The signatures that were asked for, the oldest first, with their replies. -/
def Send.signed (trail : List Send.Event) : List (Pending (Except Stop (List UInt8))) :=
  trail.filterMap (·.signed?)

/-- A step asks for the signatures among its calls. -/
theorem Send.signed_append_shown (trail : List Send.Event) (s : Send) (calls : List Inquiry)
    (out : Send.Outcome) :
    signed (trail ++ s.shown calls out) = signed trail ++ calls.filterMap (·.signed?) := by
  cases out <;>
    simp [signed, shown, Event.signed?, List.filterMap_map, List.filterMap_none]

/-- Calls among which there is no signature have none. -/
theorem Inquiry.filterMap_signed? {calls : List Inquiry}
    (none : ∀ id t reply, .sign id t reply ∉ calls) : calls.filterMap (·.signed?) = [] := by
  rw [List.filterMap_eq_nil_iff]
  intro i asked
  cases i with
  | sign id t reply => exact absurd asked (none id t reply)
  | _ => rfl

/-! ### What was taken -/

/-- Whether the answer accepts the broadcast: `accepted` or `alreadyKnown`. -/
def Verdict.accepts : Verdict → Bool
  | .accepted | .rejected .alreadyKnown => true
  | _ => false

/-- Whether the answer accepts the broadcast. -/
def FoldedAnswer.accepts (w : FoldedAnswer) : Bool := w.answer.verdict.accepts

/-- **What an answer does to `accepted`.** -/
theorem Book.fold_accepted {policy : Policy} {nonce : UInt64} {b b' : Book} {bid : Amount}
    {verdict : Verdict} (h : b.fold policy nonce bid verdict = .ok b') :
    b'.accepted = if verdict.accepts then (b.noteAccepted bid).accepted else b.accepted := by
  unfold fold at h
  cases verdict with
  | accepted | lost =>
    cases h
    rfl
  | rejected f =>
    cases f
    case nonceTooLow =>
      simp only at h
      split at h
      next =>
        split at h
        next => cases h
        next =>
          cases h
          rfl
      next =>
        cases h
        rfl
    case underpriced =>
      simp only at h
      split at h
      next => cases h
      next =>
        cases h
        rfl
    case insufficientFunds => cases h
    all_goals
      cases h
      rfl

/-- `accepted` stays as it was, or becomes the new bid. -/
theorem Book.of_noteAccepted {b : Book} {bid top : Amount}
    (h : (b.noteAccepted bid).accepted = some top) : b.accepted = some top ∨ top = bid := by
  cases old : b.accepted with
  | none =>
    obtain rfl : bid = top := by simpa [noteAccepted, old] using h
    exact .inr rfl
  | some before =>
    have value : max before bid = top := by simpa [noteAccepted, old] using h
    have number := congrArg Amount.toNat value
    rw [Amount.toNat_max] at number
    rcases Nat.le_total before.toNat bid.toNat with low | high
    · exact .inr (Amount.ext_toNat (by omega))
    · exact .inl (congrArg some (Amount.ext_toNat (by omega)))

/-- `accepted` is below neither the new bid nor the one before. -/
theorem Book.le_noteAccepted (b : Book) (bid : Amount) :
    ∃ top, (b.noteAccepted bid).accepted = some top ∧ bid ≤ top ∧
      ∀ before, b.accepted = some before → before ≤ top := by
  cases old : b.accepted with
  | none => exact ⟨bid, by simp [noteAccepted, old], Nat.le_refl _, by simp⟩
  | some before =>
    refine ⟨max before bid, by simp [noteAccepted, old], ?_, ?_⟩
    · show bid.toNat ≤ (max before bid).toNat
      rw [Amount.toNat_max]
      exact Nat.le_max_right _ _
    · rintro _ ⟨⟩
      show before.toNat ≤ (max before bid).toNat
      rw [Amount.toNat_max]
      exact Nat.le_max_left _ _

section

variable {policy : Policy} {nonce : UInt64} {b b' : Book} {bid top : Amount} {verdict : Verdict}

/-- An answer leaves the current bid alone. -/
theorem Book.fold_bid (h : b.fold policy nonce bid verdict = .ok b') : b'.bid = b.bid := by
  obtain ⟨_, _, rfl⟩ := fold_ok h
  rfl

/-- `accepted` was so before the answer, or the answer accepts that bid. -/
theorem Book.fold_accepted_source (h : b.fold policy nonce bid verdict = .ok b')
    (known : b'.accepted = some top) :
    b.accepted = some top ∨ verdict.accepts = true ∧ top = bid := by
  rw [fold_accepted h] at known
  by_cases accepts : verdict.accepts = true
  · rw [if_pos accepts] at known
    exact (of_noteAccepted known).imp_right fun same => ⟨accepts, same⟩
  · rw [if_neg accepts] at known
    exact .inl known

/-- `accepted` is not below the one before. -/
theorem Book.fold_accepted_mono {before : Amount} (h : b.fold policy nonce bid verdict = .ok b')
    (earlier : b.accepted = some before) : ∃ top, b'.accepted = some top ∧ before ≤ top := by
  rw [fold_accepted h]
  by_cases accepts : verdict.accepts = true
  · rw [if_pos accepts]
    obtain ⟨top, known, -, atLeast⟩ := b.le_noteAccepted bid
    exact ⟨top, known, atLeast before earlier⟩
  · rw [if_neg accepts]
    exact ⟨before, earlier, Nat.le_refl _⟩

/-- `accepted` is not below a bid that the answer accepts. -/
theorem Book.fold_accepted_of_accepts (h : b.fold policy nonce bid verdict = .ok b')
    (accepts : verdict.accepts = true) : ∃ top, b'.accepted = some top ∧ bid ≤ top := by
  rw [fold_accepted h, if_pos accepts]
  obtain ⟨top, known, above, -⟩ := b.le_noteAccepted bid
  exact ⟨top, known, above⟩

end

/-- An event of the tracker leaves `accepted` alone. -/
theorem Book.received_accepted (b : Book) (event : TrackerEvent) :
    (b.received event).accepted = b.accepted := by
  cases event <;> rfl

namespace Escalation

/-- `accepted` is the highest bid that a folded answer accepts, and not above the current bid.
    While a candidate is being signed, its bid was not accepted before. -/
structure Reckoned (log : List FoldedAnswer) (e : Escalation) : Prop where
  source : ∀ bid, e.book.accepted = some bid →
    ∃ w ∈ log, w.accepts = true ∧ w.answer.bid = bid
  highest : ∀ w ∈ log, w.accepts = true →
    ∃ bid, e.book.accepted = some bid ∧ w.answer.bid ≤ bid
  capped : ∀ w ∈ log, w.answer.bid ≤ e.book.bid
  waiting : ∀ about ∈ e.unhandled, about.1 ≤ e.book.bid
  opening : e.phase = .opening → e.book.accepted = none
  signing : ∀ first reply, e.phase = .signing first reply → e.book.accepted ≠ some e.book.bid

variable {log : List FoldedAnswer} {e e' : Escalation}

/-- `accepted` is not above the current bid. -/
theorem Reckoned.accepted_le (h : Reckoned log e) {bid : Amount}
    (accepted : e.book.accepted = some bid) : bid ≤ e.book.bid := by
  obtain ⟨w, listed, -, rfl⟩ := h.source bid accepted
  exact h.capped w listed

/-- **`accepted` is the current bid** exactly where an answer accepts it. -/
theorem Reckoned.accepted_iff (h : Reckoned log e) : e.book.accepted = some e.book.bid ↔
    ∃ w ∈ log, w.accepts = true ∧ w.answer.bid = e.book.bid := by
  refine ⟨h.source _, ?_⟩
  rintro ⟨w, listed, accepts, same⟩
  obtain ⟨bid, accepted, above⟩ := h.highest w listed accepts
  rw [same] at above
  have below := h.accepted_le accepted
  rw [accepted, Amount.ext_toNat (Nat.le_antisymm below above)]

/-- The first answer to be folded is unhandled, and so were the others. -/
theorem unhandled_of_answered {a : Answer} {rest : List Answer} (answered : e.answered = a :: rest)
    (book : Book) : (a.bid, a.hash) ∈ e.unhandled ∧
      ∀ about ∈ ({ e with answered := rest, book } : Escalation).unhandled,
        about ∈ e.unhandled := by
  refine ⟨by simp [unhandled, answered], fun about waits => ?_⟩
  simp only [unhandled, answered, List.map_cons, List.mem_append, List.mem_cons] at waits ⊢
  exact waits.imp_right .inr

/-- A step that changes neither bid nor answers and signs nothing keeps `Reckoned`. -/
theorem Reckoned.of_quiet (h : Reckoned log e) (bid : e'.book.bid = e.book.bid)
    (accepted : e'.book.accepted = e.book.accepted)
    (unhandled : ∀ about ∈ e'.unhandled, about ∈ e.unhandled)
    (phase : e'.phase = e.phase ∨ e'.phase = .listening ∨ ∃ reply, e'.phase = .pricing reply) :
    Reckoned log e' where
  source := accepted ▸ h.source
  highest := accepted ▸ h.highest
  capped := bid ▸ h.capped
  waiting about waits := bid ▸ h.waiting about (unhandled about waits)
  opening opening := by
    rcases phase with same | listening | ⟨_, pricing⟩
    · exact accepted.trans (h.opening (same ▸ opening))
    · cases listening.symm.trans opening
    · cases pricing.symm.trans opening
  signing first reply signing := by
    rcases phase with same | listening | ⟨_, pricing⟩
    · rw [accepted, bid]
      exact h.signing first reply (same ▸ signing)
    · cases listening.symm.trans signing
    · cases pricing.symm.trans signing

/-- A step of the tracker or the broadcasts keeps `Reckoned`. -/
theorem Reckoned.elsewhere {calls : List Inquiry} (h : Reckoned log e)
    (elsewhere : e.Elsewhere calls e') : Reckoned log e' :=
  h.of_quiet (by rw [elsewhere.book]) (by rw [elsewhere.book]) elsewhere.unhandled
    (.inl elsewhere.phase)

/-- A bid that was not accepted goes to the signer. -/
theorem Reckoned.signs {first : Bool} {reply : Pending (Except Stop (List UInt8))}
    (h : Reckoned log e) (higher : e.book.bid ≤ e'.book.bid)
    (accepted : e'.book.accepted = e.book.accepted) (unhandled : e'.unhandled = e.unhandled)
    (phase : e'.phase = .signing first reply) (untaken : e.book.accepted ≠ some e'.book.bid) :
    Reckoned log e' where
  source := accepted ▸ h.source
  highest := accepted ▸ h.highest
  capped w listed := Nat.le_trans (h.capped w listed) higher
  waiting about waits := Nat.le_trans (h.waiting about (unhandled ▸ waits)) higher
  opening opening := by cases phase.symm.trans opening
  signing _ _ _ := accepted ▸ untaken

/-- The signed candidate has the current bid, and its answer is unhandled. -/
theorem Reckoned.publishes (h : Reckoned log e) (raw : List UInt8) :
    Reckoned log (e.handOut raw) where
  source := h.source
  highest := h.highest
  capped := h.capped
  waiting about waits := by
    have either : about ∈ e.unhandled ∨ about = (e.book.bid, (e.candidate raw).hash) := by
      simp only [Escalation.unhandled, handOut, List.map_append, List.map_cons, List.map_nil,
        Broadcast.about, List.mem_append, List.mem_singleton] at waits ⊢
      tauto
    rcases either with old | rfl
    · exact h.waiting about old
    · exact Nat.le_refl _
  opening opening := by cases opening
  signing _ _ signing := by cases signing

/-- **An answer is folded**: its bid is not above the current one, and where it accepts, `accepted`
    takes it in. -/
theorem Reckoned.folds {policy : Policy} {a : Answer} {rest : List Answer} {book : Book}
    (h : Reckoned log e) (listening : e.phase = .listening) (answered : e.answered = a :: rest)
    (folded : e.book.fold policy e.nonce a.bid a.verdict = .ok book) :
    Reckoned (log ++ [⟨a, e.book.mined⟩]) { e with answered := rest, book } := by
  have bid : book.bid = e.book.bid := Book.fold_bid folded
  obtain ⟨own, others⟩ := unhandled_of_answered answered book
  refine ⟨?source, ?highest, ?capped, ?waiting, ?opening, ?signing⟩
  case source =>
    intro top known
    rcases Book.fold_accepted_source folded known with before | ⟨accepts, rfl⟩
    · obtain ⟨w, listed, rest⟩ := h.source top before
      exact ⟨w, List.mem_append_left _ listed, rest⟩
    · exact ⟨_, List.mem_append_right _ (List.mem_singleton_self _), accepts, rfl⟩
  case highest =>
    intro w listed taken
    rcases List.mem_append.mp listed with old | new
    · -- `accepted` never falls, so an earlier acceptance stays below it.
      obtain ⟨before, earlier, below⟩ := h.highest w old taken
      obtain ⟨top, known, above⟩ := Book.fold_accepted_mono folded earlier
      exact ⟨top, known, Nat.le_trans below above⟩
    · obtain rfl := List.mem_singleton.mp new
      exact Book.fold_accepted_of_accepts folded taken
  case capped =>
    intro w listed
    show w.answer.bid ≤ book.bid
    rw [bid]
    rcases List.mem_append.mp listed with old | new
    · exact h.capped w old
    · obtain rfl := List.mem_singleton.mp new
      exact h.waiting _ own
  case waiting =>
    intro about waits
    show about.1 ≤ book.bid
    rw [bid]
    exact h.waiting about (others about waits)
  case opening =>
    intro opening
    cases listening.symm.trans opening
  case signing =>
    intro first reply signing
    cases listening.symm.trans signing

variable {desk : Desk σ} {limits : Limits} {now : Nat} {outside outside' : σ}
  {calls : List Inquiry}

/-- **A step of the loop keeps `Reckoned`** with the answer that it heeds. -/
theorem Reckoned.loopStep (h : Reckoned log e)
    (own : e.loopStep desk.noted limits now (outside, []) =
      some (.running e', outside', calls)) :
    Reckoned (log ++ (e.heeds limits).toList.map (⟨·, e.book.mined⟩)) e' := by
  cases heeded : e.heeds limits with
  | some a =>
    obtain ⟨rest, answered, folds⟩ :=
      loopStep_of_heeds desk.noted now (outside, ([] : List Inquiry)) heeded
    rw [own, Option.some.injEq, Prod.mk.injEq] at folds
    obtain ⟨folds, -⟩ := folds
    simp only [onBroadcast] at folds
    split at folds
    next book folded =>
      cases folds
      exact h.folds (heeds_eq_some.mp heeded).1 answered folded
    next => cases folds
  | none =>
    rw [Option.toList_none, List.map_nil, List.append_nil]
    by_cases asking : ∃ reply, e.phase = .pricing reply
    · -- What a price leads to depends on what was taken, which a move does not say.
      obtain ⟨reply, asking⟩ := asking
      rcases bids_of_loopStep asking own with ⟨-, ended, -⟩ | ⟨suggested, calls, -, -, -, bids⟩
      · cases ended
      · cases bids with
        | rests _ _ _ => exact h.of_quiet rfl rfl (fun _ waits => waits) (.inr (.inl rfl))
        | repeats _ _ unaccepted => exact h.signs (Nat.le_refl _) rfl rfl rfl unaccepted
        | raises _ next higher =>
          have above := Pricing.le_nextBid next
          refine h.signs above rfl rfl rfl fun taken => higher ?_
          exact Amount.ext_toNat (Nat.le_antisymm (h.accepted_le taken) above)
    · obtain ⟨calls', -, move⟩ := move_of_loopStep own
      cases move with
      | opens phase _ =>
        refine h.signs (Nat.le_refl _) rfl rfl rfl ?_
        simp [h.opening phase]
      | @receives event _ _ _ _ _ =>
        exact h.of_quiet (e.book.received_bid event) (e.book.received_accepted event)
          (fun _ waits => waits) (.inl rfl)
      | folds phase going inbox answered _ =>
        -- An answer goes unheeded only where the tracker has stopped, and that ends the send.
        rw [loopStep_of_closed phase going inbox
          (closed_of_unheeded heeded phase going inbox answered)] at own
        cases own
      | prices _ _ _ _ =>
        exact h.of_quiet rfl rfl (fun _ waits => waits) (.inr (.inr ⟨_, rfl⟩))
      | publishes _ _ => exact h.publishes _
      | defers _ _ _ => exact h.of_quiet rfl rfl (fun _ waits => waits) (.inr (.inl rfl))
      | rests phase _ _ | repeats phase _ _ _ | raises phase _ _ _ _ =>
        exact absurd ⟨_, phase⟩ asking
      | holds _ _ _ => exact h.of_quiet rfl rfl (fun _ waits => waits) (.inl rfl)
      | tracks move => exact h.elsewhere (elsewhere_of_tracks move e.turn)
      | sends outstanding _ => exact h.elsewhere (elsewhere_of_sends outstanding _ e.turn)
      | answers outstanding _ => exact h.elsewhere (elsewhere_of_answers outstanding _ e.turn)

/-- **Every step keeps `Reckoned`** with the answers that it folds. -/
theorem Reckoned.step (h : Reckoned log e)
    (step : e.step desk.noted limits now (outside, []) = some (.running e', outside', calls)) :
    Reckoned (log ++ e.foldedAnswers limits (.running e')) e' := by
  rcases loop_or_elsewhere step with own | ⟨_, _, same, -, turn, elsewhere⟩
  · obtain ⟨calls', -, move⟩ := move_of_loopStep own
    have turned : Reckoned log { e with turn := .loop } :=
      h.of_quiet rfl rfl (fun _ waits => waits) (.inl rfl)
    rw [foldedAnswers, if_pos (show e'.turn = .loop from move.turn_eq)]
    exact turned.loopStep own
  · cases same
    rw [foldedAnswers, if_neg turn, List.append_nil]
    exact h.elsewhere elsewhere

/-! ### Where the highest bid was taken -/

/-- A step of the tracker or the broadcasts signs nothing and hands nothing out. -/
theorem Elsewhere.bid_kept (elsewhere : e.Elsewhere calls e') : e'.book.bid = e.book.bid ∧
    calls.filterMap (·.signed?) = [] ∧ e.handedOut e' = [] :=
  ⟨by rw [elsewhere.book], Inquiry.filterMap_signed? elsewhere.unsigned, elsewhere.handedOut⟩

/-- **A loop whose bid is the ceiling, and was accepted,** keeps the bid, and neither signs nor
    publishes. -/
theorem Reckoned.bid_kept_of_loopStep (h : Reckoned log e)
    (ceiling : desk.policy.pricing.ceiling ≤ e.book.bid)
    (accepted : e.book.accepted = some e.book.bid)
    (own : e.loopStep desk.noted limits now (outside, []) =
      some (.running e', outside', calls)) :
    e'.book.bid = e.book.bid ∧ calls.filterMap (·.signed?) = [] ∧ e.handedOut e' = [] := by
  cases phase : e.phase with
  | opening =>
    -- Nothing was accepted before the first candidate is published.
    rw [h.opening phase] at accepted
    cases accepted
  | signing first reply => exact absurd accepted (h.signing first reply phase)
  | pricing reply =>
    rcases bids_of_loopStep phase own with ⟨-, ended, -⟩ | ⟨suggested, calls, -, -, noted, bids⟩
    · cases ended
    · cases bids with
      | rests _ _ _ =>
        obtain rfl := noted
        exact ⟨rfl, rfl, by simp [handedOut]⟩
      | repeats _ _ unaccepted => exact absurd accepted unaccepted
      | raises _ next higher =>
        -- At the ceiling no price raises the bid.
        exact absurd ((Pricing.nextBid_eq_iff next).mpr ceiling) higher
  | listening =>
    obtain ⟨calls', noted, move⟩ := move_of_loopStep own
    obtain rfl : calls = calls' := noted
    cases move with
    | @receives event _ _ _ _ _ => exact ⟨e.book.received_bid event, rfl, by simp [handedOut]⟩
    | folds _ _ _ _ folded => exact ⟨Book.fold_bid folded, rfl, by simp [handedOut]⟩
    | holds _ _ _ | prices _ _ _ _ => exact ⟨rfl, rfl, by simp [handedOut]⟩
    | opens other _ | rests other _ _ | repeats other _ _ _ | raises other _ _ _ _
    | publishes other _ | defers other _ _ => cases phase.symm.trans other
    | tracks move => exact (elsewhere_of_tracks move e.turn).bid_kept
    | sends outstanding _ => exact (elsewhere_of_sends outstanding _ e.turn).bid_kept
    | answers outstanding _ => exact (elsewhere_of_answers outstanding _ e.turn).bid_kept

/-- The same for any of the three parties. -/
theorem Reckoned.bid_kept (h : Reckoned log e) (ceiling : desk.policy.pricing.ceiling ≤ e.book.bid)
    (accepted : e.book.accepted = some e.book.bid)
    (step : e.step desk.noted limits now (outside, []) = some (.running e', outside', calls)) :
    e'.book.bid = e.book.bid ∧ calls.filterMap (·.signed?) = [] ∧ e.handedOut e' = [] := by
  rcases loop_or_elsewhere step with own | ⟨_, _, same, noted, -, elsewhere⟩
  · have turned : Reckoned log { e with turn := .loop } :=
      h.of_quiet rfl rfl (fun _ waits => waits) (.inl rfl)
    exact turned.bid_kept_of_loopStep ceiling accepted own
  · cases same
    obtain rfl := noted
    exact elsewhere.bid_kept

/-! ### What comes of a round of the timer -/

/-- What has come of a resubmission tick so far, by the phase of the loop: the signatures that were
    asked for, and the candidates that were published.  While the suggestion is under way, the send
    state stays as it was `before`.  Where the bid is the ceiling and was accepted, nothing is
    signed; otherwise one signature is asked for, and what is signed is published. -/
def Attempted (before : Book) (final : Prop) (e : Escalation)
    (signed : List (Pending (Except Stop (List UInt8)))) (published : List Candidate) : Prop :=
  match e.phase with
  | .opening => False
  | .pricing _ => e.book = before ∧ signed = [] ∧ published = []
  | .signing _ reply => ¬ final ∧ signed = [reply] ∧ published = []
  | .listening =>
    (final ∧ signed = [] ∧ published = []) ∨
      (¬ final ∧ ∃ reply, signed = [reply] ∧
        published.map (·.raw) = reply.answer.toOption.toList)

variable {before : Book} {final : Prop} {signed : List (Pending (Except Stop (List UInt8)))}
  {published : List Candidate}

/-- A step of the tracker or the broadcasts adds nothing to it. -/
theorem Attempted.elsewhere (h : Attempted before final e signed published)
    (elsewhere : e.Elsewhere calls e') :
    Attempted before final e' (signed ++ calls.filterMap (·.signed?))
      (published ++ e.handedOut e') := by
  rw [Inquiry.filterMap_signed? elsewhere.unsigned, elsewhere.handedOut, List.append_nil,
    List.append_nil]
  unfold Attempted at h ⊢
  rw [elsewhere.phase, elsewhere.book]
  exact h

/-- **A suggestion decides**: the next bid goes to the signer, unless it is the current one and was
    accepted. -/
theorem Attempted.bids {reply : Pending (Except Failure Amount)}
    (h : Attempted before final e signed published) (phase : e.phase = .pricing reply)
    (decided : final ↔ desk.policy.pricing.ceiling ≤ before.bid ∧
      before.accepted = some before.bid)
    (own : e.loopStep desk.noted limits now (outside, []) =
      some (.running e', outside', calls)) :
    Attempted before final e' (signed ++ calls.filterMap (·.signed?))
      (published ++ e.handedOut e') := by
  rw [Attempted, phase] at h
  obtain ⟨rfl, rfl, rfl⟩ := h
  rcases bids_of_loopStep phase own with ⟨-, ended, -⟩ | ⟨suggested, calls, -, -, noted, bids⟩
  · cases ended
  obtain rfl := noted
  cases bids with
  | rests _ next accepted =>
    -- A price leaves the bid as it is only at the ceiling.
    have ceiling := (Pricing.nextBid_eq_iff next).mp rfl
    exact .inl ⟨decided.mpr ⟨ceiling, accepted⟩, rfl, by simp [handedOut]⟩
  | repeats _ _ unaccepted =>
    exact ⟨fun final => unaccepted (decided.mp final).2, rfl, by simp [handedOut]⟩
  | raises _ next higher =>
    refine ⟨fun final => higher ?_, rfl, by simp [handedOut, raised]⟩
    exact (Pricing.nextBid_eq_iff next).mpr (decided.mp final).1

/-- **A signature is the end of it**: its bytes are published, if there are any. -/
theorem Attempted.signs {first : Bool} {reply : Pending (Except Stop (List UInt8))}
    (h : Attempted before final e signed published) (phase : e.phase = .signing first reply)
    (own : e.loopStep desk.noted limits now (outside, []) =
      some (.running e', outside', calls)) :
    Attempted before final e' (signed ++ calls.filterMap (·.signed?))
      (published ++ e.handedOut e') := by
  rw [Attempted, phase] at h
  obtain ⟨unsettled, rfl, rfl⟩ := h
  simp only [Escalation.loopStep, phase] at own
  split at own
  next => cases own
  next =>
    split at own
    next answer ready =>
      have answered := Pending.answer_of_ready ready
      cases answer with
      | ok raw =>
        -- The bytes that were signed are those of the candidate.
        cases own
        refine .inr ⟨unsettled, reply, rfl, ?_⟩
        show (e.handedOut (e.handOut raw)).map (·.raw) = _
        rw [handedOut_handOut, answered]
        rfl
      | error why =>
        cases why with
        | fault f => cases own
        | failure f =>
          simp only [afterSigning] at own
          split at own
          next =>
            cases own
            exact .inr ⟨unsettled, reply, rfl, by simp [answered, handedOut, Except.toOption]⟩
          next => cases own
    next => cases own

/-- **Every step behind a tick** brings the attempt on or leaves it where it is. -/
theorem Attempted.step (h : Attempted before final e signed published)
    (busy : e.phase ≠ .listening)
    (decided : final ↔ desk.policy.pricing.ceiling ≤ before.bid ∧
      before.accepted = some before.bid)
    (step : e.step desk.noted limits now (outside, []) = some (.running e', outside', calls)) :
    Attempted before final e' (signed ++ calls.filterMap (·.signed?))
      (published ++ e.handedOut e') := by
  rcases loop_or_elsewhere step with own | ⟨_, _, same, noted, -, elsewhere⟩
  · have turned : Attempted before final { e with turn := .loop } signed published := h
    cases phase : e.phase with
    | opening =>
      rw [Attempted, phase] at h
      exact h.elim
    | listening => exact absurd phase busy
    | pricing reply => exact turned.bids phase decided own
    | signing first reply => exact turned.signs phase own
  · cases same
    obtain rfl := noted
    exact h.elsewhere elsewhere

end Escalation

namespace Send

/-- Whether the loop of a send is pricing or signing. -/
def Busy (s : Send) : Prop := ∀ lease e, s.phase = .escalating lease e → e.phase ≠ .listening

variable {desk : Desk σ} {call : Call} {trail shown : List Event} {log : List FoldedAnswer}
  {s s' : Send} {lease : Lease} {e : Escalation} {before : Book} {final : Prop}

/-- **The steps that an `Onward` makes keep the tally.** -/
theorem Onward.tally {going : Send → Prop} (onward : Onward desk going s shown s')
    (tally : Tally desk call trail log s) :
    ∃ later, Tally desk call (trail ++ shown) (log ++ later) s' := by
  induction onward with
  | here => exact ⟨[], by simpa using tally⟩
  | reschedule _ order ih =>
    obtain ⟨later, tally'⟩ := ih
    exact ⟨later, tally'.reschedule order⟩
  | @step shown s' s'' limits now l l' outside outside' calls _ _ step ih =>
    obtain ⟨later, tally'⟩ := ih
    refine ⟨later ++ s'.foldedAnswers limits (.running s''), ?_⟩
    rw [← List.append_assoc, ← List.append_assoc]
    exact tally'.step step

/-- **An attempt is under way** as long as the loop is busy with it. -/
theorem Onward.attempted (phase : s.phase = .escalating lease e)
    (start : e.Attempted before final [] [])
    (decided : final ↔ desk.policy.pricing.ceiling ≤ before.bid ∧
      before.accepted = some before.bid)
    (onward : Onward desk Busy s shown s') :
    ∃ e', s'.phase = .escalating lease e' ∧
      e'.Attempted before final (signed shown) (published shown) := by
  induction onward with
  | here => exact ⟨e, phase, start⟩
  | reschedule _ order ih =>
    obtain ⟨e', phase', attempted⟩ := ih
    obtain ⟨lease, e, turn, outstanding, earlier, -, rfl⟩ := order
    cases phase'.symm.trans earlier
    exact ⟨_, rfl, attempted⟩
  | @step shown s' s'' limits now l l' outside outside' calls _ busy step ih =>
    obtain ⟨e', phase', attempted⟩ := ih
    obtain ⟨e'', rfl, handedOut, inner⟩ := running_of_escalating phase' step
    refine ⟨e'', rfl, ?_⟩
    rw [signed_append_shown, published_append, published_shown, handedOut]
    exact attempted.step (busy lease e' phase') decided inner

/-- Once the suggestion has arrived the loop steps on. -/
theorem steps_of_priced {reply : Pending (Except Failure Amount)} {limits : Limits} {now : Nat}
    (phase : s.phase = .escalating lease e) (asking : e.phase = .pricing reply)
    (ready : (reply.ready? now).isSome = true) (l : Leases) (outside : σ) :
    (s.stepWithin desk limits now l outside).isSome = true := by
  rw [← Option.ne_none_iff_isSome]
  intro idle
  have waits := stepOf_of_idle phase idle .loop
  obtain ⟨suggested, answer⟩ := Option.isSome_iff_exists.mp ready
  simp only [Escalation.stepOf, Escalation.loopStep, asking, answer] at waits
  split at waits <;> cases waits

/-- While the suggestion is under way, only cancellation or arithmetic ends a send. -/
theorem ended_of_pricing {reply : Pending (Except Failure Amount)} {limits : Limits} {now : Nat}
    {l l' : Leases} {outside outside' : σ} {calls : List Inquiry} {result : Except Stop Receipt}
    (phase : s.phase = .escalating lease e) (asking : e.phase = .pricing reply)
    (step : s.stepWithin desk.noted limits now l (outside, []) =
      some (.ended result, l', outside', calls)) :
    limits.cancelled = true ∨ UInt32.size ≤ e.book.attempt + 1 ∨
      Amount.size ≤ e.book.bid.toNat * desk.policy.bumpPercent.toNat := by
  obtain ⟨call, deadline, _⟩ := s
  obtain rfl : _ = Phase.escalating lease e := phase
  rcases step_escalating step with ⟨_, _, running⟩ | ⟨result', inner, -, -⟩
  · cases running
  rcases Escalation.loop_or_elsewhere inner with own | ⟨_, _, running, -, -, -⟩
  · rcases Escalation.bids_of_loopStep (e := { e with turn := .loop }) asking own with
      ⟨cancelled, -, -⟩ | ⟨suggested, calls', -, -, -, bids⟩
    · exact .inl cancelled
    · cases bids with
      | exhausts full => exact .inr (.inl (Nat.le_of_not_lt full))
      | overflows _ next => exact .inr (.inr (Pricing.nextBid_error next))
  · cases running

namespace Errand

variable (x : Errand)

/-- The desk of an errand whose ceiling is its initial bid. -/
def capped : Desk Unit :=
  { x.desk with policy := { Policy.brisk with maxGasPrice := .suggested } }

/-- The escalation whose only candidate was accepted. -/
def settled : Escalation :=
  { x.handedOut with
    book := { Book.opening .suggested with published := 1, accepted := some .suggested }
    outstanding := [] }

/-- The escalation that asks for a suggestion all the same. -/
def asking : Escalation :=
  { x.settled with ticker := ⟨4, 2⟩, phase := .pricing (.immediate 2 (.ok .suggested)) }

/-- The bid stays the ceiling, and goes to no signer. -/
theorem rests :
    (bare.escalating bare.asking).stepWithin bare.capped.noted ⟨false, none⟩ 2 .empty ((), []) =
      some (.running (bare.escalating { bare.settled with ticker := ⟨4, 2⟩ }), .empty, (), []) := by
  have count : countUp UInt32.size bare.asking.book.attempt = .ok 1 := rfl
  have next : bare.capped.noted.policy.pricing.nextBid bare.asking.book.bid 1 .suggested =
      .ok .suggested := by
    show ({ Policy.brisk with maxGasPrice := .suggested } : Policy).pricing.nextBid .suggested 1
      .suggested = .ok .suggested
    decide
  have loop : bare.asking.stepOf bare.capped.noted ⟨false, none⟩ 2 ((), []) bare.asking.turn =
      some (bare.asking.afterPricing bare.capped.noted 2 (.ok .suggested) ((), [])) := rfl
  have decided : bare.asking.afterPricing bare.capped.noted 2 (.ok .suggested) ((), []) =
      (.running { bare.settled with ticker := ⟨4, 2⟩ }, (), []) := by
    simp only [Escalation.afterPricing, count, bind, Except.bind, next, pure, Except.pure]
    rfl
  exact stepWithin_of_turn (loop.trans (congrArg some decided))

/-- The ceiling may be the initial bid, and the first candidate may be accepted. -/
theorem settles : ∃ trail, Run bare.capped bare.call trail (bare.escalating bare.settled) := by
  have start : Stretch bare.capped 0 (start bare.capped.policy bare.call 0) .empty [] _ .empty :=
    .here
  have joins := start.step _ rfl rfl
  have reads := joins.step _ rfl rfl
  have learns := reads.step _ rfl rfl
  have asks := learns.step _ rfl rfl
  have bids := asks.step _ rfl rfl
  have opens := bids.step _ rfl rfl
  have signs := opens.step _ rfl rfl
  have run : Run bare.capped bare.call _ (bare.escalating bare.handedOut) :=
    signs.run (.start 0)
  have turned : Run bare.capped bare.call _
      (bare.escalating { bare.handedOut with turn := .broadcasts }) :=
    run.reschedule ⟨_, _, .broadcasts, _, rfl, .refl _, rfl⟩
  have waits : Stretch bare.capped 0 (bare.escalating { bare.handedOut with turn := .broadcasts })
      .empty [] _ .empty := .here
  have sends := waits.step _ rfl rfl
  have answers := sends.step _ rfl rfl
  have folds := answers.step _ rfl rfl
  exact ⟨_, folds.run turned⟩

end Errand

namespace Tally

/-- Before its escalation a send has folded no answer; then `Reckoned` holds of it. -/
def Reckoned (log : List FoldedAnswer) (s : Send) : Prop :=
  match s.phase with
  | .escalating _ e => e.Reckoned log
  | _ => log = []

/-- **`Reckoned` holds** all along a tally. -/
theorem reckoned (tally : Tally desk call trail log s) : Reckoned log s := by
  induction tally with
  | start now => rfl
  | reschedule _ order ih =>
    obtain ⟨lease, e, turn, outstanding, phase, perm, rfl⟩ := order
    rw [Reckoned, phase] at ih
    refine ih.of_quiet rfl rfl (fun about waits => ?_) (.inl rfl)
    simp only [Escalation.unhandled, List.mem_append] at waits ⊢
    exact waits.imp_left fun out => (perm.map _).mem_iff.mp out
  | @step trail log s s' limits now l l' outside outside' calls _ step ih =>
    rcases s.early_or_escalating with early | ⟨lease, e, phase⟩
    · have nothing : log = [] := by
        unfold Reckoned at ih
        split at ih
        next lease e phase => exact absurd phase (early lease e)
        next => exact ih
      rw [foldedAnswers_of_early early, nothing, List.append_nil]
      cases move_of_noted step with
      | bids _ _ first =>
        obtain ⟨bid, -, rfl⟩ := firstBid_ok first
        exact ⟨by simp [Book.opening], by simp, by simp, by simp [Escalation.unhandled],
          fun _ => rfl, by simp⟩
      | inherits _ _ _ | learns _ _ =>
        cases own : s.call.gasLimit <;> simp [Reckoned, afterLease, own]
      | escalates phase _ => exact absurd phase (early _ _)
      | _ => rfl
    · obtain ⟨e', rfl, -, inner⟩ := running_of_escalating phase step
      rw [Reckoned, phase] at ih
      simp only [foldedAnswers, phase]
      exact ih.step inner

/-- The current bid is the ceiling, and a folded answer accepts this very bid. -/
def Final (policy : Policy) (log : List FoldedAnswer) (e : Escalation) : Prop :=
  policy.maxGasPrice ≤ e.book.bid ∧ ∃ w ∈ log, w.accepts = true ∧ w.answer.bid = e.book.bid

/-- The bid is final exactly where it is the ceiling and `accepted = some bid`. -/
theorem final_iff (tally : Tally desk call trail log s) (phase : s.phase = .escalating lease e) :
    Final desk.policy log e ↔
      desk.policy.pricing.ceiling ≤ e.book.bid ∧ e.book.accepted = some e.book.bid := by
  have reckoned := tally.reckoned
  rw [Reckoned, phase] at reckoned
  exact and_congr_right fun _ => reckoned.accepted_iff.symm

/-- **A final bid stays**, and a send that has one neither signs nor publishes on its way. -/
theorem silent_of_final {going : Send → Prop} (tally : Tally desk call trail log s)
    (phase : s.phase = .escalating lease e) (final : Final desk.policy log e)
    (onward : Onward desk going s shown s') :
    (∃ e', s'.phase = .escalating lease e' ∧ e'.book.bid = e.book.bid) ∧
      signed shown = [] ∧ published shown = [] := by
  induction onward with
  | here => exact ⟨⟨e, phase, rfl⟩, rfl, rfl⟩
  | reschedule _ order ih =>
    obtain ⟨⟨e', phase', bid⟩, unsigned, unpublished⟩ := ih
    obtain ⟨lease, e, turn, outstanding, before, -, rfl⟩ := order
    cases phase'.symm.trans before
    exact ⟨⟨_, rfl, bid⟩, unsigned, unpublished⟩
  | @step shown s' s'' limits now l l' outside outside' calls before _ step ih =>
    obtain ⟨⟨e', phase', bid⟩, unsigned, unpublished⟩ := ih
    -- The answer that accepts the bid is in the log for good, so it is still final.
    obtain ⟨later, tally'⟩ := before.tally tally
    have final' : Final desk.policy (log ++ later) e' := by
      obtain ⟨ceiling, w, listed, taken⟩ := final
      rw [← bid] at ceiling taken
      exact ⟨ceiling, w, List.mem_append_left _ listed, taken⟩
    obtain ⟨ceiling, accepted⟩ := (tally'.final_iff phase').mp final'
    have reckoned := tally'.reckoned
    rw [Reckoned, phase'] at reckoned
    obtain ⟨e'', rfl, handedOut, inner⟩ := running_of_escalating phase' step
    obtain ⟨bid', quiet, unhanded⟩ := reckoned.bid_kept ceiling accepted inner
    refine ⟨⟨e'', rfl, bid'.trans bid⟩, ?_, ?_⟩
    · rw [signed_append_shown, unsigned, quiet, List.append_nil]
    · rw [published_append, published_shown, handedOut, unpublished, unhanded, List.append_nil]

/-- **What comes of a resubmission tick.**  The loop consumes it with no answer left to fold.
    * Where no candidate is mined it asks for a suggestion, and until it is listening again one
      signature is asked for and one candidate published, where the signer gives one — but none
      exactly where the bid was final.
    * Once the suggestion has arrived the loop steps on, and the send does not end but for its
      cancellation, an attempt out of range, or a least increase out of range.
    * A send whose bid is final never signs or publishes anything again. -/
theorem attempts (tally : Tally desk call trail log s) (phase : s.phase = .escalating lease e) :
    (∀ limits now l s₁ l' outside outside' calls,
      s.stepWithin desk.noted limits now l (outside, []) =
        some (.running s₁, l', outside', calls) →
      s.ticks s₁ = true → e.book.mined = [] →
      e.answered = [] ∧ (∃ reply, calls = [.gasPrice reply]) ∧
      ∀ shown s₂, Onward desk Busy s₁ shown s₂ →
        ∃ e₂, s₂.phase = .escalating lease e₂ ∧
          e₂.Attempted e.book (Final desk.policy log e) (signed shown) (published shown) ∧
          ∀ reply, e₂.phase = .pricing reply →
            (∀ limits now l outside, (reply.ready? now).isSome = true →
              (s₂.stepWithin desk.noted limits now l (outside, [])).isSome = true) ∧
            ∀ limits now l result l' outside outside' calls,
              s₂.stepWithin desk.noted limits now l (outside, []) =
                some (.ended result, l', outside', calls) →
              limits.cancelled = true ∨ UInt32.size ≤ e.book.attempt + 1 ∨
                Amount.size ≤ e.book.bid.toNat * desk.policy.bumpPercent.toNat) ∧
    (Final desk.policy log e → ∀ shown s', Onward desk (fun _ => True) s shown s' →
      signed shown = [] ∧ published shown = []) := by
  refine ⟨?_, ?_⟩
  · intro limits now l s₁ l' outside outside' calls step ticks unmined
    obtain ⟨e₁, rfl, due, round⟩ := ticked_of_step phase step ticks
    have answered : e.answered = [] := (Escalation.due_eq_some.mp due).2.2.2.2.1
    -- A tick that finds a mined candidate asks for nothing; the other one starts an attempt.
    rcases round with ⟨mined, -, -⟩ | ⟨-, reply, rfl, -, same⟩
    · exact absurd unmined mined
    have start : e₁.Attempted e.book (Final desk.policy log e) [] [] := by
      rw [same]
      exact ⟨rfl, rfl, rfl⟩
    refine ⟨answered, ⟨reply, rfl⟩, fun shown s₂ onward => ?_⟩
    obtain ⟨e₂, phase₂, attempted⟩ := onward.attempted rfl start (tally.final_iff phase)
    refine ⟨e₂, phase₂, attempted, fun reply asking => ⟨?_, ?_⟩⟩
    · intro limits now l outside ready
      exact steps_of_priced phase₂ asking ready l (outside, [])
    · intro limits now l result l' outside outside' calls ends
      rw [Escalation.Attempted, asking] at attempted
      rw [← attempted.1]
      exact ended_of_pricing phase₂ asking ends
  · intro final shown s' onward
    exact (tally.silent_of_final phase final onward).2

/-- The only candidate was accepted at the ceiling.  When the ticker ticks at 2 ms, a suggestion is
    asked for, and the loop is listening again without a signature. -/
theorem attempts_settled : ∃ trail log s₁ s₂ shown calls,
    Tally Errand.bare.capped Errand.bare.call trail log
      (Errand.bare.escalating Errand.bare.settled) ∧
    Final Errand.bare.capped.policy log Errand.bare.settled ∧
    (Errand.bare.escalating Errand.bare.settled).stepWithin Errand.bare.capped.noted ⟨false, none⟩
      2 .empty ((), []) = some (.running s₁, .empty, (), calls) ∧
    Onward Errand.bare.capped Busy s₁ shown s₂ ∧
    s₂ = Errand.bare.escalating { Errand.bare.settled with ticker := ⟨4, 2⟩ } ∧
    signed shown = [] ∧ published shown = [] := by
  obtain ⟨trail, run⟩ := Errand.settles
  obtain ⟨log, tally⟩ := of_run run
  have rounds := (tally.attempts rfl).1
  have final : Final Errand.bare.capped.policy log Errand.bare.settled :=
    (tally.final_iff rfl).mpr ⟨Nat.le_refl _, rfl⟩
  have asks : (Errand.bare.escalating Errand.bare.settled).stepWithin Errand.bare.capped.noted
      ⟨false, none⟩ 2 .empty ((), []) = some (.running (Errand.bare.escalating Errand.bare.asking),
        .empty, (), [.gasPrice (.immediate 2 (.ok .suggested))]) := rfl
  have rests : Onward Errand.bare.capped Busy (Errand.bare.escalating Errand.bare.asking) _
      (Errand.bare.escalating { Errand.bare.settled with ticker := ⟨4, 2⟩ }) :=
    .step .here (by rintro _ _ ⟨⟩; simp [Errand.asking]) Errand.rests
  obtain ⟨-, -, attempted⟩ := rounds _ _ _ _ _ _ _ _ asks rfl rfl
  obtain ⟨e₂, phase, came, -⟩ := attempted _ _ rests
  cases phase
  rcases came with ⟨-, unsigned, unpublished⟩ | ⟨unsettled, -⟩
  · exact ⟨trail, log, _, _, _, _, tally, final, asks, rests, rfl, unsigned, unpublished⟩
  · exact absurd final unsettled

end Tally

end Send

end Relayer
