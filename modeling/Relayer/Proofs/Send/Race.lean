import Relayer.Proofs.Send.Attempts

namespace Relayer

/-!
# Race — answers to several broadcasts, in whatever order they arrive

Several broadcasts are under way at a time, and nobody says whose answer comes first.  What comes of
a list of answers does not depend on that: each of them ends the send by itself or not, `accepted`
is a maximum, and `nonceTooLow` answers are only counted.

* `Answer.isFatal` — an answer that ends a send in whatever state;
* `Book.after` — the send state with all answers folded in, in no particular order;
* `Escalation.onBroadcasts` — answers folded one after the other;
* `Escalation.onBroadcasts_eq_running` — when a send is running behind them, and in which state;
* `Escalation.loopSteps_of_answered` — the loop, left alone with them, folds them all;
* `Escalation.any_order` — the order makes no difference.
-/

variable {σ : Type}

/-! ### What answers say -/

/-- Whether the answer ends a send in whatever state: `insufficientFunds`, or `underpriced` at the
    ceiling. -/
def Answer.isFatal (p : Pricing) (a : Answer) : Bool :=
  match a.verdict with
  | .rejected .insufficientFunds => true
  | .rejected .underpriced => p.isCeiling a.bid
  | _ => false

/-- The bids of the answers that accept a broadcast. -/
def Answer.taken (answers : List Answer) : List Amount :=
  (answers.filter (·.verdict.accepts)).map (·.bid)

/-- The maximum of several amounts does not depend on their order. -/
theorem Amount.max?_perm {amounts amounts' : List Amount} (same : amounts.Perm amounts') :
    amounts.max? = amounts'.max? := by
  have assoc : Std.Associative (max : Amount → Amount → Amount) :=
    ⟨fun a b c => Amount.ext_toNat (by simp only [Amount.toNat_max, Nat.max_assoc])⟩
  have comm (a b : Amount) : max a b = max b a :=
    Amount.ext_toNat (by simp only [Amount.toNat_max, Nat.max_comm])
  induction same with
  | nil => rfl
  | cons a _ ih => rw [List.max?_cons, List.max?_cons, ih]
  | swap a b rest =>
    rw [List.max?_cons', List.max?_cons', List.foldl_cons, List.foldl_cons, comm]
  | trans _ _ ih ih' => exact ih.trans ih'

/-- How many of the answers are `nonceTooLow`, none where a candidate is mined. -/
def Answer.lows (mined : List Digest) (answers : List Answer) : Nat :=
  FoldedAnswer.lows (answers.map (⟨·, mined⟩))

namespace Book

/-- The send state with all these answers folded in. -/
def after (b : Book) (answers : List Answer) : Book :=
  { b with
    accepted := (b.accepted.toList ++ Answer.taken answers).max?
    tooLow := b.tooLow + Answer.lows b.mined answers }

variable {policy : Policy} {b : Book} {a : Answer} {rest : List Answer}

@[simp] theorem after_nil (b : Book) : b.after [] = b := by
  obtain ⟨_, _, _, accepted, _, _, _⟩ := b
  cases accepted <;> rfl

/-- A fatal answer ends the send. -/
theorem fold_of_fatal (nonce : UInt64) (fatal : a.isFatal policy.pricing = true) :
    ∃ f, b.fold policy nonce a.bid a.verdict = .error f := by
  unfold Answer.isFatal at fatal
  split at fatal
  next funds => exact ⟨_, by rw [funds]; rfl⟩
  next low => exact ⟨.priceTooLow a.bid.toDecimal, by simp only [low, fold, fatal, if_true]⟩
  next => cases fatal

/-- An answer that is neither fatal nor counted changes `accepted` alone. -/
theorem fold_of_mild (nonce : UInt64) (mild : a.isFatal policy.pricing = false)
    (uncounted : (⟨a, b.mined⟩ : FoldedAnswer).isLow = false) :
    b.fold policy nonce a.bid a.verdict =
      .ok (if a.verdict.accepts then b.noteAccepted a.bid else b) := by
  obtain ⟨bid, hash, verdict⟩ := a
  cases verdict with
  | accepted | lost => rfl
  | rejected f =>
    cases f
    case insufficientFunds => cases mild
    case underpriced =>
      have room : policy.pricing.isCeiling bid = false := mild
      simp [fold, room, Verdict.accepts]
    case nonceTooLow =>
      have mined : b.mined.isEmpty = false := by simpa [FoldedAnswer.isLow] using uncounted
      simp [fold, mined, Verdict.accepts]
    all_goals rfl

/-- A counted answer counts in `after`. -/
theorem after_cons_low (low : (⟨a, b.mined⟩ : FoldedAnswer).isLow = true) (rest : List Answer) :
    ({ b with tooLow := b.tooLow + 1 } : Book).after rest = b.after (a :: rest) := by
  have refused : a.verdict.accepts = false := by
    rw [(FoldedAnswer.isLow_iff.mp low).1]
    rfl
  simp [after, Answer.taken, Answer.lows, FoldedAnswer.lows, refused, low, Nat.add_comm 1,
    Nat.add_assoc]

/-- Any other answer counts in `after` where it accepts a broadcast. -/
theorem after_cons_mild (uncounted : (⟨a, b.mined⟩ : FoldedAnswer).isLow = false)
    (rest : List Answer) :
    (if a.verdict.accepts then b.noteAccepted a.bid else b).after rest = b.after (a :: rest) := by
  cases taken : a.verdict.accepts with
  | false => simp [after, Answer.taken, Answer.lows, FoldedAnswer.lows, taken, uncounted]
  | true =>
    cases before : b.accepted <;>
      simp [after, Answer.taken, Answer.lows, FoldedAnswer.lows, noteAccepted, taken, uncounted,
        before, List.max?_cons']

/-- **`after` does not depend on the order of the answers.** -/
theorem after_perm (b : Book) {answers answers' : List Answer} (same : answers.Perm answers') :
    b.after answers = b.after answers' := by
  have taken : (Answer.taken answers).Perm (Answer.taken answers') := (same.filter _).map _
  have lows : Answer.lows b.mined answers = Answer.lows b.mined answers' :=
    (same.map _).countP_eq _
  rw [after, after, lows, Amount.max?_perm (taken.append_left b.accepted.toList)]

end Book

/-! ### What becomes of them -/

namespace Escalation

/-- Answers folded one after the other, as long as none of them ends the send. -/
def onBroadcasts (policy : Policy) (e : Escalation) : List Answer → Outcome
  | [] => .running e
  | a :: rest =>
    match e.onBroadcast policy a with
    | .running e' => e'.onBroadcasts policy rest
    | .ended result => .ended result

variable {policy : Policy} {e e' : Escalation} {answers answers' : List Answer}

/-- **What comes of a list of answers.**  The send is running behind them if none is fatal and
    `tooLow` stays below the tolerance, and then its state is `after` all of them. -/
theorem onBroadcasts_eq_running : e.onBroadcasts policy answers = .running e' ↔
    (∀ a ∈ answers, a.isFatal policy.pricing = false) ∧
      (Answer.lows e.book.mined answers = 0 ∨
        e.book.tooLow + Answer.lows e.book.mined answers < policy.nonceTolerance) ∧
      e' = { e with book := e.book.after answers } := by
  induction answers generalizing e with
  | nil =>
    rw [Book.after_nil, onBroadcasts, Outcome.running.injEq]
    exact ⟨fun same => ⟨by simp, .inl rfl, same.symm⟩, fun h => h.2.2.symm⟩
  | cons a rest ih =>
    rw [onBroadcasts, onBroadcast]
    -- The first answer is an end by itself, counts against the nonce, or does neither.
    cases fatal : a.isFatal policy.pricing with
    | true =>
      obtain ⟨f, folded⟩ := e.book.fold_of_fatal e.nonce fatal
      simp [folded, fails, fatal]
    | false =>
      cases low : (⟨a, e.book.mined⟩ : FoldedAnswer).isLow with
      | true =>
        have count : Answer.lows e.book.mined (a :: rest) =
            Answer.lows e.book.mined rest + 1 := by simp [Answer.lows, FoldedAnswer.lows, low]
        rw [Book.fold_low e.nonce low]
        by_cases enough : policy.nonceTolerance ≤ e.book.tooLow + 1
        · rw [if_pos enough]
          -- The count only grows, so the later answers do not bring it below the tolerance again.
          refine ⟨fun ended => (by cases ended), ?_⟩
          rintro ⟨-, none | below, -⟩ <;> omega
        · rw [if_neg enough]
          simp only [ih, Book.after_cons_low low rest, List.forall_mem_cons, fatal, true_and, count]
          refine and_congr_right fun _ => and_congr_left fun _ => ?_
          omega
      | false =>
        have count : Answer.lows e.book.mined (a :: rest) = Answer.lows e.book.mined rest := by
          simp [Answer.lows, FoldedAnswer.lows, low]
        rw [Book.fold_of_mild e.nonce fatal low]
        simp only [ih, Book.after_cons_mild low rest, List.forall_mem_cons, fatal, true_and, count]
        cases a.verdict.accepts <;> rfl

/-- The send has ended otherwise. -/
theorem onBroadcasts_eq_ended : (∃ result, e.onBroadcasts policy answers = .ended result) ↔
    ∀ e', e.onBroadcasts policy answers ≠ .running e' := by
  cases e.onBroadcasts policy answers <;> simp

/-- `underpriced` for a bid below the ceiling changes nothing, whatever the current bid is. -/
theorem onBroadcast_of_underpriced (policy : Policy) (e : Escalation) {a : Answer}
    (low : a.verdict = .rejected .underpriced) (room : a.bid < policy.maxGasPrice) :
    e.onBroadcast policy a = .running e := by
  have below : policy.pricing.isCeiling a.bid = false :=
    decide_eq_false (Nat.not_le_of_lt room)
  simp [onBroadcast, low, Book.fold, below]

/-! ### The loop -/

/-- Steps of the loop at these moments, as long as it is running. -/
def loopSteps (desk : Desk σ) (limits : Limits) :
    List Nat → Escalation → σ → Option (Outcome × σ)
  | [], e, outside => some (.running e, outside)
  | now :: later, e, outside =>
    match e.loopStep desk limits now outside with
    | some (.running e', outside') => loopSteps desk limits later e' outside'
    | done => done

/-- **The loop, left alone with answers, folds them one after the other**, at whatever moments it
    steps. -/
theorem loopSteps_of_answered (desk : Desk σ) {limits : Limits} (outside : σ) {times : List Nat}
    (phase : e.phase = .listening) (going : limits.cancelled = false) (inbox : e.inbox = [])
    (opened : e.tracker.isClosed = false) (each : times.length = answers.length)
    (rest : List Answer) :
    loopSteps desk limits times { e with answered := answers ++ rest } outside =
      some (({ e with answered := rest } : Escalation).onBroadcasts desk.policy answers,
        outside) := by
  induction answers generalizing e times with
  | nil =>
    obtain rfl := List.length_eq_zero_iff.mp each
    rfl
  | cons a later ih =>
    obtain ⟨now, times, rfl⟩ := List.exists_cons_of_length_eq_add_one each
    have heeded : ({ e with answered := a :: later ++ rest } : Escalation).heeds limits = some a :=
      heeds_eq_some.mpr ⟨phase, going, inbox, opened, later ++ rest, rfl⟩
    obtain ⟨_, same, step⟩ := loopStep_of_heeds desk now outside heeded
    obtain ⟨-, rfl⟩ := List.cons.inj same
    rw [loopSteps, step]
    -- An answer changes nothing but the send state, so the loop is left alone with the later ones.
    cases folded : e.book.fold desk.policy e.nonce a.bid a.verdict with
    | error f => simp [onBroadcasts, onBroadcast, folded, fails]
    | ok book =>
      have left : times.length = later.length := by simpa using each
      have noted := ih (e := { e with book }) phase inbox opened left
      simpa [onBroadcasts, onBroadcast, folded] using noted

/-- **Broadcasts may race.**  Whatever the answers to a number of broadcasts are, and in whatever
    order they are folded, the send is running behind them in the same state, or has ended in either
    case; and so it is with the steps of the loop that joins them, at whatever moments it steps.  In
    particular `underpriced` for a bid below the ceiling changes nothing, however high the current
    bid is. -/
theorem any_order (same : answers.Perm answers') :
    (∀ (policy : Policy) (e : Escalation),
      (∀ e', e.onBroadcasts policy answers = .running e' ↔
        e.onBroadcasts policy answers' = .running e') ∧
      ((∃ result, e.onBroadcasts policy answers = .ended result) ↔
        ∃ result, e.onBroadcasts policy answers' = .ended result)) ∧
    (∀ (desk : Desk σ) (limits : Limits) (outside : σ) (e : Escalation) (rest : List Answer),
      e.phase = .listening → limits.cancelled = false → e.inbox = [] →
      e.tracker.isClosed = false → ∀ (order : List Answer) (times : List Nat),
      order.Perm answers → times.length = order.length →
        loopSteps desk limits times { e with answered := order ++ rest } outside =
          some (({ e with answered := rest } : Escalation).onBroadcasts desk.policy order,
            outside)) ∧
    ∀ (policy : Policy) (e : Escalation) (a : Answer), a.verdict = .rejected .underpriced →
      a.bid < policy.maxGasPrice → e.onBroadcast policy a = .running e := by
  have commutes (policy : Policy) (e e' : Escalation) :
      e.onBroadcasts policy answers = .running e' ↔
        e.onBroadcasts policy answers' = .running e' := by
    have lows : Answer.lows e.book.mined answers = Answer.lows e.book.mined answers' :=
      (same.map _).countP_eq _
    have mild : (∀ a ∈ answers, a.isFatal policy.pricing = false) ↔
        ∀ a ∈ answers', a.isFatal policy.pricing = false :=
      forall_congr' fun a => imp_congr_left same.mem_iff
    rw [onBroadcasts_eq_running, onBroadcasts_eq_running, mild, lows, e.book.after_perm same]
  refine ⟨fun policy e => ⟨commutes policy e, ?_⟩, ?_, onBroadcast_of_underpriced⟩
  · simp only [onBroadcasts_eq_ended, ne_eq, commutes]
  · intro desk limits outside e rest phase going inbox opened order times _ each
    exact loopSteps_of_answered desk outside phase going inbox opened each rest

/-- Two bids that were accepted, a `nonceTooLow` and a broadcast task that failed: in whatever
    order, `accepted` is the higher bid, and `tooLow` is one. -/
theorem any_order_reversed :
    let answers : List Answer :=
      [⟨.suggested, .repeated 1, .accepted⟩, ⟨.raised, .repeated 2, .rejected .alreadyKnown⟩,
        ⟨.suggested, .repeated 1, .rejected .nonceTooLow⟩, ⟨.suggested, .repeated 1, .lost⟩]
    answers.Perm answers.reverse ∧ ∃ e : Escalation,
      Send.Errand.bare.handedOut.onBroadcasts .brisk answers.reverse = .running e ∧
        e.book.accepted = some .raised ∧ e.book.tooLow = 1 := by
  intro answers
  have same : answers.Perm answers.reverse := (List.reverse_perm answers).symm
  obtain ⟨commutes, -⟩ := (any_order (σ := Unit) same).1 .brisk Send.Errand.bare.handedOut
  exact ⟨same, _, (commutes _).mp rfl, rfl, rfl⟩

end Escalation

end Relayer
