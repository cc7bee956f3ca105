import Relayer.Proofs.Send.Confirmation
import Relayer.Proofs.Send.Looks
import Relayer.Proofs.Send.Tardy

namespace Relayer

/-!
# Verdicts — the answers to broadcasts of a send with a mined candidate

A node may answer a broadcast long after it was made, when another candidate has taken the nonce
and spent the balance.  Most of what it can say then is of no consequence.

* `Book.fold_of_mined` — an answer folded while a candidate is mined;
* `Send.Mined` — the node gave a receipt of a published candidate;
* `Escalation.unhandled` — the candidates whose answers the loop has still to fold;
* `Send.Grounds` — what the loop and its inbox say of mined candidates is backed by the trail;
* `Send.Run.onBroadcast_mined` — the answers that end a send with a mined candidate.
-/

variable {σ : Type}

/-- **An answer folded while a candidate is mined** leaves `tooLow` alone.  It ends the send where
    it is `insufficientFunds`, or `underpriced` at the ceiling. -/
theorem Book.fold_of_mined {policy : Policy} {b : Book} {bid : Amount} (nonce : UInt64)
    (mined : b.mined ≠ []) (capped : bid ≤ policy.maxGasPrice) (verdict : Verdict) :
    (b.fold policy nonce bid verdict = .error .underfunded ∧
        verdict = .rejected .insufficientFunds) ∨
      (b.fold policy nonce bid verdict = .error (.priceTooLow bid.toDecimal) ∧
        verdict = .rejected .underpriced ∧ bid = policy.maxGasPrice) ∨
      ((∃ b', b.fold policy nonce bid verdict = .ok b' ∧ b'.mined = b.mined ∧
          b'.tooLow = b.tooLow) ∧
        verdict ≠ .rejected .insufficientFunds ∧
        (verdict = .rejected .underpriced → bid ≠ policy.maxGasPrice)) := by
  have known : b.mined.isEmpty = false := by simpa using mined
  cases verdict with
  | accepted => exact .inr (.inr ⟨⟨_, rfl, rfl, rfl⟩, by simp, by simp⟩)
  | lost => exact .inr (.inr ⟨⟨_, rfl, rfl, rfl⟩, by simp, by simp⟩)
  | rejected f =>
    cases f
    case insufficientFunds => exact .inl ⟨rfl, rfl⟩
    case underpriced =>
      right
      by_cases ceiling : bid = policy.maxGasPrice
      · left
        have highest : policy.pricing.isCeiling bid = true := by
          simp only [Pricing.isCeiling, ceiling, decide_eq_true_eq]
          exact Nat.le_refl _
        exact ⟨by simp [fold, highest], rfl, ceiling⟩
      · right
        have room : policy.pricing.isCeiling bid = false := by
          simp only [Pricing.isCeiling, decide_eq_false_iff_not]
          exact fun above => ceiling (Amount.ext_toNat (Nat.le_antisymm capped above))
        exact ⟨⟨b, by simp [fold, room], rfl, rfl⟩, by simp, fun _ => ceiling⟩
    -- This is the one answer for which `fold` looks at `mined`.
    case nonceTooLow => exact .inr (.inr ⟨⟨b, by simp [fold, known], rfl, rfl⟩, by simp, by simp⟩)
    all_goals exact .inr (.inr ⟨⟨_, rfl, rfl, rfl⟩, by simp, by simp⟩)

/-! ### What the loop knows -/

/-- The candidate of a broadcast task, by its bid and its hash. -/
def Broadcast.about : Broadcast → Amount × Digest
  | .queued c => (c.gasPrice, c.hash)
  | .sent bid hash _ => (bid, hash)

/-- The candidates whose answers the loop has still to fold: not sent, sent or returned. -/
def Escalation.unhandled (e : Escalation) : List (Amount × Digest) :=
  e.outstanding.map Broadcast.about ++ e.answered.map fun a => (a.bid, a.hash)

namespace Send

variable {desk : Desk σ} {call : Call} {trail later : List Event} {lease : Lease}
  {e e' : Escalation} {s s' : Send} {limits : Limits} {now : Nat} {l l' : Leases}
  {calls : List Inquiry} {hash : Digest}

/-- The node has given a receipt of a published candidate that is in a block. -/
def Mined (trail : List Event) (hash : Digest) : Prop :=
  Own trail hash ∧ ∃ head receipt, Attested trail head hash receipt

/-- A candidate that is mined by a trail is so by every longer one. -/
theorem Mined.append (h : Mined trail hash) : Mined (trail ++ later) hash := by
  obtain ⟨own, head, receipt, attested⟩ := h
  exact ⟨own.append, head, receipt, attested.append⟩

/-- The candidates that are mined by the send state or by an event of the inbox are `Mined`, and the
    unhandled ones are published. -/
structure Grounds (trail : List Event) (e : Escalation) : Prop where
  mined : ∀ hash ∈ e.book.mined, Mined trail hash
  emitted : ∀ hash block, .mined hash block ∈ e.inbox → Mined trail hash
  unhandled : ∀ about ∈ e.unhandled, ∃ c ∈ published trail, (c.gasPrice, c.hash) = about

/-- A step that receives, emits and broadcasts nothing keeps the grounds. -/
theorem Grounds.of_quiet (h : Grounds trail e) (mined : ∀ hash ∈ e'.book.mined, Mined trail hash)
    (inbox : ∀ event ∈ e'.inbox, event ∈ e.inbox)
    (unhandled : ∀ about ∈ e'.unhandled, about ∈ e.unhandled) : Grounds (trail ++ later) e' where
  mined hash listed := (mined hash listed).append
  emitted hash block emitted := (h.emitted hash block (inbox _ emitted)).append
  unhandled about waits := by
    obtain ⟨c, listed, same⟩ := h.unhandled about (unhandled about waits)
    exact ⟨c, by simp [listed], same⟩

/-- A `mined` event is emitted for a receipt looked up under the head of the poll. -/
theorem mined_of_move {t t' : Tracker} {room : Bool} {block : Nat} (h : t.stage.Backed trail)
    (move : t.Move desk now room calls t' (some (.mined hash block))) : Mined trail hash := by
  cases move with
  | @mines head unseen _ receipt rest stage _ _ _ =>
    rw [stage] at h
    exact ⟨h.2.1 hash List.mem_cons_self, head, receipt, h.2.2⟩

/-- A hash that is mined behind an event was so before, or is the one of the event. -/
theorem mined_of_received {b : Book} {event : TrackerEvent}
    (h : ∀ hash ∈ b.mined, Mined trail hash)
    (emitted : ∀ hash block, event = .mined hash block → Mined trail hash) :
    ∀ hash ∈ (b.received event).mined, Mined trail hash := by
  intro hash listed
  cases event with
  | inMempool _ | confirmed _ => exact h hash listed
  | reorged _ => exact h hash ((Book.mem_noteReorged ..).mp listed).1
  | mined _ block =>
    rcases (Book.mem_noteMined ..).mp listed with rfl | old
    · exact emitted hash block rfl
    · exact h hash old

/-- **Every move of an escalation keeps the grounds.** -/
theorem Grounds.move (h : Grounds trail e) (evidence : Evidence desk trail e)
    (move : Escalation.Move desk limits now e calls (.running e')) :
    Grounds (trail ++ (calls.map .asked ++ (e.handedOut e').map .published)) e' := by
  cases move with
  | @publishes first reply raw _ _ =>
    refine ⟨fun hash listed => (h.mined hash listed).append,
      fun hash block emitted => (h.emitted hash block emitted).append, ?_⟩
    intro about waits
    -- A publication adds one candidate, whose own entry of the trail answers for it.
    have either : about ∈ e.unhandled ∨
        about = ((e.candidate raw).gasPrice, (e.candidate raw).hash) := by
      simp only [Escalation.unhandled, Escalation.handOut, List.map_append, List.map_cons,
        List.map_nil, Broadcast.about, List.mem_append, List.mem_singleton] at waits ⊢
      tauto
    rcases either with old | rfl
    · obtain ⟨c, listed, same⟩ := h.unhandled about old
      exact ⟨c, by simp [listed], same⟩
    · exact ⟨e.candidate raw, by simp [published, Event.published?], rfl⟩
  | @tracks calls tracker event move =>
    refine ⟨fun hash listed => (h.mined hash listed).append, ?_, ?_⟩
    · intro hash block emitted
      rcases List.mem_append.mp emitted with old | new
      · exact (h.emitted hash block old).append
      · -- The tracker emits `mined` at the receipt it has just read.
        obtain rfl : event = some (.mined hash block) := by simpa using new
        exact (mined_of_move evidence.stage move).append
    · intro about waits
      obtain ⟨c, listed, same⟩ := h.unhandled about waits
      exact ⟨c, by simp [listed], same⟩
  | @receives event rest _ _ inbox _ =>
    refine h.of_quiet (mined_of_received h.mined ?_) ?_ fun about waits => waits
    · rintro hash block rfl
      exact h.emitted hash block (by simp [inbox])
    · intro event emitted
      rw [inbox]
      exact List.mem_cons_of_mem _ emitted
  | folds _ _ _ answered folded =>
    obtain ⟨accepted, tooLow, rfl⟩ := Book.fold_ok folded
    refine h.of_quiet h.mined (fun _ emitted => emitted) ?_
    intro about waits
    simp only [Escalation.unhandled, answered, List.map_cons, List.mem_append, List.mem_cons]
      at waits ⊢
    tauto
  | sends outstanding _ =>
    refine h.of_quiet h.mined (fun _ emitted => emitted) ?_
    intro about waits
    simpa [Escalation.unhandled, outstanding, Broadcast.about] using waits
  | answers outstanding _ =>
    refine h.of_quiet h.mined (fun _ emitted => emitted) ?_
    intro about waits
    simp only [Escalation.unhandled, outstanding, List.map_append, List.map_cons, List.map_nil,
      Broadcast.about, List.mem_append, List.mem_cons] at waits ⊢
    tauto
  | _ => exact h.of_quiet h.mined (fun _ emitted => emitted) fun _ waits => waits

/-- The grounds hold all along the escalation of a run. -/
theorem Run.grounds (run : Run desk call trail s) (phase : s.phase = .escalating lease e) :
    Grounds trail e := by
  induction run generalizing lease e with
  | start now => cases phase
  | reschedule _ order ih =>
    obtain ⟨lease, e, turn, outstanding, before, order, rfl⟩ := order
    cases phase
    have grounds := ih before
    refine ⟨grounds.mined, grounds.emitted, fun about waits => grounds.unhandled about ?_⟩
    simp only [Escalation.unhandled, List.mem_append] at waits ⊢
    exact waits.imp_left fun out => (order.map _).mem_iff.mp out
  | step run step ih =>
    cases move_of_noted step with
    | inherits _ _ _ | learns _ _ =>
      simp only [afterLease] at phase
      split at phase <;> cases phase
    | bids _ _ first =>
      cases phase
      obtain ⟨bid, -, rfl⟩ := firstBid_ok first
      exact ⟨by simp [Book.opening], by simp, by simp [Escalation.unhandled]⟩
    | @escalates _ e _ turn _ before move =>
      cases phase
      have grounds := ih before
      have evidence := run.evidence before
      rw [shown_escalating before]
      exact Grounds.move (e := { e with turn }) ⟨grounds.mined, grounds.emitted, grounds.unhandled⟩
        ⟨evidence.depth, evidence.watched, evidence.stage, evidence.inbox⟩ move
    | _ => cases phase

/-! ### The answers that end a send -/

/-- **The answers that end a send with a mined candidate.**  Where `book.mined` is not empty, the
    node has given a receipt of each of its hashes.  Whatever the node then answers to any candidate
    whose answer is unhandled, `mined` and `tooLow` stay as they are, and the send goes on — unless
    the answer is `insufficientFunds`, or `underpriced` at the ceiling.  These two end the send, and
    leave its nonce to the next one. -/
theorem Run.onBroadcast_mined (valid : desk.policy.validate = .ok ()) (run : Run desk call trail s)
    (phase : s.phase = .escalating lease e) (known : e.book.mined ≠ []) {bid : Amount}
    (waits : (bid, hash) ∈ e.unhandled) (verdict : Verdict) :
    (∀ own ∈ e.book.mined, Mined trail own) ∧
    ((∃ result, e.onBroadcast desk.policy ⟨bid, hash, verdict⟩ = .ended result) ↔
      verdict = .rejected .insufficientFunds ∨
        (verdict = .rejected .underpriced ∧ bid = desk.policy.maxGasPrice)) ∧
    (∀ result, e.onBroadcast desk.policy ⟨bid, hash, verdict⟩ = .ended result →
      ∀ l, settle lease result l = (result, lease.release l)) ∧
    (∀ e', e.onBroadcast desk.policy ⟨bid, hash, verdict⟩ = .running e' →
      e'.book.mined = e.book.mined ∧ e'.book.tooLow = e.book.tooLow) := by
  have grounds := run.grounds phase
  obtain ⟨c, listed, about⟩ := grounds.unhandled _ waits
  cases about
  obtain ⟨lease', e', -, standing⟩ :=
    (run.account valid).escalating (List.ne_nil_of_mem listed)
  -- The answer is to a candidate that was published, so its bid is in the range of the bids.
  have capped : c.gasPrice ≤ desk.policy.maxGasPrice :=
    (standing.bidding.range c.gasPrice (List.mem_map_of_mem listed)).2
  refine ⟨grounds.mined, ?_⟩
  unfold Escalation.onBroadcast
  rcases Book.fold_of_mined e.nonce known capped verdict with
    ⟨folded, rfl⟩ | ⟨folded, rfl, highest⟩ | ⟨⟨b, folded, mined, tooLow⟩, funds, price⟩
  · simp [folded, Escalation.fails, settle]
  · simp only [folded]
    simp [highest, Escalation.fails, settle]
  · simp only [folded]
    refine ⟨⟨?_, ?_⟩, ?_, ?_⟩
    · rintro ⟨result, ended⟩
      cases ended
    · rintro (none | ⟨low, highest⟩)
      · exact absurd none funds
      · exact absurd highest (price low)
    · rintro result ended
      cases ended
    · rintro e' running
      cases running
      exact ⟨mined, tooLow⟩

/-- The first candidate is mined, and the second one is answered with `nonceTooLow`: the send goes
    on. -/
theorem Run.onBroadcast_late_nonce : ∃ trail others,
    Run (Errand.bare.tardy ⟨1, ⟨.rejected .nonceTooLow, some 10⟩, 8⟩ none) Errand.bare.call trail
      (Errand.bare.underWay none (.escalating Errand.bare.lease
        (Errand.bare.aware others ⟨.rejected .nonceTooLow, some 10⟩))) ∧
    ¬ ∃ result, (Errand.bare.aware others ⟨.rejected .nonceTooLow, some 10⟩).onBroadcast
      (.steady none) ⟨.raised, (Errand.bare.candidate .raised).hash, .rejected .nonceTooLow⟩ =
        .ended result := by
  obtain ⟨others, trail, course, -⟩ :=
    Errand.mines 8 (.rejected .nonceTooLow) Errand.bare_fits (by decide)
  have waits : (.raised, (Errand.bare.candidate .raised).hash) ∈
      (Errand.bare.aware others ⟨.rejected .nonceTooLow, some 10⟩).unhandled :=
    List.mem_singleton_self _
  have judged := course.run.onBroadcast_mined (Policy.validate_steady (by simp)) rfl
    (List.cons_ne_nil _ _) waits (.rejected .nonceTooLow)
  exact ⟨trail, others, course.run, fun ended => by simpa using judged.2.1.mp ended⟩

/-- **A send may end with `underfunded` while its first candidate is mined.**  At 10 ms the loop has
    received that the first candidate is mined, and the node answers the second one with
    `insufficientFunds`. -/
theorem Course.underfunded_though_mined : ∃ trail lease e bid hash reply,
    Course (Errand.bare.tardy ⟨1, ⟨.rejected .insufficientFunds, some 10⟩, 8⟩ none)
      Errand.bare.call 0 none trail 10 ⟨Errand.bare.call, none, .escalating lease e⟩ ∧
    (published trail).length = 2 ∧ e.book.mined ≠ [] ∧ .sent bid hash reply ∈ e.outstanding ∧
    reply.ready? 10 = some (.rejected .insufficientFunds) ∧
    e.onBroadcast (.steady none) ⟨bid, hash, .rejected .insufficientFunds⟩ =
      .ended (.error (.failure .underfunded)) := by
  obtain ⟨others, trail, course, both⟩ :=
    Errand.mines 8 (.rejected .insufficientFunds) Errand.bare_fits (by decide)
  refine ⟨trail, _, _, .raised, _, _, course, by rw [both]; rfl, List.cons_ne_nil _ _,
    List.mem_singleton_self _, rfl, rfl⟩

end Send

end Relayer
