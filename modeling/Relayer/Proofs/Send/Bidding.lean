import Mathlib.Data.List.Chain
import Relayer.Proofs.Pricing
import Relayer.Proofs.Send.Phases
import Relayer.Proofs.Send.Prompt

namespace Relayer

/-!
# Bidding — what the candidates of one send have in common, and how their bids ascend

A bid is raised before it is signed, and may never come to be signed.  So `book.bid` runs ahead of
the published candidates, and the invariant holds the two together.

* `Escalation.Bidding` — the published bids against `book.bid`;
* `Escalation.Move.bidding` — every move keeps it;
* `Candidate.Carries` — a candidate is the call at one nonce and one gas limit, signed;
* `Send.Account` — the invariant of a whole send;
* `Send.Run.candidates` — what all candidates of a send have in common.
-/

variable {σ : Type}

/-! ### Published bids -/

/-- An event of the tracker leaves the bid alone. -/
theorem Book.received_bid (b : Book) (event : TrackerEvent) : (b.received event).bid = b.bid := by
  cases event <;> rfl

/-- An answer that does not end the send changes `accepted` and `tooLow` alone. -/
theorem Book.fold_ok {policy : Policy} {nonce : UInt64} {b b' : Book} {bid : Amount}
    {verdict : Verdict} (h : b.fold policy nonce bid verdict = .ok b') :
    ∃ accepted tooLow, b' = { b with accepted, tooLow } := by
  unfold fold at h
  cases verdict with
  | accepted => exact ⟨_, _, (Except.ok.inj h).symm⟩
  | lost => exact ⟨_, _, (Except.ok.inj h).symm⟩
  | rejected f =>
    cases f
    case alreadyKnown => exact ⟨_, _, (Except.ok.inj h).symm⟩
    case nonceTooLow =>
      simp only at h
      split at h
      next =>
        split at h
        · cases h
        · exact ⟨_, _, (Except.ok.inj h).symm⟩
      next => exact ⟨_, _, (Except.ok.inj h).symm⟩
    case insufficientFunds => cases h
    case underpriced =>
      simp only at h
      split at h
      · cases h
      · exact ⟨_, _, (Except.ok.inj h).symm⟩
    all_goals exact ⟨_, _, (Except.ok.inj h).symm⟩

/-- **The answers that end a send**: `insufficientFunds`, `underpriced` at the ceiling, and the
    `nonceTooLow` that brings the count to the tolerance while no candidate is mined. -/
theorem Book.fold_error {policy : Policy} {nonce : UInt64} {b : Book} {bid : Amount}
    {verdict : Verdict} {f : Failure} (h : b.fold policy nonce bid verdict = .error f) :
    (verdict = .rejected .insufficientFunds ∧ f = .underfunded) ∨
    (verdict = .rejected .underpriced ∧ policy.pricing.isCeiling bid = true ∧
      f = .priceTooLow bid.toDecimal) ∨
    (verdict = .rejected .nonceTooLow ∧ b.mined = [] ∧ policy.nonceTolerance ≤ b.tooLow + 1 ∧
      f = .nonceStale nonce (b.tooLow + 1)) := by
  unfold fold at h
  cases verdict with
  | accepted | lost => cases h
  | rejected answer =>
    cases answer
    case insufficientFunds => exact .inl ⟨rfl, (Except.error.inj h).symm⟩
    case underpriced =>
      simp only at h
      split at h
      next ceiling => exact .inr (.inl ⟨rfl, ceiling, (Except.error.inj h).symm⟩)
      next => cases h
    case nonceTooLow =>
      simp only at h
      split at h
      next none =>
        split at h
        next enough =>
          exact .inr (.inr ⟨rfl, by simpa using none, enough, (Except.error.inj h).symm⟩)
        next => cases h
      next => cases h
    all_goals cases h

namespace Escalation

/-- The published bids, the oldest first, and `book.bid`.  The last published bid is `book.bid`, or
    `book.bid` may follow it; while a candidate is being signed it does. -/
structure Bidding (p : Pricing) (bids : List Amount) (e : Escalation) : Prop where
  positive : 1 ≤ e.book.bid.toNat
  capped : e.book.bid ≤ p.ceiling
  range : ∀ bid ∈ bids, 1 ≤ bid.toNat ∧ bid ≤ p.ceiling
  chain : bids.IsChain p.Follows
  last : ∀ bid ∈ bids.getLast?, bid = e.book.bid ∨ p.Follows bid e.book.bid
  due : ∀ first reply, e.phase = .signing first reply →
    ∀ bid ∈ bids.getLast?, p.Follows bid e.book.bid
  fresh : e.phase = .opening → bids = []

variable {p : Pricing} {bids : List Amount} {e e' : Escalation}

/-- `Bidding` depends on the phase and the bid alone, and holds behind a phase that signs as
    well. -/
theorem Bidding.of_quiet (h : Bidding p bids e) (bid : e'.book.bid = e.book.bid)
    (phase : e'.phase = e.phase ∨ e'.phase = .listening ∨ ∃ reply, e'.phase = .pricing reply) :
    Bidding p bids e' where
  positive := bid ▸ h.positive
  capped := bid ▸ h.capped
  range := h.range
  chain := h.chain
  last := bid ▸ h.last
  due first reply signing := by
    rcases phase with same | listening | ⟨_, pricing⟩
    · exact bid ▸ h.due first reply (same ▸ signing)
    · cases listening.symm.trans signing
    · cases pricing.symm.trans signing
  fresh opening := by
    rcases phase with same | listening | ⟨_, pricing⟩
    · exact h.fresh (same ▸ opening)
    · cases listening.symm.trans opening
    · cases pricing.symm.trans opening

/-- The first candidate goes to the signer with nothing published before it. -/
theorem Bidding.opens (h : Bidding p bids e) (opening : e.phase = .opening)
    (reply : Pending (Except Stop (List UInt8))) :
    Bidding p bids { e with phase := .signing true reply } := by
  obtain rfl := h.fresh opening
  exact ⟨h.positive, h.capped, h.range, h.chain, by simp, by simp, by simp⟩

/-- The next bid goes to the signer.  It follows the current one, and so the last published one. -/
theorem Bidding.raises {bid suggested : Amount} {n : Nat} (h : Bidding p bids e)
    (next : p.nextBid e.book.bid (n + 1) suggested = .ok bid) (attempt : Nat)
    (reply : Pending (Except Stop (List UInt8))) :
    Bidding p bids { e.raised bid attempt with phase := .signing false reply } := by
  have higher : e.book.bid ≤ bid := Pricing.le_nextBid next
  have follows : p.Follows e.book.bid bid := Pricing.nextBid_follows h.capped next
  -- The last published bid need not be the current one, but the current one may follow it.
  have due : ∀ old ∈ bids.getLast?, p.Follows old bid := by
    intro old last
    rcases h.last old last with rfl | before
    · exact follows
    · exact before.trans_le (h.range old (List.mem_of_getLast? last)).2 higher
  exact ⟨Nat.le_trans h.positive higher, Pricing.nextBid_le_ceiling h.capped next, h.range, h.chain,
    fun old last => .inr (due old last), fun _ _ _ => due, by simp⟩

/-- The signed bid is published behind the others. -/
theorem Bidding.publishes {first : Bool} {reply : Pending (Except Stop (List UInt8))}
    (h : Bidding p bids e) (signing : e.phase = .signing first reply) (raw : List UInt8) :
    Bidding p (bids ++ [e.book.bid]) (e.handOut raw) where
  positive := h.positive
  capped := h.capped
  range bid listed := by
    rcases List.mem_append.mp listed with old | new
    · exact h.range bid old
    · obtain rfl := List.mem_singleton.mp new
      exact ⟨h.positive, h.capped⟩
  chain := by
    rw [List.isChain_append]
    refine ⟨h.chain, List.isChain_singleton _, ?_⟩
    -- What is being signed may follow whatever was published before it.
    intro old last new only
    obtain rfl : e.book.bid = new := by simpa using only
    exact h.due first reply signing old last
  last bid last := .inl (by simpa [eq_comm, handOut] using last)
  due _ _ phase := by simp [handOut] at phase
  fresh phase := by simp [handOut] at phase

variable {desk : Desk σ} {limits : Limits} {now : Nat} {calls : List Inquiry}

/-- A move that publishes nothing keeps the bids in order. -/
theorem Move.bidding_of_quiet (h : Bidding desk.policy.pricing bids e)
    (move : Move desk limits now e calls (.running e')) (quiet : e.handedOut e' = []) :
    Bidding desk.policy.pricing bids e' := by
  cases move with
  | opens phase _ => exact h.opens phase _
  | @receives event _ _ _ _ _ => exact h.of_quiet (e.book.received_bid event) (.inl rfl)
  | folds _ _ _ _ folded =>
    obtain ⟨accepted, tooLow, rfl⟩ := Book.fold_ok folded
    exact h.of_quiet rfl (.inl rfl)
  | prices _ _ _ _ => exact h.of_quiet rfl (.inr (.inr ⟨_, rfl⟩))
  | rests _ _ _ | defers _ _ _ => exact h.of_quiet rfl (.inr (.inl rfl))
  | repeats _ _ next _ => exact h.raises next e.book.attempt _
  | raises _ _ next _ _ => exact h.raises next _ _
  | publishes _ _ => simp at quiet
  | holds _ _ _ | tracks _ | sends _ _ | answers _ _ => exact h.of_quiet rfl (.inl rfl)

/-- **Every move keeps the bids in order**, those that it publishes included. -/
theorem Move.bidding (h : Bidding desk.policy.pricing bids e)
    (move : Move desk limits now e calls (.running e')) :
    Bidding desk.policy.pricing (bids ++ (e.handedOut e').map (·.gasPrice)) e' := by
  rcases move.handedOut with quiet | ⟨first, reply, raw, signing, -, -, rfl, shown⟩
  · rw [quiet, List.map_nil, List.append_nil]
    exact move.bidding_of_quiet h quiet
  · rw [shown]
    exact h.publishes signing raw

/-- The escalation begins at the initial bid, with nothing published. -/
theorem bidding_of_firstBid {s : Send} {lease : Lease} {gasLimit suggested : Amount}
    (floor : 1 ≤ desk.policy.maxGasPrice.toNat)
    (h : Send.firstBid desk now s lease gasLimit suggested = .ok e) :
    Bidding desk.policy.pricing [] e ∧ e.phase = .opening ∧ e.call = s.call ∧
      e.nonce = lease.nonce ∧ e.gasLimit = gasLimit := by
  obtain ⟨bid, first, rfl⟩ := Send.firstBid_ok h
  have value := Pricing.nextBid_first first
  have ceiling : desk.policy.pricing.ceiling.toNat = desk.policy.maxGasPrice.toNat := rfl
  have positive : 1 ≤ bid.toNat := by omega
  have capped : bid.toNat ≤ desk.policy.pricing.ceiling.toNat := by omega
  exact ⟨⟨positive, capped, by simp, .nil, by simp, by simp, by simp⟩, rfl, rfl, rfl, rfl⟩

end Escalation

/-! ### Signed calls -/

namespace Send

variable {desk : Desk σ} {call : Call} {trail later : List Event} {limit : Amount} {s s' : Send}

/-- The gas limit is the call's own, or else `paddedLimit` of an estimate in the trail. -/
def LimitOf (desk : Desk σ) (call : Call) (trail : List Event) (limit : Amount) : Prop :=
  match call.gasLimit with
  | some word => limit = .ofWord word
  | none => ∃ reply estimate,
      .asked (.estimate (call.toEstimate desk.signer.address) reply) ∈ trail ∧
      reply.answer = .ok estimate ∧
      limit.toNat = estimate.toNat + estimate.toNat * desk.policy.limitPercent.toNat / 100

/-- A candidate is the call at one nonce and one gas limit: its bytes are the signer's reply to just
    that transaction, at the candidate's own bid. -/
structure Carries (desk : Desk σ) (call : Call) (trail : List Event) (nonce : UInt64)
    (limit : Amount) (c : Candidate) : Prop where
  atNonce : c.nonce = nonce
  atLimit : c.gasLimit = limit
  hash : c.hash = Keccak.hash c.raw
  signed : ∃ t reply, .asked (.sign desk.chainId t reply) ∈ trail ∧ reply.answer = .ok c.raw ∧
    t = { sender := some desk.signer.address
          recipient := some call.recipient
          value := some call.value
          data := some call.data
          nonce := some (.ofWord nonce)
          gas := some limit
          gasPrice := some c.gasPrice
          chainId := some desk.chainId }

/-- A longer trail has the same gas limit. -/
theorem LimitOf.append (h : LimitOf desk call trail limit) :
    LimitOf desk call (trail ++ later) limit := by
  unfold LimitOf at h ⊢
  split
  next word own => simpa [own] using h
  next own =>
    simp only [own] at h
    obtain ⟨reply, estimate, asked, rest⟩ := h
    exact ⟨reply, estimate, List.mem_append_left _ asked, rest⟩

/-- A longer trail has the same candidates. -/
theorem Carries.append {nonce : UInt64} {c : Candidate}
    (h : Carries desk call trail nonce limit c) :
    Carries desk call (trail ++ later) nonce limit c := by
  obtain ⟨t, reply, asked, rest⟩ := h.signed
  exact ⟨h.atNonce, h.atLimit, h.hash, t, reply, List.mem_append_left _ asked, rest⟩

/-- The trail of an escalation fits its state. -/
structure Standing (desk : Desk σ) (call : Call) (trail : List Event) (lease : Lease)
    (e : Escalation) : Prop where
  ofCall : e.call = call
  atNonce : e.nonce = lease.nonce
  limit : LimitOf desk call trail e.gasLimit
  signing : ∀ first reply, e.phase = .signing first reply →
    .asked (.sign desk.chainId (e.transaction desk) reply) ∈ trail
  carries : ∀ c ∈ published trail, Carries desk call trail lease.nonce e.gasLimit c
  bidding : e.Bidding desk.policy.pricing ((published trail).map (·.gasPrice))

/-- The trail of a send fits its phase. -/
def Account (desk : Desk σ) (call : Call) (trail : List Event) (s : Send) : Prop :=
  s.call = call ∧
  match s.phase with
  | .leasing _ => granted trail = [] ∧ published trail = []
  | .estimating lease question =>
    granted trail = [lease] ∧ published trail = [] ∧ call.gasLimit = none ∧
      ∀ reply, question = .asking reply →
        .asked (.estimate (call.toEstimate desk.signer.address) reply) ∈ trail
  | .pricing lease limit _ =>
    granted trail = [lease] ∧ published trail = [] ∧ LimitOf desk call trail limit
  | .escalating lease e => granted trail = [lease] ∧ Standing desk call trail lease e

/-- A move of an escalation keeps `Standing`. -/
theorem Standing.move {lease : Lease} {e e' : Escalation} {limits : Limits} {now : Nat}
    {calls : List Inquiry} (h : Standing desk call trail lease e)
    (move : Escalation.Move desk limits now e calls (.running e'))
    (shown : ∀ i ∈ calls, .asked i ∈ later) (handed : published later = e.handedOut e') :
    Standing desk call (trail ++ later) lease e' := by
  obtain ⟨sameCall, sameNonce, sameLimit⟩ := move.fixed
  have carried : ∀ c ∈ e.handedOut e', Carries desk call trail lease.nonce e.gasLimit c := by
    rcases move.handedOut with quiet | ⟨first, reply, raw, signing, ready, -, -, candidate⟩
    · simp [quiet]
    · -- The signature that has come was asked for at the bid of the books.
      intro c listed
      rw [candidate, List.mem_singleton] at listed
      subst listed
      refine ⟨h.atNonce, rfl, rfl, e.transaction desk, reply, h.signing first reply signing,
        Pending.answer_of_ready ready, ?_⟩
      rw [← h.ofCall, ← h.atNonce]
      rfl
  refine ⟨sameCall.trans h.ofCall, sameNonce.trans h.atNonce, ?_, ?_, ?_, ?_⟩
  · rw [sameLimit]
    exact h.limit.append
  · intro first reply signing
    rcases move.signing signing with ⟨before, same⟩ | asked
    · rw [same]
      exact List.mem_append_left _ (h.signing first reply before)
    · exact List.mem_append_right _ (shown _ asked)
  · intro c listed
    rw [sameLimit]
    rw [published_append, handed, List.mem_append] at listed
    rcases listed with old | new
    · exact (h.carries c old).append
    · exact (carried c new).append
  · rw [published_append, handed, List.map_append]
    exact move.bidding h.bidding

/-- Behind the acquisition the send estimates its gas, or has the limit of its call. -/
theorem account_afterLease {lease : Lease} (ofCall : s.call = call)
    (granted' : granted trail = [lease]) (published' : published trail = []) :
    Account desk call trail { s with phase := s.afterLease lease } := by
  refine ⟨ofCall, ?_⟩
  subst ofCall
  cases own : s.call.gasLimit with
  | some word => simpa [afterLease, own, LimitOf] using ⟨granted', published'⟩
  | none => simpa [afterLease, own] using ⟨granted', published'⟩

variable {limits : Limits} {now : Nat} {l l' : Leases} {calls : List Inquiry}

/-- A step that keeps acquiring shows nothing but calls. -/
theorem Account.waits {a a' : Leasing} (h : Account desk call trail s)
    (phase : s.phase = .leasing a) :
    Account desk call (trail ++ s.shown calls (.running { s with phase := .leasing a' }))
      { s with phase := .leasing a' } := by
  obtain ⟨ofCall, h⟩ := h
  simp only [phase] at h
  refine ⟨ofCall, ?_⟩
  simpa [gained, handedOut, lease?, phase] using h

/-- The lease is shown when it is granted, and nothing else is. -/
theorem Account.begins {a : Leasing} {lease : Lease} (h : Account desk call trail s)
    (phase : s.phase = .leasing a) :
    Account desk call (trail ++ s.shown calls (.running { s with phase := s.afterLease lease }))
      { s with phase := s.afterLease lease } := by
  obtain ⟨ofCall, h⟩ := h
  simp only [phase] at h
  apply account_afterLease ofCall
  · rw [granted_append, h.1, granted_shown]
    have unleased : s.lease? = none := by simp [lease?, phase]
    simp [gained, unleased]
  · rw [published_append, h.2, published_shown]
    simp [handedOut, phase]

/-- The escalation begins with nothing published. -/
theorem Account.bids {lease : Lease} {q : Retry Amount} {suggested : Amount} {e : Escalation}
    (floor : 1 ≤ desk.policy.maxGasPrice.toNat) (h : Account desk call trail s)
    (phase : s.phase = .pricing lease limit q)
    (first : firstBid desk now s lease limit suggested = .ok e) :
    Account desk call
      (trail ++ s.shown calls (.running { s with phase := .escalating lease e }))
      { s with phase := .escalating lease e } := by
  obtain ⟨ofCall, h⟩ := h
  simp only [phase] at h
  obtain ⟨bidding, opening, sameCall, sameNonce, rfl⟩ :=
    Escalation.bidding_of_firstBid floor first
  have none : published
      (trail ++ s.shown calls (.running { s with phase := .escalating lease e })) = [] := by
    rw [published_append, h.2.1, published_shown]
    simp [handedOut, phase]
  refine ⟨ofCall, ?_, sameCall.trans ofCall, sameNonce, h.2.2.append, ?_, ?_, ?_⟩
  · simp [h.1, gained, lease?, phase]
  · simp [opening]
  · simp [none]
  · simpa [none] using bidding

/-- **Every move of a send keeps `Account`.** -/
theorem Account.move (floor : 1 ≤ desk.policy.maxGasPrice.toNat)
    (h : Account desk call trail s) (move : Move desk limits now s l calls (.running s') l') :
    Account desk call (trail ++ s.shown calls (.running s')) s' := by
  cases move with
  | joins phase | reads phase _ _ _ | retries phase _ _ | resumes phase _ => exact h.waits phase
  | inherits phase _ _ | learns phase _ => exact h.begins phase
  -- The estimate is asked for once the lease is held, and what is asked is in the trail.
  | @estimates lease q q' calls phase move =>
    obtain ⟨ofCall, h⟩ := h
    simp only [phase] at h
    obtain ⟨sameLease, none, own, asked⟩ := h
    refine ⟨ofCall, ?_, ?_, own, ?_⟩
    · simp [sameLease, gained, lease?, phase]
    · simp [none, handedOut, phase]
    · rintro reply rfl
      rcases move.calls_eq with rfl | ⟨reply', rfl, -, same⟩
      · cases move
      · cases same
        rw [ofCall]
        exact List.mem_append_right _ (asked_mem_shown.mpr (List.mem_singleton_self _))
  | @pads lease q estimate gasLimit calls phase move padded =>
    obtain ⟨ofCall, h⟩ := h
    simp only [phase] at h
    obtain ⟨sameLease, none, own, asked⟩ := h
    cases move with
    | @answers reply _ ready =>
      refine ⟨ofCall, ?_, ?_, ?_⟩
      · simp [sameLease, gained, lease?, phase]
      · simp [none, handedOut, phase]
      · simp only [LimitOf, own]
        exact ⟨reply, estimate, List.mem_append_left _ (asked reply rfl),
          Pending.answer_of_ready ready, Pricing.paddedLimit_toNat padded⟩
  | prices phase move =>
    obtain ⟨ofCall, h⟩ := h
    simp only [phase] at h
    refine ⟨ofCall, ?_, ?_, h.2.2.append⟩
    · simp [h.1, gained, lease?, phase]
    · simp [h.2.1, handedOut, phase]
  | bids phase move first => exact h.bids floor phase first
  -- The turn is not part of what `Standing` says, so it can be changed first.
  | @escalates lease e e' turn calls phase move =>
    obtain ⟨ofCall, h⟩ := h
    simp only [phase] at h
    obtain ⟨sameLease, standing⟩ := h
    have turned : Standing desk call trail lease { e with turn } :=
      ⟨standing.ofCall, standing.atNonce, standing.limit, standing.signing, standing.carries,
        standing.bidding.of_quiet rfl (.inl rfl)⟩
    refine ⟨ofCall, ?_, turned.move move (fun i asked => asked_mem_shown.mpr asked) ?_⟩
    · simp [sameLease, gained, lease?, phase]
    · rw [published_shown]
      simp only [handedOut, phase]
      rfl

/-- Rescheduling keeps `Account`. -/
theorem Account.reschedule (h : Account desk call trail s) (order : s.Rescheduled s') :
    Account desk call trail s' := by
  obtain ⟨lease, e, turn, outstanding, phase, -, rfl⟩ := order
  obtain ⟨ofCall, h⟩ := h
  simp only [phase] at h
  obtain ⟨sameLease, standing⟩ := h
  exact ⟨ofCall, sameLease, standing.ofCall, standing.atNonce, standing.limit, standing.signing,
    standing.carries, standing.bidding.of_quiet rfl (.inl rfl)⟩

/-- `Account` holds all along a run. -/
theorem Run.account (valid : desk.policy.validate = .ok ()) (run : Run desk call trail s) :
    Account desk call trail s :=
  run.induction (fun _ => ⟨rfl, rfl, rfl⟩) (fun _ _ _ h order => h.reschedule order)
    fun h move => h.move (Policy.maxGasPrice_pos valid) move

/-- A send that has published a candidate is escalating. -/
theorem Account.escalating (h : Account desk call trail s) (any : published trail ≠ []) :
    ∃ lease e, granted trail = [lease] ∧ Standing desk call trail lease e := by
  obtain ⟨-, h⟩ := h
  split at h
  next => exact absurd h.2 any
  next => exact absurd h.2.1 any
  next => exact absurd h.2.1 any
  next lease e _ => exact ⟨lease, e, h⟩

/-- **The candidates of a send.**
    * Only published candidates are broadcast.
    * All of them are the call at the leased nonce and at one gas limit, signed.
    * Every bid lies between one wei and `maxGasPrice`.
    * Successive bids have `min maxGasPrice (bid + max 1 (bid * bumpPercent / 100)) ≤ bid'`, and are
      equal only at `maxGasPrice`. -/
theorem Run.candidates (valid : desk.policy.validate = .ok ()) (run : Run desk call trail s) :
    (∀ c reply, .asked (.broadcast c reply) ∈ trail → c ∈ published trail) ∧
    (published trail ≠ [] → ∃ lease limit, granted trail = [lease] ∧
      LimitOf desk call trail limit ∧
      ∀ c ∈ published trail, Carries desk call trail lease.nonce limit c) ∧
    (∀ c ∈ published trail,
      1 ≤ c.gasPrice.toNat ∧ c.gasPrice.toNat ≤ desk.policy.maxGasPrice.toNat) ∧
    ((published trail).map (·.gasPrice)).IsChain fun bid bid' =>
      min desk.policy.maxGasPrice.toNat
        (bid.toNat + max 1 (bid.toNat * desk.policy.bumpPercent.toNat / 100)) ≤ bid'.toNat ∧
      (bid' = bid → bid = desk.policy.maxGasPrice) := by
  refine ⟨fun c reply => run.published_of_broadcast, ?_⟩
  by_cases none : published trail = []
  · simp [none]
  obtain ⟨lease, e, sameLease, standing⟩ := (run.account valid).escalating none
  refine ⟨fun _ => ⟨lease, e.gasLimit, sameLease, standing.limit, standing.carries⟩, ?_, ?_⟩
  · intro c listed
    exact standing.bidding.range c.gasPrice (List.mem_map_of_mem listed)
  · exact standing.bidding.chain.imp fun _ _ follows => ⟨follows.raised, follows.same⟩

/-- A send with two candidates: both are the call at the same nonce, and the second bid is ten
    percent above the first. -/
theorem Run.two_candidates : ∃ (trail : List Event) (s : Send),
    Run Errand.bare.desk Errand.bare.call trail s ∧
    published trail = [Errand.bare.candidate .suggested, Errand.bare.candidate .raised] ∧
    (∃ lease limit, granted trail = [lease] ∧
      ∀ c ∈ published trail, Carries Errand.bare.desk Errand.bare.call trail lease.nonce limit c) ∧
    min 30 (20 + max 1 (20 * 10 / 100)) ≤ 22 := by
  obtain ⟨trail, e, run, both⟩ := Errand.bare_fits.raises
  have any : published trail ≠ [] := by
    rw [both]
    exact List.cons_ne_nil _ _
  obtain ⟨-, carried, -, chain⟩ := run.candidates Policy.validate_brisk
  obtain ⟨lease, limit, sameLease, -, carries⟩ := carried any
  refine ⟨trail, _, run, both, ⟨lease, limit, sameLease, carries⟩, ?_⟩
  rw [both] at chain
  exact (List.isChain_cons_cons.mp chain).1.1

end Send

end Relayer
