import Relayer.Proofs.Send.Rounds

namespace Relayer

/-!
# Moves — what one step of an escalation can be

The submission loop, the tracker and the broadcast tasks of one nonce each have a few steps.  This
file says once what a single step does, so that no later proof opens `loopStep`, `trackerStep` or
`broadcastStep`.

* `Escalation.Move` — the steps of all three, each with its condition and the calls it makes;
* `Escalation.move_of_step` — there are no others, whoever's turn it is.
-/

variable {σ : Type}

/-- The send state after an event of the tracker that does not end the send. -/
def Book.received (b : Book) : TrackerEvent → Book
  | .inMempool _ => { b with seen := true }
  | .mined hash _ => b.noteMined hash
  | .reorged hash => b.noteReorged hash
  | .confirmed _ => b

namespace Escalation

/-- The transaction that is signed at the current bid. -/
def transaction (desk : Desk σ) (e : Escalation) : Transaction :=
  e.call.toTransaction desk.signer.address desk.chainId e.nonce e.gasLimit e.book.bid

/-- The state with the next bid and attempt of an escalation. -/
def raised (e : Escalation) (bid : Amount) (attempt : Nat) : Escalation :=
  { e with book := { e.book with bid, attempt } }

/-- The candidate of the signed bytes `raw`. -/
def candidate (e : Escalation) (raw : List UInt8) : Candidate :=
  .ofSigned e.nonce e.book.bid e.gasLimit raw

/-- The candidate of `raw` is watched, counted as published and handed out for broadcast. -/
def handOut (e : Escalation) (raw : List UInt8) : Escalation :=
  { e with
    phase := .listening
    tracker := e.tracker.watch (e.candidate raw).hash
    book := { e.book with published := e.book.published + 1 }
    outstanding := e.outstanding ++ [.queued (e.candidate raw)] }

/-- The suggestion, or the current bid where it failed. -/
def priceOr (e : Escalation) : Except Failure Amount → Amount
  | .ok price => price
  | .error _ => e.book.bid

/-- What one step of an escalation can be, with the calls it makes and what it leads to. -/
inductive Move (desk : Desk σ) (limits : Limits) (now : Nat) (e : Escalation) :
    List Inquiry → Outcome → Prop where
  /-- The first candidate goes to the signer. -/
  | opens {reply} (phase : e.phase = .opening)
      (genuine : (Inquiry.sign desk.chainId (e.transaction desk) reply).Genuine desk) :
      Move desk limits now e [.sign desk.chainId (e.transaction desk) reply]
        (.running { e with phase := .signing true reply })
  /-- The token is cancelled: the send ends with `cancelled`, unless its first candidate is being
      signed. -/
  | cancels (cancelled : limits.cancelled = true) (started : e.phase ≠ .opening)
      (later : ∀ reply, e.phase ≠ .signing true reply) :
      Move desk limits now e [] (fails .cancelled)
  | receives {event rest} (phase : e.phase = .listening) (going : limits.cancelled = false)
      (inbox : e.inbox = event :: rest) (shallow : ∀ receipt, event ≠ .confirmed receipt) :
      Move desk limits now e []
        (.running { e with inbox := rest, book := e.book.received event })
  /-- The tracker emitted `confirmed`: the send ends with the receipt. -/
  | confirms {receipt rest} (phase : e.phase = .listening) (going : limits.cancelled = false)
      (inbox : e.inbox = .confirmed receipt :: rest) :
      Move desk limits now e [] (.ended (.ok receipt))
  | closes (phase : e.phase = .listening) (going : limits.cancelled = false)
      (inbox : e.inbox = []) (closed : e.tracker.isClosed = true) :
      Move desk limits now e [] (fails (.internal "receipt tracker stopped"))
  | folds {a rest book} (phase : e.phase = .listening) (going : limits.cancelled = false)
      (inbox : e.inbox = []) (answered : e.answered = a :: rest)
      (folded : e.book.fold desk.policy e.nonce a.bid a.verdict = .ok book) :
      Move desk limits now e [] (.running { e with answered := rest, book })
  /-- The answer to a broadcast is folded into an error, which ends the send. -/
  | condemns {a rest f} (phase : e.phase = .listening) (going : limits.cancelled = false)
      (inbox : e.inbox = []) (answered : e.answered = a :: rest)
      (folded : e.book.fold desk.policy e.nonce a.bid a.verdict = .error f) :
      Move desk limits now e [] (fails f)
  | expires (phase : e.phase = .listening) (inbox : e.inbox = []) (answered : e.answered = [])
      (late : isPast limits.deadline now = true) :
      Move desk limits now e [] (fails .timedOut)
  /-- The mempool deadline expires and no candidate was seen: the send ends with `notInMempool`. -/
  | vanishes (phase : e.phase = .listening) (inbox : e.inbox = []) (answered : e.answered = [])
      (unseen : e.book.seen = false) (late : e.mempoolDeadline desk.policy ≤ now) :
      Move desk limits now e [] (fails (.notInMempool (now - e.started)))
  /-- A resubmission tick is due while a candidate is mined: no escalation. -/
  | holds {ticker} (phase : e.phase = .listening) (due : e.ticker.tick? now = some ticker)
      (mined : e.book.mined.isEmpty = false) :
      Move desk limits now e [] (.running { e with ticker })
  | prices {ticker reply} (phase : e.phase = .listening) (due : e.ticker.tick? now = some ticker)
      (mined : e.book.mined.isEmpty = true) (genuine : (Inquiry.gasPrice reply).Genuine desk) :
      Move desk limits now e [.gasPrice reply]
        (.running { e with ticker, phase := .pricing reply })
  /-- The next bid is the current one, and it was accepted already. -/
  | rests {reply suggested} (phase : e.phase = .pricing reply)
      (ready : reply.ready? now = some suggested)
      (accepted : e.book.accepted = some e.book.bid) :
      Move desk limits now e [] (.running { e with phase := .listening })
  /-- The next bid is the current one, not accepted yet: it is signed once more. -/
  | repeats {reply suggested reply'} (phase : e.phase = .pricing reply)
      (ready : reply.ready? now = some suggested)
      (next : desk.policy.pricing.nextBid e.book.bid (e.book.attempt + 1)
        (e.priceOr suggested) = .ok e.book.bid)
      (genuine : (Inquiry.sign desk.chainId (e.transaction desk) reply').Genuine desk) :
      Move desk limits now e [.sign desk.chainId (e.transaction desk) reply']
        (.running { e with phase := .signing false reply' })
  /-- The next bid is higher: the attempt is counted, and the bid goes to the signer. -/
  | raises {reply suggested bid reply'} (phase : e.phase = .pricing reply)
      (ready : reply.ready? now = some suggested)
      (next : desk.policy.pricing.nextBid e.book.bid (e.book.attempt + 1)
        (e.priceOr suggested) = .ok bid)
      (higher : bid ≠ e.book.bid)
      (genuine : (Inquiry.sign desk.chainId
        ((e.raised bid (e.book.attempt + 1)).transaction desk) reply').Genuine desk) :
      Move desk limits now e
        [.sign desk.chainId ((e.raised bid (e.book.attempt + 1)).transaction desk) reply']
        (.running { e.raised bid (e.book.attempt + 1) with phase := .signing false reply' })
  | overflows {reply f} (phase : e.phase = .pricing reply) :
      Move desk limits now e [] (breaks f)
  /-- The signed bytes are there: the candidate is published. -/
  | publishes {first reply raw} (phase : e.phase = .signing first reply)
      (ready : reply.ready? now = some (.ok raw)) :
      Move desk limits now e [] (.running (e.handOut raw))
  /-- Signing fails with a retryable failure. -/
  | defers {first reply f} (phase : e.phase = .signing first reply)
      (ready : reply.ready? now = some (.error (.failure f))) (passing : f.isRetryable = true) :
      Move desk limits now e [] (.running { e with phase := .listening })
  | refuses {first reply f} (phase : e.phase = .signing first reply)
      (ready : reply.ready? now = some (.error (.failure f))) (final : f.isRetryable = false) :
      Move desk limits now e [] (fails f)
  | collapses {first reply f} (phase : e.phase = .signing first reply)
      (ready : reply.ready? now = some (.error (.fault f))) :
      Move desk limits now e [] (breaks f)
  | tracks {calls tracker event}
      (move : e.tracker.Move desk now (e.inbox.length < inboxSize) calls tracker event) :
      Move desk limits now e calls
        (.running { e with tracker, inbox := e.inbox ++ event.toList })
  /-- A broadcast task sends its candidate to the node. -/
  | sends {earlier c later reply} (outstanding : e.outstanding = earlier ++ .queued c :: later)
      (genuine : (Inquiry.broadcast c reply).Genuine desk) :
      Move desk limits now e [.broadcast c reply]
        (.running { e with outstanding := earlier ++ .sent c.gasPrice c.hash reply :: later })
  | answers {earlier bid hash reply later verdict}
      (outstanding : e.outstanding = earlier ++ .sent bid hash reply :: later)
      (ready : reply.ready? now = some verdict) :
      Move desk limits now e []
        (.running { e with
          outstanding := earlier ++ later
          answered := e.answered ++ [⟨bid, hash, verdict⟩] })

variable {desk : Desk σ} {limits : Limits} {now : Nat} {e : Escalation} {out : Outcome}
  {outside outside' : σ} {log log' : List Inquiry}

/-! ### The loop -/

/-- `afterPricing` uses `priceOr`. -/
theorem afterPricing_eq {τ : Type} (desk : Desk τ) (now : Nat) (e : Escalation)
    (suggested : Except Failure Amount) (outside : τ) :
    e.afterPricing desk now suggested outside =
      e.afterPricing desk now (.ok (e.priceOr suggested)) outside := by
  cases suggested <;> rfl

/-- `afterPricing` leads to `rests`, `repeats`, `raises`, `overflows` or a fault. -/
theorem move_of_afterPricing {reply : Pending (Except Failure Amount)}
    {suggested : Except Failure Amount} (phase : e.phase = .pricing reply)
    (ready : reply.ready? now = some suggested)
    (h : e.afterPricing desk.noted now suggested (outside, log) = (out, outside', log')) :
    ∃ calls, log' = log ++ calls ∧ Move desk limits now e calls out := by
  rw [afterPricing_eq] at h
  simp only [afterPricing, Desk.noted_policy, countUp] at h
  by_cases room : e.book.attempt + 1 < UInt32.size
  · simp only [if_pos room, bind, Except.bind, pure, Except.pure] at h
    cases next : desk.policy.pricing.nextBid e.book.bid (e.book.attempt + 1)
        (e.priceOr suggested) with
    | error f =>
      simp only [next, Prod.mk.injEq] at h
      obtain ⟨rfl, rfl, rfl⟩ := h
      exact ⟨[], by simp, .overflows phase⟩
    | ok bid =>
      simp only [next] at h
      split at h
      -- The bid stays where it is: an accepted candidate is not signed again.
      next same =>
        subst same
        split at h
        next accepted =>
          simp only [Prod.mk.injEq] at h
          obtain ⟨rfl, rfl, rfl⟩ := h
          exact ⟨[], by simp, .rests phase ready accepted⟩
        next =>
          simp only [publish, Desk.noted, Signer.noted, Call.Effect.noted, Prod.mk.injEq] at h
          obtain ⟨rfl, rfl, rfl⟩ := h
          exact ⟨_, rfl, .repeats phase ready next ⟨now, outside, rfl⟩⟩
      next higher =>
        simp only [publish, Desk.noted, Signer.noted, Call.Effect.noted, Prod.mk.injEq] at h
        obtain ⟨rfl, rfl, rfl⟩ := h
        exact ⟨_, rfl, .raises phase ready next higher ⟨now, outside, rfl⟩⟩
  · simp only [if_neg room, bind, Except.bind, Prod.mk.injEq] at h
    obtain ⟨rfl, rfl, rfl⟩ := h
    exact ⟨[], by simp, .overflows phase⟩

/-- What `listen` selects is a move. -/
theorem move_of_listen (phase : e.phase = .listening)
    (h : e.listen desk.noted limits now (outside, log) = some (out, outside', log')) :
    ∃ calls, log' = log ++ calls ∧ Move desk limits now e calls out := by
  -- The branches stand in the order of `listen`: token, tracker, answers, deadline, mempool
  -- timeout, tick.
  unfold listen at h
  split at h
  next cancelled =>
    obtain ⟨rfl, rfl, rfl⟩ := by simpa using h
    exact ⟨[], by simp, .cancels cancelled (by simp [phase]) (by simp [phase])⟩
  next going =>
    replace going : limits.cancelled = false := by simpa using going
    split at h
    next event rest inbox =>
      simp only [Option.some.injEq, Prod.mk.injEq] at h
      obtain ⟨rfl, rfl, rfl⟩ := h
      refine ⟨[], by simp, ?_⟩
      cases event with
      | inMempool hash => exact .receives phase going inbox (by simp)
      | mined hash block => exact .receives phase going inbox (by simp)
      | reorged hash => exact .receives phase going inbox (by simp)
      | confirmed receipt => exact .confirms phase going inbox
    next inbox =>
      split at h
      next closed =>
        obtain ⟨rfl, rfl, rfl⟩ := by simpa using h
        exact ⟨[], by simp, .closes phase going inbox closed⟩
      next =>
        split at h
        next a rest answered =>
          simp only [Option.some.injEq, Prod.mk.injEq, onBroadcast, Desk.noted_policy] at h
          obtain ⟨rfl, rfl, rfl⟩ := h
          refine ⟨[], by simp, ?_⟩
          cases folded : e.book.fold desk.policy e.nonce a.bid a.verdict with
          | ok book => exact .folds phase going inbox answered folded
          | error f => exact .condemns phase going inbox answered folded
        next answered =>
          split at h
          next late =>
            obtain ⟨rfl, rfl, rfl⟩ := by simpa using h
            exact ⟨[], by simp, .expires phase inbox answered late⟩
          next =>
            split at h
            next late =>
              obtain ⟨rfl, rfl, rfl⟩ := by simpa using h
              simp only [Bool.and_eq_true, Bool.not_eq_true', decide_eq_true_eq] at late
              exact ⟨[], by simp, .vanishes phase inbox answered late.1 late.2⟩
            next =>
              split at h
              next ticker due =>
                simp only [escalate, Option.some.injEq] at h
                split at h
                next mined =>
                  simp only [Desk.noted_chain, Chain.noted, Call.Effect.noted,
                    Prod.mk.injEq] at h
                  obtain ⟨rfl, rfl, rfl⟩ := h
                  exact ⟨_, rfl, .prices phase due mined ⟨now, outside, rfl⟩⟩
                next mined =>
                  simp only [Prod.mk.injEq] at h
                  obtain ⟨rfl, rfl, rfl⟩ := h
                  exact ⟨[], by simp, .holds phase due (by simpa using mined)⟩
              next => cases h

/-- A step of the loop is a move. -/
theorem move_of_loopStep
    (h : e.loopStep desk.noted limits now (outside, log) = some (out, outside', log')) :
    ∃ calls, log' = log ++ calls ∧ Move desk limits now e calls out := by
  unfold loopStep at h
  split at h
  next phase =>
    simp only [publish, Desk.noted, Signer.noted, Call.Effect.noted, Option.some.injEq,
      Prod.mk.injEq] at h
    obtain ⟨rfl, rfl, rfl⟩ := h
    exact ⟨_, rfl, .opens phase ⟨now, outside, rfl⟩⟩
  next phase => exact move_of_listen phase h
  next reply phase =>
    split at h
    next cancelled =>
      obtain ⟨rfl, rfl, rfl⟩ := by simpa using h
      exact ⟨[], by simp, .cancels cancelled (by simp [phase]) (by simp [phase])⟩
    next =>
      split at h
      next suggested ready =>
        exact move_of_afterPricing phase ready (Option.some.inj h)
      next => cases h
  -- A signature races the token unless it is the first.
  next first reply phase =>
    split at h
    next cancelled =>
      simp only [Bool.and_eq_true, Bool.not_eq_true'] at cancelled
      obtain ⟨rfl, rfl, rfl⟩ := by simpa using h
      exact ⟨[], by simp, .cancels cancelled.1 (by simp [phase]) (by simp [phase, cancelled.2])⟩
    next =>
      split at h
      next signed ready =>
        obtain ⟨rfl, rfl, rfl⟩ := by simpa using h
        refine ⟨[], by simp, ?_⟩
        cases signed with
        | ok raw => exact .publishes phase ready
        | error why =>
          cases why with
          | fault f => exact .collapses phase ready
          | failure f =>
            by_cases passing : f.isRetryable = true
            · simpa [afterSigning, passing] using Move.defers phase ready passing
            · simpa [afterSigning, passing] using
                Move.refuses phase ready (by simpa using passing)
      next => cases h

/-! ### The tracker and the broadcasts -/

/-- A step of the tracker is a move. -/
theorem move_of_trackerStep
    (h : e.trackerStep desk.noted now (outside, log) = some (out, outside', log')) :
    ∃ calls, log' = log ++ calls ∧ Move desk limits now e calls out := by
  unfold trackerStep at h
  split at h
  next => cases h
  next tracker event world step =>
    obtain ⟨rfl, rfl⟩ := by simpa using h
    obtain ⟨calls, rfl, move⟩ := Tracker.move_of_step step
    exact ⟨calls, rfl, .tracks move⟩

/-- What `sendFirst` does: one task sends its candidate, or one returns its answer, and the others
    stay. -/
theorem sendFirst_cases {broadcasts broadcasts' : List Broadcast} {answer : Option Answer}
    (h : sendFirst desk.noted.chain now (outside, log) broadcasts =
      some (broadcasts', answer, outside', log')) :
    (∃ earlier c later reply, (Inquiry.broadcast c reply).Genuine desk ∧
      broadcasts = earlier ++ .queued c :: later ∧
      broadcasts' = earlier ++ .sent c.gasPrice c.hash reply :: later ∧ answer = none ∧
      log' = log ++ [.broadcast c reply]) ∨
    (∃ earlier bid hash reply later verdict, reply.ready? now = some verdict ∧
      broadcasts = earlier ++ .sent bid hash reply :: later ∧ broadcasts' = earlier ++ later ∧
      answer = some ⟨bid, hash, verdict⟩ ∧ log' = log) := by
  -- Broadcasts whose answers have not come are passed over and stay in front.
  induction broadcasts generalizing broadcasts' with
  | nil => cases h
  | cons b rest ih =>
    cases b with
    | queued c =>
      simp only [sendFirst, Desk.noted_chain, Chain.noted, Call.Effect.noted, Option.some.injEq,
        Prod.mk.injEq] at h
      obtain ⟨rfl, rfl, rfl, rfl⟩ := h
      exact .inl ⟨[], c, rest, _, ⟨now, outside, rfl⟩, rfl, rfl, rfl, rfl⟩
    | sent bid hash reply =>
      simp only [sendFirst] at h
      split at h
      next verdict ready =>
        simp only [Option.some.injEq, Prod.mk.injEq] at h
        obtain ⟨rfl, rfl, rfl, rfl⟩ := h
        exact .inr ⟨[], bid, hash, reply, rest, verdict, ready, rfl, rfl, rfl, rfl⟩
      next =>
        split at h
        next rest' answer' world step =>
          simp only [Option.some.injEq, Prod.mk.injEq] at h
          obtain ⟨rfl, rfl, rfl⟩ := h
          rcases ih step with ⟨earlier, c, later, reply', genuine, rfl, rfl, rfl, rfl⟩ |
            ⟨earlier, bid', hash', reply', later, verdict, ready, rfl, rfl, rfl, rfl⟩
          · exact .inl ⟨.sent bid hash reply :: earlier, c, later, reply', genuine, rfl, rfl, rfl,
              rfl⟩
          · exact .inr ⟨.sent bid hash reply :: earlier, bid', hash', reply', later, verdict,
              ready, rfl, rfl, rfl, rfl⟩
        next => cases h

/-- A step of the broadcasts is a move. -/
theorem move_of_broadcastStep
    (h : e.broadcastStep desk.noted now (outside, log) = some (out, outside', log')) :
    ∃ calls, log' = log ++ calls ∧ Move desk limits now e calls out := by
  unfold broadcastStep at h
  split at h
  next => cases h
  next outstanding answer world step =>
    obtain ⟨rfl, rfl⟩ := by simpa using h
    rcases sendFirst_cases step with ⟨earlier, c, later, reply, genuine, before, rfl, rfl, rfl⟩ |
      ⟨earlier, bid, hash, reply, later, verdict, ready, before, rfl, rfl, rfl⟩
    · exact ⟨_, rfl, by simpa using Move.sends before genuine⟩
    · exact ⟨[], by simp, .answers before ready⟩

/-! ### All three -/

/-- **Every step is a move** of the party whose turn it was or became. -/
theorem move_of_step
    (h : e.step desk.noted limits now (outside, log) = some (out, outside', log')) :
    ∃ turn calls, log' = log ++ calls ∧ Move desk limits now { e with turn } calls out := by
  obtain ⟨turn, -, h⟩ := List.exists_of_findSome?_eq_some h
  refine ⟨turn, ?_⟩
  cases turn with
  | loop => exact move_of_loopStep h
  | tracker => exact move_of_trackerStep h
  | broadcasts => exact move_of_broadcastStep h

/-! ### What a move shows -/

/-- The calls of a move get replies that the desk gives. -/
theorem Move.genuine {calls : List Inquiry} (move : Move desk limits now e calls out) :
    ∀ i ∈ calls, i.Genuine desk := by
  cases move
  case opens genuine | prices genuine | repeats genuine | raises genuine | sends genuine =>
    simpa using genuine
  case tracks move =>
    cases move
    case begins genuine | asks genuine | looks genuine => simpa using genuine
    all_goals simp
  all_goals simp

/-- A move changes neither the call nor the nonce nor the gas limit. -/
theorem Move.fixed {calls : List Inquiry} {e' : Escalation}
    (move : Move desk limits now e calls (.running e')) :
    e'.call = e.call ∧ e'.nonce = e.nonce ∧ e'.gasLimit = e.gasLimit := by
  cases move <;> exact ⟨rfl, rfl, rfl⟩

/-- The signature under way was asked for earlier, or is asked for by this move. -/
theorem Move.signing {calls : List Inquiry} {e' : Escalation}
    (move : Move desk limits now e calls (.running e')) {first : Bool}
    {reply : Pending (Except Stop (List UInt8))} (signing : e'.phase = .signing first reply) :
    (e.phase = .signing first reply ∧ e'.transaction desk = e.transaction desk) ∨
      .sign desk.chainId (e'.transaction desk) reply ∈ calls := by
  cases move with
  | opens _ _ | repeats _ _ _ _ | raises _ _ _ _ _ =>
    right
    obtain ⟨rfl, rfl⟩ := by simpa using signing
    exact List.mem_singleton_self _
  | @receives event _ phase _ _ _ => cases phase.symm.trans signing
  | folds phase _ _ _ _ | holds phase _ _ => cases phase.symm.trans signing
  | prices _ _ _ _ | rests _ _ _ | publishes _ _ | defers _ _ _ => cases signing
  | tracks _ | sends _ _ | answers _ _ => exact .inl ⟨signing, rfl⟩

/-- `handOut` publishes its candidate. -/
@[simp] theorem handedOut_handOut (e : Escalation) (raw : List UInt8) :
    e.handedOut (e.handOut raw) = [e.candidate raw] := by
  simp [handedOut, handOut, Broadcast.queued?]

/-- A move publishes nothing, or the candidate whose signature has arrived. -/
theorem Move.handedOut {calls : List Inquiry} {e' : Escalation}
    (move : Move desk limits now e calls (.running e')) :
    e.handedOut e' = [] ∨ ∃ first reply raw, e.phase = .signing first reply ∧
      reply.ready? now = some (.ok raw) ∧ calls = [] ∧ e' = e.handOut raw ∧
      e.handedOut e' = [e.candidate raw] := by
  generalize hout : Outcome.running e' = out at move
  cases move <;> cases hout
  case publishes first reply raw phase ready =>
    exact .inr ⟨first, reply, raw, phase, ready, rfl, rfl, e.handedOut_handOut raw⟩
  all_goals left
  case sends before _ => exact handedOut_of_length_le (by simp [before])
  case answers before _ => exact handedOut_of_length_le (by simp [before])
  all_goals exact handedOut_of_length_le (Nat.le_refl _)

/-- Only a queued candidate is broadcast. -/
theorem Move.queued_of_broadcast {calls : List Inquiry} {c : Candidate} {reply : Pending Verdict}
    (move : Move desk limits now e calls out) (asked : .broadcast c reply ∈ calls) :
    .queued c ∈ e.outstanding := by
  cases move
  case sends before _ =>
    obtain ⟨rfl, rfl⟩ := by simpa using asked
    simp [before]
  case tracks move => cases move <;> simp at asked
  all_goals simp at asked

/-- Only a candidate that is published by this move is newly queued. -/
theorem Move.queued {calls : List Inquiry} {e' : Escalation} {c : Candidate}
    (move : Move desk limits now e calls (.running e')) (waits : .queued c ∈ e'.outstanding) :
    .queued c ∈ e.outstanding ∨ c ∈ e.handedOut e' := by
  cases move with
  | publishes _ _ => simpa [Escalation.handedOut, handOut, Broadcast.queued?] using waits
  | sends before _ | answers before _ =>
    left
    simp only [before, List.mem_append, List.mem_cons, reduceCtorEq, false_or] at waits ⊢
    rcases waits with earlier | later
    · exact .inl earlier
    · exact .inr (by simp [later])
  | _ => exact .inl waits

end Escalation

end Relayer
