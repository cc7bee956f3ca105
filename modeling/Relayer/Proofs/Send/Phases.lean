import Relayer.Proofs.Send.Moves

namespace Relayer

/-!
# Phases — what one step of a send can be

A send acquires a lease, estimates its gas, asks for its initial bid, and then escalates.

* `Retry.Move` — the steps of one retried call;
* `Send.Move` — the steps of a whole send, with their calls and what they do to the slots;
* `Send.move_of_step` — there are no others;
* `Send.Run.induction` — a property that every move keeps holds all along a run.
-/

variable {σ : Type}

/-! ### Limits -/

/-- A limit interrupts a send with `cancelled` or `timedOut`. -/
theorem Limits.verdict_cases {limits : Limits} {now : Nat} {f : Failure}
    (h : limits.verdict now = some f) : f = .cancelled ∨ f = .timedOut := by
  unfold verdict at h
  split at h
  next => exact .inl (Option.some.inj h).symm
  next =>
    split at h
    next =>
      split at h
      next => exact .inr (Option.some.inj h).symm
      next => cases h
    next => cases h

/-! ### Questions -/

/-- What one step of a retried call can be, with the calls it makes. -/
inductive Retry.Move {α : Type} (note : Pending (Except Failure α) → Inquiry)
    (ask : Call.Effect σ (Except Failure α)) (limits : Limits) (now : Nat) :
    Retry α → List Inquiry → Retry.Outcome α → Prop where
  /-- The token is cancelled, or the deadline expires. -/
  | stops {r f} (verdict : limits.verdict now = some f) :
      Move note ask limits now r [] (.failed f)
  | asks {reply} (genuine : ∃ now outside, reply = (ask now outside).1) :
      Move note ask limits now .ready [note reply] (.waiting (.asking reply))
  | answers {reply a} (ready : reply.ready? now = some (.ok a)) :
      Move note ask limits now (.asking reply) [] (.answered a)
  | pauses {reply f resume} (ready : reply.ready? now = some (.error f))
      (passing : f.isRetryable = true) :
      Move note ask limits now (.asking reply) [] (.waiting (.pausing resume))
  | fails {reply f} (ready : reply.ready? now = some (.error f))
      (final : f.isRetryable = false) :
      Move note ask limits now (.asking reply) [] (.failed f)
  | resumes {resume} (due : resume ≤ now) :
      Move note ask limits now (.pausing resume) [] (.waiting .ready)

/-- A retried call asks the outside only from `ready`. -/
theorem Retry.Move.calls_eq {α : Type} {note : Pending (Except Failure α) → Inquiry}
    {ask : Call.Effect σ (Except Failure α)} {now : Nat} {limits : Limits} {r : Retry α}
    {calls : List Inquiry} {out : Retry.Outcome α}
    (move : Retry.Move note ask limits now r calls out) :
    calls = [] ∨ ∃ reply, calls = [note reply] ∧
      (∃ now outside, reply = (ask now outside).1) ∧ out = .waiting (.asking reply) := by
  cases move with
  | asks genuine => exact .inr ⟨_, rfl, genuine, rfl⟩
  | _ => exact .inl rfl

/-- A retried call fails with the verdict of its limits, or with the failure it got. -/
theorem Retry.Move.failed_cases {α : Type} {note : Pending (Except Failure α) → Inquiry}
    {ask : Call.Effect σ (Except Failure α)} {limits : Limits} {now : Nat} {r : Retry α}
    {calls : List Inquiry} {f : Failure} (move : Move note ask limits now r calls (.failed f)) :
    limits.verdict now = some f ∨ ∃ reply, r = .asking reply ∧ reply.answer = .error f := by
  cases move with
  | stops verdict => exact .inl verdict
  | fails ready _ => exact .inr ⟨_, rfl, Pending.answer_of_ready ready⟩

/-- Every step of a retried call is a move. -/
theorem Retry.move_of_step {α : Type} {note : Pending (Except Failure α) → Inquiry}
    {ask : Call.Effect σ (Except Failure α)} {interval now : Nat} {limits : Limits} {r : Retry α}
    {out : Retry.Outcome α} {outside outside' : σ} {log log' : List Inquiry}
    (h : r.step (Call.Effect.noted note ask) interval limits now (outside, log) =
      some (out, outside', log')) :
    ∃ calls, log' = log ++ calls ∧ Move note ask limits now r calls out := by
  unfold Retry.step at h
  split at h
  next f verdict =>
    obtain ⟨rfl, rfl, rfl⟩ := by simpa using h
    exact ⟨[], by simp, .stops verdict⟩
  next =>
    cases r with
    | ready =>
      simp only [Call.Effect.noted, Option.some.injEq, Prod.mk.injEq] at h
      obtain ⟨rfl, rfl, rfl⟩ := h
      exact ⟨_, rfl, .asks ⟨now, outside, rfl⟩⟩
    | asking reply =>
      simp only at h
      split at h
      next answer ready =>
        obtain ⟨rfl, rfl, rfl⟩ := by simpa using h
        refine ⟨[], by simp, ?_⟩
        -- `settle` decides by `isRetryable`, and the moves are named for what it decides.
        cases answer with
        | ok a => exact .answers ready
        | error f =>
          by_cases passing : f.isRetryable = true
          · simpa [settle, passing] using Move.pauses ready passing
          · simpa [settle, passing] using Move.fails ready (by simpa using passing)
      next => cases h
    | pausing resume =>
      simp only at h
      split at h
      next due =>
        obtain ⟨rfl, rfl, rfl⟩ := by simpa using h
        exact ⟨[], by simp, .resumes due⟩
      next => cases h

namespace Send

/-! ### Steps of a send -/

/-- What one step of a send can be, with the calls it makes, what it leads to and how it leaves the
    slots. -/
inductive Move (desk : Desk σ) (limits : Limits) (now : Nat) (s : Send) (l : Leases) :
    List Inquiry → Outcome → Leases → Prop where
  /-- It gets into line for the lock of its account. -/
  | joins (phase : s.phase = .leasing (.asking .start)) :
      Move desk limits now s l []
        (.running { s with phase := .leasing (.asking (.queued l.fresh)) })
        (l.ask desk.signer.address).2
  /-- It holds the lock and asks for the pending nonce. -/
  | reads {t reply} (phase : s.phase = .leasing (.asking (.queued t)))
      (holder : l.holds desk.signer.address t = true)
      (unknown : (l.slot desk.signer.address).next = none)
      (genuine : (Inquiry.nonce desk.signer.address reply).Genuine desk) :
      Move desk limits now s l [.nonce desk.signer.address reply]
        (.running { s with phase := .leasing (.asking (.reading t reply)) }) l
  /-- It holds the lock and `next` is known: the lease is granted. -/
  | inherits {t nonce} (phase : s.phase = .leasing (.asking (.queued t)))
      (holder : l.holds desk.signer.address t = true)
      (known : (l.slot desk.signer.address).next = some nonce) :
      Move desk limits now s l []
        (.running { s with phase := s.afterLease ⟨desk.signer.address, t, nonce⟩ }) l
  /-- The pending nonce has arrived: `next` is set and the lease is granted. -/
  | learns {t reply nonce} (phase : s.phase = .leasing (.asking (.reading t reply)))
      (ready : reply.ready? now = some (.ok nonce)) :
      Move desk limits now s l []
        (.running { s with phase := s.afterLease ⟨desk.signer.address, t, nonce⟩ })
        (l.note desk.signer.address (some nonce))
  /-- Reading the pending nonce fails with a retryable failure: the lock is given back. -/
  | retries {t reply f resume} (phase : s.phase = .leasing (.asking (.reading t reply)))
      (ready : reply.ready? now = some (.error f)) (passing : f.isRetryable = true) :
      Move desk limits now s l [] (.running { s with phase := .leasing (.pausing resume) })
        (l.leave desk.signer.address t)
  | fails {t reply f} (phase : s.phase = .leasing (.asking (.reading t reply)))
      (ready : reply.ready? now = some (.error f)) (final : f.isRetryable = false) :
      Move desk limits now s l [] (.ended (.error (.failure f)))
        (l.leave desk.signer.address t)
  | resumes {resume} (phase : s.phase = .leasing (.pausing resume)) (due : resume ≤ now) :
      Move desk limits now s l [] (.running { s with phase := .leasing (.asking .start) }) l
  /-- It gives the lock or its place in line up. -/
  | leaves {a f} (phase : s.phase = .leasing (.asking a))
      (verdict : limits.verdict now = some f) :
      Move desk limits now s l [] (.ended (.error (.failure f)))
        (a.abandon desk.signer.address l)
  | stops {resume f} (phase : s.phase = .leasing (.pausing resume))
      (verdict : limits.verdict now = some f) :
      Move desk limits now s l [] (.ended (.error (.failure f))) l
  | estimates {lease q q' calls} (phase : s.phase = .estimating lease q)
      (move : Retry.Move (.estimate (s.call.toEstimate desk.signer.address))
        (desk.chain.estimate (s.call.toEstimate desk.signer.address)) limits now q calls
        (.waiting q')) :
      Move desk limits now s l calls (.running { s with phase := .estimating lease q' }) l
  /-- The estimate has arrived and gives the gas limit. -/
  | pads {lease q estimate gasLimit calls} (phase : s.phase = .estimating lease q)
      (move : Retry.Move (.estimate (s.call.toEstimate desk.signer.address))
        (desk.chain.estimate (s.call.toEstimate desk.signer.address)) limits now q calls
        (.answered estimate))
      (padded : desk.policy.pricing.paddedLimit estimate = .ok gasLimit) :
      Move desk limits now s l calls
        (.running { s with phase := .pricing lease gasLimit .ready }) l
  /-- The estimate fails, which ends the send. -/
  | unestimated {lease q f calls} (phase : s.phase = .estimating lease q)
      (move : Retry.Move (.estimate (s.call.toEstimate desk.signer.address))
        (desk.chain.estimate (s.call.toEstimate desk.signer.address)) limits now q calls
        (.failed f)) :
      Move desk limits now s l calls (.ended (.error (.failure f))) (lease.release l)
  | prices {lease gasLimit q q' calls} (phase : s.phase = .pricing lease gasLimit q)
      (move : Retry.Move .gasPrice desk.chain.gasPrice limits now q calls (.waiting q')) :
      Move desk limits now s l calls
        (.running { s with phase := .pricing lease gasLimit q' }) l
  /-- The suggestion has arrived and gives the initial bid: the escalation begins. -/
  | bids {lease gasLimit q suggested e calls} (phase : s.phase = .pricing lease gasLimit q)
      (move : Retry.Move .gasPrice desk.chain.gasPrice limits now q calls (.answered suggested))
      (first : firstBid desk now s lease gasLimit suggested = .ok e) :
      Move desk limits now s l calls (.running { s with phase := .escalating lease e }) l
  /-- The suggestion fails, which ends the send. -/
  | unpriced {lease gasLimit q f calls} (phase : s.phase = .pricing lease gasLimit q)
      (move : Retry.Move .gasPrice desk.chain.gasPrice limits now q calls (.failed f)) :
      Move desk limits now s l calls (.ended (.error (.failure f))) (lease.release l)
  /-- A gas limit or an initial bid leaves its range. -/
  | overflows {lease f} (lease? : s.lease? = some lease) :
      Move desk limits now s l [] (.ended (.error (.fault f))) (lease.release l)
  | escalates {lease e e' turn calls} (phase : s.phase = .escalating lease e)
      (move : Escalation.Move desk limits now { e with turn } calls (.running e')) :
      Move desk limits now s l calls (.running { s with phase := .escalating lease e' }) l
  /-- The escalation ends, and its result decides what becomes of the lease. -/
  | settles {lease e turn calls result} (phase : s.phase = .escalating lease e)
      (move : Escalation.Move desk limits now { e with turn } calls (.ended result)) :
      Move desk limits now s l calls (.ended (settle lease result l).1) (settle lease result l).2

variable {desk : Desk σ} {limits : Limits} {now : Nat} {s : Send} {l l' : Leases} {out : Outcome}
  {outside outside' : σ} {log log' : List Inquiry}

/-- A step of `leaseStep` is a move. -/
theorem move_of_leaseStep {a : Leasing} (phase : s.phase = .leasing a)
    (h : leaseStep desk.noted limits now s a l (outside, log) = some (out, l', outside', log')) :
    ∃ calls, log' = log ++ calls ∧ Move desk limits now s l calls out l' := by
  unfold leaseStep at h
  split at h
  -- A verdict of the caller comes first, whether a reading is under way or pausing.
  next f verdict =>
    cases a with
    | asking a =>
      obtain ⟨rfl, rfl, rfl, rfl⟩ := by simpa using h
      exact ⟨[], by simp, .leaves phase verdict⟩
    | pausing resume =>
      obtain ⟨rfl, rfl, rfl, rfl⟩ := by simpa using h
      exact ⟨[], by simp, .stops phase verdict⟩
  next =>
    cases a with
    | pausing resume =>
      simp only at h
      split at h
      next due =>
        obtain ⟨rfl, rfl, rfl, rfl⟩ := by simpa [enter] using h
        exact ⟨[], by simp, .resumes phase due⟩
      next => cases h
    | asking a =>
      cases a with
      | start =>
        simp only [Acquire.step, enter, Desk.noted_address, Option.some.injEq, Prod.mk.injEq] at h
        obtain ⟨rfl, rfl, rfl, rfl⟩ := h
        exact ⟨[], by simp, .joins phase⟩
      -- Only the holder gets past the queue; it reads the nonce where the slot has none.
      | queued t =>
        simp only [Acquire.step] at h
        by_cases holder : l.holds desk.noted.signer.address t = true
        · rw [if_pos holder] at h
          cases known : (l.slot desk.noted.signer.address).next with
          | some nonce =>
            simp only [known, enter, Option.some.injEq, Prod.mk.injEq] at h
            obtain ⟨rfl, rfl, rfl, rfl⟩ := h
            exact ⟨[], by simp, .inherits phase holder known⟩
          | none =>
            simp only [known, enter, Desk.noted_chain, Chain.noted, Call.Effect.noted,
              Option.some.injEq, Prod.mk.injEq] at h
            obtain ⟨rfl, rfl, rfl, rfl⟩ := h
            exact ⟨_, rfl, .reads phase holder known ⟨now, outside, rfl⟩⟩
        · rw [if_neg holder] at h
          cases h
      | reading t reply =>
        simp only [Acquire.step, Desk.noted_address] at h
        cases ready : reply.ready? now with
        | none => simp [ready] at h
        | some answer =>
          cases answer with
          | ok nonce =>
            simp only [ready, enter, Option.some.injEq, Prod.mk.injEq] at h
            obtain ⟨rfl, rfl, rfl, rfl⟩ := h
            exact ⟨[], by simp, .learns phase ready⟩
          | error f =>
            simp only [ready] at h
            by_cases passing : f.isRetryable = true
            · simp only [if_pos passing, enter, Option.some.injEq, Prod.mk.injEq] at h
              obtain ⟨rfl, rfl, rfl, rfl⟩ := h
              exact ⟨[], by simp, .retries phase ready passing⟩
            · simp only [if_neg passing, Option.some.injEq, Prod.mk.injEq] at h
              obtain ⟨rfl, rfl, rfl, rfl⟩ := h
              exact ⟨[], by simp, .fails phase ready (by simpa using passing)⟩

/-- A step of `estimateStep` is a move. -/
theorem move_of_estimateStep {lease : Lease} {q : Retry Amount}
    (phase : s.phase = .estimating lease q)
    (h : estimateStep desk.noted limits now s lease q l (outside, log) =
      some (out, l', outside', log')) :
    ∃ calls, log' = log ++ calls ∧ Move desk limits now s l calls out l' := by
  simp only [estimateStep] at h
  split at h
  next => cases h
  next q' world step =>
    obtain ⟨rfl, rfl, rfl⟩ := by simpa [enter] using h
    obtain ⟨calls, rfl, move⟩ := Retry.move_of_step step
    exact ⟨calls, rfl, .estimates phase move⟩
  next f world step =>
    obtain ⟨rfl, rfl, rfl⟩ := by simpa [giveUp] using h
    obtain ⟨calls, rfl, move⟩ := Retry.move_of_step step
    exact ⟨calls, rfl, .unestimated phase move⟩
  next estimate world step =>
    split at h
    next gasLimit padded =>
      obtain ⟨rfl, rfl, rfl⟩ := by simpa [enter] using h
      obtain ⟨calls, rfl, move⟩ := Retry.move_of_step step
      exact ⟨calls, rfl, .pads phase move padded⟩
    next f _ =>
      obtain ⟨rfl, rfl, rfl⟩ := by simpa [giveUp] using h
      obtain ⟨calls, rfl, move⟩ := Retry.move_of_step step
      cases move
      exact ⟨[], rfl, .overflows (by simp [lease?, phase])⟩

/-- A step of `priceStep` is a move. -/
theorem move_of_priceStep {lease : Lease} {gasLimit : Amount} {q : Retry Amount}
    (phase : s.phase = .pricing lease gasLimit q)
    (h : priceStep desk.noted limits now s lease gasLimit q l (outside, log) =
      some (out, l', outside', log')) :
    ∃ calls, log' = log ++ calls ∧ Move desk limits now s l calls out l' := by
  simp only [priceStep] at h
  split at h
  next => cases h
  next q' world step =>
    obtain ⟨rfl, rfl, rfl⟩ := by simpa [enter] using h
    obtain ⟨calls, rfl, move⟩ := Retry.move_of_step step
    exact ⟨calls, rfl, .prices phase move⟩
  next f world step =>
    obtain ⟨rfl, rfl, rfl⟩ := by simpa [giveUp] using h
    obtain ⟨calls, rfl, move⟩ := Retry.move_of_step step
    exact ⟨calls, rfl, .unpriced phase move⟩
  next suggested world step =>
    split at h
    next e first =>
      obtain ⟨rfl, rfl, rfl⟩ := by simpa [enter] using h
      obtain ⟨calls, rfl, move⟩ := Retry.move_of_step step
      exact ⟨calls, rfl, .bids phase move first⟩
    next f _ =>
      obtain ⟨rfl, rfl, rfl⟩ := by simpa [giveUp] using h
      obtain ⟨calls, rfl, move⟩ := Retry.move_of_step step
      -- Only a reply ends a retried call with a value, and no call is made at it.
      cases move
      exact ⟨[], rfl, .overflows (by simp [lease?, phase])⟩

/-- **Every step of a send is a move.** -/
theorem move_of_step
    (h : s.stepWithin desk.noted limits now l (outside, log) = some (out, l', outside', log')) :
    ∃ calls, log' = log ++ calls ∧ Move desk limits now s l calls out l' := by
  unfold stepWithin at h
  split at h
  next a phase => exact move_of_leaseStep phase h
  next lease q phase => exact move_of_estimateStep phase h
  next lease gasLimit q phase => exact move_of_priceStep phase h
  next lease e phase =>
    split at h
    next => cases h
    next e' world step =>
      obtain ⟨rfl, rfl, rfl⟩ := by simpa [enter] using h
      obtain ⟨turn, calls, rfl, move⟩ := Escalation.move_of_step step
      exact ⟨calls, rfl, .escalates phase move⟩
    next result world step =>
      obtain ⟨rfl, rfl, rfl⟩ := by simpa using h
      obtain ⟨turn, calls, rfl, move⟩ := Escalation.move_of_step step
      exact ⟨calls, rfl, .settles phase move⟩

/-- An escalation begins with nothing signed, nothing watched and nothing broadcast. -/
theorem firstBid_ok {lease : Lease} {gasLimit suggested : Amount} {e : Escalation}
    (h : firstBid desk now s lease gasLimit suggested = .ok e) :
    ∃ bid, desk.policy.pricing.nextBid .zero 0 suggested = .ok bid ∧
      e = { call := s.call
            nonce := lease.nonce
            gasLimit
            started := now
            ticker := ⟨now + desk.policy.resubmitAfter, desk.policy.resubmitAfter⟩
            book := .opening bid
            phase := .opening
            tracker := .start desk.policy.confirmations.toNat desk.policy.receiptInterval now
            inbox := []
            outstanding := []
            answered := []
            turn := .loop } := by
  simp only [firstBid, bind, Except.bind] at h
  cases first : desk.policy.pricing.nextBid .zero 0 suggested with
  | error f => simp [first] at h
  | ok bid =>
    simp only [first, Escalation.start] at h
    split at h
    · cases h
    · exact ⟨bid, rfl, (Except.ok.inj h).symm⟩

/-- A step of the escalation shows its calls and the candidates it publishes. -/
theorem shown_escalating {lease : Lease} {e e' : Escalation} {calls : List Inquiry}
    (phase : s.phase = .escalating lease e) :
    s.shown calls (.running { s with phase := .escalating lease e' }) =
      calls.map .asked ++ (e.handedOut e').map .published := by
  simp only [shown, gained, handedOut, lease?, phase, Option.isSome_some, if_true, List.map_nil,
    List.append_nil]

/-- A send returns a receipt only where its escalation does and the lease is committed. -/
theorem Move.ended_ok {calls : List Inquiry} {receipt : Receipt}
    (move : Move desk limits now s l calls (.ended (.ok receipt)) l') :
    ∃ lease e turn, s.phase = .escalating lease e ∧ lease.commit l = .ok l' ∧
      Escalation.Move desk limits now { e with turn } calls (.ended (.ok receipt)) := by
  generalize ends : Outcome.ended (.ok receipt) = out at move
  cases move
  case settles lease e turn result phase move =>
    simp only [Outcome.ended.injEq] at ends
    match result with
    | .ok r =>
      cases committed : lease.commit l with
      | ok l' =>
        simp only [settle, committed, Except.ok.injEq] at ends
        subst ends
        exact ⟨lease, e, turn, phase, by simp [settle, committed], move⟩
      | error f => simp [settle, committed] at ends
    | .error (.fault f) => simp [settle] at ends
    | .error (.failure f) => cases f <;> simp [settle] at ends
  all_goals cases ends

/-- A send fails at the end of its escalation only with the failure of that. -/
theorem eq_failure_of_settle {lease : Lease} {result : Except Stop Receipt} {f : Failure}
    (h : (settle lease result l).1 = .error (.failure f)) : result = .error (.failure f) := by
  unfold settle at h
  split at h
  next receipt =>
    split at h <;> cases h
  next => exact h
  next => exact h

/-! ### Runs by moves -/

/-- A step of the noted desk with an empty log is a move that makes the logged calls. -/
theorem move_of_noted {calls : List Inquiry}
    (h : s.stepWithin desk.noted limits now l (outside, []) = some (out, l', outside', calls)) :
    Move desk limits now s l calls out l' := by
  obtain ⟨calls', rfl, move⟩ := move_of_step h
  simpa using move

variable {call : Call} {trail : List Event}

/-- What holds at the start and is kept by the scheduler and by every move holds along a run. -/
theorem Run.induction {P : List Event → Send → Prop} (run : Run desk call trail s)
    (start : ∀ now, P [] (.start desk.policy call now))
    (reschedule : ∀ trail s s', P trail s → s.Rescheduled s' → P trail s')
    (step : ∀ {trail s s' limits now l l' calls}, P trail s →
      Move desk limits now s l calls (.running s') l' →
      P (trail ++ s.shown calls (.running s')) s') : P trail s := by
  induction run with
  | start now => exact start now
  | reschedule _ order ih => exact reschedule _ _ _ ih order
  | step _ h ih => exact step ih (move_of_noted h)

/-- The call of a send never changes. -/
theorem Run.call_eq (run : Run desk call trail s) : s.call = call := by
  refine run.induction (P := fun _ s => s.call = call) (fun _ => rfl) ?_ ?_
  · rintro _ s s' same ⟨_, _, _, _, -, -, rfl⟩
    exact same
  · intro _ s s' _ _ _ _ _ same move
    rw [← same]
    cases move <;> rfl

/-- The last step of a send that has ended is a move. -/
theorem Ends.last_move {result : Except Stop Receipt} (h : Ends desk call trail result) :
    ∃ trail' s limits now l l' calls, Run desk call trail' s ∧
      Move desk limits now s l calls (.ended result) l' ∧
      trail = trail' ++ s.shown calls (.ended result) := by
  obtain ⟨trail', s, limits, now, l, l', _, _, calls, run, step, rfl⟩ := h
  exact ⟨trail', s, limits, now, l, l', calls, run, move_of_noted step, rfl⟩

/-- The calls of a move get replies that the desk gives. -/
theorem Move.genuine {calls : List Inquiry} (move : Move desk limits now s l calls out l') :
    ∀ i ∈ calls, i.Genuine desk := by
  cases move with
  | reads _ _ _ genuine => simpa using genuine
  | estimates _ move | pads _ move _ | unestimated _ move =>
    rcases move.calls_eq with rfl | ⟨reply, rfl, genuine, -⟩
    · simp
    · simpa [Inquiry.Genuine] using genuine
  | prices _ move | bids _ move _ | unpriced _ move =>
    rcases move.calls_eq with rfl | ⟨reply, rfl, genuine, -⟩
    · simp
    · simpa [Inquiry.Genuine] using genuine
  | escalates _ move | settles _ move => exact move.genuine
  | _ => simp

/-- Every reply that a send gets along a run is one that the desk gives. -/
theorem Run.genuine (run : Run desk call trail s) {i : Inquiry} (asked : .asked i ∈ trail) :
    i.Genuine desk := by
  suffices h : ∀ i, Event.asked i ∈ trail → i.Genuine desk from h i asked
  refine run.induction (P := fun trail _ => ∀ i, Event.asked i ∈ trail → i.Genuine desk)
    (by simp) (fun _ _ _ ih _ => ih) ?_
  intro trail s s' limits now l l' calls ih move i asked
  rcases List.mem_append.mp asked with old | new
  · exact ih i old
  · exact move.genuine i (asked_mem_shown.mp new)

/-- Only a queued candidate of the escalation is broadcast. -/
theorem Move.queued_of_broadcast {calls : List Inquiry} {c : Candidate} {reply : Pending Verdict}
    (move : Move desk limits now s l calls out l') (asked : .broadcast c reply ∈ calls) :
    ∃ lease e, s.phase = .escalating lease e ∧ .queued c ∈ e.outstanding := by
  cases move with
  | estimates _ move | pads _ move _ | unestimated _ move | prices _ move | bids _ move _
  | unpriced _ move =>
    rcases move.calls_eq with rfl | ⟨reply', rfl, -, -⟩ <;> simp at asked
  | escalates phase move | settles phase move =>
    exact ⟨_, _, phase, move.queued_of_broadcast asked⟩
  | _ => simp at asked

/-- Only a candidate that was published is queued. -/
theorem Move.queued {calls : List Inquiry} {s' : Send} {lease : Lease} {e' : Escalation}
    {c : Candidate} (move : Move desk limits now s l calls (.running s') l')
    (phase' : s'.phase = .escalating lease e') (waits : .queued c ∈ e'.outstanding) :
    (∃ lease e, s.phase = .escalating lease e ∧ .queued c ∈ e.outstanding) ∨
      c ∈ s.handedOut s' := by
  cases move with
  | inherits _ _ _ | learns _ _ =>
    simp only [afterLease] at phase'
    split at phase' <;> cases phase'
  | bids phase _ first =>
    cases phase'
    obtain ⟨bid, -, rfl⟩ := firstBid_ok first
    cases waits
  | escalates phase move =>
    cases phase'
    rcases move.queued waits with before | now
    · exact .inl ⟨_, _, phase, before⟩
    · right
      simp only [handedOut, phase]
      exact now
  | _ => cases phase'

/-- **Only published candidates are broadcast.** -/
theorem Run.published_of_broadcast (run : Run desk call trail s) {c : Candidate}
    {reply : Pending Verdict} (asked : .asked (.broadcast c reply) ∈ trail) :
    c ∈ published trail := by
  -- A candidate is sent some steps after it was published, so those that wait are carried along.
  suffices h : (∀ c reply, Event.asked (.broadcast c reply) ∈ trail → c ∈ published trail) ∧
      ∀ lease e c, s.phase = .escalating lease e → .queued c ∈ e.outstanding →
        c ∈ published trail from h.1 c reply asked
  refine run.induction
    (P := fun trail s =>
      (∀ c reply, Event.asked (.broadcast c reply) ∈ trail → c ∈ published trail) ∧
        ∀ lease e c, s.phase = .escalating lease e → .queued c ∈ e.outstanding →
          c ∈ published trail)
    (fun _ => ⟨by simp, fun _ _ _ phase => by cases phase⟩) ?_ ?_
  · rintro trail s s' ⟨sent, waits⟩ ⟨lease, e, turn, outstanding, phase, order, rfl⟩
    refine ⟨sent, ?_⟩
    intro lease' e' c phase' queued
    cases phase'
    exact waits lease e c phase (order.mem_iff.mp queued)
  · intro trail s s' limits now l l' calls ⟨sent, waits⟩ move
    refine ⟨?_, ?_⟩
    · intro c reply asked
      rw [published_append]
      apply List.mem_append_left
      rcases List.mem_append.mp asked with old | new
      · exact sent c reply old
      · obtain ⟨lease, e, phase, queued⟩ := move.queued_of_broadcast (asked_mem_shown.mp new)
        exact waits lease e c phase queued
    · intro lease e c phase queued
      rw [published_append, published_shown, List.mem_append]
      rcases move.queued phase queued with ⟨lease', e', before, queued'⟩ | now
      · exact .inl (waits lease' e' c before queued')
      · exact .inr now

/-- A send under way has shown no end. -/
theorem Run.not_over (run : Run desk call trail s) : ∀ e ∈ trail, e.isOver = false := by
  refine run.induction (P := fun trail _ => ∀ e ∈ trail, e.isOver = false) (by simp)
    (fun _ _ _ ih _ => ih) ?_
  intro trail s s' limits now l l' calls ih _ e listed
  rcases List.mem_append.mp listed with old | new
  · exact ih e old
  · exact not_over_of_running new

/-- A send keeps its lease while it is running. -/
theorem Move.lease_kept {calls : List Inquiry} {s' : Send} {lease : Lease}
    (move : Move desk limits now s l calls (.running s') l') (leased : s.lease? = some lease) :
    s'.lease? = some lease := by
  unfold lease? at leased ⊢
  cases move with
  | joins phase | reads phase _ _ _ | inherits phase _ _ | learns phase _ | retries phase _ _
  | resumes phase _ =>
    rw [phase] at leased
    cases leased
  | estimates phase _ | pads phase _ _ | prices phase _ | bids phase _ _ | escalates phase _ =>
    rw [phase] at leased
    exact leased

/-- A lease is one of the desk's account. -/
theorem Move.lease_account {calls : List Inquiry} {s' : Send} {lease : Lease}
    (move : Move desk limits now s l calls (.running s') l') (unleased : s.lease? = none)
    (leased : s'.lease? = some lease) : lease.account = desk.signer.address := by
  cases move with
  | inherits _ _ _ | learns _ _ =>
    rw [lease?_afterLease, Option.some.injEq] at leased
    rw [← leased]
  | joins phase | reads phase _ _ _ | retries phase _ _ | resumes phase _ => cases leased
  | estimates phase _ | pads phase _ _ | prices phase _ | bids phase _ _ | escalates phase _ =>
    simp [lease?, phase] at unleased

/-- **The leases that a run was granted are the one it has**, a lease of the desk's account. -/
theorem Run.granted_eq (run : Run desk call trail s) : granted trail = s.lease?.toList := by
  refine run.induction (P := fun trail s => granted trail = s.lease?.toList)
    (fun _ => rfl) ?_ ?_
  · rintro trail s s' ih ⟨lease, e, turn, outstanding, phase, -, rfl⟩
    rw [ih]
    simp [lease?, phase]
  · intro trail s s' limits now l l' calls ih move
    rw [granted_append, granted_shown, ih, gained]
    cases leased : s.lease? with
    | none => simp
    | some lease => simp [move.lease_kept leased]

/-- The lease of a send is one of the desk's account. -/
theorem Run.lease_account (run : Run desk call trail s) {lease : Lease}
    (leased : s.lease? = some lease) : lease.account = desk.signer.address := by
  refine run.induction
    (P := fun _ s => ∀ lease, s.lease? = some lease → lease.account = desk.signer.address)
    (fun _ _ none => by cases none) ?_ ?_ lease leased
  · rintro _ s s' ih ⟨lease, e, turn, outstanding, phase, -, rfl⟩ lease' leased
    exact ih lease' (by simpa [lease?, phase] using leased)
  · intro _ s s' limits now l l' calls ih move lease' leased
    cases before : s.lease? with
    | none => exact move.lease_account before leased
    | some lease =>
      rw [move.lease_kept before, Option.some.injEq] at leased
      exact ih lease' (leased ▸ before)

end Send

end Relayer
