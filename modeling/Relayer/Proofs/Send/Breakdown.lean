import Relayer.Proofs.Send.Finality
import Relayer.Proofs.Send.Ticks

namespace Relayer

/-!
# Breakdown — what a send could panic or be internally broken for, and why it is not

A sum or a product may overflow, a ticker may have no period, and the tracker may have stopped
without `confirmed`.  A send has no failure for any of these.  Here is where each of them could come
from, and what keeps it away.

* `Stop.isBreakdown` — a fault, or an `internal` failure;
* `Send.Breakdown` — the places where a send can break down, each with its condition;
* `Send.breakdown_of_step` — there are no others;
* `Escalation.Sturdy` — tickers with a period, and a tracker that stops only behind `confirmed`;
* `Escalation.Metered` — `attempt` and `published`, against the resubmission ticks;
* `Desk.Steady` — a node and a signer that do not break down themselves;
* `Send.Run.unbroken` — no send breaks down at such a desk while its attempts stay in range.
-/

variable {σ : Type}

/-- Whether a task stops for a fault, or with an `internal` failure. -/
def Stop.isBreakdown : Stop → Bool
  | .fault _ | .failure (.internal _) => true
  | .failure _ => false

/-- `cancelled` and `timedOut` are no breakdown. -/
theorem Limits.sound_of_verdict {limits : Limits} {now : Nat} {f : Failure}
    (h : limits.verdict now = some f) : (Stop.failure f).isBreakdown = false := by
  rcases Limits.verdict_cases h with rfl | rfl <;> rfl

/-- Nor is an error of `Book.fold`, whatever the answer. -/
theorem Book.sound_of_fold {policy : Policy} {b : Book} {nonce : UInt64} {bid : Amount}
    {verdict : Verdict} {f : Failure} (h : b.fold policy nonce bid verdict = .error f) :
    (Stop.failure f).isBreakdown = false := by
  rcases Book.fold_error h with ⟨-, rfl⟩ | ⟨-, -, rfl⟩ | ⟨-, -, -, rfl⟩ <;> rfl

/-! ### Breakdowns of an escalation -/

namespace Escalation

variable {desk : Desk σ} {limits : Limits} {now : Nat} {e e' : Escalation}
  {outside outside' : σ} {calls : List Inquiry}

/-- An escalation faults only where it counts and prices the next bid, or in the signer. -/
theorem fault_cases {f : Fault}
    (h : e.step desk.noted limits now (outside, []) =
      some (.ended (.error (.fault f)), outside', calls)) :
    (∃ reply, e.phase = .pricing reply ∧ (UInt32.size ≤ e.book.attempt + 1 ∨
      Amount.size ≤ e.book.bid.toNat * desk.policy.bumpPercent.toNat)) ∨
    ∃ first reply, e.phase = .signing first reply ∧ reply.answer = .error (.fault f) := by
  rcases loop_or_elsewhere h with own | ⟨_, _, running, -⟩
  · obtain ⟨turn, calls', -, move⟩ := move_of_step h
    generalize out : Outcome.ended (.error (.fault f)) = outcome at move
    cases move
    case collapses phase ready =>
      cases out
      exact .inr ⟨_, _, phase, Pending.answer_of_ready ready⟩
    case overflows phase =>
      -- A move does not say what left its range, but the price that led to it does.
      refine .inl ⟨_, phase, ?_⟩
      rcases bids_of_loopStep (e := { e with turn := .loop }) phase own with
        ⟨-, cancelled, -⟩ | ⟨suggested, calls'', -, -, -, bids⟩
      · cases cancelled
      · cases bids with
        | exhausts full => exact .inl (Nat.le_of_not_lt full)
        | overflows _ next => exact .inr (Pricing.nextBid_error next)
    all_goals cases out
  · cases running

/-- An escalation fails with `internal` only where the signer does, or where its tracker has stopped
    and the inbox is empty. -/
theorem Move.internal_cases {text : String}
    (move : Move desk limits now e calls (.ended (.error (.failure (.internal text))))) :
    (∃ first reply, e.phase = .signing first reply ∧
      reply.answer = .error (.failure (.internal text))) ∨
    (e.inbox = [] ∧ e.tracker.isClosed = true) := by
  generalize out : Outcome.ended _ = outcome at move
  cases move
  case refuses phase ready _ =>
    cases out
    exact .inl ⟨_, _, phase, Pending.answer_of_ready ready⟩
  case closes inbox closed => exact .inr ⟨inbox, closed⟩
  case condemns folded =>
    cases out
    cases Book.sound_of_fold folded
  all_goals cases out

end Escalation

/-! ### Breakdowns of a send -/

namespace Send

/-- The reply that a send waits for is that it has to stop with `why`. -/
inductive Refused (s : Send) : Stop → Prop where
  | nonce {t reply f} (phase : s.phase = .leasing (.asking (.reading t reply)))
      (answer : reply.answer = .error f) : Refused s (.failure f)
  | estimate {lease reply f} (phase : s.phase = .estimating lease (.asking reply))
      (answer : reply.answer = .error f) : Refused s (.failure f)
  | price {lease gasLimit reply f} (phase : s.phase = .pricing lease gasLimit (.asking reply))
      (answer : reply.answer = .error f) : Refused s (.failure f)
  | signature {lease e first reply why} (phase : s.phase = .escalating lease e)
      (signing : e.phase = .signing first reply) (answer : reply.answer = .error why) :
      Refused s why

/-- The places where a send can break down, each with its condition. -/
inductive Breakdown (desk : Desk σ) (s : Send) (l : Leases) : Stop → Prop where
  /-- The node or the signer has broken down. -/
  | refused {why} (refused : s.Refused why) (bad : why.isBreakdown = true) : Breakdown desk s l why
  /-- The gas limit overflows. -/
  | gas {lease reply estimate f} (phase : s.phase = .estimating lease (.asking reply))
      (answer : reply.answer = .ok estimate)
      (exceeds : desk.policy.pricing.paddedLimit estimate = .error f) :
      Breakdown desk s l (.fault f)
  /-- The escalation cannot begin: its initial bid overflows, or its ticker has no period. -/
  | begins {lease gasLimit question now suggested f}
      (phase : s.phase = .pricing lease gasLimit question)
      (exceeds : firstBid desk now s lease gasLimit suggested = .error f) :
      Breakdown desk s l (.fault f)
  /-- The next bid or the attempts overflow. -/
  | raises {lease e reply f} (phase : s.phase = .escalating lease e)
      (asking : e.phase = .pricing reply)
      (exceeds : UInt32.size ≤ e.book.attempt + 1 ∨
        Amount.size ≤ e.book.bid.toNat * desk.policy.bumpPercent.toNat) :
      Breakdown desk s l (.fault f)
  /-- The tracker has stopped. -/
  | tracker {lease e why} (phase : s.phase = .escalating lease e) (inbox : e.inbox = [])
      (closed : e.tracker.isClosed = true) : Breakdown desk s l why
  /-- There is no nonce behind the one to commit. -/
  | nonce {lease e f} (phase : s.phase = .escalating lease e) (last : lease.commit l = .error f) :
      Breakdown desk s l (.fault f)

variable {desk : Desk σ} {limits : Limits} {now : Nat} {s : Send} {l l' : Leases} {why : Stop}
  {outside outside' : σ} {calls : List Inquiry}

/-- A send that fails with `internal` breaks down in one of these places. -/
theorem Move.breakdown_of_internal {text : String}
    (move : Move desk limits now s l calls (.ended (.error (.failure (.internal text)))) l') :
    s.Breakdown desk l (.failure (.internal text)) := by
  generalize out : Outcome.ended _ = outcome at move
  cases move
  case fails phase ready _ =>
    cases out
    exact .refused (.nonce phase (Pending.answer_of_ready ready)) rfl
  case unestimated phase move =>
    cases out
    rcases move.failed_cases with verdict | ⟨reply, rfl, answer⟩
    · cases Limits.sound_of_verdict verdict
    · exact .refused (.estimate phase answer) rfl
  case unpriced phase move =>
    cases out
    rcases move.failed_cases with verdict | ⟨reply, rfl, answer⟩
    · cases Limits.sound_of_verdict verdict
    · exact .refused (.price phase answer) rfl
  case leaves verdict | stops verdict =>
    cases out
    cases Limits.sound_of_verdict verdict
  case settles phase move =>
    simp only [Outcome.ended.injEq] at out
    obtain rfl := eq_failure_of_settle out.symm
    rcases move.internal_cases with ⟨first, reply, signing, answer⟩ | ⟨inbox, closed⟩
    · exact .refused (.signature phase signing answer) rfl
    · exact .tracker phase inbox closed
  all_goals cases out

/-- So does a send that faults. -/
theorem breakdown_of_fault {f : Fault}
    (step : s.stepWithin desk.noted limits now l (outside, []) =
      some (.ended (.error (.fault f)), l', outside', calls)) :
    s.Breakdown desk l (.fault f) := by
  cases phase : s.phase with
  | leasing a =>
    -- Nothing is computed before there is a lease.
    have move := move_of_noted step
    generalize out : Outcome.ended (.error (.fault f)) = outcome at move
    cases move
    case overflows leased => simp [lease?, phase] at leased
    case settles here _ => cases phase.symm.trans here
    all_goals cases out
  | estimating lease question =>
    simp only [stepWithin, phase, estimateStep] at step
    split at step
    next => cases step
    next => cases step
    next => cases step
    next estimate world asked =>
      obtain ⟨calls', -, move⟩ := Retry.move_of_step asked
      split at step
      next => cases step
      next exceeds =>
        cases step
        cases move with
        | answers ready => exact .gas phase (Pending.answer_of_ready ready) exceeds
  | pricing lease gasLimit question =>
    simp only [stepWithin, phase, priceStep] at step
    split at step
    next => cases step
    next => cases step
    next => cases step
    next suggested world asked =>
      split at step
      next => cases step
      next exceeds =>
        cases step
        exact .begins phase exceeds
  | escalating lease e =>
    obtain ⟨call, deadline, _⟩ := s
    obtain rfl : _ = Phase.escalating lease e := phase
    rcases step_escalating step with ⟨_, _, running⟩ | ⟨result, inner, ended, -⟩
    · cases running
    · cases result with
      | ok receipt =>
        cases committed : lease.commit l with
        | ok l' => simp [settle, committed] at ended
        | error f' =>
          obtain rfl : f = f' := by simpa [settle, committed] using ended
          exact .nonce rfl committed
      | error why =>
        cases why with
        | failure f' => cases f' <;> simp [settle] at ended
        | fault f' =>
          obtain rfl : f = f' := by simpa [settle] using ended
          rcases Escalation.fault_cases inner with ⟨reply, asking, exceeds⟩ |
            ⟨first, reply, signing, answer⟩
          · exact .raises rfl asking exceeds
          · exact .refused (.signature rfl signing answer) rfl

/-- **A send breaks down in these places only.** -/
theorem breakdown_of_step (bad : why.isBreakdown = true)
    (step : s.stepWithin desk.noted limits now l (outside, []) =
      some (.ended (.error why), l', outside', calls)) : s.Breakdown desk l why := by
  cases why with
  | fault f => exact breakdown_of_fault step
  | failure f =>
    cases f
    case internal text => exact (move_of_noted step).breakdown_of_internal
    all_goals cases bad

end Send

/-! ### Timers and trackers -/

/-- A tracker with a period stops only when it emits `confirmed`. -/
theorem Tracker.Move.stage_open {desk : Desk σ} {now : Nat} {room : Bool} {t t' : Tracker}
    {calls : List Inquiry} {event : Option TrackerEvent}
    (move : Move desk now room t calls t' event) (period : 0 < t.ticker.period) :
    t'.stage ≠ .broken ∧
      (t'.isClosed = true → ∃ receipt, event = some (.confirmed receipt)) := by
  cases move with
  | breaks _ none => omega
  | confirms _ _ _ _ _ => exact ⟨by simp, fun _ => ⟨_, rfl⟩⟩
  | idles stage _ _ => exact ⟨by simp [stage], by simp [isClosed, stage]⟩
  | comesRound _ =>
    by_cases visible : t.visible = true <;> simp [isClosed, visible]
  | _ => simp [isClosed]

namespace Escalation

/-- The tickers of an escalation have a period, and its tracker has not stopped unless `confirmed`
    is in the inbox. -/
structure Sturdy (policy : Policy) (e : Escalation) : Prop where
  period : e.ticker.period = policy.resubmitAfter
  rounds : e.tracker.ticker.period = policy.receiptInterval
  unbroken : e.tracker.stage ≠ .broken
  closed : e.tracker.isClosed = true → ∃ receipt, .confirmed receipt ∈ e.inbox

variable {desk : Desk σ} {limits : Limits} {now : Nat} {e e' : Escalation}
  {calls : List Inquiry}

/-- A move of the loop or the broadcasts leaves the tracker alone, but for its watched hashes. -/
theorem Sturdy.of_tracker {policy : Policy} (h : e.Sturdy policy)
    (period : e'.ticker.period = e.ticker.period)
    (rounds : e'.tracker.ticker = e.tracker.ticker) (stage : e'.tracker.stage = e.tracker.stage)
    (inbox : ∀ receipt, .confirmed receipt ∈ e.inbox → .confirmed receipt ∈ e'.inbox) :
    e'.Sturdy policy where
  period := period.trans h.period
  rounds := rounds ▸ h.rounds
  unbroken := stage ▸ h.unbroken
  closed shut := by
    have before : e.tracker.isClosed = true := by
      rw [Tracker.isClosed, stage] at shut
      exact shut
    obtain ⟨receipt, listed⟩ := h.closed before
    exact ⟨receipt, inbox receipt listed⟩

/-- **Every move keeps the tickers and the tracker going.** -/
theorem Sturdy.move (valid : desk.policy.validate = .ok ()) (h : e.Sturdy desk.policy)
    (move : Move desk limits now e calls (.running e')) : e'.Sturdy desk.policy := by
  cases move with
  | receives _ _ inbox shallow =>
    refine h.of_tracker rfl rfl rfl fun receipt listed => ?_
    -- The event received here is not `confirmed`.
    rw [inbox] at listed
    rcases List.mem_cons.mp listed with same | later
    · exact absurd same.symm (shallow receipt)
    · exact later
  | holds _ due _ | prices _ due _ _ =>
    exact h.of_tracker (Ticker.of_tick due).1 rfl rfl fun _ listed => listed
  | publishes _ _ =>
    -- The tracker watches one more hash, and is no nearer to its end for that.
    have watched (hash : Digest) : (e.tracker.watch hash).ticker = e.tracker.ticker ∧
        (e.tracker.watch hash).stage = e.tracker.stage := by
      unfold Tracker.watch
      split <;> exact ⟨rfl, rfl⟩
    exact h.of_tracker rfl (watched _).1 (watched _).2 fun _ listed => listed
  | tracks move =>
    have turning : 0 < e.tracker.ticker.period := by
      rw [h.rounds]
      exact Policy.receiptInterval_pos valid
    obtain ⟨unbroken, closes⟩ := move.stage_open turning
    refine ⟨h.period, move.period_eq.trans h.rounds, unbroken, fun shut => ?_⟩
    obtain ⟨receipt, rfl⟩ := closes shut
    exact ⟨receipt, by simp⟩
  | _ => exact h.of_tracker rfl rfl rfl fun _ listed => listed

/-- **No escalation of a run has a ticker without a period**, or loses its tracker. -/
theorem Run.sturdy (valid : desk.policy.validate = .ok ()) (run : Run desk e) :
    e.Sturdy desk.policy := by
  induction run with
  | start begun =>
    simp only [Escalation.start] at begun
    split at begun
    next => cases begun
    next =>
      cases begun
      exact ⟨rfl, rfl, by simp [Tracker.start], by simp [Tracker.start, Tracker.isClosed]⟩
  | reschedule _ _ ih => exact ih.of_tracker rfl rfl rfl fun _ listed => listed
  | @step e _ _ _ _ _ _ step ih =>
    obtain ⟨turn, calls, move⟩ := exists_move step
    have turned : ({ e with turn } : Escalation).Sturdy desk.policy :=
      ih.of_tracker rfl rfl rfl fun _ listed => listed
    exact turned.move valid move

/-! ### Counters -/

/-- One where the tick has still to be counted as an attempt. -/
def Phase.raising : Phase → Nat
  | .pricing _ => 1
  | _ => 0

/-- One where a candidate has still to be signed and handed out. -/
def Phase.unsigned : Phase → Nat
  | .listening => 0
  | _ => 1

/-- There is at most one attempt for every resubmission tick, and at most one candidate, the first
    one apart. -/
structure Metered (rounds : Nat) (e : Escalation) : Prop where
  attempt : e.book.attempt + e.phase.raising ≤ rounds
  published : e.book.published + e.phase.unsigned ≤ rounds + 1

/-- Where the counters and what has still to be counted do not grow, `Metered` stays. -/
theorem Metered.of_le {rounds : Nat} (h : e.Metered rounds)
    (attempt : e'.book.attempt + e'.phase.raising ≤ e.book.attempt + e.phase.raising)
    (published : e'.book.published + e'.phase.unsigned ≤ e.book.published + e.phase.unsigned)
    (more : Nat) : e'.Metered (rounds + more) where
  attempt := Nat.le_trans attempt (Nat.le_add_right_of_le h.attempt)
  published := by
    have before := h.published
    omega

/-- **Every move keeps `Metered`.** -/
theorem Metered.move {rounds : Nat} (h : e.Metered rounds) (period : 0 < e.ticker.period)
    (move : Move desk limits now e calls (.running e')) :
    e'.Metered (rounds + (e.ticks e').toNat) := by
  cases move with
  | @receives event _ _ _ _ _ =>
    cases event <;> (refine h.of_le ?_ ?_ _ <;> exact Nat.le_refl _)
  | folds _ _ _ _ folded =>
    obtain ⟨accepted, tooLow, rfl⟩ := Book.fold_ok folded
    refine h.of_le ?_ ?_ _ <;> exact Nat.le_refl _
  | @prices ticker reply phase due _ _ =>
    -- This is where a tick is consumed, so both counters may come to grow by one.
    have ticks : e.ticks { e with ticker, phase := .pricing reply } = true :=
      ticks_iff.mpr ((Ticker.of_tick due).2 period)
    obtain ⟨attempt, published⟩ := h
    rw [ticks]
    exact ⟨Nat.add_le_add_right (Nat.le_of_add_right_le attempt) 1,
      Nat.add_le_add_right (Nat.le_of_add_right_le published) 1⟩
  | opens phase _ | rests phase _ _ | repeats phase _ _ _ | raises phase _ _ _ _
  | publishes phase _ | defers phase _ _ =>
    -- What was still to be counted is counted now, or never will be.
    refine h.of_le ?_ ?_ _ <;> simp [phase, Phase.raising, Phase.unsigned, raised, handOut]
  | holds _ _ _ | tracks _ | sends _ _ | answers _ _ =>
    refine h.of_le ?_ ?_ _ <;> exact Nat.le_refl _

end Escalation

/-! ### Steady desks -/

/-- Node and signer never break down, and no gas estimate leaves the range that any buffer has room
    for. -/
structure Desk.Steady (desk : Desk σ) : Prop where
  nonce : ∀ account now outside text,
    (desk.chain.nonce account now outside).1.answer ≠ .error (.internal text)
  estimate : ∀ t now outside text,
    (desk.chain.estimate t now outside).1.answer ≠ .error (.internal text)
  gasPrice : ∀ now outside text,
    (desk.chain.gasPrice now outside).1.answer ≠ .error (.internal text)
  sign : ∀ id t now outside why,
    (desk.signer.sign id t now outside).1.answer = .error why → why.isBreakdown = false
  gas : ∀ t now outside a, (desk.chain.estimate t now outside).1.answer = .ok a →
    a.toNat < 2 ^ 191

/-- A failure that is not `internal` is no breakdown. -/
theorem Stop.sound_of_ne {f : Failure} (other : ∀ text, f ≠ .internal text) :
    (Stop.failure f).isBreakdown = false := by
  cases f
  case internal text => exact absurd rfl (other text)
  all_goals rfl

/-- A gas estimate in range has room for any buffer. -/
theorem Pricing.padded_of_lt (p : Pricing) {estimate : Amount} (gas : estimate.toNat < 2 ^ 191)
    (f : Fault) : p.paddedLimit estimate ≠ .error f := by
  intro exceeds
  have percent : p.limitPercent.toNat ≤ 2 ^ 64 := Nat.le_of_lt p.limitPercent.toNat_lt
  have product : estimate.toNat * p.limitPercent.toNat ≤ 2 ^ 191 * 2 ^ 64 :=
    Nat.mul_le_mul (Nat.le_of_lt gas) percent
  rcases Pricing.paddedLimit_error exceeds with outside | outside <;>
    unfold Amount.size at outside <;>
    omega

namespace Send

variable {desk : Desk σ} {limits : Limits} {now rounds : Nat} {s s' : Send} {l l' : Leases}
  {call : Call} {trail : List Event} {calls : List Inquiry} {why : Stop}

/-- `Metered` holds of the escalation of a send, once it has one. -/
def Metered (rounds : Nat) (s : Send) : Prop :=
  ∀ lease e, s.phase = .escalating lease e → e.Metered rounds

/-- Before the escalation nothing is counted. -/
theorem metered_start (policy : Policy) (call : Call) (now rounds : Nat) :
    (start policy call now).Metered rounds := by
  intro lease e phase
  cases phase

/-- More ticks leave more room. -/
theorem Metered.mono {more : Nat} (h : s.Metered rounds) (le : rounds ≤ more) :
    s.Metered more := by
  intro lease e phase
  obtain ⟨attempt, published⟩ := h lease e phase
  exact ⟨Nat.le_trans attempt le, by omega⟩

/-- Rescheduling keeps `Metered`. -/
theorem Metered.reschedule (h : s.Metered rounds) (order : s.Rescheduled s') :
    s'.Metered rounds := by
  obtain ⟨lease, e, turn, outstanding, phase, -, rfl⟩ := order
  rintro _ _ ⟨⟩
  obtain ⟨attempt, published⟩ := h lease e phase
  exact ⟨attempt, published⟩

/-- **Every move of a send keeps `Metered`.** -/
theorem Metered.move (valid : desk.policy.validate = .ok ()) (run : Run desk call trail s)
    (h : s.Metered rounds) (move : Move desk limits now s l calls (.running s') l') :
    s'.Metered (rounds + (s.ticks s').toNat) := by
  intro lease e phase
  cases move with
  | inherits _ _ _ | learns _ _ =>
    simp only [afterLease] at phase
    split at phase <;> cases phase
  | bids _ _ first =>
    cases phase
    obtain ⟨bid, -, rfl⟩ := firstBid_ok first
    exact ⟨Nat.zero_le _, Nat.le_add_left 1 _⟩
  | @escalates _ e' _ turn _ before move =>
    cases phase
    have period := Policy.resubmitAfter_pos valid
    rw [← ((run.escalation before).sturdy valid).period] at period
    have turned : ({ e' with turn } : Escalation).Metered rounds :=
      ⟨(h _ _ before).attempt, (h _ _ before).published⟩
    simp only [ticks, before]
    exact turned.move period move
  | _ => cases phase

/-- At a desk that never breaks down, no send waits for a `brokeDown` reply. -/
theorem Run.sound_of_refused (steady : desk.Steady) (run : Run desk call trail s)
    (refused : s.Refused why) : why.isBreakdown = false := by
  have asked := run.asked
  have served := run.served
  cases refused with
  | nonce phase answer =>
    rw [Served, phase] at served
    obtain ⟨now, outside, rfl⟩ := served
    refine Stop.sound_of_ne ?_
    rintro text rfl
    exact steady.nonce _ _ _ _ answer
  | estimate phase answer =>
    rw [Asked, phase] at asked
    obtain ⟨now, outside, rfl⟩ := asked
    refine Stop.sound_of_ne ?_
    rintro text rfl
    exact steady.estimate _ _ _ _ answer
  | price phase answer =>
    rw [Asked, phase] at asked
    obtain ⟨now, outside, rfl⟩ := asked
    refine Stop.sound_of_ne ?_
    rintro text rfl
    exact steady.gasPrice _ _ _ answer
  | signature phase signing answer =>
    rw [Served, phase] at served
    obtain ⟨t, now, outside, rfl⟩ := served _ _ signing
    exact steady.sign _ _ _ _ _ answer

/-- No bid is above the ceiling, so where that has room for any increase, every bid has. -/
theorem Run.raise_lt (valid : desk.policy.validate = .ok ())
    (ceiling : desk.policy.maxGasPrice.toNat < 2 ^ 94) (run : Run desk call trail s)
    {lease : Lease} {e : Escalation} (phase : s.phase = .escalating lease e) :
    e.book.bid.toNat * desk.policy.bumpPercent.toNat < Amount.size := by
  have account := (run.account valid).2
  rw [phase] at account
  have capped : e.book.bid.toNat ≤ desk.policy.maxGasPrice.toNat := account.2.bidding.capped
  have percent : desk.policy.bumpPercent.toNat ≤ 2 ^ 64 :=
    Nat.le_of_lt desk.policy.bumpPercent.toNat_lt
  have product : e.book.bid.toNat * desk.policy.bumpPercent.toNat ≤ 2 ^ 94 * 2 ^ 64 :=
    Nat.mul_le_mul (by omega) percent
  unfold Amount.size
  omega

/-- **No send breaks down at a steady desk**: not as long as the ceiling has room for any increase,
    its ticks have room in the attempts, and its nonce is not the last one. -/
theorem Run.unbroken (valid : desk.policy.validate = .ok ()) (steady : desk.Steady)
    (ceiling : desk.policy.maxGasPrice.toNat < 2 ^ 94) (run : Run desk call trail s)
    (metered : s.Metered rounds) (few : rounds < UInt32.size)
    (room : ∀ lease, s.lease? = some lease → lease.nonce.toNat + 1 < UInt64.size) :
    ¬ s.Breakdown desk l why := by
  intro broken
  cases broken with
  | refused refused bad =>
    rw [run.sound_of_refused steady refused] at bad
    cases bad
  | gas phase answer exceeds =>
    have asked := run.asked
    rw [Asked, phase] at asked
    obtain ⟨now, outside, rfl⟩ := asked
    exact Pricing.padded_of_lt _ (steady.gas _ _ _ _ answer) _ exceeds
  | @begins lease gasLimit question now suggested f phase exceeds =>
    -- The first bid is made of nothing, and the timer has a period.
    simp only [firstBid, bind, Except.bind] at exceeds
    split at exceeds
    next first =>
      have outside := Pricing.nextBid_error first
      simp [Amount.zero] at outside
    next bid _ =>
      have period := Policy.resubmitAfter_pos valid
      rw [Escalation.start, if_neg (by omega)] at exceeds
      cases exceeds
  | @raises lease e reply f phase asking exceeds =>
    rcases exceeds with full | outside
    · -- This attempt is among those that the ticks allow for.
      have counted := (metered lease e phase).attempt
      rw [asking, Escalation.Phase.raising] at counted
      omega
    · exact Nat.not_lt.mpr outside (run.raise_lt valid ceiling phase)
  | tracker phase inbox closed =>
    -- A tracker that has stopped has emitted `confirmed`, and the inbox would have it.
    obtain ⟨receipt, listed⟩ := ((run.escalation phase).sturdy valid).closed closed
    rw [inbox] at listed
    cases listed
  | nonce phase last =>
    have next := room _ (by rw [lease?, phase])
    rw [Lease.commit, if_pos next] at last
    cases last

end Send

end Relayer
