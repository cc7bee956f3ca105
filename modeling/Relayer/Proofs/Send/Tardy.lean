import Relayer.Proofs.Send.Course
import Relayer.Proofs.Send.Prompt

namespace Relayer

/-!
# Tardy — a send to which some replies come late

Where a send depends on how soon events and answers come, it takes a slow outside to see it.  Here a
signature takes a while, and so may the answer to a second candidate; the first one is mined long
before the tracker polls it.

* `Delays` — what comes late, and `Send.Errand.tardy`, the desk at which it does;
* `Send.Reached` — what a send comes to by the clock, with its published candidates;
* `Send.Errand.signs` — the first candidate is with the signer, for as long as that takes;
* `Send.Errand.hands` — two candidates are published between two polls of the tracker;
* `Send.Errand.mines` — the loop receives that the first one is mined, with the second broadcast
  still under way.
-/

/-! ### The desk -/

/-- What comes late: signatures, the answer to the second candidate, the receipt of the first. -/
structure Delays where
  /-- How long a signature takes. -/
  signature : Nat
  second : Pending Verdict
  /-- When the first candidate gets into a block. -/
  mined : Nat

/-- A policy with rare polls and a tolerance of one `nonceTooLow`. -/
def Policy.steady (timeout : Option Nat) : Policy :=
  { Policy.brisk with
    nonceTolerance := 1
    resubmitAfter := 6
    receiptInterval := 10
    mempoolTimeout := 20
    sendTimeout := timeout }

/-- The policy is valid, unless its send timeout is zero. -/
theorem Policy.validate_steady {timeout : Option Nat} (some_time : timeout ≠ some 0) :
    (steady timeout).validate = .ok () := by
  have sensible : (timeout == some 0) = false := by simpa using some_time
  have complaints : (steady timeout).complaints.find? (·.1) = none := by
    simp only [complaints, steady, sensible]
    decide
  rw [validate, complaints]

namespace Send

/-! ### What is reached -/

/-- A send comes to a state by the clock, and has published these candidates then. -/
def Reached (desk : Desk Unit) (call : Call) (cancelAt : Option Nat) (now : Nat)
    (candidates : List Candidate) (s : Send) : Prop :=
  ∃ trail, Course desk call 0 cancelAt trail now s ∧ published trail = candidates

namespace Reached

variable {desk : Desk Unit} {call : Call} {cancelAt : Option Nat} {now : Nat}
  {candidates : List Candidate} {s s' : Send}

/-- One more step. -/
theorem step {limits : Limits} (l l' : Leases) (calls : List Inquiry)
    (h : Reached desk call cancelAt now candidates s)
    (step : s.stepWithin desk.noted limits now l ((), []) = some (.running s', l', (), calls))
    (same : s.limits (Escalation.isPast cancelAt now) = limits) :
    Reached desk call cancelAt now (candidates ++ s.handedOut s') s' := by
  obtain ⟨trail, course, rfl⟩ := h
  refine ⟨_, .step course (same ▸ step), ?_⟩
  rw [published_append, published_shown]

/-- The scheduler gives the turn to another party. -/
theorem turn {deadline : Option Nat} {lease : Lease} {e : Escalation}
    (h : Reached desk call cancelAt now candidates ⟨call, deadline, .escalating lease e⟩)
    (turn : Escalation.Party) : Reached desk call cancelAt now candidates
      ⟨call, deadline, .escalating lease { e with turn }⟩ := by
  obtain ⟨trail, course, rfl⟩ := h
  exact ⟨trail, .reschedule course ⟨lease, e, turn, e.outstanding, rfl, .refl _, rfl⟩, rfl⟩

/-- Time passes. -/
theorem wait {later : Nat} {l : Leases} (h : Reached desk call cancelAt now candidates s)
    (idle : s.step desk (Escalation.isPast cancelAt now) now l () = none) (passes : now < later)
    (soonest : ∀ alarm ∈ s.alarms desk.policy ++ cancelAt.toList, now < alarm → later ≤ alarm) :
    Reached desk call cancelAt later candidates s := by
  obtain ⟨trail, course, rfl⟩ := h
  exact ⟨trail, .wait course idle later passes soonest, rfl⟩

end Reached

/-! ### The signature -/

namespace Errand

variable (x : Errand) (d : Delays) (timeout : Option Nat)

/-- A desk at which everything is answered at once but for what comes late.  It is the same node and
    the same account for all errands; only the first candidate of this one ever gets a receipt. -/
def tardy : Desk Unit where
  policy := .steady timeout
  chain :=
    { chainId := .prompt (.ok 1)
      gasPrice := .prompt (.ok .suggested)
      nonce := fun _ => .prompt (.ok 7)
      estimate := fun _ => .prompt (.ok (.ofWord 21000))
      broadcast := fun c now outside =>
        (if c.gasPrice = .suggested then .immediate now .accepted else d.second, outside)
      receipt := fun hash now outside =>
        (.immediate now (.ok (if hash = x.hash ∧ d.mined ≤ now then some (.prompt hash) else none)),
          outside)
      knows := fun _ => .prompt (.ok true)
      head := .prompt (.ok 100) }
  signer :=
    { address := x.lease.account
      sign := fun _ t now outside => (⟨.ok (x.write t), some (now + d.signature)⟩, outside) }
  chainId := 1

/-- The send under way, with its deadline. -/
def underWay (phase : Phase) : Send := ⟨x.call, timeout.map (0 + ·), phase⟩

/-- The escalation with its initial bid. -/
def opened : Escalation where
  call := x.call
  nonce := x.lease.nonce
  gasLimit := x.limit
  started := 0
  ticker := ⟨6, 6⟩
  book := .opening .suggested
  phase := .opening
  tracker := ⟨10, ⟨0, 10⟩, [], [], false, .resting⟩
  inbox := []
  outstanding := []
  answered := []
  turn := .loop

/-- The escalation that has its first candidate signed, with nothing watched yet. -/
def handedIn : Escalation :=
  { x.opened with
    phase := .signing true ⟨.ok (x.write (x.transaction .suggested)), some (0 + d.signature)⟩
    tracker := ⟨10, ⟨10, 10⟩, [], [], false, .resting⟩
    turn := .tracker }

variable {x} {cancelAt : Option Nat}

/-- The slots once the send has asked for its lease. -/
def asked (x : Errand) : Leases := (Leases.empty.ask x.lease.account).2

/-- It gets the lock, as no other send has asked. -/
theorem slot_asked (fits : x.Fits .empty) :
    x.asked.slot x.lease.account = ⟨none, some x.lease.ticket, []⟩ := by
  rw [asked, Leases.slot_ask, if_pos rfl, fits.ticket]
  rfl

/-- **The first candidate comes to the signer**, at the moment of the start. -/
theorem signs (cancelAt : Option Nat) (fits : x.Fits .empty)
    (going : Escalation.isPast cancelAt 0 = false) (some_time : timeout ≠ some 0) :
    Reached (x.tardy d timeout) x.call cancelAt 0 []
      (x.underWay timeout (.escalating x.lease (x.handedIn d))) := by
  have same (phase : Phase) : (x.underWay timeout phase).limits (Escalation.isPast cancelAt 0) =
      ⟨false, timeout.map (0 + ·)⟩ := by
    rw [going]
    rfl
  have verdict : Limits.verdict ⟨false, timeout.map (0 + ·)⟩ 0 = none := by
    cases timeout with
    | none => rfl
    | some t =>
      have : t ≠ 0 := by simpa using some_time
      simp [Limits.verdict, this]
  have nonce : x.lease.nonce = 7 := by
    obtain ⟨next, free, nonce⟩ := fits.slot
    cases free
    exact nonce
  have holds : x.asked.holds x.lease.account x.lease.ticket = true := by
    rw [Leases.holds_iff, slot_asked fits]
  obtain ⟨word, own, limit⟩ := Option.map_eq_some_iff.mp fits.limit
  have start : Reached (x.tardy d timeout) x.call cancelAt 0 []
      (x.underWay timeout (.leasing (.asking .start))) := ⟨[], .start, rfl⟩
  have joins : Reached (x.tardy d timeout) x.call cancelAt 0 []
      (x.underWay timeout (.leasing (.asking (.queued x.lease.ticket)))) := by
    refine start.step .empty x.asked [] ?_ (same _)
    simp only [underWay, stepWithin, leaseStep, verdict, fits.ticket]
    rfl
  have reads : Reached (x.tardy d timeout) x.call cancelAt 0 []
      (x.underWay timeout (.leasing (.asking (.reading x.lease.ticket
        (.immediate 0 (.ok x.lease.nonce)))))) := by
    refine joins.step x.asked x.asked
      [.nonce x.lease.account (.immediate 0 (.ok x.lease.nonce))] ?_ (same _)
    have account : (x.tardy d timeout).noted.signer.address = x.lease.account := rfl
    simp only [underWay, stepWithin, leaseStep, verdict, Acquire.step, account, holds,
      slot_asked fits, nonce]
    rfl
  have learns : Reached (x.tardy d timeout) x.call cancelAt 0 []
      (x.underWay timeout (.pricing x.lease x.limit .ready)) := by
    refine reads.step x.asked (x.asked.note x.lease.account (some x.lease.nonce)) [] ?_ (same _)
    have leased : (x.underWay timeout (.leasing (.asking (.reading x.lease.ticket
        (.immediate 0 (.ok x.lease.nonce)))))).afterLease x.lease =
          .pricing x.lease x.limit .ready := by
      simp [afterLease, underWay, own, limit]
    simp only [underWay, stepWithin, leaseStep, verdict]
    exact congrArg (fun phase => some (Outcome.running (x.underWay timeout phase), _, _)) leased
  have asks : Reached (x.tardy d timeout) x.call cancelAt 0 []
      (x.underWay timeout (.pricing x.lease x.limit
        (.asking (.immediate 0 (.ok .suggested))))) := by
    refine learns.step x.asked x.asked [.gasPrice (.immediate 0 (.ok .suggested))] ?_ (same _)
    simp only [underWay, stepWithin, priceStep, Retry.step, verdict]
    rfl
  have bids : Reached (x.tardy d timeout) x.call cancelAt 0 []
      (x.underWay timeout (.escalating x.lease x.opened)) := by
    refine asks.step x.asked x.asked [] ?_ (same _)
    simp only [underWay, stepWithin, priceStep, Retry.step, verdict]
    rfl
  have opens := bids.step x.asked x.asked [_] rfl (same _)
  -- The tracker polls while nothing is published yet.
  exact (opens.turn .tracker).step x.asked x.asked [] rfl (same _)

/-- A send waits where all three parties do. -/
theorem step_eq_none {desk : Desk Unit} {cancelled : Bool} {now : Nat} {l : Leases} {call : Call}
    {deadline : Option Nat} {lease : Lease} {e : Escalation}
    (h : ∀ party, e.stepOf desk ⟨cancelled, deadline⟩ now () party = none) :
    Send.step desk cancelled now ⟨call, deadline, .escalating lease e⟩ l () = none := by
  have still := Escalation.step_eq_none h
  simp only [Send.step, stepWithin, limits, still]

/-- No step is possible while the first candidate is being signed, not even behind a
    cancellation. -/
theorem sleeps {now : Nat} (later : Nat) (h : Reached (x.tardy d timeout) x.call cancelAt now []
      (x.underWay timeout (.escalating x.lease (x.handedIn d))))
    (passes : now < later) (unsigned : later ≤ d.signature) (soon : later ≤ 10)
    (soonest : ∀ c ∈ cancelAt, now < c → later ≤ c) :
    Reached (x.tardy d timeout) x.call cancelAt later []
      (x.underWay timeout (.escalating x.lease (x.handedIn d))) := by
  refine h.wait (l := .empty) ?_ passes ?_
  · have pending : ¬ d.signature ≤ now := by omega
    have resting : ¬ 10 ≤ now := by omega
    refine step_eq_none fun party => ?_
    cases party with
    | loop =>
      simp [Escalation.stepOf, Escalation.loopStep, handedIn, Pending.ready?, pending]
    | tracker =>
      simp [Escalation.stepOf, Escalation.trackerStep, handedIn, Tracker.step, Ticker.tick?,
        resting]
    | broadcasts => rfl
  · intro alarm listed ahead
    simp only [alarms, underWay, Escalation.alarms, handedIn, opened, Tracker.alarms,
      Pending.alarms, List.mem_append, Option.mem_toList, List.flatMap_nil, List.mem_nil_iff,
      List.mem_singleton, Option.some.injEq, or_false] at listed
    rcases listed with (rfl | rfl) | cancel
    · omega
    · exact soon
    · exact soonest alarm cancel ahead

/-! ### Two candidates -/

variable (x)

/-- The escalation whose first candidate was accepted. -/
def taken : Escalation where
  call := x.call
  nonce := x.lease.nonce
  gasLimit := x.limit
  started := 0
  ticker := ⟨6, 6⟩
  book := { Book.opening .suggested with published := 1, accepted := some .suggested }
  phase := .listening
  tracker := ⟨10, ⟨10, 10⟩, [x.hash], [], false, .resting⟩
  inbox := []
  outstanding := []
  answered := []
  turn := .loop

/-- The escalation that asks for its next suggestion. -/
def pricingAgain : Escalation :=
  { x.taken with ticker := ⟨12, 6⟩, phase := .pricing (.immediate 6 (.ok .suggested)) }

/-- The escalation that has its second candidate signed. -/
def signingAgain : Escalation :=
  { x.pricingAgain with
    book := { x.taken.book with bid := .raised, attempt := 1 }
    phase := .signing false ⟨.ok (x.write (x.transaction .raised)), some 7⟩ }

/-- The escalation that has handed its second candidate out, and watches its hash as well. -/
def handedOutAgain (others : List Digest) : Escalation :=
  { x.signingAgain with
    book := { x.signingAgain.book with published := 2 }
    phase := .listening
    tracker := ⟨10, ⟨10, 10⟩, x.hash :: others, [], false, .resting⟩
    outstanding := [.queued (x.candidate .raised)] }

/-- The escalation with both candidates broadcast, and the answer to the second one under way. -/
def both (others : List Digest) (second : Pending Verdict) : Escalation :=
  { x.handedOutAgain others with
    outstanding := [.sent .raised (x.candidate .raised).hash second]
    turn := .broadcasts }

/-- The first hash stays in front of the watched ones. -/
theorem handOut_signingAgain : ∃ others,
    x.signingAgain.handOut (x.write (x.transaction .raised)) = x.handedOutAgain others := by
  have watch : ∃ others, x.taken.tracker.watch (x.candidate .raised).hash =
      ⟨10, ⟨10, 10⟩, x.hash :: others, [], false, .resting⟩ := by
    simp only [Tracker.watch]
    split
    · exact ⟨[], rfl⟩
    · exact ⟨[(x.candidate .raised).hash], rfl⟩
  obtain ⟨others, watch⟩ := watch
  refine ⟨others, ?_⟩
  rw [handedOutAgain, ← watch]
  rfl

variable {x} {second : Pending Verdict} {mined : Nat}

/-- The first candidate is published, and a node accepts it. -/
theorem takes (fits : x.Fits .empty) :
    Reached (x.tardy ⟨1, second, mined⟩ none) x.call none 1 [x.candidate .suggested]
      (x.underWay none (.escalating x.lease x.taken)) := by
  have asked := signs ⟨1, second, mined⟩ none none fits rfl (by simp)
  have signed := sleeps _ _ 1 asked (by omega) (Nat.le_refl _) (by omega) (by simp)
  have hands := (signed.turn .loop).step .empty _ _ rfl rfl
  have sends := hands.step .empty _ _ rfl rfl
  have answers := sends.step .empty _ _ rfl rfl
  exact answers.step .empty .empty [] rfl rfl

/-- The next bid is ten percent above the last one, where the suggestion is not. -/
theorem raisesAgain :
    x.pricingAgain.stepOf (x.tardy ⟨1, second, mined⟩ none).noted ⟨false, none⟩ 6 ((), []) .loop =
      some (.running x.signingAgain, (),
        [.sign 1 (x.transaction .raised) ⟨.ok (x.write (x.transaction .raised)), some 7⟩]) := by
  have count : countUp UInt32.size x.pricingAgain.book.attempt = .ok 1 := rfl
  have next : (x.tardy ⟨1, second, mined⟩ none).noted.policy.pricing.nextBid
      x.pricingAgain.book.bid 1 .suggested = .ok .raised := by
    show (Policy.steady none).pricing.nextBid .suggested 1 .suggested = .ok .raised
    decide
  have higher : Amount.raised ≠ x.pricingAgain.book.bid := by
    show Amount.raised ≠ .suggested
    decide
  show some (x.pricingAgain.afterPricing _ 6 (.ok .suggested) ((), [])) = _
  simp only [Escalation.afterPricing, count, bind, Except.bind, next, pure, Except.pure,
    if_neg higher]
  rfl

/-- **Two candidates are published** before the tracker polls either of them. -/
theorem hands (second : Pending Verdict) (mined : Nat) (fits : x.Fits .empty) : ∃ others,
    Reached (x.tardy ⟨1, second, mined⟩ none) x.call none 7
      [x.candidate .suggested, x.candidate .raised]
      (x.underWay none (.escalating x.lease (x.both others second))) := by
  have due : Reached (x.tardy ⟨1, second, mined⟩ none) x.call none 6 [x.candidate .suggested]
      (x.underWay none (.escalating x.lease x.taken)) :=
    (takes fits).wait (l := .empty) rfl (by decide) (by
      show ∀ alarm ∈ [20, 6, 10], 1 < alarm → 6 ≤ alarm
      decide)
  have asks : Reached (x.tardy ⟨1, second, mined⟩ none) x.call none 6 [x.candidate .suggested]
      (x.underWay none (.escalating x.lease x.pricingAgain)) :=
    due.step .empty .empty [.gasPrice (.immediate 6 (.ok .suggested))] rfl rfl
  have raises : Reached (x.tardy ⟨1, second, mined⟩ none) x.call none 6 [x.candidate .suggested]
      (x.underWay none (.escalating x.lease x.signingAgain)) :=
    asks.step .empty _ _ (stepWithin_of_turn raisesAgain) rfl
  have signed : Reached (x.tardy ⟨1, second, mined⟩ none) x.call none 7 [x.candidate .suggested]
      (x.underWay none (.escalating x.lease x.signingAgain)) :=
    raises.wait (l := .empty) rfl (by decide) (by
      show ∀ alarm ∈ [7, 10], 6 < alarm → 7 ≤ alarm
      decide)
  have publishes : x.signingAgain.stepOf (x.tardy ⟨1, second, mined⟩ none).noted ⟨false, none⟩ 7
      ((), []) .loop =
        some (.running (x.signingAgain.handOut (x.write (x.transaction .raised))), (), []) := rfl
  have shown : (x.underWay none (.escalating x.lease x.signingAgain)).handedOut
      (x.underWay none (.escalating x.lease
        (x.signingAgain.handOut (x.write (x.transaction .raised))))) = [x.candidate .raised] :=
    x.signingAgain.handedOut_handOut _
  have handsOut : Reached (x.tardy ⟨1, second, mined⟩ none) x.call none 7
      ([x.candidate .suggested] ++ [x.candidate .raised])
      (x.underWay none (.escalating x.lease
        (x.signingAgain.handOut (x.write (x.transaction .raised))))) := by
    rw [← shown]
    exact signed.step .empty _ _ (stepWithin_of_turn publishes) rfl
  obtain ⟨others, watches⟩ := x.handOut_signingAgain
  rw [watches] at handsOut
  exact ⟨others, handsOut.step .empty .empty [.broadcast (x.candidate .raised) second] rfl rfl⟩

/-! ### The receipt of the first -/

variable (x)

/-- The receipt of the first candidate, with no confirmations yet. -/
def shallow : Receipt := ⟨x.hash, 100, none, true, none, none, 0⟩

/-- The escalation whose tracker looks the first candidate up. -/
def looking (others : List Digest) (second : Pending Verdict)
    (found : Option ChainReceipt) : Escalation :=
  { x.both others second with
    tracker := ⟨10, ⟨20, 10⟩, x.hash :: others, [], false,
      .asking 100 [] x.hash others (.immediate 10 (.ok found))⟩
    turn := .tracker }

/-- The escalation that has received `mined` for its first candidate. -/
def aware (others : List Digest) (second : Pending Verdict) : Escalation :=
  { x.both others second with
    book := { x.signingAgain.book with published := 2, seen := true, mined := [x.hash] }
    tracker := ⟨10, ⟨20, 10⟩, x.hash :: others, [(x.hash, 100)], true,
      .found 100 [] x.hash x.shallow others⟩
    turn := .loop }

variable {x}

/-- **The loop receives that its first candidate is mined**, with the second broadcast under way. -/
theorem mines (mined : Nat) (verdict : Verdict) (fits : x.Fits .empty) (soon : mined ≤ 10) :
    ∃ others,
    Reached (x.tardy ⟨1, ⟨verdict, some 10⟩, mined⟩ none) x.call none 10
      [x.candidate .suggested, x.candidate .raised]
      (x.underWay none (.escalating x.lease (x.aware others ⟨verdict, some 10⟩))) := by
  obtain ⟨others, out⟩ := hands ⟨verdict, some 10⟩ mined fits
  refine ⟨others, ?_⟩
  have due : Reached (x.tardy ⟨1, ⟨verdict, some 10⟩, mined⟩ none) x.call none 10
      [x.candidate .suggested, x.candidate .raised]
      (x.underWay none (.escalating x.lease (x.both others ⟨verdict, some 10⟩))) :=
    out.wait (l := .empty) rfl (by decide) (by
      show ∀ alarm ∈ [20, 12, 10, 10], 7 < alarm → 10 ≤ alarm
      decide)
  have begins := (due.turn .tracker).step .empty _ _ rfl rfl
  have heads := begins.step .empty _ _ rfl rfl
  have asks : Reached (x.tardy ⟨1, ⟨verdict, some 10⟩, mined⟩ none) x.call none 10
      [x.candidate .suggested, x.candidate .raised]
      (x.underWay none (.escalating x.lease (x.looking others ⟨verdict, some 10⟩
        (if x.hash = x.hash ∧ mined ≤ 10 then some (.prompt x.hash) else none)))) :=
    heads.step .empty _ _ rfl rfl
  rw [if_pos ⟨rfl, soon⟩] at asks
  have finds := asks.step .empty _ _ rfl rfl
  have sights := finds.step .empty _ _ rfl rfl
  have emits := sights.step .empty _ _ rfl rfl
  have receives := (emits.turn .loop).step .empty _ _ rfl rfl
  exact receives.step .empty .empty [] rfl rfl

end Errand

end Send

end Relayer
