import Relayer.Proofs.Leases.Slots
import Relayer.Proofs.Send.Trail

namespace Relayer

/-!
# Prompt — a send to which everybody answers at once

A run may meet any outside, also one where nothing ever happens.  Here is the other end of the
scale: node and signer answer at once, no other send has a ticket, and a send ends with its receipt.

* `Desk.prompt` — a node and a signer that answer at once;
* `Send.Stretch` — steps that one send makes at one moment, with nobody in between;
* `Send.Errand.leases` — a free slot is granted;
* `Send.Errand.bids` / `Send.Errand.bidsAgain` — one candidate is published, and a higher one;
* `Send.Errand.confirms` / `Send.Errand.returns` — `confirmed` is emitted, and the send returns it;
* `Send.Errand.Fits.ends` — the whole way, from the start to the receipt.
-/

/-! ### The desk -/

/-- A reply that is always the same and always there. -/
def Call.Effect.prompt {α : Type} (a : α) : Call.Effect Unit α :=
  fun now outside => (.immediate now a, outside)

/-- The gas price that the node suggests. -/
def Amount.suggested : Amount := ⟨20, by decide⟩

/-- Ten percent more. -/
def Amount.raised : Amount := ⟨22, by decide⟩

/-- The standard policy, with short times and a low ceiling. -/
def Policy.brisk : Policy :=
  { Policy.standard with
    resubmitAfter := 2
    receiptInterval := 1
    mempoolTimeout := 5
    maxGasPrice := ⟨30, by decide⟩ }

/-- The policy is valid. -/
theorem Policy.validate_brisk : brisk.validate = .ok () := by decide

/-- The receipt of a hash that is in block 100. -/
def ChainReceipt.prompt (hash : Digest) : ChainReceipt := ⟨hash, some 100, some 1, none, none, none⟩

/-- A node and a signer that answer at once.  Whatever hash is looked up is ten blocks deep. -/
def Desk.prompt (account : Address) (write : Transaction → List UInt8) : Desk Unit where
  policy := .brisk
  chain :=
    { chainId := .prompt (.ok 1)
      gasPrice := .prompt (.ok .suggested)
      nonce := fun _ => .prompt (.ok 7)
      estimate := fun _ => .prompt (.ok (.ofWord 21000))
      broadcast := fun _ => .prompt .accepted
      receipt := fun hash => .prompt (.ok (some (.prompt hash)))
      knows := fun _ => .prompt (.ok true)
      head := .prompt (.ok 110) }
  signer := { address := account, sign := fun _ t => .prompt (.ok (write t)) }
  chainId := 1

@[simp] theorem Desk.prompt_address (account : Address) (write : Transaction → List UInt8) :
    (Desk.prompt account write).signer.address = account := rfl

/-- The receipt of a hash carries that hash. -/
theorem Desk.prompt_faithful (account : Address) (write : Transaction → List UInt8) (hash : Digest)
    (now : Nat) (outside : Unit) (answer : ChainReceipt)
    (h : ((Desk.prompt account write).chain.receipt hash now outside).1.answer =
      .ok (some answer)) : answer.hash = hash := by
  obtain rfl : ChainReceipt.prompt hash = answer := Option.some.inj (Except.ok.inj h)
  rfl

namespace Send

/-! ### Stretches -/

/-- Steps that a send makes at one moment, with no other client in between. -/
inductive Stretch (desk : Desk Unit) (now : Nat) (s : Send) (l : Leases) :
    List Event → Send → Leases → Prop where
  | here : Stretch desk now s l [] s l
  | step {trail later s' s'' l' l''} (before : Stretch desk now s l trail s' l')
      (calls : List Inquiry)
      (step : s'.stepWithin desk.noted ⟨false, none⟩ now l' ((), []) =
        some (.running s'', l'', (), calls))
      (shown : s'.shown calls (.running s'') = later) :
      Stretch desk now s l (trail ++ later) s'' l''

namespace Stretch

variable {desk : Desk Unit} {now : Nat} {s s' s'' : Send} {l l' l'' : Leases}
  {trail later : List Event}

/-- One stretch may follow another. -/
theorem trans (h : Stretch desk now s l trail s' l')
    (h' : Stretch desk now s' l' later s'' l'') :
    Stretch desk now s l (trail ++ later) s'' l'' := by
  induction h' with
  | here => simpa using h
  | step _ calls step shown ih =>
    rw [← List.append_assoc]
    exact .step ih calls step shown

/-- A stretch prolongs a run. -/
theorem run {call : Call} (h : Stretch desk now s l later s' l')
    (run : Run desk call trail s) : Run desk call (trail ++ later) s' := by
  induction h with
  | here => simpa using run
  | step _ _ step shown ih =>
    rw [← List.append_assoc, ← shown]
    exact .step ih step

end Stretch

/-! ### Errands -/

/-- What a send is about once it has a lease, and how its bytes are signed. -/
structure Errand where
  write : Transaction → List UInt8
  call : Call
  lease : Lease
  limit : Amount

namespace Errand

variable (x : Errand) (l : Leases)

/-- The desk of the errand. -/
def desk : Desk Unit := .prompt x.lease.account x.write

/-- The transaction that is signed at a bid. -/
def transaction (bid : Amount) : Transaction :=
  x.call.toTransaction x.lease.account 1 x.lease.nonce x.limit bid

/-- The candidate at a bid. -/
def candidate (bid : Amount) : Candidate :=
  .ofSigned x.lease.nonce bid x.limit (x.write (x.transaction bid))

/-- The hash of the first candidate. -/
def hash : Digest := (x.candidate .suggested).hash

/-- The send, about to ask for its initial suggestion. -/
def opening : Send := ⟨x.call, none, .pricing x.lease x.limit .ready⟩

/-- The send with its escalation. -/
def escalating (e : Escalation) : Send := ⟨x.call, none, .escalating x.lease e⟩

/-- The errand is what comes of its call at these slots: the call has its own gas limit, and the
    slot is free, with `next` known or else the pending nonce of the node. -/
structure Fits : Prop where
  limit : x.call.gasLimit.map .ofWord = some x.limit
  ticket : x.lease.ticket = l.fresh
  slot : ∃ next, l.slot x.lease.account = ⟨next, none, []⟩ ∧ x.lease.nonce = next.getD 7

/-! ### The lease -/

/-- The lease is all that is shown with it. -/
theorem shown_opening (a : Leasing) :
    (⟨x.call, none, .leasing a⟩ : Send).shown [] (.running x.opening) = [.granted x.lease] := rfl

/-- Where the call has its own gas limit, the lease leads to the initial suggestion. -/
theorem enter_opening (fits : x.Fits l) (a : Leasing) (l' : Leases)
    (outside : Unit × List Inquiry) :
    (⟨x.call, none, .leasing a⟩ : Send).enter
        ((⟨x.call, none, .leasing a⟩ : Send).afterLease x.lease) l' outside =
      (.running x.opening, l', outside) := by
  obtain ⟨word, own, limit⟩ := Option.map_eq_some_iff.mp fits.limit
  simp [enter, afterLease, own, opening, limit]

variable {l}

/-- **A free slot is granted at once.** -/
theorem leases (fits : x.Fits l) :
    ∃ (calls : List Inquiry) (l' : Leases),
      Stretch x.desk 0 (start .brisk x.call 0) l (calls.map .asked ++ [.granted x.lease])
        x.opening l' ∧
      l'.slot x.lease.account = ⟨some x.lease.nonce, some x.lease.ticket, []⟩ := by
  obtain ⟨next, free, nonce⟩ := fits.slot
  have asked : (l.ask x.lease.account).2.slot x.lease.account =
      ⟨next, some x.lease.ticket, []⟩ := by
    rw [Leases.slot_ask, if_pos rfl, free, fits.ticket]
    rfl
  have holds : (l.ask x.lease.account).2.holds x.lease.account x.lease.ticket = true := by
    rw [Leases.holds_iff, asked]
  have joins : Stretch x.desk 0 (start .brisk x.call 0) l []
      ⟨x.call, none, .leasing (.asking (.queued x.lease.ticket))⟩ (l.ask x.lease.account).2 := by
    rw [fits.ticket]
    exact .step .here [] rfl rfl
  cases next with
  | some n =>
    obtain rfl : x.lease.nonce = n := nonce
    refine ⟨[], (l.ask x.lease.account).2, .step joins [] ?_ (x.shown_opening _), asked⟩
    simp only [stepWithin, leaseStep, Limits.verdict, Acquire.step, Desk.noted_address,
      desk, Desk.prompt_address, holds, asked]
    exact congrArg some (x.enter_opening l fits _ _ _)
  -- With no `next` known the holder reads the nonce from the chain first.
  | none =>
    have reads : Stretch x.desk 0 (start .brisk x.call 0) l
        [.asked (.nonce x.lease.account (.immediate 0 (.ok x.lease.nonce)))]
        ⟨x.call, none, .leasing (.asking (.reading x.lease.ticket
          (.immediate 0 (.ok x.lease.nonce))))⟩ (l.ask x.lease.account).2 := by
      refine .step joins [.nonce x.lease.account (.immediate 0 (.ok x.lease.nonce))] ?_ rfl
      rw [show x.lease.nonce = 7 from nonce]
      simp only [stepWithin, leaseStep, Limits.verdict, Acquire.step, Desk.noted_address,
        desk, Desk.prompt_address, holds, asked]
      rfl
    refine ⟨[.nonce x.lease.account (.immediate 0 (.ok x.lease.nonce))],
      (l.ask x.lease.account).2.note x.lease.account (some x.lease.nonce),
      .step reads [] (congrArg some (x.enter_opening l fits _ _ _)) (x.shown_opening _), ?_⟩
    rw [Leases.slot_note, if_pos rfl, asked]

variable (l)

/-! ### The candidates -/

/-- The party whose turn it is goes first. -/
theorem step_of_turn {e e' : Escalation} {now : Nat} {calls : List Inquiry}
    (h : e.stepOf x.desk.noted ⟨false, none⟩ now ((), []) e.turn =
      some (.running e', (), calls)) :
    (x.escalating e).stepWithin x.desk.noted ⟨false, none⟩ now l ((), []) =
      some (.running (x.escalating e'), l, (), calls) := by
  simp only [escalating, stepWithin, Escalation.step_of_turn h]
  rfl

/-- The escalation whose first candidate has just been handed out. -/
def handedOut : Escalation where
  call := x.call
  nonce := x.lease.nonce
  gasLimit := x.limit
  started := 0
  ticker := ⟨2, 2⟩
  book := { Book.opening .suggested with published := 1 }
  phase := .listening
  tracker := ⟨10, ⟨0, 1⟩, [x.hash], [], false, .resting⟩
  inbox := []
  outstanding := [.queued (x.candidate .suggested)]
  answered := []
  turn := .loop

/-- What a new bid shows: a suggestion, a signature, and the published candidate. -/
def bidding (now : Nat) (bid : Amount) : List Event :=
  [ .asked (.gasPrice (.immediate now (.ok .suggested))),
    .asked (.sign 1 (x.transaction bid) (.immediate now (.ok (x.write (x.transaction bid))))),
    .published (x.candidate bid) ]

/-- **The first candidate is published** at the suggestion of the node. -/
theorem bids :
    Stretch x.desk 0 x.opening l (x.bidding 0 .suggested) (x.escalating x.handedOut) l := by
  have start : Stretch x.desk 0 x.opening l [] x.opening l := .here
  have asks := start.step _ rfl rfl
  have opens := asks.step _ rfl rfl
  have signs := opens.step _ rfl rfl
  exact signs.step _ rfl rfl

/-- The escalation that asks for a suggestion once more. -/
def pricing : Escalation :=
  { x.handedOut with ticker := ⟨4, 2⟩, phase := .pricing (.immediate 2 (.ok .suggested)) }

/-- The escalation that has its second candidate signed. -/
def signing : Escalation :=
  { x.handedOut with
    ticker := ⟨4, 2⟩
    book := { Book.opening .raised with attempt := 1, published := 1 }
    phase := .signing false (.immediate 2 (.ok (x.write (x.transaction .raised)))) }

/-- The next bid is ten percent above the last one, where the suggestion is not. -/
theorem raises :
    x.pricing.afterPricing x.desk.noted 2 (.ok .suggested) ((), []) =
      (.running x.signing, (),
        [.sign 1 (x.transaction .raised)
          (.immediate 2 (.ok (x.write (x.transaction .raised))))]) := by
  have count : countUp UInt32.size x.pricing.book.attempt = .ok 1 := rfl
  have next : x.desk.noted.policy.pricing.nextBid x.pricing.book.bid 1 .suggested =
      .ok .raised := by
    show Policy.brisk.pricing.nextBid .suggested 1 .suggested = .ok .raised
    decide
  have higher : Amount.raised ≠ x.pricing.book.bid := by
    show Amount.raised ≠ .suggested
    decide
  simp only [Escalation.afterPricing, count, bind, Except.bind, next, pure, Except.pure,
    if_neg higher]
  rfl

/-- **A higher candidate is published** at the next resubmission tick. -/
theorem bidsAgain : ∃ e,
    Stretch x.desk 2 (x.escalating x.handedOut) l (x.bidding 2 .raised) (x.escalating e) l := by
  have start : Stretch x.desk 2 (x.escalating x.handedOut) l [] _ l := .here
  have asks : Stretch x.desk 2 (x.escalating x.handedOut) l
      [.asked (.gasPrice (.immediate 2 (.ok .suggested)))] (x.escalating x.pricing) l :=
    start.step _ rfl rfl
  have loop : x.pricing.stepOf x.desk.noted ⟨false, none⟩ 2 ((), []) .loop =
      some (x.pricing.afterPricing x.desk.noted 2 (.ok .suggested) ((), [])) := rfl
  have signs := asks.step _ (x.step_of_turn l (loop.trans (congrArg some x.raises))) rfl
  exact ⟨_, signs.step _ rfl rfl⟩

/-! ### The receipt -/

/-- The receipt that the tracker emits in the end. -/
def receipt : Receipt := ⟨x.hash, 100, none, true, none, none, 10⟩

/-- The escalation whose tracker has found the receipt, and emitted all but `confirmed`. -/
def mined : Escalation :=
  { x.handedOut with
    tracker := ⟨10, ⟨1, 1⟩, [x.hash], [(x.hash, 100)], true, .found 110 [] x.hash x.receipt []⟩
    inbox := [.inMempool x.hash, .mined x.hash 100]
    turn := .tracker }

/-- The escalation whose tracker has emitted `confirmed` as well. -/
def emitted : Escalation :=
  { x.mined with
    tracker := ⟨10, ⟨1, 1⟩, [x.hash], [(x.hash, 100)], true, .done⟩
    inbox := [.inMempool x.hash, .mined x.hash 100, .confirmed x.receipt] }

/-- The escalation that has only `confirmed` left in its inbox. -/
def confirmed : Escalation :=
  { x.handedOut with
    book := ({ Book.opening .suggested with published := 1 } : Book).noteMined x.hash
    tracker := ⟨10, ⟨1, 1⟩, [x.hash], [(x.hash, 100)], true, .done⟩
    inbox := [.confirmed x.receipt]
    outstanding := []
    answered := [⟨.suggested, x.hash, .accepted⟩] }

/-- A candidate that is mined and deep enough is confirmed. -/
theorem emits :
    x.mined.stepOf x.desk.noted ⟨false, none⟩ 0 ((), []) .tracker =
      some (.running x.emitted, (), []) := by
  -- No step here compares two hashes by what they are: the one is found under itself.
  have known : x.mined.tracker.minedIn? x.hash = some 100 := by
    simp [mined, Tracker.minedIn?]
  have deep : x.mined.tracker.atReceipt true 110 [] x.hash x.receipt [] =
      some (x.emitted.tracker, some (.confirmed x.receipt)) := by
    simp only [Tracker.atReceipt, known]
    rfl
  have step : x.mined.tracker.step x.desk.noted.chain 0 true ((), []) =
      some (x.emitted.tracker, some (.confirmed x.receipt), (), []) := by
    show Tracker.inside ((), ([] : List Inquiry))
      (x.mined.tracker.atReceipt true 110 [] x.hash x.receipt []) = _
    rw [deep]
    rfl
  have room : decide (x.mined.inbox.length < Escalation.inboxSize) = true := rfl
  show x.mined.trackerStep x.desk.noted 0 ((), []) = _
  rw [Escalation.trackerStep, room, step]
  rfl

/-- What the poll and the broadcast show. -/
def round : List Event :=
  [ .asked (.head (.immediate 0 (.ok 110))),
    .asked (.receipt x.hash (.immediate 0 (.ok (some (.prompt x.hash))))),
    .asked (.broadcast (x.candidate .suggested) (.immediate 0 .accepted)) ]

/-- **The tracker emits `confirmed`**, and the candidate reaches the node. -/
theorem confirms :
    Stretch x.desk 0 (x.escalating x.handedOut) l x.round (x.escalating x.confirmed) l := by
  have start : Stretch x.desk 0 (x.escalating x.handedOut) l [] _ l := .here
  -- The tracker makes one poll.
  have begins := start.step _ rfl rfl
  have heads := begins.step _ rfl rfl
  have asks := heads.step _ rfl rfl
  have finds := asks.step _ rfl rfl
  have sights := finds.step _ rfl rfl
  have mines : Stretch x.desk 0 (x.escalating x.handedOut) l
      [.asked (.head (.immediate 0 (.ok 110))),
        .asked (.receipt x.hash (.immediate 0 (.ok (some (.prompt x.hash)))))]
      (x.escalating x.mined) l := sights.step _ rfl rfl
  have emits := mines.step _ (x.step_of_turn l x.emits) rfl
  -- Then the broadcast gets its turn, and the loop receives the events.
  have sends := emits.step _ rfl rfl
  have answers := sends.step _ rfl rfl
  have receives := answers.step _ rfl rfl
  exact receives.step _ rfl rfl

/-- **The send returns the receipt**, and commits its lease. -/
theorem returns (room : x.lease.nonce.toNat + 1 < UInt64.size) :
    (x.escalating x.confirmed).stepWithin x.desk.noted ⟨false, none⟩ 0 l ((), []) =
      some (.ended (.ok x.receipt),
        x.lease.release (l.note x.lease.account (some (x.lease.nonce + 1))), (), []) := by
  have commit : x.lease.commit l =
      .ok (x.lease.release (l.note x.lease.account (some (x.lease.nonce + 1)))) := by
    rw [Lease.commit, if_pos room]
  have receives : x.confirmed.step x.desk.noted ⟨false, none⟩ 0 ((), []) =
    some (.ended (.ok x.receipt), (), []) := rfl
  simp only [escalating, stepWithin, receives, settle, commit]

/-! ### From the start to the end -/

/-- What a send shows that makes these calls before it is granted its lease. -/
def trail (calls : List Inquiry) : List Event :=
  calls.map .asked ++ .granted x.lease :: (x.bidding 0 .suggested ++ x.round)

variable {x l} {calls : List Inquiry}

/-- The grant is a part of it. -/
theorem granted_mem_trail : .granted x.lease ∈ x.trail calls := by
  simp [trail]

/-- So is the broadcast. -/
theorem broadcast_mem_trail :
    .asked (.broadcast (x.candidate .suggested) (.immediate 0 .accepted)) ∈ x.trail calls := by
  simp [trail, round]

/-- The end is not. -/
theorem not_over_of_mem_trail {e : Event} (h : e ∈ x.trail calls) : e.isOver = false := by
  rcases List.mem_append.mp h with call | later
  · obtain ⟨i, -, rfl⟩ := List.mem_map.mp call
    rfl
  · simp only [bidding, round, List.cons_append, List.nil_append, List.mem_cons,
      List.not_mem_nil, or_false] at later
    rcases later with rfl | rfl | rfl | rfl | rfl | rfl | rfl <;> rfl

/-- **A call at a free slot is carried out**, up to its receipt. -/
theorem Fits.stretch (fits : x.Fits l) :
    ∃ (calls : List Inquiry) (l' : Leases),
      Stretch x.desk 0 (start .brisk x.call 0) l (x.trail calls) (x.escalating x.confirmed) l' ∧
      l'.slot x.lease.account = ⟨some x.lease.nonce, some x.lease.ticket, []⟩ := by
  obtain ⟨calls, l', leases, slot⟩ := x.leases fits
  refine ⟨calls, l', ?_, slot⟩
  have shown := (leases.trans (x.bids l')).trans (x.confirms l')
  simpa [trail] using shown

/-- **A send may publish two candidates**, and broadcasts no others. -/
theorem Fits.raises (fits : x.Fits l) : ∃ (trail : List Event) (e : Escalation),
    Run x.desk x.call trail (x.escalating e) ∧
      published trail = [x.candidate .suggested, x.candidate .raised] := by
  obtain ⟨calls, l', leases, -⟩ := x.leases fits
  obtain ⟨e, bidsAgain⟩ := x.bidsAgain l'
  refine ⟨_, e, bidsAgain.run ((x.bids l').run (leases.run (.start 0))), ?_⟩
  simp [published, Event.published?, bidding, List.filterMap_none]

/-- **A send may return a receipt.** -/
theorem Fits.ends (fits : x.Fits l) (room : x.lease.nonce.toNat + 1 < UInt64.size) :
    ∃ trail, Ends x.desk x.call trail (.ok x.receipt) := by
  obtain ⟨calls, l', stretch, -⟩ := fits.stretch
  exact ⟨_, _, _, _, _, _, _, _, _, _, stretch.run (.start 0), x.returns l' room, rfl⟩

/-- The same call once more, at the next nonce. -/
def again (x : Errand) (ticket : Ticket) : Errand :=
  { x with lease := ⟨x.lease.account, ticket, x.lease.nonce + 1⟩ }

/-- It fits where the nonce before has been committed. -/
theorem again_fits (limit : x.call.gasLimit.map .ofWord = some x.limit)
    (slot : l.slot x.lease.account = ⟨some (x.lease.nonce + 1), none, []⟩) :
    (x.again l.fresh).Fits l :=
  ⟨limit, rfl, some (x.lease.nonce + 1), slot, rfl⟩

/-- An errand of the first send of all, which calls an account without value or data. -/
def bare : Errand where
  write := Transaction.payload
  call := ⟨.repeated 2, .zero, [], some 21000⟩
  lease := ⟨.repeated 1, 0, 7⟩
  limit := .ofWord 21000

/-- Slots of which only that of its account is in use, by this holder and with this line. -/
def slotted (holder : Ticket) (line : List Ticket) (fresh : Ticket) : Leases :=
  ⟨[(bare.lease.account, ⟨some bare.lease.nonce, some holder, line⟩)], fresh⟩

/-- No lease was asked for before it. -/
theorem bare_fits : bare.Fits .empty := ⟨rfl, rfl, none, rfl, rfl⟩

end Errand

end Send

end Relayer
