import Relayer.Send.Book
import Relayer.Send.Retry
import Relayer.Send.Tracker

namespace Relayer

/-!
# Escalation — the escalating re-broadcast loop behind every send

One nonce is driven by three parties side by side: the submission loop, which prices, signs and
publishes candidates, the receipt tracker, and the broadcasts under way.

* `Escalation` — the state of the three together;
* `Escalation.publish` / `Escalation.afterSigning` — a candidate is signed, watched and handed out;
* `Escalation.escalate` / `Escalation.afterPricing` — what a resubmission tick leads to;
* `Escalation.onEvent` / `Escalation.onBroadcast` — an event of the tracker, an answer of the node;
* `Escalation.loopStep` / `trackerStep` / `broadcastStep` — one step of each party;
* `Escalation.step` — one step of whoever's turn it is.
-/

/-! ### The state -/

/-- The capacity of the channel of tracker events. -/
def Escalation.inboxSize : Nat := 16

/-- A broadcast task. -/
inductive Broadcast where
  /-- Spawned, not yet sent to the node. -/
  | queued (candidate : Candidate)
  /-- Sent, with the reply under way. -/
  | sent (bid : Amount) (hash : Digest) (reply : Pending Verdict)

/-- The outcome of one broadcast task: the bid it carried and what the node answered. -/
structure Answer where
  bid : Amount
  hash : Digest
  verdict : Verdict
  deriving DecidableEq, Repr

/-- What the submission loop is doing. -/
inductive Escalation.Phase where
  /-- About to publish the first candidate. -/
  | opening
  /-- In its select, waiting for whatever comes first. -/
  | listening
  /-- Asking for a gas price suggestion at a resubmission tick. -/
  | pricing (reply : Pending (Except Failure Amount))
  /-- Signing a candidate, the first one or a later one. -/
  | signing (first : Bool) (reply : Pending (Except Stop (List UInt8)))

/-- Whose turn it is. -/
inductive Escalation.Party where
  | loop
  | tracker
  | broadcasts
  deriving DecidableEq, Repr

/-- One nonce with its loop, its tracker and its broadcasts. -/
structure Escalation where
  call : Call
  nonce : UInt64
  gasLimit : Amount
  started : Nat
  /-- The resubmission ticker. -/
  ticker : Ticker
  book : Book
  phase : Escalation.Phase
  tracker : Tracker
  /-- Events that the tracker has emitted and the loop has not received, the oldest first. -/
  inbox : List TrackerEvent
  /-- Broadcast tasks that have not returned, the oldest first. -/
  outstanding : List Broadcast
  /-- Outcomes of broadcast tasks that the loop has not joined, the oldest first. -/
  answered : List Answer
  turn : Escalation.Party

namespace Escalation

/-- What one step leads to. -/
inductive Outcome where
  | running (e : Escalation)
  | ended (result : Except Stop Receipt)

/-- The start of the submission loop at `now`: the first resubmission tick is due after
    `policy.resubmitAfter`, which must not be zero. -/
def start (policy : Policy) (call : Call) (nonce : UInt64) (gasLimit bid : Amount) (now : Nat) :
    Except Fault Escalation :=
  if policy.resubmitAfter = 0 then .error .zeroPeriod
  else .ok
    { call, nonce, gasLimit
      started := now
      ticker := ⟨now + policy.resubmitAfter, policy.resubmitAfter⟩
      book := .opening bid
      phase := .opening
      tracker := .start policy.confirmations.toNat policy.receiptInterval now
      inbox := []
      outstanding := []
      answered := []
      turn := .loop }

/-- When a send ends with `notInMempool`, if no candidate was seen there. -/
def mempoolDeadline (policy : Policy) (e : Escalation) : Nat := e.started + policy.mempoolTimeout

variable {σ : Type}

/-! ### The loop -/

/-- The end by a failure. -/
def fails (f : Failure) : Outcome := .ended (.error (.failure f))

/-- The end by a fault. -/
def breaks (f : Fault) : Outcome := .ended (.error (.fault f))

/-- Sign the current bid, for the first candidate or a later one. -/
def publish (desk : Desk σ) (first : Bool) (now : Nat) (e : Escalation) (outside : σ) :
    Outcome × σ :=
  let t := e.call.toTransaction desk.signer.address desk.chainId e.nonce e.gasLimit e.book.bid
  let (reply, outside) := desk.signer.sign desk.chainId t now outside
  (.running { e with phase := .signing first reply }, outside)

/-- What the signer's answer leads to: the hash of the candidate is watched before its broadcast is
    handed out.  Signing that fails with a retryable failure is retried at the next resubmission
    tick. -/
def afterSigning (e : Escalation) : Except Stop (List UInt8) → Outcome
  | .ok raw =>
    let candidate := Candidate.ofSigned e.nonce e.book.bid e.gasLimit raw
    .running
      { e with
        phase := .listening
        tracker := e.tracker.watch candidate.hash
        book := { e.book with published := e.book.published + 1 }
        outstanding := e.outstanding ++ [.queued candidate] }
  | .error (.failure f) =>
    if f.isRetryable then .running { e with phase := .listening } else fails f
  | .error (.fault f) => breaks f

/-- Price the next candidate and publish it, unless the bid stays the same and was accepted
    already.  Where the suggestion fails, the current bid stands in for it. -/
def afterPricing (desk : Desk σ) (now : Nat) (e : Escalation) (suggested : Except Failure Amount)
    (outside : σ) : Outcome × σ :=
  let suggested := match suggested with
    | .ok price => price
    | .error _ => e.book.bid
  let bidding := do
    let attempt ← countUp UInt32.size e.book.attempt
    return (attempt, ← desk.policy.pricing.nextBid e.book.bid attempt suggested)
  match bidding with
  | .error f => (breaks f, outside)
  | .ok (attempt, bid) =>
    if bid = e.book.bid then
      if e.book.accepted = some bid then (.running { e with phase := .listening }, outside)
      else publish desk false now e outside
    else publish desk false now { e with book := { e.book with bid, attempt } } outside

/-- A resubmission tick: ask for a suggestion, unless a candidate is mined. -/
def escalate (desk : Desk σ) (now : Nat) (e : Escalation) (outside : σ) : Outcome × σ :=
  if e.book.mined.isEmpty then
    let (reply, outside) := desk.chain.gasPrice now outside
    (.running { e with phase := .pricing reply }, outside)
  else (.running e, outside)

/-- What an event of the tracker leads to; `confirmed` ends the send. -/
def onEvent (e : Escalation) : TrackerEvent → Outcome
  | .inMempool _ => .running { e with book := { e.book with seen := true } }
  | .mined hash _ => .running { e with book := e.book.noteMined hash }
  | .reorged hash => .running { e with book := e.book.noteReorged hash }
  | .confirmed receipt => .ended (.ok receipt)

/-- What the answer to one broadcast leads to; an error of `Book.fold` ends the send. -/
def onBroadcast (policy : Policy) (e : Escalation) (a : Answer) : Outcome :=
  match e.book.fold policy e.nonce a.bid a.verdict with
  | .ok book => .running { e with book }
  | .error f => fails f

/-- Whether a deadline has expired. -/
def isPast (deadline : Option Nat) (now : Nat) : Bool :=
  match deadline with
  | some t => t ≤ now
  | none => false

/-- The select of the loop, in this order: cancellation, an event of the tracker, an answer to a
    broadcast, the overall deadline, the mempool deadline, the resubmission tick. -/
def listen (desk : Desk σ) (limits : Limits) (now : Nat) (e : Escalation) (outside : σ) :
    Option (Outcome × σ) :=
  if limits.cancelled then some (fails .cancelled, outside)
  else match e.inbox with
    | event :: inbox => some (({ e with inbox } : Escalation).onEvent event, outside)
    | [] =>
      if e.tracker.isClosed then some (fails (.internal "receipt tracker stopped"), outside)
      else match e.answered with
        | a :: answered =>
          some (({ e with answered } : Escalation).onBroadcast desk.policy a, outside)
        | [] =>
          if isPast limits.deadline now then some (fails .timedOut, outside)
          else if !e.book.seen && e.mempoolDeadline desk.policy ≤ now then
            some (fails (.notInMempool (now - e.started)), outside)
          else match e.ticker.tick? now with
            | some ticker => some (escalate desk now { e with ticker } outside)
            | none => none

/-- One step of the loop, where one is possible.  Cancellation interrupts pricing and signing while
    escalating, but not the signing of the first candidate. -/
def loopStep (desk : Desk σ) (limits : Limits) (now : Nat) (e : Escalation) (outside : σ) :
    Option (Outcome × σ) :=
  match e.phase with
  | .opening => some (publish desk true now e outside)
  | .listening => listen desk limits now e outside
  | .pricing reply =>
    if limits.cancelled then some (fails .cancelled, outside)
    else match reply.ready? now with
      | some suggested => some (afterPricing desk now e suggested outside)
      | none => none
  | .signing first reply =>
    if limits.cancelled && !first then some (fails .cancelled, outside)
    else match reply.ready? now with
      | some signed => some (e.afterSigning signed, outside)
      | none => none

/-! ### The tracker -/

/-- One step of the tracker, where one is possible. -/
def trackerStep (desk : Desk σ) (now : Nat) (e : Escalation) (outside : σ) :
    Option (Outcome × σ) :=
  match e.tracker.step desk.chain now (e.inbox.length < inboxSize) outside with
  | none => none
  | some (tracker, event, outside) =>
    some (.running { e with tracker, inbox := e.inbox ++ event.toList }, outside)

/-! ### The broadcasts -/

/-- One step of the first broadcast that can make one: a new one is sent, an answered one is
    handed to the loop. -/
def sendFirst (chain : Chain σ) (now : Nat) (outside : σ) :
    List Broadcast → Option (List Broadcast × Option Answer × σ)
  | [] => none
  | .queued c :: rest =>
    let (reply, outside) := chain.broadcast c now outside
    some (.sent c.gasPrice c.hash reply :: rest, none, outside)
  | .sent bid hash reply :: rest =>
    match reply.ready? now with
    | some verdict => some (rest, some ⟨bid, hash, verdict⟩, outside)
    | none =>
      match sendFirst chain now outside rest with
      | some (rest, answer, outside) => some (.sent bid hash reply :: rest, answer, outside)
      | none => none

/-- One step of the broadcasts, where one is possible. -/
def broadcastStep (desk : Desk σ) (now : Nat) (e : Escalation) (outside : σ) :
    Option (Outcome × σ) :=
  match sendFirst desk.chain now outside e.outstanding with
  | none => none
  | some (outstanding, answer, outside) =>
    some (.running { e with outstanding, answered := e.answered ++ answer.toList }, outside)

/-! ### All three -/

/-- One step of one party. -/
def stepOf (desk : Desk σ) (limits : Limits) (now : Nat) (e : Escalation) (outside : σ)
    (party : Party) : Option (Outcome × σ) :=
  let e := { e with turn := party }
  match party with
  | .loop => loopStep desk limits now e outside
  | .tracker => trackerStep desk now e outside
  | .broadcasts => broadcastStep desk now e outside

/-- The parties, beginning with the one whose turn it is. -/
def Party.order : Party → List Party
  | loop => [loop, tracker, broadcasts]
  | tracker => [tracker, broadcasts, loop]
  | broadcasts => [broadcasts, loop, tracker]

/-- One step, where one is possible: each party goes on until it has to wait, then the next. -/
def step (desk : Desk σ) (limits : Limits) (now : Nat) (e : Escalation) (outside : σ) :
    Option (Outcome × σ) :=
  e.turn.order.findSome? (stepOf desk limits now e outside)

/-- The moments at which something may change. -/
def alarms (policy : Policy) (limits : Limits) (e : Escalation) : List Nat :=
  (match e.phase with
    | .opening => []
    | .listening =>
      limits.deadline.toList ++ (if e.book.seen then [] else [e.mempoolDeadline policy]) ++
        [e.ticker.next]
    | .pricing reply => reply.alarms
    | .signing _ reply => reply.alarms) ++
    e.tracker.alarms ++
    e.outstanding.flatMap fun b => match b with
      | .queued _ => []
      | .sent _ _ reply => reply.alarms

end Escalation

end Relayer
