import Relayer.Send.Outside

namespace Relayer

/-!
# Book — the send state that the submission loop keeps

* `Book` — the current `bid`, the nonce-too-low count, what was accepted, seen and mined;
* `Book.noteMined` / `Book.noteReorged` — what the events of the tracker change;
* `Book.fold` — the node's answer to one broadcast folded in, which may end the send.
-/

/-- The send state, owned by the submission loop. -/
structure Book where
  /-- The bid of the newest candidate. -/
  bid : Amount
  /-- Escalations so far. -/
  attempt : Nat
  /-- Candidates signed, watched and handed out for broadcast. -/
  published : Nat
  /-- The highest bid that a node has accepted a broadcast at. -/
  accepted : Option Amount
  /-- The `nonceTooLow` answers that were counted: those folded while `mined` was empty. -/
  tooLow : Nat
  /-- Whether a candidate has been seen in the mempool, pending or mined. -/
  seen : Bool
  /-- Own candidates that currently have a receipt. -/
  mined : List Digest
  deriving DecidableEq, Repr

namespace Book

/-- The state before the first candidate is published. -/
def opening (bid : Amount) : Book := ⟨bid, 0, 0, none, 0, false, []⟩

/-- The tracker reports `hash` as mined, which counts as seen in the mempool as well. -/
def noteMined (b : Book) (hash : Digest) : Book :=
  { b with seen := true, mined := if b.mined.contains hash then b.mined else b.mined ++ [hash] }

/-- The tracker reports that `hash` was reorged out. -/
def noteReorged (b : Book) (hash : Digest) : Book :=
  { b with mined := b.mined.filter (· != hash) }

/-- A node has accepted a broadcast at `bid`: `accepted` is the highest such bid. -/
def noteAccepted (b : Book) (bid : Amount) : Book :=
  { b with accepted := some (match b.accepted with
      | some old => max old bid
      | none => bid) }

/-- Fold one node answer into the state; an error ends the send.  `nonceTooLow` is expected while a
    candidate is mined, and counted otherwise, up to `policy.nonceTolerance`; `insufficientFunds`
    ends the send, and so does `underpriced` at the ceiling; every other failure is left to the next
    resubmission tick. -/
def fold (policy : Policy) (nonce : UInt64) (b : Book) (bid : Amount) :
    Verdict → Except Failure Book
  | .accepted => .ok (b.noteAccepted bid)
  | .lost => .ok b
  | .rejected f =>
    match f with
    | .alreadyKnown => .ok (b.noteAccepted bid)
    | .nonceTooLow =>
      if b.mined.isEmpty then
        let b := { b with tooLow := b.tooLow + 1 }
        if policy.nonceTolerance ≤ b.tooLow then .error (.nonceStale nonce b.tooLow) else .ok b
      else .ok b
    | .insufficientFunds => .error .underfunded
    | .underpriced =>
      if policy.pricing.isCeiling bid then .error (.priceTooLow bid.toDecimal) else .ok b
    | _ => .ok b

end Book

end Relayer
