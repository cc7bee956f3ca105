import Relayer.Send.Outside

namespace Relayer

/-!
# Tracker — the receipt tracker of one send

Every poll reads the head once, then looks up the receipts of all watched hashes in order, and then,
unless a watched hash has been visible before, asks whether the node knows one of those without
receipt.

* `TrackerEvent` — the events that the tracker emits;
* `Tracker` — the watched hashes, the mined ones with their blocks, and the `Stage` of the poll;
* `Tracker.atReceipt` / `Tracker.atAbsence` — what a poll emits at a hash with or without a receipt;
* `Tracker.step` — one step, with at most one event.
-/

/-- What the tracker emits about the watched hashes. -/
inductive TrackerEvent where
  /-- The first time any watched hash is seen by the node, pending or mined. -/
  | inMempool (hash : Digest)
  /-- The hashes that had a receipt when last looked up, with their blocks. -/
  | mined (hash : Digest) (block : Nat)
  /-- A previously mined hash has lost its receipt. -/
  | reorged (hash : Digest)
  /-- A watched hash has reached the required depth; the tracker stops after this. -/
  | confirmed (receipt : Receipt)
  deriving DecidableEq, Repr

/-! ### The state -/

/-- Where the tracker is in a poll. -/
inductive Tracker.Stage where
  /-- Between polls, waiting for the next tick. -/
  | resting
  /-- The head is being read, for the `hashes` watched when the poll began. -/
  | readingHead (hashes : List Digest) (reply : Pending (Except Failure Nat))
  /-- About to look up the receipts of `rest`; those of `unseen` are missing. -/
  | next (head : Nat) (unseen rest : List Digest)
  /-- The receipt of `hash` is being looked up. -/
  | asking (head : Nat) (unseen : List Digest) (hash : Digest) (rest : List Digest)
      (reply : Pending (Except Failure (Option ChainReceipt)))
  /-- `hash` has a receipt, for which events may still have to be emitted. -/
  | found (head : Nat) (unseen : List Digest) (hash : Digest) (receipt : Receipt)
      (rest : List Digest)
  /-- `hash` has no receipt, for which `reorged` may still have to be emitted. -/
  | absent (head : Nat) (unseen : List Digest) (hash : Digest) (rest : List Digest)
  /-- About to ask whether the node knows one of `hashes`, which have no receipt. -/
  | looking (hashes : List Digest)
  /-- The node is being asked whether it knows `hash`. -/
  | lookingAt (hash : Digest) (rest : List Digest) (reply : Pending (Except Failure Bool))
  /-- The node knows `hash`, for which `inMempool` is still to be emitted. -/
  | sighted (hash : Digest)
  /-- The tracker has stopped after `confirmed`. -/
  | done
  /-- The tracker has stopped since its ticker has no period. -/
  | broken

/-- The receipt tracker of one send, with the poll that is under way. -/
structure Tracker where
  /-- Confirmations that a receipt needs: `head - block` at least. -/
  depth : Nat
  ticker : Ticker
  /-- The watched hashes, in the order in which they were first watched. -/
  watched : List Digest
  /-- The hashes that have a receipt, with their blocks. -/
  mined : List (Digest × Nat)
  /-- Whether any watched hash was ever seen by the node. -/
  visible : Bool
  stage : Tracker.Stage

namespace Tracker

/-- A tracker whose first tick is due at once.  Where `period` is zero its first step stops it. -/
def start (depth period : Nat) (now : Nat) : Tracker where
  depth
  ticker := ⟨now, period⟩
  watched := []
  mined := []
  visible := false
  stage := .resting

/-- Add a hash to the watched ones; duplicates are ignored. -/
def watch (t : Tracker) (hash : Digest) : Tracker :=
  if t.watched.contains hash then t else { t with watched := t.watched ++ [hash] }

/-- Whether the tracker has stopped, so that no event will follow. -/
def isClosed (t : Tracker) : Bool :=
  match t.stage with
  | .done | .broken => true
  | _ => false

/-- The block that a hash was last seen mined in. -/
def minedIn? (t : Tracker) (hash : Digest) : Option Nat :=
  (t.mined.find? (·.1 == hash)).map (·.2)

/-- Note the block that a hash is mined in. -/
def noteMined (t : Tracker) (hash : Digest) (block : Nat) : Tracker :=
  { t with mined := (hash, block) :: t.mined.filter (·.1 != hash) }

/-- Note that a hash has no receipt any more. -/
def forget (t : Tracker) (hash : Digest) : Tracker :=
  { t with mined := t.mined.filter (·.1 != hash) }

/-! ### Steps -/

/-- A step that emits nothing. -/
def silent (t : Tracker) (stage : Stage) : Option (Tracker × Option TrackerEvent) :=
  some ({ t with stage }, none)

/-- A step that emits an event, which waits until there is room for it in the channel. -/
def emit (room : Bool) (t : Tracker) (stage : Stage) (e : TrackerEvent) :
    Option (Tracker × Option TrackerEvent) :=
  if room then some ({ t with stage }, some e) else none

/-- The next step at a hash with a receipt: emit `inMempool`, `mined` and `confirmed`, each where it
    is due; then the next hash. -/
def atReceipt (t : Tracker) (room : Bool) (head : Nat) (unseen : List Digest) (hash : Digest)
    (receipt : Receipt) (rest : List Digest) : Option (Tracker × Option TrackerEvent) :=
  let here : Stage := .found head unseen hash receipt rest
  if !t.visible then emit room { t with visible := true } here (.inMempool hash)
  else if t.minedIn? hash ≠ some receipt.block then
    emit room (t.noteMined hash receipt.block) here (.mined hash receipt.block)
  else if t.depth ≤ receipt.confirmations then emit room t .done (.confirmed receipt)
  else t.silent (.next head unseen rest)

/-- The next step at a hash without a receipt: emit `reorged` if it was mined; then the next
    hash. -/
def atAbsence (t : Tracker) (room : Bool) (head : Nat) (unseen : List Digest) (hash : Digest)
    (rest : List Digest) : Option (Tracker × Option TrackerEvent) :=
  let there : Stage := .next head (unseen ++ [hash]) rest
  if (t.minedIn? hash).isSome then emit room (t.forget hash) there (.reorged hash)
  else t.silent there

variable {σ : Type}

/-- A step that makes no call to the node. -/
def inside (outside : σ) :
    Option (Tracker × Option TrackerEvent) → Option (Tracker × Option TrackerEvent × σ)
  | some (t, e) => some (t, e, outside)
  | none => none

/-- One step of the tracker, where one is possible.  `room` says whether the channel takes an event
    now.  A failed head reading skips the poll; a failed receipt lookup skips the hash. -/
def step (chain : Chain σ) (now : Nat) (room : Bool) (t : Tracker) (outside : σ) :
    Option (Tracker × Option TrackerEvent × σ) :=
  match t.stage with
  | .resting =>
    if t.ticker.period = 0 then inside outside (t.silent .broken)
    else match t.ticker.tick? now with
      | none => none
      | some ticker =>
        let t := { t with ticker }
        if t.watched.isEmpty then some (t, none, outside)
        else
          let (reply, outside) := chain.head now outside
          inside outside (t.silent (.readingHead t.watched reply))
  | .readingHead hashes reply =>
    match reply.ready? now with
    | none => none
    | some (.ok head) => inside outside (t.silent (.next head [] hashes))
    | some (.error _) => inside outside (t.silent .resting)
  | .next head unseen (hash :: rest) =>
    let (reply, outside) := chain.receipt hash now outside
    inside outside (t.silent (.asking head unseen hash rest reply))
  | .next _ unseen [] =>
    inside outside (t.silent (if t.visible then .resting else .looking unseen))
  | .asking head unseen hash rest reply =>
    match reply.ready? now with
    | none => none
    | some (.error _) => inside outside (t.silent (.next head unseen rest))
    | some (.ok answer) =>
      match answer.bind (Receipt.ofChain? · head) with
      | some receipt => inside outside (t.silent (.found head unseen hash receipt rest))
      | none => inside outside (t.silent (.absent head unseen hash rest))
  | .found head unseen hash receipt rest =>
    inside outside (t.atReceipt room head unseen hash receipt rest)
  | .absent head unseen hash rest => inside outside (t.atAbsence room head unseen hash rest)
  | .looking [] => inside outside (t.silent .resting)
  | .looking (hash :: rest) =>
    let (reply, outside) := chain.knows hash now outside
    inside outside (t.silent (.lookingAt hash rest reply))
  | .lookingAt hash rest reply =>
    match reply.ready? now with
    | none => none
    | some (.ok true) => inside outside (t.silent (.sighted hash))
    | some _ => inside outside (t.silent (.looking rest))
  | .sighted hash =>
    inside outside (emit room { t with visible := true } .resting (.inMempool hash))
  | .done => none
  | .broken => none

/-- The moments at which a step may become possible. -/
def alarms (t : Tracker) : List Nat :=
  match t.stage with
  | .resting => [t.ticker.next]
  | .readingHead _ reply => reply.alarms
  | .asking _ _ _ _ reply => reply.alarms
  | .lookingAt _ _ reply => reply.alarms
  | _ => []

end Tracker

end Relayer
