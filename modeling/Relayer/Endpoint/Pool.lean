import Relayer.Endpoint.Answer
import Relayer.Endpoint.Url
import Relayer.Failure
import Relayer.Text.Duration

namespace Relayer

/-!
# Pool — multi-provider failover with one shared provider index

All calls share one index into the list of nodes.  An attempt that fails moves the index on by one,
whichever node it was made at.

* `Pool` — the nodes, the index of the active one and the network timeout;
* `Attempt.read` / `estimate` / `broadcast` — the result of one attempt of each kind;
* `Reading` — a read under way, which makes as many attempts as there are nodes;
* `Pool.readFrom` — a whole read, where no other call moves the index;
* `Pool.after` — the index after a call that makes one attempt.
-/

/-- The providers of an RPC backend, by their URLs. -/
structure Pool where
  endpoints : List String
  /-- The index of the active node. -/
  active : Nat
  /-- The budget of one attempt, in milliseconds. -/
  timeout : Nat
  deriving DecidableEq, Repr

namespace Pool

/-- The nodes whose URLs are valid, of which there must be one. -/
def ofUrls (urls : List String) (timeout : Nat) : Except Failure Pool :=
  match urls.filter Url.isValid with
  | [] => .error (.configInvalid "No valid L1 RPC providers")
  | endpoints => .ok ⟨endpoints, 0, timeout⟩

/-- How many nodes there are. -/
def size (p : Pool) : Nat := p.endpoints.length

/-- Failover to the next node, if there is another one. -/
def advance (p : Pool) : Pool :=
  if p.size < 2 then p else { p with active := (p.active + 1) % p.size }

end Pool

/-! ### One attempt -/

/-- The failure of an attempt that exceeds the network timeout. -/
def Failure.late (what : String) (timeout : Nat) : Failure :=
  .transientRpc (what ++ " timed out after " ++ Duration.write timeout)

namespace Attempt

variable {α : Type}

/-- The result of an attempt to read.  Every error is `transientRpc`. -/
def read (what : String) (timeout : Nat) : Attempt α → Except Failure α
  | got a => .ok a
  | failed e => .error (.transientRpc (what ++ ": " ++ e.text))
  | late => .error (.late what timeout)

/-- The failure of a call that a node refused to estimate. -/
def estimateRefusal (message : String) : Failure :=
  match Failure.ofNodeMessage message with
  | .insufficientFunds => .underfunded
  | _ => .gasEstimation message

/-- The result of an attempt to estimate a call.  A refusal is permanent. -/
def estimate (what : String) (timeout : Nat) : Attempt α → Except Failure α
  | got a => .ok a
  | failed (.refused e) => .error (estimateRefusal e.message)
  | failed e => .error (.transientRpc (what ++ ": " ++ e.text))
  | late => .error (.late what timeout)

/-- The result of an attempt to broadcast.  The node's text decides, whether or not it can be read
    as an answer. -/
def broadcast (what : String) (timeout : Nat) : Attempt α → Except Failure α
  | got a => .ok a
  | failed e => .error (.ofNodeMessage e.text)
  | late => .error (.late what timeout)

end Attempt

/-! ### Reads -/

/-- A read under way. -/
structure Reading where
  /-- The index of the node that was asked. -/
  asked : Nat
  /-- How many further attempts may follow. -/
  left : Nat
  deriving DecidableEq, Repr

/-- What the end of an attempt leads to. -/
inductive Reading.Next (α : Type) where
  | again (r : Reading)
  | ended (result : Except Failure α)

/-- A read starts at the active node. -/
def Pool.startRead (p : Pool) : Reading := ⟨p.active, p.size - 1⟩

/-- An attempt ends.  After a failure the index moves on, and the next attempt is made at the node
    that is active then. -/
def Reading.settle {α : Type} (result : Except Failure α) (p : Pool) (r : Reading) :
    Next α × Pool :=
  match result, r.left with
  | .ok a, _ => (.ended (.ok a), p)
  | .error f, 0 => (.ended (.error f), p.advance)
  | .error _, left + 1 => (.again ⟨p.advance.active, left⟩, p.advance)

namespace Pool

variable {σ α : Type}

/-- A read that no other call interferes with, with `left` attempts after this one.  `ask` is an
    attempt at the node of an index. -/
def readFrom (ask : Nat → σ → Except Failure α × σ) : (left : Nat) → Pool → σ →
    Except Failure α × Pool × σ
  | left, p, outside =>
    match ask p.active outside, left with
    | (.ok a, outside), _ => (.ok a, p, outside)
    | (.error f, outside), 0 => (.error f, p.advance, outside)
    | (.error _, outside), left + 1 => readFrom ask left p.advance outside

/-- The index after a call that makes one attempt: it moves on if the attempt failed. -/
def after (p : Pool) : Except Failure α → Pool
  | .error (.transientRpc _) => p.advance
  | _ => p

end Pool

end Relayer
