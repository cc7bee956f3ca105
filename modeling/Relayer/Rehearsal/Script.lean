import Relayer.Send.Outside
import Relayer.Wallet.Key

namespace Relayer

/-!
# Script — a node and a signer that answer by the book

* `Timeline` — what is answered when;
* `Script` — the answers to every call, and `Script.chain` / `Script.signer` made of them;
* `Record` — what the node has been asked.
-/

/-! ### Timelines -/

/-- An answer in force from some moment on, and how long it takes. -/
structure Entry (α : Type) where
  since : Nat
  latency : Nat
  answer : Except Failure α

/-- Entries, of which the last one in force counts. -/
abbrev Timeline (α : Type) := List (Entry α)

namespace Timeline

variable {α : Type}

/-- The entry in force. -/
def current? (t : Timeline α) (now : Nat) : Option (Entry α) :=
  (t.filter (·.since ≤ now)).getLast?

/-- The answer to a call now, with another one where no entry is in force. -/
def ask (t : Timeline α) (other : α) (now : Nat) : Pending (Except Failure α) :=
  match t.current? now with
  | some e => ⟨e.answer, some (now + e.latency)⟩
  | none => .immediate now (.ok other)

end Timeline

/-! ### Records -/

/-- A broadcast that arrived. -/
structure Arrival where
  time : Nat
  candidate : Candidate
  deriving DecidableEq, Repr

/-- What a node has been asked.  Lists are in order of arrival. -/
structure Record where
  broadcasts : List Arrival
  /-- Every hash that was broadcast, with the moment of its first arrival. -/
  first : List (Digest × Nat)
  nonces : Nat
  prices : Nat
  estimates : List Transaction
  heads : Nat
  receipts : Nat

/-- Nothing has been asked. -/
def Record.empty : Record := ⟨[], [], 0, 0, [], 0, 0⟩

namespace Record

/-- A broadcast arrives. -/
def arrive (r : Record) (now : Nat) (c : Candidate) : Record :=
  { r with
    broadcasts := r.broadcasts ++ [⟨now, c⟩]
    first := if r.first.any (·.1 == c.hash) then r.first else r.first ++ [(c.hash, now)] }

/-- The place of a hash among those broadcast before now, counted from one. -/
def number? (r : Record) (hash : Digest) (now : Nat) : Option Nat :=
  (r.first.findIdx? fun entry => entry.1 == hash && entry.2 < now).map (· + 1)

/-- The name that a script has for a hash: its number, or its digits as long as it was not
    broadcast. -/
def nameOf (r : Record) (hash : Digest) (now : Nat) : String :=
  match r.number? hash now with
  | some n => toString n
  | none => hash.toHex

end Record

/-! ### Scripts -/

/-- How the head moves: by a timeline, or by one block in every so many milliseconds. -/
inductive HeadScript where
  | timeline (t : Timeline Nat)
  | steady (base every : Nat)

/-- What a node answers to a broadcast, and after how long. -/
structure SendScript where
  verdict : Verdict
  latency : Nat

/-- The answers to every call. -/
structure Script where
  chainId : Timeline UInt64
  gasPrice : Timeline Amount
  nonce : Timeline UInt64
  nonces : List (Address × Timeline UInt64)
  estimate : Timeline Amount
  head : HeadScript
  /-- The answers to broadcasts in order; the last one repeats. -/
  sends : List SendScript
  /-- What is known of the receipts, by the name of the hash; the hash itself is filled in. -/
  receipts : List (String × Timeline (Option (Digest → ChainReceipt)))
  pending : List (String × Timeline Bool)

namespace Script

/-- The element of that index, or the last one. -/
def nth? {α : Type} (xs : List α) (n : Nat) : Option α := (xs[n]?).or xs.getLast?

/-- The script under a name. -/
def named? {α : Type} (entries : List (String × α)) (name : String) : Option α :=
  (entries.find? (·.1 == name)).map (·.2)

/-- The nonce of an account. -/
def nonceOf (s : Script) (account : Address) : Timeline UInt64 :=
  ((s.nonces.find? (·.1 == account)).map (·.2)).getD s.nonce

/-- The head. -/
def headAt (s : Script) (now : Nat) : Pending (Except Failure Nat) :=
  match s.head with
  | .timeline t => t.ask 100 now
  | .steady base every => .immediate now (.ok (base + now / every))

/-- The answer to a broadcast. -/
def sendAt (s : Script) (n : Nat) (now : Nat) : Pending Verdict :=
  match nth? s.sends n with
  | some e => ⟨e.verdict, some (now + e.latency)⟩
  | none => .immediate now .accepted

/-- The receipt of a hash. -/
def receiptAt (s : Script) (r : Record) (hash : Digest) (now : Nat) :
    Pending (Except Failure (Option ChainReceipt)) :=
  match named? s.receipts (r.nameOf hash now) with
  | some t =>
    let reply := t.ask none now
    { reply with answer := reply.answer.map fun receipt => receipt.map (· hash) }
  | none => .immediate now (.ok none)

/-- Whether the node knows a hash. -/
def knowsAt (s : Script) (r : Record) (hash : Digest) (now : Nat) : Pending (Except Failure Bool) :=
  match named? s.pending (r.nameOf hash now) with
  | some t => t.ask false now
  | none => .immediate now (.ok (r.number? hash now).isSome)

/-- The node of a script. -/
def chain (s : Script) : Chain Record where
  chainId now r := (s.chainId.ask 900 now, r)
  gasPrice now r := (s.gasPrice.ask (gwei 1) now, { r with prices := r.prices + 1 })
  nonce account now r := ((s.nonceOf account).ask 0 now, { r with nonces := r.nonces + 1 })
  estimate t now r :=
    (s.estimate.ask (.ofWord 21000) now, { r with estimates := r.estimates ++ [t] })
  broadcast c now r := (s.sendAt r.broadcasts.length now, r.arrive now c)
  receipt hash now r := (s.receiptAt r hash now, { r with receipts := r.receipts + 1 })
  knows hash now r := (s.knowsAt r hash now, r)
  head now r := (s.headAt now, { r with heads := r.heads + 1 })

end Script

/-- A signer that answers the unsigned payload by a timeline. -/
def Signer.scripted (address : Address) (t : Timeline Unit) : Signer Record where
  address
  sign _ tx now r :=
    let reply := t.ask () now
    (⟨(reply.answer.map fun () => tx.payload).mapError Stop.failure, reply.due⟩, r)

/-- What a key's signature is to a send. -/
def Signer.ofResult : Except Fault (Except Failure (List UInt8)) → Except Stop (List UInt8)
  | .ok (.ok raw) => .ok raw
  | .ok (.error f) => .error (.failure f)
  | .error f => .error (.fault f)

/-- A signer that signs with a key at once, if the key ever does. -/
def Signer.local (key : Key) : Signer Record where
  address := key.address
  sign chainId tx now r :=
    match key.sign chainId tx with
    | some signed => (.immediate now (Signer.ofResult signed), r)
    | none => (⟨.ok [], none⟩, r)

end Relayer
