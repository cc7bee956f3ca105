import Relayer.Send.Outside

namespace Relayer

/-!
# Lease — exclusive nonce leases for every account

The lock on an account's nonce state is held by at most one ticket; the others wait in line.

* `Slot` — the nonce state of one account with its lock: `next`, `holder`, `line`;
* `Leases` — the slots of all accounts;
* `Leases.ask` / `Leases.leave` — waiting for the lock of an account, and giving it or the place in
  line up;
* `Acquire` — acquiring a lease: waiting for the lock, then reading the pending nonce where `next`
  is not known;
* `Lease.commit` / `Lease.resync` / `Lease.release` — what becomes of `next` when the lease is given
  back.
-/

/-- The name of one request for a lease. -/
abbrev Ticket := Nat

/-! ### Slots -/

/-- The nonce state of one account: the `next` nonce, none where it must be read from the chain, the
    ticket that holds the lock, and the tickets that wait for it. -/
structure Slot where
  next : Option UInt64
  holder : Option Ticket
  line : List Ticket
  deriving DecidableEq, Repr

namespace Slot

/-- No lease is held or waited for, and the next nonce is unknown. -/
def vacant : Slot := ⟨none, none, []⟩

/-- A ticket gets the lock if it is free, else the last place in line. -/
def join (s : Slot) (t : Ticket) : Slot :=
  match s.holder with
  | none => { s with holder := some t }
  | some _ => { s with line := s.line ++ [t] }

/-- A ticket is gone.  The lock of the holder passes to the first in line. -/
def drop (s : Slot) (t : Ticket) : Slot :=
  if s.holder = some t then
    match s.line with
    | [] => { s with holder := none }
    | first :: line => { s with holder := some first, line }
  else { s with line := s.line.filter (· != t) }

end Slot

/-! ### All accounts -/

/-- The state of the nonce manager: the slots of the accounts that a lease was ever asked for, and
    the next unused ticket. -/
structure Leases where
  slots : List (Address × Slot)
  fresh : Ticket
  deriving Repr

namespace Leases

/-- No account has a slot. -/
def empty : Leases := ⟨[], 0⟩

/-- The slot of an account, where a lease was ever asked for. -/
def slot? (l : Leases) (account : Address) : Option Slot :=
  (l.slots.find? (·.1 == account)).map (·.2)

/-- The slot of an account. -/
def slot (l : Leases) (account : Address) : Slot := (l.slot? account).getD .vacant

/-- Replace the slot of an account. -/
def put (l : Leases) (account : Address) (s : Slot) : Leases :=
  if l.slots.any (·.1 == account) then
    { l with slots := l.slots.map fun entry => if entry.1 == account then (account, s) else entry }
  else { l with slots := l.slots ++ [(account, s)] }

/-- Change the slot of an account. -/
def modify (l : Leases) (account : Address) (f : Slot → Slot) : Leases :=
  l.put account (f (l.slot account))

/-- A new ticket waits for the lock of an account. -/
def ask (l : Leases) (account : Address) : Ticket × Leases :=
  (l.fresh, { l.modify account (·.join l.fresh) with fresh := l.fresh + 1 })

/-- A ticket is gone from the slot of an account. -/
def leave (l : Leases) (account : Address) (t : Ticket) : Leases := l.modify account (·.drop t)

/-- Whether a ticket holds the lock of an account. -/
def holds (l : Leases) (account : Address) (t : Ticket) : Bool :=
  (l.slot account).holder == some t

/-- Set the next nonce of an account, or forget it. -/
def note (l : Leases) (account : Address) (next : Option UInt64) : Leases :=
  l.modify account fun s => { s with next }

/-- Whether the lock of an account is held. -/
def isLeased (l : Leases) (account : Address) : Bool :=
  (l.slot account).holder.isSome

end Leases

/-! ### Leases -/

/-- A nonce lease: the exclusive reservation of one nonce of an account. -/
structure Lease where
  account : Address
  ticket : Ticket
  nonce : UInt64
  deriving DecidableEq, Repr

namespace Lease

/-- Release the lease without advancing the nonce. -/
def release (lease : Lease) (l : Leases) : Leases := l.leave lease.account lease.ticket

/-- A candidate at this nonce was mined: `next` becomes `nonce + 1`, and the lease is released.
    There is no nonce behind the last one. -/
def commit (lease : Lease) (l : Leases) : Except Fault Leases :=
  if lease.nonce.toNat + 1 < UInt64.size then
    .ok (lease.release (l.note lease.account (some (lease.nonce + 1))))
  else .error .integerOverflow

/-- The nonce is stale: `next` is forgotten, so that the next lease reads it from the chain
    again. -/
def resync (lease : Lease) (l : Leases) : Leases := lease.release (l.note lease.account none)

end Lease

/-! ### Requests -/

/-- The acquisition of a lease. -/
inductive Acquire where
  /-- Not yet in line. -/
  | start
  /-- In line, or holding the lock. -/
  | queued (ticket : Ticket)
  /-- Holding the lock, with the pending nonce being read from the chain. -/
  | reading (ticket : Ticket) (reply : Pending (Except Failure UInt64))

namespace Acquire

/-- What one step of an acquisition leads to. -/
inductive Outcome where
  | waiting (a : Acquire)
  | granted (lease : Lease)
  | failed (f : Failure)

variable {σ : Type}

/-- One step of an acquisition, where one is possible.  The pending nonce is only read while `next`
    is unknown, and a failed read gives the lock back. -/
def step (chain : Chain σ) (account : Address) (now : Nat) :
    Acquire → Leases → σ → Option (Outcome × Leases × σ)
  | start, l, outside =>
    let (ticket, l) := l.ask account
    some (.waiting (queued ticket), l, outside)
  | queued ticket, l, outside =>
    if l.holds account ticket then
      match (l.slot account).next with
      | some nonce => some (.granted ⟨account, ticket, nonce⟩, l, outside)
      | none =>
        let (reply, outside) := chain.nonce account now outside
        some (.waiting (reading ticket reply), l, outside)
    else none
  | reading ticket reply, l, outside =>
    match reply.ready? now with
    | none => none
    | some (.ok nonce) =>
      some (.granted ⟨account, ticket, nonce⟩, l.note account (some nonce), outside)
    | some (.error f) => some (.failed f, l.leave account ticket, outside)

/-- The slots after an acquisition is dropped. -/
def abandon (account : Address) (l : Leases) : Acquire → Leases
  | start => l
  | queued ticket => l.leave account ticket
  | reading ticket _ => l.leave account ticket

/-- The moments at which a step may become possible. -/
def alarms : Acquire → List Nat
  | reading _ reply => reply.alarms
  | _ => []

end Acquire

end Relayer
