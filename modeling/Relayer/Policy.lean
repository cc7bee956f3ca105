import Relayer.Failure
import Relayer.Pricing

namespace Relayer

/-!
# Policy — the parameters that every send shares

* `Policy` — confirmations, bids, timeouts and intervals;
* `Policy.validate` — the values that are refused;
* `Policy.pricing` — its part about bids and gas limits.
-/

/-- Times are in milliseconds. -/
structure Policy where
  /-- Confirmations that a receipt needs. -/
  confirmations : UInt64
  /-- How many `nonceTooLow` answers end a send with `nonceStale`. -/
  nonceTolerance : Nat
  /-- The interval of the resubmission ticks. -/
  resubmitAfter : Nat
  /-- The time that one request may take, and the wait between its retries. -/
  networkTimeout : Nat
  /-- The overall timeout of a send; without it a send may take forever. -/
  sendTimeout : Option Nat
  /-- The time in which a candidate must be seen in the mempool. -/
  mempoolTimeout : Nat
  /-- The interval of the tracker's polls. -/
  receiptInterval : Nat
  /-- Slots of the submission queue. -/
  bufferSize : UInt64
  bumpPercent : UInt64
  maxGasPrice : Amount
  limitPercent : UInt64
  deriving DecidableEq, Repr

namespace Policy

/-- The default policy. -/
def standard : Policy where
  confirmations := 10
  nonceTolerance := 3
  resubmitAfter := 48000
  networkTimeout := 2000
  sendTimeout := none
  mempoolTimeout := 120000
  receiptInterval := 12000
  bufferSize := 10
  bumpPercent := 10
  maxGasPrice := gwei 500
  limitPercent := 20

instance : Inhabited Policy := ⟨standard⟩

/-- The part of the policy about bids and gas limits. -/
def pricing (p : Policy) : Pricing where
  bumpPercent := p.bumpPercent
  limitPercent := p.limitPercent
  ceiling := p.maxGasPrice

/-- What is wrong with a policy, in the order in which it is reported. -/
def complaints (p : Policy) : List (Bool × String) :=
  [ (p.confirmations == 0, "num_confirmations must not be 0"),
    (p.nonceTolerance == 0, "safe_abort_nonce_too_low_count must not be 0"),
    (p.resubmitAfter == 0, "must provide resubmission_timeout"),
    (p.networkTimeout == 0, "must provide network_timeout"),
    (p.sendTimeout == some 0, "tx_send_timeout must be unset or non-zero"),
    (p.mempoolTimeout == 0, "must provide tx_not_in_mempool_timeout"),
    (p.receiptInterval == 0, "must provide receipt_query_interval"),
    (p.bufferSize == 0, "tx_buffer_size must not be 0"),
    (p.maxGasPrice == Amount.zero, "max_gas_price must not be 0") ]

/-- Accept a policy that has no complaints against it, else report the first one. -/
def validate (p : Policy) : Except Failure Unit :=
  match p.complaints.find? (·.1) with
  | some (_, text) => .error (.configInvalid text)
  | none => .ok ()

end Policy

end Relayer
