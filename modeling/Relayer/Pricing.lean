import Relayer.Amount

namespace Relayer

/-!
# Pricing — initial bids, escalation and gas limit padding

* `Pricing.nextBid` — the bid of the next candidate, never below the previous one;
* `Pricing.isCeiling` — whether a bid has reached the ceiling;
* `Pricing.paddedLimit` — a gas estimate with its buffer;
* `gwei` — a price in units of 10⁹ wei.
-/

/-- The parameters of bids and gas limits. -/
structure Pricing where
  /-- The minimum increase per escalation, in percent. -/
  bumpPercent : UInt64
  /-- The buffer added to a gas estimate, in percent. -/
  limitPercent : UInt64
  /-- No bid is ever above this. -/
  ceiling : Amount
  deriving DecidableEq, Repr

namespace Pricing

/-- The least increase over `previous`: `bumpPercent` of it, but at least one wei. -/
def raise (p : Pricing) (previous : Amount) : Except Fault Amount :=
  (previous.percentage p.bumpPercent).map (max · Amount.one)

/-- The bid before it is capped.  The first one is the suggestion; a later one is `previous` with
    its increase, or the suggestion where that is higher. -/
def wanted (p : Pricing) (previous : Amount) (attempt : Nat) (suggested : Amount) :
    Except Fault Amount :=
  if attempt = 0 then .ok (max (max suggested previous) Amount.one)
  else (p.raise previous).map fun step => max (previous.addSaturating step) suggested

/-- The bid of attempt number `attempt`: what is wanted, capped at the ceiling, and never less than
    `previous`. -/
def nextBid (p : Pricing) (previous : Amount) (attempt : Nat) (suggested : Amount) :
    Except Fault Amount :=
  (p.wanted previous attempt suggested).map fun bid => max (min bid p.ceiling) previous

/-- Whether a bid has reached the ceiling. -/
def isCeiling (p : Pricing) (bid : Amount) : Bool := p.ceiling ≤ bid

/-- The gas limit for an estimate: the estimate with its buffer. -/
def paddedLimit (p : Pricing) (estimate : Amount) : Except Fault Amount := do
  let room ← estimate.percentage p.limitPercent
  estimate.add room

end Pricing

/-- A price given in units of 10⁹ wei. -/
def gwei (n : UInt64) : Amount :=
  ⟨n.toNat * 1000000000, by
    have := n.toNat_lt_size
    simp only [UInt64.size, Amount.size] at *
    omega⟩

end Relayer
