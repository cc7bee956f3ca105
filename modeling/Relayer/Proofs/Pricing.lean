import Relayer.Policy

namespace Relayer

/-!
# Pricing — the bids that may follow one another

A bid is computed with amounts that may fault or saturate.  This file says what comes out in plain
numbers.

* `Pricing.nextBid_first` / `nextBid_later` — the initial bid and the later ones;
* `Pricing.Follows` — the increase between two bids of one nonce;
* `Pricing.nextBid_follows` — the next bid follows the one before it;
* `Pricing.nextBid_eq_iff` — it is the same one exactly at the ceiling;
* `Pricing.nextBid_error` / `paddedLimit_error` — which number is out of range where one faults;
* `Pricing.paddedLimit_toNat` — the gas limit for an estimate;
* `Policy.maxGasPrice_pos`, `confirmations_pos`, `receiptInterval_pos`, `resubmitAfter_pos`,
  `bufferSize_pos`, `nonceTolerance_pos` — what a valid policy leaves room for.
-/

namespace Amount

/-- `percentage` is `amount * percent / 100`, where the product stays in range. -/
theorem percentage_toNat {a part : Amount} {percent : UInt64}
    (h : a.percentage percent = .ok part) :
    part.toNat = a.toNat * percent.toNat / 100 := by
  unfold percentage mul at h
  split at h
  · cases h
    rfl
  · cases h

/-- `addSaturating` is the sum, or the largest amount. -/
theorem addSaturating_toNat (a b : Amount) :
    (a.addSaturating b).toNat = min (a.toNat + b.toNat) (size - 1) := by
  unfold addSaturating
  split
  next fits => exact (Nat.min_eq_left (Nat.le_sub_one_of_lt fits)).symm
  next above =>
    rw [Nat.min_eq_right (by omega)]
    rfl

end Amount

namespace Pricing

variable {p : Pricing} {previous bid next suggested : Amount} {n : Nat}

/-! ### What comes out -/

/-- The least increase over a bid: `max 1 (bid * bumpPercent / 100)`. -/
def leastRaise (p : Pricing) (bid : Amount) : Nat := max 1 (bid.toNat * p.bumpPercent.toNat / 100)

/-- The initial bid is `min ceiling (max 1 suggested)`. -/
theorem nextBid_first (h : p.nextBid .zero 0 suggested = .ok bid) :
    bid.toNat = min (max suggested.toNat 1) p.ceiling.toNat := by
  simp only [nextBid, wanted, if_true, Except.map, Except.ok.injEq] at h
  subst h
  simp only [Amount.toNat_max, Amount.toNat_min, Amount.zero, Amount.one]
  omega

/-- A later bid is the increased one or the suggestion, at most the ceiling, and never below
    `previous`. -/
theorem nextBid_later (h : p.nextBid previous (n + 1) suggested = .ok bid) :
    bid.toNat = max (min (max (min (previous.toNat + p.leastRaise previous) (Amount.size - 1))
      suggested.toNat) p.ceiling.toNat) previous.toNat := by
  simp only [nextBid, wanted, Nat.add_one_ne_zero, if_false, raise] at h
  cases part : previous.percentage p.bumpPercent with
  | error f => simp [part, Except.map] at h
  | ok part' =>
    simp only [part, Except.map, Except.ok.injEq] at h
    subst h
    have raised : max part'.toNat 1 = p.leastRaise previous := by
      rw [Amount.percentage_toNat part, leastRaise, Nat.max_comm]
    simp only [Amount.toNat_max, Amount.toNat_min, Amount.addSaturating_toNat, Amount.one, raised]

/-- The gas limit is `estimate + estimate * limitPercent / 100`. -/
theorem paddedLimit_toNat {estimate limit : Amount} (h : p.paddedLimit estimate = .ok limit) :
    limit.toNat = estimate.toNat + estimate.toNat * p.limitPercent.toNat / 100 := by
  simp only [paddedLimit, bind, Except.bind] at h
  cases room : estimate.percentage p.limitPercent with
  | error f => simp [room] at h
  | ok part =>
    simp only [room, Amount.add] at h
    split at h
    · cases h
      simp only [Amount.percentage_toNat room]
    · cases h

/-- A later bid faults only where the product behind its least increase overflows. -/
theorem nextBid_error {f : Fault} (h : p.nextBid previous n suggested = .error f) :
    Amount.size ≤ previous.toNat * p.bumpPercent.toNat := by
  refine Nat.le_of_not_lt fun fits => ?_
  have product : previous.mul p.bumpPercent =
      .ok ⟨previous.toNat * p.bumpPercent.toNat, fits⟩ := by rw [Amount.mul, dif_pos fits]
  by_cases first : n = 0 <;>
    simp [nextBid, wanted, raise, Amount.percentage, product, Except.map, first] at h

/-- A gas limit faults only where the product behind its buffer does, or the sum of the two. -/
theorem paddedLimit_error {estimate : Amount} {f : Fault} (h : p.paddedLimit estimate = .error f) :
    Amount.size ≤ estimate.toNat * p.limitPercent.toNat ∨
      Amount.size ≤ estimate.toNat + estimate.toNat * p.limitPercent.toNat / 100 := by
  refine Decidable.byContradiction fun fits => ?_
  rw [not_or, Nat.not_le, Nat.not_le] at fits
  have product : estimate.mul p.limitPercent =
      .ok ⟨estimate.toNat * p.limitPercent.toNat, fits.1⟩ := by rw [Amount.mul, dif_pos fits.1]
  simp only [paddedLimit, Amount.percentage, product, Except.map, bind, Except.bind, Amount.add,
    Amount.div] at h
  rw [dif_pos fits.2] at h
  cases h

/-! ### Bids of one nonce -/

/-- A bid that may follow `previous`: at least the least increase above it or the ceiling, and equal
    to it only at the ceiling. -/
structure Follows (p : Pricing) (previous bid : Amount) : Prop where
  raised : min p.ceiling.toNat (previous.toNat + p.leastRaise previous) ≤ bid.toNat
  same : bid = previous → previous = p.ceiling

/-- A bid that follows is not lower. -/
theorem Follows.le (h : p.Follows previous bid) (low : previous ≤ p.ceiling) : previous ≤ bid := by
  have low' : previous.toNat ≤ p.ceiling.toNat := low
  have raised := h.raised
  show previous.toNat ≤ bid.toNat
  omega

/-- A still higher bid follows as well. -/
theorem Follows.trans_le (h : p.Follows previous bid) (low : previous ≤ p.ceiling)
    (higher : bid ≤ next) : p.Follows previous next where
  raised := Nat.le_trans h.raised higher
  same := by
    rintro rfl
    exact h.same (Amount.ext_toNat (Nat.le_antisymm higher (h.le low)))

/-- The next bid is not below the previous one. -/
theorem le_nextBid (h : p.nextBid previous (n + 1) suggested = .ok bid) : previous ≤ bid := by
  show previous.toNat ≤ bid.toNat
  rw [nextBid_later h]
  exact Nat.le_max_right _ _

/-- The next bid is not above the ceiling. -/
theorem nextBid_le_ceiling (low : previous ≤ p.ceiling)
    (h : p.nextBid previous (n + 1) suggested = .ok bid) : bid ≤ p.ceiling := by
  show bid.toNat ≤ p.ceiling.toNat
  rw [nextBid_later h]
  exact Nat.max_le.mpr ⟨Nat.min_le_right _ _, low⟩

/-- **The next bid follows the previous one**, whatever the suggestion. -/
theorem nextBid_follows (low : previous ≤ p.ceiling)
    (h : p.nextBid previous (n + 1) suggested = .ok bid) : p.Follows previous bid := by
  have low' : previous.toNat ≤ p.ceiling.toNat := low
  have bound : p.ceiling.toNat ≤ Amount.size - 1 := Nat.le_sub_one_of_lt p.ceiling.toNat_lt
  have least : 1 ≤ p.leastRaise previous := Nat.le_max_left _ _
  have value := nextBid_later h
  refine ⟨by omega, ?_⟩
  rintro rfl
  -- A bid that stays was held back, and only the ceiling can have done that.
  exact Amount.ext_toNat (by omega)

/-- **A bid stays exactly at the ceiling.** -/
theorem nextBid_eq_iff (h : p.nextBid previous (n + 1) suggested = .ok bid) :
    bid = previous ↔ p.ceiling ≤ previous := by
  have least : 1 ≤ p.leastRaise previous := Nat.le_max_left _ _
  have bound : p.ceiling.toNat ≤ Amount.size - 1 := Nat.le_sub_one_of_lt p.ceiling.toNat_lt
  have value := nextBid_later h
  constructor
  · rintro rfl
    show p.ceiling.toNat ≤ bid.toNat
    omega
  · intro high
    have high' : p.ceiling.toNat ≤ previous.toNat := high
    exact Amount.ext_toNat (by omega)

end Pricing

namespace Policy

variable {p : Policy}

/-- A policy is valid where none of the complaints is true of it. -/
theorem complaint_false (valid : p.validate = .ok ()) {c : Bool × String}
    (listed : c ∈ p.complaints) : c.1 = false := by
  unfold validate at valid
  split at valid
  next => cases valid
  next none =>
    rw [List.find?_eq_none] at none
    exact Bool.eq_false_iff.mpr (none c listed)

/-- The ceiling of a valid policy is positive. -/
theorem maxGasPrice_pos (valid : p.validate = .ok ()) : 1 ≤ p.maxGasPrice.toNat := by
  have positive : (p.maxGasPrice == Amount.zero) = false :=
    complaint_false valid (c := (_, "max_gas_price must not be 0")) (by simp [complaints])
  refine Nat.one_le_iff_ne_zero.mpr fun none => ?_
  rw [beq_eq_false_iff_ne] at positive
  exact positive (Amount.ext_toNat none)

/-- A valid policy needs at least one confirmation. -/
theorem confirmations_pos (valid : p.validate = .ok ()) : 1 ≤ p.confirmations.toNat := by
  have positive : (p.confirmations == 0) = false :=
    complaint_false valid (c := (_, "num_confirmations must not be 0")) (by simp [complaints])
  refine Nat.one_le_iff_ne_zero.mpr fun none => ?_
  rw [beq_eq_false_iff_ne] at positive
  exact positive (UInt64.toNat_inj.mp none)

/-- The interval of the polls is positive in a valid policy. -/
theorem receiptInterval_pos (valid : p.validate = .ok ()) : 0 < p.receiptInterval := by
  have positive : (p.receiptInterval == 0) = false :=
    complaint_false valid (c := (_, "must provide receipt_query_interval")) (by simp [complaints])
  rw [beq_eq_false_iff_ne] at positive
  exact Nat.pos_of_ne_zero positive

/-- The interval of the resubmission ticks is positive in a valid policy. -/
theorem resubmitAfter_pos (valid : p.validate = .ok ()) : 0 < p.resubmitAfter := by
  have positive : (p.resubmitAfter == 0) = false :=
    complaint_false valid (c := (_, "must provide resubmission_timeout")) (by simp [complaints])
  rw [beq_eq_false_iff_ne] at positive
  exact Nat.pos_of_ne_zero positive

/-- The queue of a valid policy has a slot. -/
theorem bufferSize_pos (valid : p.validate = .ok ()) : 0 < p.bufferSize.toNat := by
  have positive : (p.bufferSize == 0) = false :=
    complaint_false valid (c := (_, "tx_buffer_size must not be 0")) (by simp [complaints])
  rw [beq_eq_false_iff_ne] at positive
  refine Nat.pos_of_ne_zero fun none => ?_
  exact positive (UInt64.toNat_inj.mp none)

/-- A valid policy tolerates one `nonceTooLow` answer at least. -/
theorem nonceTolerance_pos (valid : p.validate = .ok ()) : 0 < p.nonceTolerance := by
  have positive : (p.nonceTolerance == 0) = false :=
    complaint_false valid (c := (_, "safe_abort_nonce_too_low_count must not be 0"))
      (by simp [complaints])
  rw [beq_eq_false_iff_ne] at positive
  exact Nat.pos_of_ne_zero positive

end Policy

end Relayer
