import Relayer.Proofs.Pricing

namespace Relayer

/-!
# Ascent — the bids of one nonce on their way to the ceiling

A bid is made from the previous one and from the suggestion of the time.  Whatever the suggestions,
the bids rise until they are at the ceiling, and stay there.

* `Pricing.exists_nextBid` — a bid is made wherever the product behind its least increase is in
  range;
* `Pricing.Rises` — a bid against the previous one, the ceiling and the suggestion;
* `Pricing.nextBid_mono` — `nextBid` is monotone in the previous bid and in the suggestion;
* `Pricing.climb` — bids one after the other, and `Pricing.climb_at_ceiling` where they end;
* `Pricing.ascent` — all of this together.
-/

namespace Pricing

variable {p : Pricing} {previous previous' suggested suggested' bid bid' : Amount} {n m : Nat}

/-! ### One bid -/

/-- A bid is made wherever the product behind its least increase is in range. -/
theorem exists_nextBid (fits : previous.toNat * p.bumpPercent.toNat < Amount.size) (n : Nat)
    (suggested : Amount) : ∃ bid, p.nextBid previous n suggested = .ok bid := by
  cases h : p.nextBid previous n suggested with
  | ok bid => exact ⟨bid, rfl⟩
  | error f => exact absurd (nextBid_error h) (Nat.not_le.mpr fits)

/-- A bid against the previous one, the ceiling and the suggestion. -/
structure Rises (p : Pricing) (previous suggested bid : Amount) : Prop where
  le : previous ≤ bid
  le_max : bid ≤ max previous p.ceiling
  /-- It is higher exactly below the ceiling. -/
  lt_iff : previous < bid ↔ previous < p.ceiling
  /-- It is the same exactly at the ceiling. -/
  eq_iff : bid = previous ↔ p.isCeiling previous = true
  follows : min p.ceiling suggested ≤ bid
  /-- The sum is one of numbers, so it never wraps around. -/
  raised : min p.ceiling.toNat (previous.toNat + p.leastRaise previous) ≤ bid.toNat

/-- Every later bid rises so. -/
theorem rises_of_nextBid (h : p.nextBid previous (n + 1) suggested = .ok bid) :
    p.Rises previous suggested bid := by
  have value := nextBid_later h
  have least : 1 ≤ p.leastRaise previous := Nat.le_max_left _ _
  have bound : p.ceiling.toNat ≤ Amount.size - 1 := Nat.le_sub_one_of_lt p.ceiling.toNat_lt
  refine ⟨le_nextBid h, ?_, ?_, ?_, ?_, by omega⟩
  · show bid.toNat ≤ (max previous p.ceiling).toNat
    rw [Amount.toNat_max]
    omega
  · show previous.toNat < bid.toNat ↔ previous.toNat < p.ceiling.toNat
    omega
  · rw [nextBid_eq_iff h, isCeiling, decide_eq_true_iff]
  · show (min p.ceiling suggested).toNat ≤ bid.toNat
    rw [Amount.toNat_min]
    omega

-- A bid above a ceiling that was lowered since stays where it is.
example : nextBid ⟨10, 20, gwei 10⟩ (gwei 15) 1 (gwei 1) = .ok (gwei 15) := rfl

/-- The least increase is monotone in the bid. -/
theorem leastRaise_mono (lower : previous ≤ previous') :
    p.leastRaise previous ≤ p.leastRaise previous' := by
  have product : previous.toNat * p.bumpPercent.toNat ≤ previous'.toNat * p.bumpPercent.toNat :=
    Nat.mul_le_mul_right _ lower
  have part := Nat.div_le_div_right product (c := 100)
  simp only [leastRaise]
  omega

/-- **`nextBid` is monotone in the previous bid and in the suggestion.** -/
theorem nextBid_mono (lower : previous ≤ previous') (less : suggested ≤ suggested')
    (h : p.nextBid previous (n + 1) suggested = .ok bid)
    (h' : p.nextBid previous' (m + 1) suggested' = .ok bid') : bid ≤ bid' := by
  have raise := leastRaise_mono (p := p) lower
  have lower' : previous.toNat ≤ previous'.toNat := lower
  have less' : suggested.toNat ≤ suggested'.toNat := less
  show bid.toNat ≤ bid'.toNat
  rw [nextBid_later h, nextBid_later h']
  omega

/-! ### Bids one after the other -/

/-- The bid behind `n` further attempts, where `made` attempts came before and each has a suggestion
    of its own. -/
def climb (p : Pricing) (made : Nat) (suggestions : Nat → Amount) (first : Amount) :
    (further : Nat) → Except Fault Amount
  | 0 => .ok first
  | k + 1 => do
    let bid ← p.climb made suggestions first k
    p.nextBid bid (made + k + 1) (suggestions k)

variable {made k : Nat} {suggestions : Nat → Amount} {first : Amount}

/-- One attempt more. -/
theorem climb_succ (h : p.climb made suggestions first k = .ok bid) :
    p.climb made suggestions first (k + 1) =
      p.nextBid bid (made + k + 1) (suggestions k) := by
  rw [climb, h]
  rfl

/-- Bids stay below the ceiling or reach it, and each attempt adds one wei below it. -/
theorem climb_below (low : first ≤ p.ceiling)
    (fits : p.ceiling.toNat * p.bumpPercent.toNat < Amount.size) (k : Nat) :
    ∃ bid, p.climb made suggestions first k = .ok bid ∧ bid ≤ p.ceiling ∧
      min p.ceiling.toNat (first.toNat + k) ≤ bid.toNat := by
  induction k with
  | zero => exact ⟨first, rfl, low, Nat.min_le_right _ _⟩
  | succ k ih =>
    obtain ⟨bid, climbed, below, least⟩ := ih
    have product : bid.toNat * p.bumpPercent.toNat < Amount.size :=
      Nat.lt_of_le_of_lt (Nat.mul_le_mul_right _ below) fits
    obtain ⟨next, h⟩ := exists_nextBid product (made + k + 1) (suggestions k)
    have raised := (rises_of_nextBid h).raised
    have step : 1 ≤ p.leastRaise bid := Nat.le_max_left _ _
    exact ⟨next, (climb_succ climbed).trans h, nextBid_le_ceiling below h, by omega⟩

/-- **Bids are at the ceiling after as many attempts as there are wei up to it.** -/
theorem climb_at_ceiling (low : first ≤ p.ceiling)
    (fits : p.ceiling.toNat * p.bumpPercent.toNat < Amount.size)
    (far : p.ceiling.toNat - first.toNat ≤ k) :
    p.climb made suggestions first k = .ok p.ceiling := by
  obtain ⟨bid, climbed, below, least⟩ : ∃ bid, p.climb made suggestions first k = .ok bid ∧ _ ∧ _ :=
    climb_below low fits k
  have below' : bid.toNat ≤ p.ceiling.toNat := below
  have equal : bid = p.ceiling := Amount.ext_toNat (by omega)
  rw [climbed, equal]

/-- **A bid at the ceiling stays there.** -/
theorem climb_stays (fits : p.ceiling.toNat * p.bumpPercent.toNat < Amount.size)
    (h : p.climb made suggestions first k = .ok p.ceiling) (j : Nat) :
    p.climb made suggestions first (k + j) = .ok p.ceiling := by
  induction j with
  | zero => exact h
  | succ j ih =>
    obtain ⟨next, made'⟩ := exists_nextBid fits (made + (k + j) + 1) (suggestions (k + j))
    have same : next = p.ceiling := (nextBid_eq_iff made').mpr (Nat.le_refl _)
    rw [← Nat.add_assoc, climb_succ ih, made', same]

/-! ### Together -/

/-- **The law of escalation.**  A later bid is made wherever its product is in range, and is above
    the previous one and the suggestion as far as the ceiling allows.  It is monotone in both.  From
    any bid below the ceiling the ceiling is reached within `ceiling - bid` attempts, and kept. -/
theorem ascent (p : Pricing) (n : Nat) (previous suggested : Amount)
    (fits : previous.toNat * p.bumpPercent.toNat < Amount.size) :
    ∃ next, p.nextBid previous (n + 1) suggested = .ok next ∧ p.Rises previous suggested next ∧
      (∀ lower less, lower ≤ previous → less ≤ suggested →
        ∃ bid, p.nextBid lower (n + 1) less = .ok bid ∧ bid ≤ next) ∧
      (previous < p.ceiling → p.ceiling.toNat * p.bumpPercent.toNat < Amount.size →
        ∀ suggestions : Nat → Amount,
          (∀ k, p.ceiling.toNat - previous.toNat ≤ k →
            p.climb n suggestions previous k = .ok p.ceiling) ∧
          ∀ k, p.climb n suggestions previous k = .ok p.ceiling →
            ∀ j, p.climb n suggestions previous (k + j) = .ok p.ceiling) := by
  obtain ⟨next, h⟩ := exists_nextBid fits (n + 1) suggested
  refine ⟨next, h, rises_of_nextBid h, ?_, ?_⟩
  · intro lower less below behind
    have product : lower.toNat * p.bumpPercent.toNat < Amount.size :=
      Nat.lt_of_le_of_lt (Nat.mul_le_mul_right _ below) fits
    obtain ⟨bid, h'⟩ := exists_nextBid product (n + 1) less
    exact ⟨bid, h', nextBid_mono below behind h' h⟩
  · intro low inRange suggestions
    have low' : previous ≤ p.ceiling := Nat.le_of_lt low
    exact ⟨fun k far => climb_at_ceiling low' inRange far, fun k h j => climb_stays inRange h j⟩

/-- Ten percent of three wei is nothing, so each attempt adds one wei: nine of them lead to a
    ceiling of twelve. -/
theorem ascent_from_three :
    (Amount.ofWord 3).toNat * (10 : UInt64).toNat < Amount.size ∧
      Amount.ofWord 3 < Amount.ofWord 12 ∧
      (Amount.ofWord 12).toNat * (10 : UInt64).toNat < Amount.size ∧
      (∃ next, nextBid ⟨10, 20, .ofWord 12⟩ (.ofWord 3) 1 .zero = .ok next ∧
        Rises ⟨10, 20, .ofWord 12⟩ (.ofWord 3) .zero next) ∧
      ∀ suggestions k, 9 ≤ k →
        climb ⟨10, 20, .ofWord 12⟩ 0 suggestions (.ofWord 3) k = .ok (.ofWord 12) := by
  have fits : (Amount.ofWord 3).toNat * (10 : UInt64).toNat < Amount.size := by decide
  have low : Amount.ofWord 3 < Amount.ofWord 12 := by decide
  have inRange : (Amount.ofWord 12).toNat * (10 : UInt64).toNat < Amount.size := by decide
  obtain ⟨next, made, rises, -, reach⟩ := ascent ⟨10, 20, .ofWord 12⟩ 0 (.ofWord 3) .zero fits
  refine ⟨fits, low, inRange, ⟨next, made, rises⟩, ?_⟩
  intro suggestions k far
  exact (reach low inRange suggestions).1 k far

end Pricing

end Relayer
