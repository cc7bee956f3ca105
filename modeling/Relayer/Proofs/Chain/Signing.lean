import Relayer.Wallet.Key

namespace Relayer

/-!
# Signing — the nonce of a signature, its numbers, and the signed bytes

The nonce `k` is the first number of a generator with `0 < k < Curve.order`.  One nonce is tried:
its `r` and `s` make the signature, or one of them is zero and signing fails.

* `Nonces.nth` / `Nonces.Finds` — the numbers of the generator, and the first one in range;
* `Nonces.scalar?_eq_some` / `Nonces.scalar?_eq_none` — the search returns that one, and does not
  end where there is none;
* `Signature.ofNonce_eq_none` / `Signature.ofNonce_eq_some` — the signature with a nonce;
* `Key.sign_eq_ok` / `Key.sign_eq_error` / `Key.sign_eq_none` — what `Key.sign` returns.
-/

/-! ### Nonces -/

namespace Nonces

variable {g : Nonces} {k : Curve.Scalar}

/-- The `i`-th number that the generator is asked for. -/
def nth (g : Nonces) : Nat → Nat
  | 0 => bigEndianValue g.step.value
  | i + 1 => (g.step.mix 0 []).nth i

/-- `k` is the first number of the generator in range. -/
def Finds (g : Nonces) (k : Curve.Scalar) : Prop :=
  ∃ i, Curve.Scalar.ofNat? (g.nth i) = some k ∧ ∀ j < i, Curve.Scalar.ofNat? (g.nth j) = none

theorem scalar?_of_some (here : Curve.Scalar.ofNat? (g.nth 0) = some k) : g.scalar? = some k := by
  rw [scalar?, show Curve.Scalar.ofNat? (bigEndianValue g.step.value) = some k from here]

theorem scalar?_of_none (out : Curve.Scalar.ofNat? (g.nth 0) = none) :
    g.scalar? = (g.step.mix 0 []).scalar? := by
  generalize later : (g.step.mix 0 []).scalar? = result
  rw [scalar?, show Curve.Scalar.ofNat? (bigEndianValue g.step.value) = none from out]
  exact later

/-- The search returns the first number in range, behind `i` numbers out of range. -/
theorem scalar?_of_nth : ∀ {i : Nat} {g : Nonces}, Curve.Scalar.ofNat? (g.nth i) = some k →
    (∀ j < i, Curve.Scalar.ofNat? (g.nth j) = none) → g.scalar? = some k
  | 0, _, here, _ => scalar?_of_some here
  | i + 1, g, here, before => by
    rw [scalar?_of_none (before 0 (Nat.succ_pos i))]
    exact scalar?_of_nth here fun j below => before (j + 1) (Nat.succ_lt_succ below)

/-- **`scalar?` is `some k` exactly where `k` is the first number in range.** -/
theorem scalar?_eq_some : g.scalar? = some k ↔ g.Finds k := by
  refine ⟨fun found => ?_, fun ⟨_, here, before⟩ => scalar?_of_nth here before⟩
  -- Fixed-point induction: what holds of one round more holds of the whole search.
  refine scalar?.partial_correctness Finds ?_ g k found
  intro search ih g k found
  cases here : Curve.Scalar.ofNat? (g.nth 0) with
  | some k' =>
    rw [show Curve.Scalar.ofNat? (bigEndianValue g.step.value) = some k' from here] at found
    exact ⟨0, here.trans found, fun j below => absurd below (Nat.not_lt_zero j)⟩
  | none =>
    rw [show Curve.Scalar.ofNat? (bigEndianValue g.step.value) = none from here] at found
    obtain ⟨i, there, before⟩ := ih _ _ found
    refine ⟨i + 1, there, fun j below => ?_⟩
    cases j with
    | zero => exact here
    | succ j => exact before j (Nat.lt_of_succ_lt_succ below)

/-- `scalar?` is `none` exactly where no number is in range. -/
theorem scalar?_eq_none : g.scalar? = none ↔ ∀ k, ¬ g.Finds k := by
  simp only [Option.eq_none_iff_forall_ne_some, ← scalar?_eq_some, ne_eq]

end Nonces

/-! ### Signatures -/

namespace Signature

variable {key k : Curve.Scalar} {hash : Nat}

theorem rOf_lt (k : Curve.Scalar) : rOf k < Curve.order := Nat.mod_lt _ (by decide)

theorem sOf_lt (key : Curve.Scalar) (hash : Nat) (k : Curve.Scalar) :
    sOf key hash k < Curve.order :=
  Nat.mod_lt _ (by decide)

/-- The second number of the signature with the nonce `k`: the lower one of `s` and `-s`. -/
def lowOf (key : Curve.Scalar) (hash : Nat) (k : Curve.Scalar) : Nat :=
  min (sOf key hash k) (Curve.order - sOf key hash k)

theorem lowOf_lt (key : Curve.Scalar) (hash : Nat) (k : Curve.Scalar) :
    lowOf key hash k < Curve.order :=
  Nat.lt_of_le_of_lt (Nat.min_le_left _ _) (sOf_lt key hash k)

/-- The y-parity of the signature with the nonce `k`: that of `k · G`, or the other one where `-s`
    takes the place of `s`. -/
def parity (key : Curve.Scalar) (hash : Nat) (k : Curve.Scalar) : Bool :=
  decide (Curve.order / 2 < sOf key hash k) ^^ decide ((point k).2 % 2 = 1)

theorem ofNonce_eq_none (zero : rOf k = 0 ∨ sOf key hash k = 0) : ofNonce key hash k = none :=
  if_pos zero

/-- **`ofNonce` is `⟨r, lowOf, parity⟩` where neither `r` nor `s` is zero.** -/
theorem ofNonce_eq_some (nonzero : ¬ (rOf k = 0 ∨ sOf key hash k = 0)) :
    ofNonce key hash k = some ⟨rOf k, lowOf key hash k, parity key hash k⟩ := by
  have odd : Curve.order = 2 * (Curve.order / 2) + 1 := by decide
  rw [ofNonce, if_neg nonzero, parity, lowOf]
  by_cases high : Curve.order / 2 < sOf key hash k
  · rw [if_pos high, Nat.min_eq_right (by omega), decide_eq_true high, Bool.true_xor]
  · rw [if_neg high, Nat.min_eq_left (by omega), decide_eq_false high, Bool.false_xor]

end Signature

/-! ### Signed bytes -/

namespace Key

/-- `v = 35 + 2 * id + odd`, for a chain that leaves room for the y-parity in a word. -/
theorem recovery_eq_ok {id : UInt64} (room : 2 * id.toNat + 36 < UInt64.size) (odd : Bool) :
    ∃ v, recovery id odd = .ok v ∧ v.toNat = 35 + 2 * id.toNat + odd.toNat := by
  have parity : odd.toNat ≤ 1 := odd.toNat_le
  have below : 35 + 2 * id.toNat + odd.toNat < UInt64.size := by omega
  refine ⟨.ofNat (35 + 2 * id.toNat + odd.toNat), ?_, UInt64.toNat_ofNat_of_lt' below⟩
  rw [recovery, if_neg (by omega), if_pos below]

variable {k : Key} {id : UInt64} {t : Transaction} {nonce : Curve.Scalar}

/-- A nonce with `r` and `s` not zero signs, for a chain that leaves room for the y-parity: `v = 35
    + 2 * id + parity`, `r` and the lower of `s` and `-s`. -/
theorem sign_eq_ok (room : 2 * id.toNat + 36 < UInt64.size)
    (finds : (Nonces.seed k.secret (hashFor id t)).Finds nonce)
    (nonzero : ¬ (Signature.rOf nonce = 0 ∨ Signature.sOf k.secret (hashFor id t) nonce = 0)) :
    ∃ v, v.toNat = 35 + 2 * id.toNat + (Signature.parity k.secret (hashFor id t) nonce).toNat ∧
      k.sign id t = some (.ok (.ok ({ t with chainId := some id }.signed v (Signature.rOf nonce)
        (Signature.lowOf k.secret (hashFor id t) nonce)))) := by
  obtain ⟨v, recovered, value⟩ :=
    recovery_eq_ok room (Signature.parity k.secret (hashFor id t) nonce)
  refine ⟨v, value, ?_⟩
  rw [sign, Nonces.scalar?_eq_some.mpr finds]
  dsimp only [Option.map_some]
  rw [Signature.ofNonce_eq_some nonzero]
  dsimp only
  rw [recovered]
  rfl

/-- A nonce with `r` or `s` zero is the signer's error. -/
theorem sign_eq_error (finds : (Nonces.seed k.secret (hashFor id t)).Finds nonce)
    (zero : Signature.rOf nonce = 0 ∨ Signature.sOf k.secret (hashFor id t) nonce = 0) :
    k.sign id t = some (.ok (.error (.signer "signature error"))) := by
  rw [sign, Nonces.scalar?_eq_some.mpr finds]
  dsimp only [Option.map_some]
  rw [Signature.ofNonce_eq_none zero]

theorem sign_eq_none (never : ∀ nonce, ¬ (Nonces.seed k.secret (hashFor id t)).Finds nonce) :
    k.sign id t = none := by
  rw [sign, Nonces.scalar?_eq_none.mpr never, Option.map_none]

end Key

end Relayer
