import Mathlib.Data.List.Induction
import Mathlib.Data.String.Basic
import Relayer.Metrics.Basic

namespace Relayer

/-!
# Counts — what the metrics hold after any events

An observation is put into the first bucket that takes it, and a failure is counted at its place in
a list that is ordered by labels.  Neither is a count of the events by itself: the one is so once
the buckets are gathered, since their bounds ascend, and the other since no label comes twice.

* `Histogram.gathered_place` — one more observation, by bounds;
* `Histogram.Charts` — the histogram of some observations;
* `Metrics.Tallied` — the failures that some events have counted;
* `Metrics.Reckons` and `Metrics.reckons` — all counters after some events.
-/

namespace Histogram

variable {ms below : Nat} {bounds observed : List Nat} {buckets : List (Nat × Nat)}
  {h : Histogram}

/-! ### Buckets -/

theorem bounds_place : (place ms buckets).map Prod.fst = buckets.map Prod.fst := by
  induction buckets with
  | nil => rfl
  | cons bucket rest ih =>
    rw [place]
    split
    · rfl
    · rw [List.map_cons, List.map_cons, ih]

theorem bounds_gathered : (gathered below buckets).map Prod.fst = buckets.map Prod.fst := by
  induction buckets generalizing below with
  | nil => rfl
  | cons bucket rest ih => rw [gathered, List.map_cons, List.map_cons, ih]

/-- An observation that is there already counts in all buckets. -/
theorem gathered_succ :
    gathered (below + 1) buckets = (gathered below buckets).map fun b => (b.1, b.2 + 1) := by
  induction buckets generalizing below with
  | nil => rfl
  | cons bucket rest ih =>
    rw [gathered, gathered, List.map_cons, Nat.add_right_comm, ih]

/-- **One more observation** is one more for every bound that it does not exceed. -/
theorem gathered_place (ascending : (buckets.map Prod.fst).Pairwise (· < ·)) :
    gathered below (place ms buckets) =
      (gathered below buckets).map fun b => (b.1, if ms ≤ b.1 then b.2 + 1 else b.2) := by
  induction buckets generalizing below with
  | nil => rfl
  | cons bucket rest ih =>
    obtain ⟨bound, n⟩ := bucket
    rw [List.map_cons, List.pairwise_cons] at ascending
    obtain ⟨least, ascending⟩ := ascending
    rw [place]
    split
    · next takes =>
      -- All further bounds are higher, so none of them is exceeded either.
      have all : ∀ b ∈ gathered (below + n) rest, ms ≤ b.1 := by
        intro b here
        have listed : b.1 ∈ rest.map Prod.fst := by
          rw [← bounds_gathered]
          exact List.mem_map_of_mem here
        exact Nat.le_trans takes (Nat.le_of_lt (least b.1 listed))
      rw [gathered, gathered, List.map_cons, if_pos takes, ← Nat.add_assoc, gathered_succ]
      congr 1
      refine List.map_congr_left fun b here => ?_
      rw [if_pos (all b here)]
    · next exceeds =>
      rw [gathered, gathered, List.map_cons, if_neg exceeds, ih ascending]

/-! ### Histograms -/

/-- A histogram of observations by bounds. -/
structure Charts (h : Histogram) (bounds observed : List Nat) : Prop where
  kept : h.buckets.map Prod.fst = bounds
  within : h.within = bounds.map fun bound => (bound, observed.countP (· ≤ bound))
  count : h.count = observed.length

theorem charts_empty (bounds : List Nat) : (empty bounds).Charts bounds [] where
  kept := by
    rw [empty, List.map_map]
    exact List.map_id bounds
  within := by
    rw [within, empty]
    induction bounds with
    | nil => rfl
    | cons bound rest ih => simpa [gathered] using ih
  count := rfl

theorem Charts.observe (charts : h.Charts bounds observed)
    (ascending : bounds.Pairwise (· < ·)) (ms : Nat) :
    (h.observe ms).Charts bounds (observed ++ [ms]) where
  kept := by
    rw [Histogram.observe, bounds_place]
    exact charts.kept
  within := by
    have before := charts.within
    rw [Histogram.within] at before
    rw [Histogram.within, Histogram.observe, gathered_place (charts.kept ▸ ascending), before,
      List.map_map]
    refine List.map_congr_left fun bound _ => ?_
    simp only [Function.comp_apply, List.countP_append, List.countP_singleton, decide_eq_true_eq]
    split <;> rfl
  count := by
    rw [Histogram.observe, charts.count, List.length_append, List.length_singleton]

/-- **Cumulative buckets never decrease**, and none of them exceeds the number of observations. -/
theorem Charts.pairwise_cumulative (charts : h.Charts bounds observed)
    (ascending : bounds.Pairwise (· < ·)) : h.cumulative.Pairwise (· ≤ ·) := by
  rw [cumulative, charts.within, charts.count, List.map_map, List.pairwise_append]
  refine ⟨?_, List.pairwise_singleton _ _, ?_⟩
  · rw [List.pairwise_map]
    refine ascending.imp fun {low high} less => ?_
    refine List.countP_mono_left fun ms _ within => ?_
    rw [decide_eq_true_eq] at within ⊢
    exact Nat.le_trans within (Nat.le_of_lt less)
  · intro n here total last
    obtain ⟨bound, -, rfl⟩ := List.mem_map.mp here
    rw [List.mem_singleton.mp last]
    exact List.countP_le_length

end Histogram

namespace Metrics

variable {m : Metrics} {e : Event} {es : List Event} {counts : List (String × Nat)}
  {label other : String} {n : Nat}

/-! ### Failures by label -/

theorem mem_labels_tally :
    other ∈ (tally label counts).map Prod.fst ↔ other = label ∨ other ∈ counts.map Prod.fst := by
  induction counts with
  | nil => simp [tally]
  | cons entry rest ih =>
    obtain ⟨l, n⟩ := entry
    rw [tally]
    split
    · next here => simp [here]
    · split
      · simp
      · simp only [List.map_cons, List.mem_cons, ih]
        tauto

/-- The labels stay in order. -/
theorem sorted_tally (sorted : (counts.map Prod.fst).Pairwise (· < ·)) :
    ((tally label counts).map Prod.fst).Pairwise (· < ·) := by
  induction counts with
  | nil => simp [tally]
  | cons entry rest ih =>
    obtain ⟨l, n⟩ := entry
    rw [List.map_cons, List.pairwise_cons] at sorted
    obtain ⟨least, sorted⟩ := sorted
    rw [tally]
    split
    · exact List.pairwise_cons.mpr ⟨least, sorted⟩
    · next apart =>
      split
      · next before =>
        refine List.pairwise_cons.mpr ⟨?_, List.pairwise_cons.mpr ⟨least, sorted⟩⟩
        intro other here
        rcases List.mem_cons.mp here with rfl | behind
        · exact before
        · exact lt_trans before (least other behind)
      · next behind =>
        refine List.pairwise_cons.mpr ⟨?_, ih sorted⟩
        intro other here
        rcases mem_labels_tally.mp here with rfl | listed
        · exact lt_of_le_of_ne (not_lt.mp behind) (Ne.symm apart)
        · exact least other listed

/-- Other labels keep their counts. -/
theorem mem_tally_other (apart : other ≠ label) :
    (other, n) ∈ tally label counts ↔ (other, n) ∈ counts := by
  induction counts with
  | nil => simp [tally, apart]
  | cons entry rest ih =>
    obtain ⟨l, k⟩ := entry
    rw [tally]
    split
    · next here =>
      subst here
      simp [apart]
    · split
      · simp [apart]
      · rw [List.mem_cons, List.mem_cons, ih]

/-- A label counts one more than before. -/
theorem mem_tally_self (sorted : (counts.map Prod.fst).Pairwise (· < ·)) :
    (label, n) ∈ tally label counts ↔
      (∃ k, (label, k) ∈ counts ∧ n = k + 1) ∨ (∀ k, (label, k) ∉ counts) ∧ n = 1 := by
  induction counts with
  | nil => simp [tally]
  | cons entry rest ih =>
    obtain ⟨l, k⟩ := entry
    rw [List.map_cons, List.pairwise_cons] at sorted
    obtain ⟨least, sorted⟩ := sorted
    have once : ∀ j, (l, j) ∉ rest := fun j again =>
      lt_irrefl l (least l (List.mem_map_of_mem again))
    rw [tally]
    split
    · next here =>
      subst here
      simp [once]
    · next apart =>
      split
      · next before =>
        have none : ∀ j, (label, j) ∉ rest := fun j here =>
          lt_asymm before (least label (List.mem_map_of_mem here))
        simp [none, apart]
      · simp only [List.mem_cons, Prod.mk.injEq, apart, false_and, false_or]
        exact ih sorted

/-- The failures that some events have counted: every label once and in order, with the number of
    its failures, and no label without any. -/
structure Tallied (counts : List (String × Nat)) (es : List Event) : Prop where
  sorted : (counts.map Prod.fst).Pairwise (· < ·)
  counts : ∀ label n, (label, n) ∈ counts ↔
    .failed label ∈ es ∧ n = es.count (.failed label)

theorem Tallied.pass (tallied : Tallied counts es) (no_failure : ∀ label, e ≠ .failed label) :
    Tallied counts (es ++ [e]) where
  sorted := tallied.sorted
  counts label n := by
    have none : List.count (.failed label) [e] = 0 :=
      List.count_eq_zero.mpr (by simpa using (no_failure label).symm)
    rw [tallied.counts, List.mem_append, List.mem_singleton, List.count_append, none,
      or_iff_left (no_failure label).symm, Nat.add_zero]

theorem Tallied.tally (tallied : Tallied counts es) (label : String) :
    Tallied (tally label counts) (es ++ [.failed label]) where
  sorted := sorted_tally tallied.sorted
  counts other n := by
    rw [List.mem_append, List.mem_singleton, List.count_append]
    -- Only the label itself counts one more, or is there from now on.
    by_cases same : other = label
    · subst same
      have total : List.count (Event.failed other) [.failed other] = 1 := List.count_singleton_self
      rw [mem_tally_self tallied.sorted, total]
      simp only [tallied.counts, or_true, true_and, not_and]
      constructor
      · rintro (⟨k, ⟨-, rfl⟩, rfl⟩ | ⟨new, rfl⟩)
        · rfl
        · have unhandled : Event.failed other ∉ es := fun here => new _ here rfl
          rw [List.count_eq_zero.mpr unhandled]
      · rintro rfl
        by_cases heard : Event.failed other ∈ es
        · exact .inl ⟨_, ⟨heard, rfl⟩, rfl⟩
        · refine .inr ⟨fun k here => absurd here heard, ?_⟩
          rw [List.count_eq_zero.mpr heard]
    · have apart : Event.failed other ≠ .failed label := fun eq => same (Event.failed.inj eq)
      have none : List.count (Event.failed other) [.failed label] = 0 :=
        List.count_eq_zero.mpr (by simpa using apart)
      rw [mem_tally_other same, tallied.counts, or_iff_left apart, none, Nat.add_zero]

/-! ### All counters -/

/-- The latency of a confirmed send. -/
def Event.latency? : Event → Option Nat
  | .confirmed ms => some ms
  | _ => none

/-- The bid of a candidate. -/
def Event.bid? : Event → Option Amount
  | .candidate bid => some bid
  | _ => none

/-- How long a send waited for its lease. -/
def Event.wait? : Event → Option Nat
  | .leaseWait ms => some ms
  | _ => none

/-- The bounds of the two histograms, in milliseconds. -/
def latencyBounds : List Nat := [1000, 5000, 15000, 30000, 60000, 120000, 300000, 600000, 1800000]

def waitBounds : List Nat := [1, 10, 100, 1000, 10000, 60000, 300000]

theorem ascending_latencyBounds : latencyBounds.Pairwise (· < ·) := by decide

theorem ascending_waitBounds : waitBounds.Pairwise (· < ·) := by decide

/-- Metrics that hold what some events come to. -/
structure Reckons (m : Metrics) (es : List Event) : Prop where
  started : m.started = es.count .started
  confirmed : m.confirmed = (es.filterMap Event.latency?).length
  failed : Tallied m.failed es
  latency : m.latency.Charts latencyBounds (es.filterMap Event.latency?)
  candidates : m.candidates = (es.filterMap Event.bid?).length
  bumps : m.bumps = es.count .bump
  bid : m.bid = (es.filterMap Event.bid?).getLast?.getD .zero
  tooLow : m.tooLow = es.count .tooLow
  leaseWait : m.leaseWait.Charts waitBounds (es.filterMap Event.wait?)

theorem reckons_zero : Reckons zero [] where
  started := rfl
  confirmed := rfl
  failed := ⟨.nil, fun _ _ => by simp [zero]⟩
  latency := Histogram.charts_empty latencyBounds
  candidates := rfl
  bumps := rfl
  bid := rfl
  tooLow := rfl
  leaseWait := Histogram.charts_empty waitBounds

theorem filterMap_concat {α : Type} (f : Event → Option α) (es : List Event) (e : Event) :
    (es ++ [e]).filterMap f = es.filterMap f ++ (f e).toList := by
  rw [List.filterMap_append]
  cases here : f e <;> simp [here]

theorem filterMap_of_none {α : Type} {f : Event → Option α} (none : f e = none) :
    (es ++ [e]).filterMap f = es.filterMap f := by
  rw [filterMap_concat, none, Option.toList_none, List.append_nil]

/-- **One more event** changes what is counted of it and nothing else. -/
theorem Reckons.record (reckons : Reckons m es) (e : Event) :
    Reckons (m.record e) (es ++ [e]) where
  started := by
    rw [List.count_append, ← reckons.started]
    cases e <;> rfl
  confirmed := by
    rw [filterMap_concat, List.length_append, ← reckons.confirmed]
    cases e <;> rfl
  -- The failures are a map over labels, so this column needs the label itself.
  failed := by
    cases e with
    | failed label => exact reckons.failed.tally label
    | _ => exact reckons.failed.pass (fun _ => Event.noConfusion)
  latency := by
    cases e with
    | confirmed ms =>
      rw [filterMap_concat]
      exact reckons.latency.observe ascending_latencyBounds ms
    | _ =>
      rw [filterMap_of_none rfl]
      exact reckons.latency
  candidates := by
    rw [filterMap_concat, List.length_append, ← reckons.candidates]
    cases e <;> rfl
  bumps := by
    rw [List.count_append, ← reckons.bumps]
    cases e <;> rfl
  bid := by
    cases e with
    | candidate bid =>
      rw [filterMap_concat, Event.bid?, Option.toList_some, List.getLast?_concat]
      rfl
    | _ =>
      rw [filterMap_of_none rfl]
      exact reckons.bid
  tooLow := by
    rw [List.count_append, ← reckons.tooLow]
    cases e <;> rfl
  leaseWait := by
    cases e with
    | leaseWait ms =>
      rw [filterMap_concat]
      exact reckons.leaseWait.observe ascending_waitBounds ms
    | _ =>
      rw [filterMap_of_none rfl]
      exact reckons.leaseWait

/-- The metrics after some events, one after the other. -/
def after (es : List Event) : Metrics := es.foldl Metrics.record zero

/-- **The metrics hold what the events come to**, however many there are. -/
theorem reckons (es : List Event) : Reckons (after es) es := by
  induction es using List.reverseRecOn with
  | nil => exact reckons_zero
  | append_singleton es e ih =>
    rw [after, List.foldl_concat]
    exact ih.record e

/-- The failures are tallied in one way only, whatever the order of the events. -/
theorem Tallied.unique {counts' : List (String × Nat)} {es' : List Event}
    (tallied : Tallied counts es) (tallied' : Tallied counts' es') (same : es.Perm es') :
    counts = counts' := by
  -- Both have the same members in the same order, and none of them twice.
  have members : ∀ entry, entry ∈ counts ↔ entry ∈ counts' := by
    rintro ⟨label, n⟩
    rw [tallied.counts, tallied'.counts, same.mem_iff, same.count_eq]
  have sorted := List.pairwise_map.mp tallied.sorted
  have sorted' := List.pairwise_map.mp tallied'.sorted
  have once {l : List (String × Nat)} (sorted : l.Pairwise fun a b => a.1 < b.1) : l.Nodup := by
    refine sorted.imp fun {a b} less => ?_
    rintro rfl
    exact lt_irrefl _ less
  have perm : counts.Perm counts' :=
    (List.perm_ext_iff_of_nodup (once sorted) (once sorted')).mpr members
  refine perm.eq_of_pairwise (fun a b _ _ less more => ?_) sorted sorted'
  exact absurd more (lt_asymm less)

end Metrics

end Relayer
