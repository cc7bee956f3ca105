import Mathlib.Data.List.Nodup
import Mathlib.Logic.Basic
import Relayer.Settings.Variable

namespace Relayer

/-!
# Keys — which keys of an environment belong to a variable

Overriding settings and warning of unknown variables look at the same keys: those with the prefix.
Each of them is the key of one entry of the table and overrides its setting, or is warned of and
ignored.

* `Variable.key` — the key of a variable, and `Variable.Marked` the keys that have the prefix;
* `ofKey?_eq_some_iff` — the variable of a key is the one whose key it is;
* `Variable.Takes` — a key is that of one variable alone, which takes its values;
* `override_filter` — keys that belong to no variable make no difference;
* `keys_shared` — both scans look at every key, and never take the same one.
-/

variable {mark k rest name : String} {v w : Variable}

namespace Variable

/-! ### Names and keys -/

theorem mem_all (v : Variable) : v ∈ all := by
  cases v <;> decide

theorem all_nodup : all.Nodup := by
  decide

theorem ofName?_name (v : Variable) : ofName? v.name = some v := by
  cases v <;> rfl

/-- No two variables share a name. -/
theorem ofName?_eq_some_iff : ofName? name = some v ↔ name = v.name := by
  constructor
  · intro h
    rw [ofName?] at h
    have named := List.find?_some h
    exact (beq_iff_eq.mp named).symm
  · rintro rfl
    exact ofName?_name v

/-- The key of a variable. -/
def key (mark : String) (v : Variable) : String := mark ++ "_" ++ v.name

/-- A key that starts with the prefix and an underscore. -/
def Marked (mark key : String) : Prop := ∃ rest, key = mark ++ "_" ++ rest

/-- Only one text follows the prefix and the underscore, wherever else they occur in the key. -/
theorem rest?_eq_some_iff : rest? mark k = some rest ↔ k = mark ++ "_" ++ rest := by
  have underscore : "_".toList = ['_'] := rfl
  rw [rest?, ← String.toList_inj]
  simp only [String.toList_append, underscore, Option.ite_none_right_eq_some,
    List.isPrefixOf_iff_prefix, Option.some.injEq]
  constructor
  · rintro ⟨⟨tail, h⟩, rfl⟩
    rw [← h, String.toList_ofList, List.drop_left]
  · intro h
    rw [h, List.drop_left, String.ofList_toList]
    exact ⟨List.prefix_append _ _, rfl⟩

theorem rest?_isSome_iff : (rest? mark k).isSome = true ↔ Marked mark k := by
  rw [Option.isSome_iff_exists]
  exact exists_congr fun _ => rest?_eq_some_iff

instance : Decidable (Marked mark k) := decidable_of_iff _ rest?_isSome_iff

theorem ofKey?_eq_some_iff : ofKey? mark k = some v ↔ k = v.key mark := by
  rw [ofKey?, Option.bind_eq_some_iff]
  constructor
  · rintro ⟨rest, behind, named⟩
    rw [rest?_eq_some_iff.mp behind, ofName?_eq_some_iff.mp named, Variable.key]
  · rintro rfl
    exact ⟨v.name, rest?_eq_some_iff.mpr rfl, ofName?_name v⟩

theorem ofKey?_eq_none_iff : ofKey? mark k = none ↔ ∀ v : Variable, k ≠ v.key mark := by
  rw [Option.eq_none_iff_forall_ne_some]
  exact forall_congr' fun _ => ofKey?_eq_some_iff.not

theorem key_injective (mark : String) : Function.Injective (Variable.key mark) := by
  intro v w same
  have found : ofKey? mark (v.key mark) = some w := ofKey?_eq_some_iff.mpr same
  rw [ofKey?_eq_some_iff.mpr rfl] at found
  exact Option.some.inj found

theorem marked_key (mark : String) (v : Variable) : Marked mark (v.key mark) := ⟨v.name, rfl⟩

/-! ### Unknown keys -/

/-- The unknown keys, in order and as often as they come: those that have the prefix and are not the
    key of a variable. -/
theorem unknown_eq (mark : String) (keys : List String) :
    unknown mark keys =
      keys.filter fun key => Marked mark key ∧ ¬∃ v ∈ all, v.key mark = key := by
  refine List.filter_congr fun key _ => ?_
  cases behind : rest? mark key with
  | none =>
    have unmarked : ¬Marked mark key := by
      rw [← rest?_isSome_iff, behind]
      exact Bool.false_ne_true
    simp [unmarked]
  | some rest =>
    have split := rest?_eq_some_iff.mp behind
    have marked : Marked mark key := ⟨rest, split⟩
    have named : ofKey? mark key = ofName? rest := by
      rw [ofKey?, behind, Option.bind_some]
    have unnamed : (ofName? rest).isNone = true ↔ ¬∃ v ∈ all, v.key mark = key := by
      rw [Option.isNone_iff_eq_none, ← named, ofKey?_eq_none_iff]
      constructor
      · rintro none ⟨v, -, hv⟩
        exact none v hv.symm
      · intro none v hv
        exact none ⟨v, mem_all v, hv.symm⟩
    rw [Bool.eq_iff_iff, decide_eq_true_iff, unnamed, and_iff_right marked]

theorem mem_unknown_iff {keys : List String} (h : k ∈ keys) :
    k ∈ unknown mark keys ↔ Marked mark k ∧ ∀ v : Variable, k ≠ v.key mark := by
  rw [unknown_eq, List.mem_filter, and_iff_right h, decide_eq_true_iff]
  refine and_congr_right fun _ => ⟨fun none v hv => none ⟨v, mem_all v, hv.symm⟩, ?_⟩
  rintro none ⟨v, -, hv⟩
  exact none v hv.symm

/-! ### Keys that are set -/

/-- A key is that of one entry of the table alone, and its values are taken as values of that
    variable. -/
structure Takes (mark : String) (v : Variable) (key : String) : Prop where
  entry : (all.filter fun w => w.key mark = key) = [v]
  taken : ∀ (s : Settings) (value : String) (rest : List (String × String)),
    s.override mark ((key, value) :: rest) =
      match v.apply value s with
      | .ok t => t.override mark rest
      | .error cause => (s, some (.badValue key cause))

/-- A key that is ignored: its values make no difference, wherever they come. -/
def Passed (mark key : String) : Prop :=
  ∀ (s : Settings) (value : String) (rest : List (String × String)),
    s.override mark ((key, value) :: rest) = s.override mark rest

theorem filter_key (mark : String) (v : Variable) :
    (all.filter fun w => w.key mark = v.key mark) = [v] := by
  have only : ∀ w ∈ all, decide (w.key mark = v.key mark) = (w == v) := by
    intro w _
    rw [Bool.eq_iff_iff, decide_eq_true_iff, (key_injective mark).eq_iff, beq_iff_eq]
  rw [List.filter_congr only, List.filter_beq, List.count_eq_one_of_mem all_nodup (mem_all v),
    List.replicate_one]

theorem takes_key (mark : String) (v : Variable) : Takes mark v (v.key mark) where
  entry := filter_key mark v
  taken s value rest := by
    have found : ofKey? mark (v.key mark) = some v := ofKey?_eq_some_iff.mpr rfl
    cases applied : v.apply value s <;> simp only [Settings.override, found, applied]

theorem Takes.key_eq (h : Takes mark v k) : k = v.key mark := by
  have found : v ∈ all.filter fun w => w.key mark = k := h.entry ▸ List.mem_singleton_self v
  exact (of_decide_eq_true (List.mem_filter.mp found).2).symm

theorem passed_of_ofKey? (h : ofKey? mark k = none) : Passed mark k := by
  intro s value rest
  rw [Settings.override, h]

end Variable

open Variable in
/-- Overriding depends on the keys of variables alone. -/
theorem Settings.override_filter (mark : String) (p : String × String → Bool) :
    ∀ (vars : List (String × String)) (s : Settings),
      (∀ e ∈ vars, p e = true ↔ ∃ v : Variable, e.1 = v.key mark) →
        s.override mark (vars.filter p) = s.override mark vars
  | [], _, _ => rfl
  | (key, value) :: rest, s, known => by
    have behind := fun t => override_filter mark p rest t fun e he => known e (.tail _ he)
    have here := known (key, value) (.head _)
    cases found : ofKey? mark key with
    | none =>
      have dropped : ¬p (key, value) = true := by
        rw [here]
        rintro ⟨v, hv⟩
        exact ofKey?_eq_none_iff.mp found v hv
      rw [List.filter_cons_of_neg dropped, behind, passed_of_ofKey? found]
    | some v =>
      obtain rfl := ofKey?_eq_some_iff.mp found
      have taken := (takes_key mark v).taken s value
      rw [List.filter_cons_of_pos (here.mpr ⟨v, rfl⟩), taken, taken]
      split
      · exact behind _
      · rfl

namespace Variable

theorem takes_xor_unknown {keys : List String} (mem : k ∈ keys) (marked : Marked mark k) :
    Xor (∃ v, Takes mark v k) (k ∈ unknown mark keys) := by
  rw [mem_unknown_iff mem, and_iff_right marked]
  cases found : ofKey? mark k with
  | none =>
    have none_takes := ofKey?_eq_none_iff.mp found
    exact .inr ⟨none_takes, fun ⟨v, hv⟩ => none_takes v hv.key_eq⟩
  | some v =>
    obtain rfl := ofKey?_eq_some_iff.mp found
    exact .inl ⟨⟨v, takes_key mark v⟩, fun none_takes => none_takes v rfl⟩

theorem passed_of_mem_unknown {keys : List String} (warned : k ∈ unknown mark keys) :
    Passed mark k := by
  have none_takes := ((mem_unknown_iff (List.mem_of_mem_filter warned)).mp warned).2
  exact passed_of_ofKey? (ofKey?_eq_none_iff.mpr none_takes)

theorem neither_of_unmarked {keys : List String} (mem : k ∈ keys) (unmarked : ¬Marked mark k) :
    (¬∃ v, Takes mark v k) ∧ k ∉ unknown mark keys ∧ Passed mark k := by
  have none_takes : ∀ v : Variable, k ≠ v.key mark := by
    rintro v rfl
    exact unmarked (marked_key mark v)
  refine ⟨fun ⟨v, hv⟩ => none_takes v hv.key_eq, fun warned => ?_,
    passed_of_ofKey? (ofKey?_eq_none_iff.mpr none_takes)⟩
  exact unmarked ((mem_unknown_iff mem).mp warned).1

/-- **Every key with the prefix is taken by exactly one variable or warned of**, and no key is both;
    those warned of keep their order and multiplicity.  A key without the prefix is neither.
    Without the unknown keys and those without the prefix, `override` comes out as it does with
    them. -/
theorem keys_shared (mark : String) (vars : List (String × String)) (s : Settings) :
    let keys := vars.map (·.1)
    (∀ key ∈ keys, Marked mark key →
        Xor (∃ v, Takes mark v key) (key ∈ unknown mark keys)) ∧
      (∀ key ∈ unknown mark keys, Passed mark key) ∧
      (∀ key v w, Takes mark v key → Takes mark w key → v = w) ∧
      (unknown mark keys =
        keys.filter fun key => Marked mark key ∧ ¬∃ v ∈ all, v.key mark = key) ∧
      (∀ key ∈ keys, ¬Marked mark key →
        (¬∃ v, Takes mark v key) ∧ key ∉ unknown mark keys ∧ Passed mark key) ∧
      s.override mark (vars.filter fun e => Marked mark e.1 ∧ e.1 ∉ unknown mark keys) =
        s.override mark vars := by
  intro keys
  refine ⟨fun key => takes_xor_unknown, fun key => passed_of_mem_unknown,
    fun key v w hv hw => key_injective mark (hv.key_eq.symm.trans hw.key_eq),
    unknown_eq mark keys, fun key => neither_of_unmarked, ?_⟩
  refine Settings.override_filter mark _ vars s fun e he => ?_
  have mem : e.1 ∈ keys := List.mem_map_of_mem he
  rw [decide_eq_true_iff, mem_unknown_iff mem]
  constructor
  · rintro ⟨marked, known⟩
    by_contra none_takes
    exact known ⟨marked, fun v hv => none_takes ⟨v, hv⟩⟩
  · rintro ⟨v, hv⟩
    exact ⟨hv ▸ marked_key mark v, fun warned => warned.2 v hv⟩

end Variable

end Relayer
