import Mathlib.Data.List.Count
import Mathlib.Data.List.Induction
import Mathlib.Data.List.Infix
import Mathlib.Data.List.TakeWhile
import Relayer.Settings.File

namespace Relayer.Template

/-!
# Substitution — the variables of a text substituted at once

Simultaneous substitution puts a value where each variable stands and touches nothing else, least of
all a value.  Replacing one name after the other comes to the same as long as no name arises between
two turns: `${A}${B}` with `A = ${B}` is where they part.

* `Filled` — a text with its variables substituted at once;
* `upTo` — the names that had their turn stand for their values, all others for themselves;
* `Filled.replace` — the turn of one name among others, and `Filled.replace_alone` by itself;
* `Clear` — no name arises between two turns; `clear_of_plain` and `clear_of_single` say where that
  is certain;
* `fillAll_filled` — the turns of all names, in any order;
* `fill_at_once` — where `fill` is the simultaneous substitution, and `fill_twice` where it is not.
-/

variable {value : List Char → List Char} {name name' text rest out out' xs : List Char}
  {done order : List (List Char)}

/-! ### Names -/

/-- A name is a capital letter or an underscore, followed by more of these and by digits. -/
def IsName (name : List Char) : Prop :=
  ∃ c rest, name = c :: rest ∧ isFirst c = true ∧ ∀ d ∈ rest, isName d = true

theorem IsName.isName (h : IsName name) : ∀ c ∈ name, isName c = true := by
  obtain ⟨c, rest, rfl, first, others⟩ := h
  intro d hd
  rcases List.mem_cons.mp hd with rfl | hd
  · rw [Template.isName, first, Bool.true_or]
  · exact others d hd

theorem mark_append (name rest : List Char) :
    mark name ++ rest = '$' :: '\x7b' :: (name ++ '\x7d' :: rest) := by
  simp [mark]

theorem name?_mark (h : IsName name) (rest : List Char) :
    name? (mark name ++ rest) = some name := by
  obtain ⟨c, tail, rfl, first, others⟩ := h
  have closing : ¬Template.isName '\x7d' = true := by decide
  have taken : (tail ++ '\x7d' :: rest).takeWhile Template.isName = tail := by
    rw [List.takeWhile_append_of_pos others, List.takeWhile_cons_of_neg closing, List.append_nil]
  have dropped : (tail ++ '\x7d' :: rest).dropWhile Template.isName = '\x7d' :: rest := by
    rw [List.dropWhile_append_of_pos others, List.dropWhile_cons_of_neg closing]
  have split : mark (c :: tail) ++ rest = '$' :: '\x7b' :: c :: (tail ++ '\x7d' :: rest) :=
    mark_append (c :: tail) rest
  rw [split]
  simp only [name?, taken, dropped, first]
  rfl

theorem eq_mark_of_name? (h : name? text = some name) :
    IsName name ∧ ∃ rest, text = mark name ++ rest := by
  unfold name? at h
  split at h
  · next c tail =>
    simp only [Option.ite_none_right_eq_some, Bool.and_eq_true, beq_iff_eq, Option.some.injEq] at h
    obtain ⟨⟨first, closed⟩, rfl⟩ := h
    obtain ⟨rest, hrest⟩ := List.head?_eq_some_iff.mp closed
    refine ⟨⟨c, _, rfl, first, fun d hd => List.mem_takeWhile_imp hd⟩, rest, ?_⟩
    rw [mark_append, List.cons_append, ← hrest, List.takeWhile_append_dropWhile]
  · cases h

theorem name?_eq_none_iff : name? text = none ↔ ∀ name, IsName name → ¬mark name <+: text := by
  constructor
  · intro h name hname
    rintro ⟨rest, rfl⟩
    rw [name?_mark hname] at h
    cases h
  · intro h
    cases hn : name? text with
    | none => rfl
    | some name =>
      obtain ⟨hname, rest, rfl⟩ := eq_mark_of_name? hn
      exact absurd (List.prefix_append _ rest) (h name hname)

theorem isName_of_mem_names : ∀ {text : List Char}, name ∈ names text → IsName name
  | c :: rest, h => by
    rcases List.mem_append.mp h with h | h
    · exact (eq_mark_of_name? (Option.mem_toList.mp h)).1
    · exact isName_of_mem_names h

/-- The names of a text start behind every stretch without a dollar sign. -/
theorem names_append (h : '$' ∉ xs) (rest : List Char) : names (xs ++ rest) = names rest := by
  induction xs with
  | nil => rfl
  | cons c xs ih =>
    have hc : c ≠ '$' := fun hc => h (hc ▸ List.mem_cons_self)
    have none_here : name? (c :: (xs ++ rest)) = none := by
      unfold name?
      split
      · next heq => exact absurd (List.cons.inj heq).1 hc
      · rfl
    show (name? (c :: (xs ++ rest))).toList ++ names (xs ++ rest) = names rest
    rw [none_here, ih fun hxs => h (List.mem_cons_of_mem c hxs)]
    rfl

theorem names_mark (h : IsName name) (rest : List Char) :
    names (mark name ++ rest) = name :: names rest := by
  have inside : '$' ∉ '\x7b' :: (name ++ ['\x7d']) := by
    intro hd
    simp only [List.mem_cons, List.mem_append, List.not_mem_nil, or_false] at hd
    rcases hd with hd | hd | hd
    · exact absurd hd (by decide)
    · exact absurd (h.isName _ hd) (by decide)
    · exact absurd hd (by decide)
  have here := name?_mark h rest
  have split : mark name ++ rest = '$' :: ('\x7b' :: (name ++ ['\x7d']) ++ rest) := by
    simp [mark]
  rw [split] at here ⊢
  show (name? ('$' :: _)).toList ++ names _ = name :: names rest
  rw [here, names_append inside]
  rfl

theorem names_cons_of_not_mark {c : Char} (h : ∀ name, IsName name → ¬mark name <+: c :: rest) :
    names (c :: rest) = names rest := by
  show (name? (c :: rest)).toList ++ names rest = names rest
  rw [name?_eq_none_iff.mpr h]
  rfl

/-- Something in front of a text takes none of its names away. -/
theorem names_suffix : ∀ xs rest : List Char, names rest <:+ names (xs ++ rest)
  | [], _ => List.suffix_rfl
  | _ :: xs, rest => (names_suffix xs rest).trans (List.suffix_append _ _)

theorem count_names_le (name xs rest : List Char) :
    (names rest).count name ≤ (names (xs ++ rest)).count name :=
  (names_suffix xs rest).sublist.count_le name

/-! ### Replacing -/

theorem replaceFrom_length (old new xs rest : List Char) :
    replaceFrom old new xs.length (xs ++ rest) = replaceFrom old new 0 rest := by
  induction xs with
  | nil => rfl
  | cons c xs ih => exact ih

theorem replace_mark (name new rest : List Char) :
    replace (mark name) new (mark name ++ rest) = new ++ replace (mark name) new rest := by
  have found : (mark name).isPrefixOf (mark name ++ rest) = true :=
    List.isPrefixOf_iff_prefix.mpr (List.prefix_append _ _)
  have skipped := replaceFrom_length (mark name) new ('\x7b' :: (name ++ ['\x7d'])) rest
  show (if (mark name).isPrefixOf (mark name ++ rest) then _ else _) = _
  rw [if_pos found]
  exact congrArg (new ++ ·) skipped

/-- Where a name has no more occurrences than behind a stretch of the text, the stretch is left as
    it is. -/
theorem replace_append (hname : IsName name) (new rest : List Char) :
    ∀ xs : List Char, (names (xs ++ rest)).count name ≤ (names rest).count name →
      replace (mark name) new (xs ++ rest) = xs ++ replace (mark name) new rest
  | [], _ => rfl
  | c :: xs, few => by
    have count_here : (names (c :: (xs ++ rest))).count name =
        (name? (c :: (xs ++ rest))).toList.count name + (names (xs ++ rest)).count name :=
      List.count_append
    have behind := count_names_le name xs rest
    have few' : (names (c :: (xs ++ rest))).count name ≤ (names rest).count name := few
    -- An occurrence right here would be one more than there are behind the stretch.
    have absent : (mark name).isPrefixOf (c :: (xs ++ rest)) = false := by
      by_contra found
      rw [Bool.not_eq_false, List.isPrefixOf_iff_prefix] at found
      obtain ⟨tail, htail⟩ := found
      have here : name? (c :: (xs ++ rest)) = some name := by
        rw [← htail]
        exact name?_mark hname tail
      have one : (name? (c :: (xs ++ rest))).toList.count name = 1 := by
        rw [here]
        exact List.count_singleton_self
      omega
    show (if (mark name).isPrefixOf (c :: (xs ++ rest)) then _ else _) = _
    rw [absent, if_neg Bool.false_ne_true]
    exact congrArg (c :: ·) (replace_append hname new rest xs (by omega))

/-! ### All at once -/

/-- `Filled value text out`: `out` is `text` with a value where each of its variables stands.  What
    follows a variable is read on from the text, so no value is ever substituted again. -/
inductive Filled (value : List Char → List Char) : List Char → List Char → Prop
  | nil : Filled value [] []
  | put {name rest out : List Char} :
      IsName name → Filled value rest out → Filled value (mark name ++ rest) (value name ++ out)
  | keep {c : Char} {rest out : List Char} :
      (∀ name, IsName name → ¬mark name <+: c :: rest) → Filled value rest out →
        Filled value (c :: rest) (c :: out)

/-- Every text can be substituted. -/
theorem exists_filled (value : List Char → List Char) (text : List Char) :
    ∃ out, Filled value text out := by
  induction h : text.length using Nat.strong_induction_on generalizing text with
  | h n ih =>
    cases text with
    | nil => exact ⟨[], .nil⟩
    | cons c rest =>
      cases hn : name? (c :: rest) with
      | none =>
        obtain ⟨out, hout⟩ := ih rest.length (by simp at h; omega) rest rfl
        exact ⟨c :: out, .keep (name?_eq_none_iff.mp hn) hout⟩
      | some name =>
        obtain ⟨hname, behind, split⟩ := eq_mark_of_name? hn
        have shorter : behind.length < n := by
          have len := congrArg List.length split
          simp [mark] at len h
          omega
        obtain ⟨out, hout⟩ := ih behind.length shorter behind rfl
        exact ⟨value name ++ out, split ▸ .put hname hout⟩

namespace Filled

/-- Simultaneous substitution has one result. -/
theorem unique (h : Filled value text out) (h' : Filled value text out') : out = out' := by
  induction h generalizing out' with
  | nil =>
    generalize htext : ([] : List Char) = text at h'
    cases h' with
    | nil => rfl
    | put => simp [mark] at htext
    | keep => cases htext
  | @put name rest out hname _ ih =>
    generalize htext : mark name ++ rest = text at h'
    cases h' with
    | nil => simp [mark] at htext
    | @put name' rest' out' hname' h' =>
      -- Names end where their mark does, so no two of them start the same text.
      have same : name = name' := by
        have := name?_mark hname rest
        rw [htext, name?_mark hname'] at this
        exact (Option.some.inj this).symm
      subst same
      obtain rfl := List.append_cancel_left htext
      rw [ih h']
    | keep absent _ => exact absurd ⟨rest, htext⟩ (absent name hname)
  | @keep c rest out absent _ ih =>
    generalize htext : c :: rest = text at h'
    cases h' with
    | nil => cases htext
    | @put name' rest' out' hname' h' => exact absurd ⟨rest', htext.symm⟩ (absent name' hname')
    | keep _ h' =>
      obtain ⟨rfl, rfl⟩ := List.cons.inj htext
      rw [ih h']

/-- Values of names that a text does not have make no difference. -/
theorem congr {value' : List Char → List Char} (h : Filled value text out)
    (agree : ∀ name ∈ names text, value name = value' name) : Filled value' text out := by
  induction h with
  | nil => exact .nil
  | @put name rest out hname _ ih =>
    rw [names_mark hname] at agree
    rw [agree name List.mem_cons_self]
    exact .put hname (ih fun n hn => agree n (List.mem_cons_of_mem name hn))
  | @keep c rest out absent _ ih =>
    rw [names_cons_of_not_mark absent] at agree
    exact .keep absent (ih agree)

/-- A text whose variables stand for themselves stays what it is. -/
theorem eq_self (h : Filled mark text out) : out = text := by
  induction h with
  | nil => rfl
  | put _ _ ih => rw [ih]
  | keep _ _ ih => rw [ih]

theorem self (text : List Char) : Filled mark text text := by
  obtain ⟨out, h⟩ := exists_filled mark text
  have same : out = text := h.eq_self
  exact same ▸ h

end Filled

/-! ### One name after the other -/

/-- The names that had their turn stand for their values, all others for themselves. -/
def upTo (value : List Char → List Char) (done : List (List Char)) (name : List Char) : List Char :=
  if name ∈ done then value name else mark name

theorem upTo_of_mem (h : name ∈ done) : upTo value done name = value name := if_pos h

theorem upTo_of_not_mem (h : name ∉ done) : upTo value done name = mark name := if_neg h

theorem upTo_append_self : upTo value (done ++ [name]) name = value name :=
  upTo_of_mem (List.mem_append_right _ (List.mem_singleton_self name))

theorem upTo_append_of_ne (h : name' ≠ name) :
    upTo value (done ++ [name]) name' = upTo value done name' := by
  have same : name' ∈ done ++ [name] ↔ name' ∈ done := by
    rw [List.mem_append, List.mem_singleton, or_iff_left h]
  simp only [upTo, same]

theorem upTo_nil : upTo value [] = mark :=
  funext fun _ => upTo_of_not_mem List.not_mem_nil

namespace Filled

/-- A name whose turn is still to come keeps all its occurrences. -/
theorem count_le (h : Filled (upTo value done) text out) (later : name ∉ done) :
    (names text).count name ≤ (names out).count name := by
  induction h with
  | nil => exact le_rfl
  | @put name' rest out hname' _ ih =>
    rw [names_mark hname']
    by_cases same : name' = name
    · subst same
      rw [upTo_of_not_mem later, names_mark hname', List.count_cons_self, List.count_cons_self]
      omega
    · rw [List.count_cons_of_ne same]
      exact ih.trans (count_names_le name _ out)
  | @keep c rest out absent _ ih =>
    rw [names_cons_of_not_mark absent]
    exact ih.trans (count_names_le name [c] out)

/-- The first turn of a name that occurs nowhere but where it does in the text itself. -/
theorem replace_first (h : Filled (upTo value done) text out) (hname : IsName name)
    (first : name ∉ done) (few : (names out).count name ≤ (names text).count name) :
    Filled (upTo value (done ++ [name])) text (replace (mark name) (value name) out) := by
  induction h with
  | nil => exact .nil
  | @put name' rest out hname' h ih =>
    -- The occurrences in `out` are those of `rest` and no others, so none reaches into a value.
    rw [names_mark hname'] at few
    have kept := h.count_le first
    by_cases same : name' = name
    · subst same
      rw [upTo_of_not_mem first, names_mark hname', List.count_cons_self,
        List.count_cons_self] at few
      have filled := Filled.put hname' (ih (by omega))
      rw [upTo_append_self] at filled
      rwa [upTo_of_not_mem first, replace_mark]
    · rw [List.count_cons_of_ne same] at few
      have behind := count_names_le name (upTo value done name') out
      have filled := Filled.put hname' (ih (by omega))
      rw [upTo_append_of_ne same] at filled
      rwa [replace_append hname _ out _ (by omega)]
  | @keep c rest out absent h ih =>
    rw [names_cons_of_not_mark absent] at few
    have kept := h.count_le first
    have behind := count_names_le name [c] out
    have few' : (names ([c] ++ out)).count name ≤ (names rest).count name := few
    have step := replace_append hname (value name) out [c] (by omega)
    rw [List.singleton_append, List.singleton_append] at step
    rw [step]
    exact .keep absent (ih (by omega))

/-- The turn of a name over a text that had none before. -/
theorem replace_alone (hname : IsName name) (value : List Char → List Char) (text : List Char) :
    Filled (upTo value [name]) text (Template.replace (mark name) (value name) text) := by
  have untouched : Filled (upTo value []) text text := by
    rw [upTo_nil]
    exact .self text
  exact untouched.replace_first hname List.not_mem_nil le_rfl

/-- A further turn of a name that does not occur any more. -/
theorem replace_again (h : Filled (upTo value done) text out) (hname : IsName name)
    (again : name ∈ done) (gone : (names out).count name = 0) :
    Filled (upTo value (done ++ [name])) text (replace (mark name) (value name) out) := by
  -- The whole text is a stretch with nothing behind it.
  have same : replace (mark name) (value name) out = out := by
    have step := replace_append hname (value name) [] out (by rw [List.append_nil, gone]; omega)
    rwa [List.append_nil, show replace (mark name) (value name) [] = [] from rfl,
      List.append_nil] at step
  rw [same]
  refine h.congr fun name' _ => ?_
  by_cases hn : name' = name
  · subst hn
    rw [upTo_of_mem again, upTo_append_self]
  · exact (upTo_append_of_ne hn).symm

/-- The turn of a name. -/
theorem replace (h : Filled (upTo value done) text out) (hname : IsName name)
    (few : (names out).count name ≤ if name ∈ done then 0 else (names text).count name) :
    Filled (upTo value (done ++ [name])) text (Template.replace (mark name) (value name) out) := by
  by_cases again : name ∈ done
  · rw [if_pos again] at few
    exact h.replace_again hname again (Nat.le_zero.mp few)
  · rw [if_neg again] at few
    exact h.replace_first hname again few

end Filled

/-- A text with the names of a list replaced, one after the other. -/
def fillAll (value : List Char → List Char) (order : List (List Char)) (text : List Char) :
    List Char :=
  order.foldl (fun text name => replace (mark name) (value name) text) text

theorem fillList_eq : fillList value text = fillAll value (names text) text := rfl

/-- No name arises on the way: when the turn of a name comes, it occurs as often as in the text
    itself, and not at all if it had a turn before. -/
def Clear (value : List Char → List Char) (order : List (List Char)) (text : List Char) : Prop :=
  ∀ done name, done ++ [name] <+: order → ∀ out, Filled (upTo value done) text out →
    (names out).count name ≤ if name ∈ done then 0 else (names text).count name

/-- After the turns of some names, these are substituted at once. -/
theorem filled_upTo (known : ∀ name ∈ order, IsName name) (clear : Clear value order text) :
    Filled (upTo value order) text (fillAll value order text) := by
  induction order using List.reverseRecOn with
  | nil =>
    rw [upTo_nil]
    exact .self text
  | append_singleton done name ih =>
    have before := ih (fun n hn => known n (List.mem_append_left _ hn)) fun done' name' h =>
      clear done' name' (h.trans (List.prefix_append _ _))
    have few := clear done name List.prefix_rfl _ before
    have now := before.replace (known name (by simp)) few
    rwa [fillAll, List.foldl_append]

theorem fillAll_filled (known : ∀ name, name ∈ order ↔ name ∈ names text)
    (clear : Clear value order text) : Filled value text (fillAll value order text) := by
  have turns := filled_upTo (fun name h => isName_of_mem_names ((known name).mp h)) clear
  exact turns.congr fun name h => upTo_of_mem ((known name).mpr h)

/-! ### Where no name arises -/

/-- In a text with a single variable. -/
theorem clear_of_single (h : names text = [name]) : Clear value (names text) text := by
  intro done name' turns out filled
  rw [h] at turns
  have len := turns.length_le
  obtain rfl : done = [] := by
    rw [List.length_append, List.length_singleton, List.length_singleton] at len
    exact List.length_eq_zero_iff.mp (by omega)
  rw [if_neg List.not_mem_nil]
  rw [upTo_nil] at filled
  rw [filled.eq_self]

/-- Every dollar sign of the text is the start of a variable. -/
def Plain (text : List Char) : Prop :=
  ∀ rest ∈ text.tails, rest.head? = some '$' → (name? rest).isSome = true

instance : DecidablePred Plain := fun text =>
  inferInstanceAs (Decidable (∀ rest ∈ text.tails, rest.head? = some '$' → _))

theorem Plain.of_append (h : Plain (xs ++ rest)) : Plain rest := by
  intro tail htail
  have behind := (List.mem_tails _ _).mp htail
  exact h tail ((List.mem_tails _ _).mpr (behind.trans (List.suffix_append xs rest)))

/-- Values without a dollar sign bring in no name, nor does what stands around them. -/
theorem Filled.names_eq (h : Filled (upTo value done) text out) (plain : Plain text)
    (bare : ∀ name ∈ names text, '$' ∉ value name) :
    names out = (names text).filter (· ∉ done) := by
  induction h with
  | nil => rfl
  | @put name rest out hname _ ih =>
    rw [names_mark hname] at bare ⊢
    have behind := ih plain.of_append fun n hn => bare n (List.mem_cons_of_mem name hn)
    by_cases turn : name ∈ done
    · rw [upTo_of_mem turn, names_append (bare name List.mem_cons_self),
        List.filter_cons_of_neg (by simpa using turn)]
      exact behind
    · rw [upTo_of_not_mem turn, names_mark hname, List.filter_cons_of_pos (by simpa using turn),
        behind]
  | @keep c rest out absent _ ih =>
    rw [names_cons_of_not_mark absent] at bare ⊢
    -- A dollar sign that does not start a variable would not be plain.
    have hc : '$' ∉ [c] := by
      intro hd
      obtain rfl := List.mem_singleton.mp hd
      have some_here := plain ('$' :: rest) ((List.mem_tails _ _).mpr List.suffix_rfl) rfl
      rw [name?_eq_none_iff.mpr absent] at some_here
      cases some_here
    have plain' : Plain ([c] ++ rest) := plain
    exact (names_append hc out).trans (ih plain'.of_append bare)

/-- Where neither the values nor the text around the variables have a dollar sign, no name arises,
    whatever the order. -/
theorem clear_of_plain (plain : Plain text) (bare : ∀ name ∈ names text, '$' ∉ value name)
    (order : List (List Char)) : Clear value order text := by
  intro done name _ out filled
  rw [filled.names_eq plain bare]
  by_cases turn : name ∈ done
  · rw [if_pos turn, List.count_eq_zero_of_not_mem]
    intro h
    simpa [turn] using (List.mem_filter.mp h).2
  · rw [if_neg turn]
    exact List.filter_sublist.count_le name

/-! ### What filling in comes to -/

/-- What stands where a variable stood: its value, or nothing where it is not set. -/
def valueIn (value? : String → Option String) (name : List Char) : List Char :=
  ((value? (String.ofList name)).getD "").toList

/-- **Where no name arises between two turns, `fill` is the simultaneous substitution**, and so it
    is with the names replaced in any other order. -/
theorem fill_at_once (value? : String → Option String) (text : String)
    (clear : Clear (valueIn value?) (names text.toList) text.toList) :
    (∀ out, fill value? text = out ↔ Filled (valueIn value?) text.toList out.toList) ∧
      ∀ order, (∀ name, name ∈ order ↔ name ∈ names text.toList) →
        Clear (valueIn value?) order text.toList →
          String.ofList (fillAll (valueIn value?) order text.toList) = fill value? text := by
  have filled : Filled (valueIn value?) text.toList (fill value? text).toList := by
    have turns := fillAll_filled (fun _ => Iff.rfl) clear
    rwa [← fillList_eq, ← String.toList_ofList (l := fillList _ _)] at turns
  refine ⟨fun out => ⟨?_, fun h => ?_⟩, fun order known clear' => ?_⟩
  · rintro rfl
    exact filled
  · exact String.toList_inj.mp (filled.unique h)
  · rw [(fillAll_filled known clear').unique filled, String.ofList_toList]

/-- An address with its host twice, and a key that has no value. -/
theorem fill_at_once_address :
    let value? := Settings.lookUp [("HOST", "node"), ("PORT", "8545")]
    let text := "$\x7bHOST\x7d:$\x7bPORT\x7d/$\x7bHOST\x7d$\x7bKEY\x7d".toList
    Filled (valueIn value?) text "node:8545/node".toList ∧
      String.ofList (fillAll (valueIn value?) (names text).reverse text) = "node:8545/node" := by
  intro value? text
  have plain : Plain text := by decide
  have bare : ∀ name ∈ names text, '$' ∉ valueIn value? name := by decide
  have clear : ∀ order, Clear (valueIn value?) order text := clear_of_plain plain bare
  obtain ⟨first, others⟩ := fill_at_once value? (String.ofList text) (clear _)
  have filled : fill value? (String.ofList text) = "node:8545/node" := by decide
  exact ⟨(first _).mp filled, (others _ (fun _ => List.mem_reverse) (clear _)).trans filled⟩

/-- A value is substituted again where it has the mark of a name whose turn is still to come. -/
theorem fill_twice :
    Filled (valueIn (Settings.lookUp [("A", "$\x7bB\x7d"), ("B", "x")]))
        "$\x7bA\x7d$\x7bB\x7d".toList "$\x7bB\x7dx".toList ∧
      fill (Settings.lookUp [("A", "$\x7bB\x7d"), ("B", "x")]) "$\x7bA\x7d$\x7bB\x7d" = "xx" ∧
        ¬∀ value? text, Filled (valueIn value?) text.toList (fill value? text).toList := by
  have isA : IsName ['A'] := ⟨'A', [], rfl, by decide, by simp⟩
  have isB : IsName ['B'] := ⟨'B', [], rfl, by decide, by simp⟩
  have at_once : Filled (valueIn (Settings.lookUp [("A", "$\x7bB\x7d"), ("B", "x")]))
      (mark ['A'] ++ (mark ['B'] ++ [])) _ := .put isA (.put isB .nil)
  refine ⟨at_once, by decide, fun always => ?_⟩
  exact absurd (at_once.unique (always _ "$\x7bA\x7d$\x7bB\x7d")) (by decide)

end Relayer.Template
