import Mathlib.Data.List.Infix
import Mathlib.Tactic.ByContra
import Mathlib.Tactic.IntervalCases
import Relayer.Failure

namespace Relayer

/-!
# Phrases — how a node's text is classified, by the phrases in it

A node's text is lower-cased and searched for phrases.  Lower case looks at the surroundings of one
character only: a capital sigma at the end of a word has a form of its own.  No phrase has a sigma
in it, so this form makes no difference, and the search goes by the single characters.

* `Lowercase.inContext` — the lower-case form of a text that regards the ends of words;
* `Lowercase.infix_inContext_iff` — where a phrase without a sigma stands in it;
* `Lowercase.map_toLower` — the case of ASCII letters is lost;
* `Failure.kindOf` and `Failure.kind_ofNodeMessage` — the kind of the first group of phrases;
* `Failure.classified_by_content` — nothing but the phrases in a text decides its kind.
-/

namespace Lowercase

variable {phrase text : List Char}

/-! ### Sigma at the end of a word -/

/-- The characters that count as letters for the end of a word, and those that it looks past. -/
structure Classes where
  cased : Char → Bool
  ignorable : Char → Bool

/-- Whether a letter comes next in a text. -/
def Classes.meets (k : Classes) (text : List Char) : Bool :=
  (text.dropWhile k.ignorable).head?.any k.cased

/-- The form of a capital sigma: another one where a letter comes before it and none behind it.
    What is before it is given from the sigma on. -/
def Classes.sigma (k : Classes) (before after : List Char) : Char :=
  if k.meets before && !k.meets after then 'ς' else 'σ'

/-- The lower-case form of a text behind another one, which is given from its end on. -/
def inContext (k : Classes) (before : List Char) : List Char → List Char
  | [] => []
  | c :: rest =>
    (if c = 'Σ' then [k.sigma before rest] else lower c) ++ inContext k (c :: before) rest

/-- A character, but for the two forms of sigma. -/
def merged (c : Char) : Char := if c = 'ς' then 'σ' else c

/-- **The two lower-case forms of a text** differ in nothing but the forms of sigma. -/
theorem map_merged_inContext (k : Classes) (before text : List Char) :
    (inContext k before text).map merged = (map text).map merged := by
  induction text generalizing before with
  | nil => rfl
  | cons c rest ih =>
    have forms : (if c = 'Σ' then [k.sigma before rest] else lower c).map merged =
        (lower c).map merged := by
      by_cases capital : c = 'Σ'
      · have small : (lower 'Σ').map merged = ['σ'] := by decide +kernel
        rw [if_pos capital, capital, small, Classes.sigma]
        split <;> rfl
      · rw [if_neg capital]
    rw [inContext, map, List.flatMap_cons, List.map_append, List.map_append, forms, ih]
    rfl

/-- Where a phrase has no sigma in it, the forms of sigma in a text do not matter to it. -/
theorem infix_map_merged_iff (plain : ∀ c ∈ phrase, c ≠ 'σ' ∧ c ≠ 'ς') :
    phrase <:+: text.map merged ↔ phrase <:+: text := by
  have same : ∀ c, merged c ∈ phrase → merged c = c := by
    intro c here
    by_cases final : c = 'ς'
    · have small : merged c = 'σ' := if_pos final
      exact absurd small (plain _ here).1
    · exact if_neg final
  constructor
  · rintro ⟨before, after, split⟩
    obtain ⟨front, behind, rfl, front_eq, rfl⟩ := List.map_eq_append_iff.mp split.symm
    obtain ⟨a, middle, rfl, rfl, middle_eq⟩ := List.map_eq_append_iff.mp front_eq
    have kept : middle.map merged = middle := by
      refine (List.map_congr_left fun c here => ?_).trans (List.map_id middle)
      exact same c (middle_eq ▸ List.mem_map_of_mem here)
    rw [← middle_eq, kept]
    exact ⟨a, behind, rfl⟩
  · rintro ⟨before, after, rfl⟩
    have kept : phrase.map merged = phrase := by
      refine (List.map_congr_left fun c here => ?_).trans (List.map_id phrase)
      exact if_neg (plain c here).2
    exact ⟨before.map merged, after.map merged, by rw [List.map_append, List.map_append, kept]⟩

/-- **A phrase without a sigma** stands in either lower-case form of a text, or in none. -/
theorem infix_inContext_iff (plain : ∀ c ∈ phrase, c ≠ 'σ' ∧ c ≠ 'ς') (k : Classes)
    (text : List Char) : phrase <:+: inContext k [] text ↔ phrase <:+: map text := by
  rw [← infix_map_merged_iff plain, map_merged_inContext, infix_map_merged_iff plain]

/-! ### Plain letters -/

/-- An ASCII capital letter has the same lower-case form as its small one. -/
theorem lower_toLower (c : Char) : lower c.toLower = lower c := by
  by_cases capital : 65 ≤ c.toNat ∧ c.toNat ≤ 90
  · obtain ⟨first, last⟩ := capital
    have all : ∀ k : Fin 26, lower (Char.ofNat (65 + k)).toLower = lower (Char.ofNat (65 + k)) := by
      decide +kernel
    have this := all ⟨c.toNat - 65, by omega⟩
    rwa [Nat.add_sub_cancel' first, Char.ofNat_toNat] at this
  · have kept : c.toLower = c := dif_neg capital
    rw [kept]

/-- **The case of ASCII letters is lost.** -/
theorem map_toLower (text : String) : map text.toLower.toList = map text.toList := by
  show map (text.map Char.toLower).toList = map text.toList
  rw [String.toList_map, map, List.flatMap_map]
  exact List.flatMap_congr fun c _ => lower_toLower c

theorem map_append (text more : List Char) : map (text ++ more) = map text ++ map more :=
  List.flatMap_append

end Lowercase

namespace Failure

variable {lowered : List Char}

/-! ### Phrases in a text -/

/-- The search looks at every place of a text. -/
theorem occurs_iff {phrase text : List Char} : occurs phrase text = true ↔ phrase <:+: text := by
  induction text with
  | nil => rw [occurs, List.isEmpty_iff, List.infix_nil]
  | cons c rest ih =>
    rw [occurs, Bool.or_eq_true, List.isPrefixOf_iff_prefix, ih, List.infix_cons_iff]

/-- A phrase stands somewhere in a text. -/
def Contains (lowered : List Char) (phrase : String) : Prop := phrase.toList <:+: lowered

instance (lowered : List Char) (phrase : String) : Decidable (Contains lowered phrase) :=
  inferInstanceAs (Decidable (phrase.toList <:+: lowered))

/-- What stands in a text still does where it is a part of another one. -/
theorem Contains.within {phrase : String} (here : Contains lowered phrase)
    (before after : List Char) :
    Contains (before ++ lowered ++ after) phrase :=
  List.IsInfix.trans here ⟨before, after, rfl⟩

/-! ### The kind of a text -/

/-- **The first group with a phrase in the text decides.** -/
theorem ofNodeMessage_eq (text : String) {lowered : List Char}
    (form : Lowercase.map text.toList = lowered) :
    ofNodeMessage text =
      if Contains lowered "nonce too low" then nonceTooLow
      else if Contains lowered "underpriced" then underpriced
      else if Contains lowered "insufficient funds" ∨ Contains lowered "insufficient balance" then
        insufficientFunds
      else if Contains lowered "already known" ∨ Contains lowered "known transaction" then
        alreadyKnown
      else transientRpc text := by
  have found : ∀ phrase : String,
      occurs phrase.toList lowered = decide (Contains lowered phrase) := by
    intro phrase
    rw [Bool.eq_iff_iff, decide_eq_true_eq]
    exact occurs_iff
  simp only [ofNodeMessage, form, phrases, List.find?_cons, List.any_cons, List.any_nil,
    Bool.or_false, found, ← Bool.decide_or]
  by_cases low : Contains lowered "nonce too low"
  · simp only [low, decide_true, if_true]
  by_cases under : Contains lowered "underpriced"
  · simp only [low, under, decide_true, decide_false, if_true, if_false]
  by_cases funds : Contains lowered "insufficient funds" ∨ Contains lowered "insufficient balance"
  · simp only [low, under, funds, decide_true, decide_false, if_true, if_false]
  by_cases known : Contains lowered "already known" ∨ Contains lowered "known transaction"
  · simp only [low, under, funds, known, decide_true, decide_false, if_true, if_false]
  · simp only [low, under, funds, known, decide_false, if_false, List.find?_nil]

/-- The kind of failure of a lower-cased text.  The groups of phrases count in this order, and a
    text without any phrase is `transientRpc`. -/
def kindOf (lowered : List Char) : String :=
  if Contains lowered "nonce too low" then "nonce_too_low"
  else if Contains lowered "underpriced" then "underpriced"
  else if Contains lowered "insufficient funds" ∨ Contains lowered "insufficient balance" then
    "insufficient_funds"
  else if Contains lowered "already known" ∨ Contains lowered "known transaction" then
    "already_known"
  else "transient_rpc"

/-- The place of a kind in that order. -/
def place (kind : String) : Nat :=
  ["nonce_too_low", "underpriced", "insufficient_funds", "already_known", "transient_rpc"].idxOf
    kind

theorem kind_ofNodeMessage (text : String) :
    (ofNodeMessage text).kind = kindOf (Lowercase.map text.toList) := by
  rw [ofNodeMessage_eq text rfl, kindOf]
  split_ifs <;> rfl

/-- A text that is `transientRpc` is kept as it is. -/
theorem ofNodeMessage_of_transient {text : String}
    (passing : (ofNodeMessage text).kind = "transient_rpc") :
    ofNodeMessage text = transientRpc text := by
  rw [ofNodeMessage_eq text rfl] at passing ⊢
  split_ifs at passing ⊢ with low under funds known
  · exact absurd passing (by decide)
  · exact absurd passing (by decide)
  · exact absurd passing (by decide)
  · exact absurd passing (by decide)
  · rfl

/-- Whether a text has a phrase of the group at a place; behind the groups every text matches. -/
def Matches (lowered : List Char) : Nat → Prop
  | 0 => Contains lowered "nonce too low"
  | 1 => Contains lowered "underpriced"
  | 2 => Contains lowered "insufficient funds" ∨ Contains lowered "insufficient balance"
  | 3 => Contains lowered "already known" ∨ Contains lowered "known transaction"
  | _ => True

theorem Matches.within {i : Nat} (here : Matches lowered i) (before after : List Char) :
    Matches (before ++ lowered ++ after) i := by
  match i, here with
  | 0, low => exact Contains.within low before after
  | 1, under => exact Contains.within under before after
  | 2, funds => exact funds.imp (Contains.within · before after) (Contains.within · before after)
  | 3, known => exact known.imp (Contains.within · before after) (Contains.within · before after)
  | _ + 4, _ => trivial

/-- A text has a phrase at the place of its kind. -/
theorem matches_place (lowered : List Char) : Matches lowered (place (kindOf lowered)) := by
  rw [kindOf]
  split_ifs with low under funds known
  · exact low
  · exact under
  · exact funds
  · exact known
  · trivial

/-- It has none at the places before. -/
theorem not_matches_of_lt {i : Nat} (earlier : i < place (kindOf lowered)) :
    ¬ Matches lowered i := by
  rw [kindOf] at earlier
  split_ifs at earlier with low under funds known
  · exact absurd earlier (Nat.not_lt_zero i)
  · have earlier : i < 1 := earlier
    interval_cases i
    exact low
  · have earlier : i < 2 := earlier
    interval_cases i
    · exact low
    · exact under
  · have earlier : i < 3 := earlier
    interval_cases i
    · exact low
    · exact under
    · exact funds
  · have earlier : i < 4 := earlier
    interval_cases i
    · exact low
    · exact under
    · exact funds
    · exact known

/-- **What surrounds a text** can only add phrases, so it leaves the kind or gives an earlier
    one. -/
theorem place_kindOf_within (before lowered after : List Char) :
    place (kindOf (before ++ lowered ++ after)) ≤ place (kindOf lowered) := by
  by_contra later
  rw [Nat.not_le] at later
  exact not_matches_of_lt later ((matches_place lowered).within before after)

/-! ### What decides the kind -/

/-- No phrase has a sigma in it, so the ends of words do not matter. -/
theorem kindOf_inContext (k : Lowercase.Classes) (text : List Char) :
    kindOf (Lowercase.inContext k [] text) = kindOf (Lowercase.map text) := by
  have same : ∀ phrase : String, phrase.toList.all (fun c => c != 'σ' && c != 'ς') = true →
      (Contains (Lowercase.inContext k [] text) phrase ↔ Contains (Lowercase.map text) phrase) := by
    intro phrase plain
    refine Lowercase.infix_inContext_iff (fun c here => ?_) k text
    simpa using List.all_eq_true.mp plain c here
  simp only [kindOf, same "nonce too low" rfl, same "underpriced" rfl,
    same "insufficient funds" rfl, same "insufficient balance" rfl, same "already known" rfl,
    same "known transaction" rfl]

/-- **A node's text is classified by its content only.**  Its kind is that of the first group of
    phrases one of which stands anywhere in the lower-cased text, however lower case takes a sigma
    at the end of a word.  So the case of ASCII letters does not matter, what surrounds a text
    leaves its kind or gives an earlier one, and a text without a phrase is `transientRpc` with the
    text kept as it is. -/
theorem classified_by_content :
    (∀ k text, (ofNodeMessage text).kind = kindOf (Lowercase.inContext k [] text.toList)) ∧
    (∀ text text' : String, text.toLower = text'.toLower →
      (ofNodeMessage text).kind = (ofNodeMessage text').kind) ∧
    (∀ before text after, place (ofNodeMessage (before ++ text ++ after)).kind ≤
      place (ofNodeMessage text).kind) ∧
    (∀ text, (ofNodeMessage text).kind = "transient_rpc" →
      ofNodeMessage text = transientRpc text) := by
  refine ⟨?_, ?_, ?_, fun text => ofNodeMessage_of_transient⟩
  · intro k text
    rw [kind_ofNodeMessage, kindOf_inContext]
  · intro text text' same
    rw [kind_ofNodeMessage, kind_ofNodeMessage, ← Lowercase.map_toLower text, same,
      Lowercase.map_toLower]
  · intro before text after
    rw [kind_ofNodeMessage, kind_ofNodeMessage, String.toList_append, String.toList_append,
      Lowercase.map_append, Lowercase.map_append]
    exact place_kindOf_within _ _ _

/-- A rejection in capitals is one, wherever it stands, and a text without a phrase keeps its
    capitals. -/
theorem classified_by_content_shouted :
    "NONCE TOO LOW".toLower = "Nonce too low".toLower ∧
      (ofNodeMessage "NONCE TOO LOW").kind = (ofNodeMessage "Nonce too low").kind ∧
      place (ofNodeMessage ("err: " ++ "NONCE TOO LOW" ++ ", next 7")).kind ≤
        place (ofNodeMessage "NONCE TOO LOW").kind ∧
      (ofNodeMessage "EOF").kind = "transient_rpc" ∧ ofNodeMessage "EOF" = transientRpc "EOF" := by
  obtain ⟨-, cases, surroundings, passes⟩ := classified_by_content
  have same : "NONCE TOO LOW".toLower = "Nonce too low".toLower := by
    show "NONCE TOO LOW".map Char.toLower = "Nonce too low".map Char.toLower
    rw [← String.toList_inj, String.toList_map, String.toList_map]
    decide
  have form : Lowercase.map "EOF".toList = ['e', 'o', 'f'] := by
    rw [show "EOF".toList = ['E', 'O', 'F'] from rfl]
    decide +kernel
  have passing : (ofNodeMessage "EOF").kind = "transient_rpc" := by
    rw [kind_ofNodeMessage, form]
    decide
  refine ⟨same, cases "NONCE TOO LOW" "Nonce too low" same, ?_, passing, passes "EOF" passing⟩
  exact surroundings "err: " "NONCE TOO LOW" ", next 7"

end Failure

end Relayer
