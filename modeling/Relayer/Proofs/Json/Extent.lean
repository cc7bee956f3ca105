import Relayer.Proofs.Json.Scanning

namespace Relayer.Json

/-!
# Extent — how far a value reaches

A value takes the same characters off the front of a text whatever comes behind it, and never needs
more steps than it has characters.  So what `skip` passes over is settled by the value alone.

* `StartsValue` — the characters that a value starts with;
* `Takes` — what a reader takes, for any bound on its steps that the length allows;
* `valueFrom_takes` — values take in this sense;
* `skip_takes` — a value that is passed over.
-/

variable {α : Type} {c : Char} {text rest b : List Char} {care : Care} {depth : Nat}

/-! ### Values by their first character -/

section Kinds

variable (care : Care) (fuel depth : Nat) (rest : List Char)

@[simp] theorem valueFrom_zero (text : List Char) :
    valueFrom care 0 depth text = .error .malformed := by
  rw [valueFrom]

theorem valueFrom_skipBlanks (text : List Char) :
    valueFrom care fuel depth (skipBlanks text) = valueFrom care fuel depth text := by
  cases fuel with
  | zero => rw [valueFrom_zero, valueFrom_zero]
  | succ fuel => rw [valueFrom, valueFrom, skipBlanks_skipBlanks]

theorem valueFrom_null : valueFrom care (fuel + 1) depth ('n' :: rest) =
    (expectAll "ull".toList rest).map fun rest => (null, rest) := by
  rw [valueFrom]
  rfl

theorem valueFrom_true : valueFrom care (fuel + 1) depth ('t' :: rest) =
    (expectAll "rue".toList rest).map fun rest => (bool true, rest) := by
  rw [valueFrom]
  rfl

theorem valueFrom_false : valueFrom care (fuel + 1) depth ('f' :: rest) =
    (expectAll "alse".toList rest).map fun rest => (bool false, rest) := by
  rw [valueFrom]
  rfl

theorem valueFrom_string : valueFrom care (fuel + 1) depth ('"' :: rest) =
    (quoted (care == .strict) rest).map fun (s, rest) => (string (String.ofList s), rest) := by
  rw [valueFrom]
  rfl

theorem valueFrom_number (h : c = '-' ∨ c.isDigit) :
    valueFrom care (fuel + 1) depth (c :: rest) =
      match numeral (c :: rest) with
      | .ok (n, rest) =>
        if care == .strict && n.isHuge then .error .malformed else .ok (number n, rest)
      | .error p => .error p := by
  have other (d : Char) (no_digit : ¬(d = '-' ∨ d.isDigit)) : c ≠ d := by
    rintro rfl
    exact no_digit h
  have visible : ¬IsBlank c := by
    rintro (rfl | rfl | rfl | rfl) <;> exact absurd h (by decide)
  rw [valueFrom, skipBlanks_of_not_blank visible]
  dsimp only
  rw [if_neg (other 'n' (by decide)), if_neg (other 't' (by decide)),
    if_neg (other 'f' (by decide)), if_neg (other '"' (by decide))]
  exact if_pos h

theorem valueFrom_array_deep (deep : (care == .strict && depth ≤ 1) = true) :
    valueFrom care (fuel + 1) depth ('[' :: rest) = .error .malformed := by
  rw [valueFrom]
  exact if_pos deep

theorem valueFrom_object_deep (deep : (care == .strict && depth ≤ 1) = true) :
    valueFrom care (fuel + 1) depth ('\x7b' :: rest) = .error .malformed := by
  rw [valueFrom]
  exact if_pos deep

variable {rest} {tail : List Char} (room : ¬(care == .strict && depth ≤ 1) = true)

include room in
theorem valueFrom_array_nil (h : skipBlanks rest = ']' :: tail) :
    valueFrom care (fuel + 1) depth ('[' :: rest) = .ok (array [], tail) := by
  rw [valueFrom]
  show (if care == .strict && depth ≤ 1 then _ else _) = _
  rw [if_neg room, h]
  rfl

include room in
theorem valueFrom_array_cons (h : (skipBlanks rest).head? ≠ some ']') :
    valueFrom care (fuel + 1) depth ('[' :: rest) = (do
      let (item, rest) ← valueFrom care fuel (depth - 1) rest
      let (items, rest) ← itemsFrom care fuel (depth - 1) rest
      return (array (item :: items), rest)) := by
  rw [valueFrom, ← valueFrom_skipBlanks care fuel (depth - 1) rest]
  show (if care == .strict && depth ≤ 1 then _ else _) = _
  rw [if_neg room]
  split
  · next same => exact absurd (congrArg List.head? same) h
  · rfl

theorem memberFrom_skipBlanks (text : List Char) :
    memberFrom care fuel depth (skipBlanks text) = memberFrom care fuel depth text := by
  cases fuel with
  | zero => rw [memberFrom, memberFrom]
  | succ fuel => rw [memberFrom, memberFrom, skipBlanks_skipBlanks]

include room in
theorem valueFrom_object_nil (h : skipBlanks rest = '\x7d' :: tail) :
    valueFrom care (fuel + 1) depth ('\x7b' :: rest) = .ok (object [], tail) := by
  rw [valueFrom]
  show (if care == .strict && depth ≤ 1 then _ else _) = _
  rw [if_neg room, h]
  rfl

include room in
theorem valueFrom_object_cons (h : (skipBlanks rest).head? ≠ some '\x7d') :
    valueFrom care (fuel + 1) depth ('\x7b' :: rest) = (do
      let (m, rest) ← memberFrom care fuel (depth - 1) rest
      let (members, rest) ← membersFrom care fuel (depth - 1) rest
      return (object (m :: members), rest)) := by
  rw [valueFrom, ← memberFrom_skipBlanks care fuel (depth - 1) rest]
  show (if care == .strict && depth ≤ 1 then _ else _) = _
  rw [if_neg room]
  split
  · next same => exact absurd (congrArg List.head? same) h
  · rfl

end Kinds

/-- The characters that a value starts with. -/
def StartsValue (c : Char) : Prop :=
  c = 'n' ∨ c = 't' ∨ c = 'f' ∨ c = '"' ∨ (c = '-' ∨ c.isDigit) ∨ c = '[' ∨ c = '\x7b'

instance : DecidablePred StartsValue := fun c => by unfold StartsValue; infer_instance

theorem startsValue_of_valueFrom {fuel : Nat} {out : Json × List Char}
    (h : valueFrom care fuel depth text = .ok out) :
    ∃ c rest, skipBlanks text = c :: rest ∧ StartsValue c := by
  cases fuel with
  | zero =>
    rw [valueFrom_zero] at h
    cases h
  | succ fuel =>
    rw [valueFrom] at h
    cases first : skipBlanks text with
    | nil =>
      rw [first] at h
      cases h
    | cons c rest =>
      refine ⟨c, rest, rfl, ?_⟩
      by_contra other
      simp only [StartsValue, not_or] at other
      obtain ⟨n, t, f, quote, ⟨minus, digit⟩, bracket, brace⟩ := other
      rw [first] at h
      dsimp only at h
      rw [if_neg n, if_neg t, if_neg f, if_neg quote, if_neg (not_or.mpr ⟨minus, digit⟩),
        if_neg bracket, if_neg brace] at h
      cases h

/-- The reader takes a non-empty prefix off a text and leaves `rest`.  It takes the same prefix off
    any text `taken ++ behind` where `behind` is `rest` or `Ends` a number, given at least as much
    fuel as `taken` has characters. -/
def Takes (read : Nat → Reader α) (text : List Char) (a : α) (rest : List Char) : Prop :=
  ∃ taken, taken ≠ [] ∧ text = taken ++ rest ∧ ∀ fuel behind, taken.length ≤ fuel →
    Ends behind ∨ behind = rest → read fuel (taken ++ behind) = .ok (a, behind)

/-- `Takes` for a reader that stops at a closing mark: any text may stand behind it, and the prefix
    continues no number. -/
def TakesClosed (read : Nat → Reader α) (text : List Char) (a : α) (rest : List Char) : Prop :=
  ∃ taken, text = taken ++ rest ∧ (∀ behind, Ends (taken ++ behind)) ∧
    ∀ fuel behind, taken.length ≤ fuel → read fuel (taken ++ behind) = .ok (a, behind)

theorem Takes.blanks {j : Json} (blanks : Blank b)
    (h : Takes (valueFrom care · depth) text j rest) :
    Takes (valueFrom care · depth) (b ++ text) j rest := by
  obtain ⟨taken, some_char, rfl, again⟩ := h
  refine ⟨b ++ taken, List.append_ne_nil_of_right_ne_nil b some_char, by simp,
    fun fuel behind enough ends => ?_⟩
  rw [List.length_append] at enough
  show valueFrom care fuel depth (b ++ taken ++ behind) = _
  rw [← valueFrom_skipBlanks, List.append_assoc, skipBlanks_append blanks, valueFrom_skipBlanks]
  exact again fuel behind (by omega) ends

theorem takes_cons {j : Json} (taken : List Char)
    (h : ∀ fuel behind, taken.length ≤ fuel → Ends behind ∨ behind = rest →
      valueFrom care (fuel + 1) depth (c :: (taken ++ behind)) = .ok (j, behind)) :
    Takes (valueFrom care · depth) (c :: (taken ++ rest)) j rest := by
  refine ⟨c :: taken, List.cons_ne_nil _ _, rfl, fun fuel behind enough ends => ?_⟩
  rw [List.length_cons] at enough
  obtain ⟨fuel, rfl⟩ : ∃ k, fuel = k + 1 := ⟨fuel - 1, by omega⟩
  exact h fuel behind (Nat.le_of_succ_le_succ enough) ends

theorem takes_word {fuel : Nat} {word : List Char} {j k : Json}
    (kind : ∀ fuel tail, valueFrom care (fuel + 1) depth (c :: tail) =
      (expectAll word tail).map fun rest => (j, rest))
    (h : valueFrom care (fuel + 1) depth (c :: text) = .ok (k, rest)) :
    Takes (valueFrom care · depth) (c :: text) k rest := by
  rw [kind] at h
  obtain ⟨_, passed, same⟩ := map_eq_ok_iff.mp h
  obtain ⟨rfl, rfl⟩ := Prod.mk.inj same
  obtain rfl := expectAll_eq_ok_iff.mp passed
  refine takes_cons word fun fuel behind _ _ => ?_
  rw [kind, expectAll_eq_ok_iff.mpr rfl]
  rfl

theorem takes_string {fuel : Nat} {j : Json}
    (h : valueFrom care (fuel + 1) depth ('"' :: text) = .ok (j, rest)) :
    Takes (valueFrom care · depth) ('"' :: text) j rest := by
  rw [valueFrom_string] at h
  obtain ⟨⟨chars, _⟩, read, same⟩ := map_eq_ok_iff.mp h
  obtain ⟨rfl, rfl⟩ := Prod.mk.inj same
  obtain ⟨taken, _, rfl, again⟩ := quotedFrom_takes read
  refine takes_cons taken fun fuel behind _ _ => ?_
  rw [valueFrom_string, quoted, again]
  rfl

theorem takes_number {fuel : Nat} {j : Json} (digit : c = '-' ∨ c.isDigit)
    (h : valueFrom care (fuel + 1) depth (c :: text) = .ok (j, rest)) :
    Takes (valueFrom care · depth) (c :: text) j rest := by
  rw [valueFrom_number care fuel depth text digit] at h
  split at h
  · next n behind read =>
    split at h
    · cases h
    · next narrow =>
      obtain ⟨rfl, rfl⟩ := Prod.mk.inj (Except.ok.inj h)
      obtain ⟨taken, some_char, split, again⟩ := numeral_takes read
      obtain ⟨d, taken, rfl⟩ := List.exists_cons_of_ne_nil some_char
      obtain ⟨rfl, rfl⟩ := List.cons.inj split
      refine takes_cons taken fun fuel behind _ ends => ?_
      rw [valueFrom_number care fuel depth _ digit, ← List.cons_append, again behind ends]
      exact if_neg narrow
  · cases h

/-- A text at whose front a value is read does not start with a closing bracket. -/
theorem head?_ne_of_valueFrom {fuel : Nat} {out : Json × List Char}
    (h : valueFrom care fuel depth text = .ok out) (other : ¬StartsValue c) :
    (skipBlanks text).head? ≠ some c := by
  obtain ⟨d, rest, first, starts⟩ := startsValue_of_valueFrom h
  rw [first]
  rintro ⟨rfl⟩
  exact other starts

theorem head?_ne_of_memberFrom {fuel : Nat} {out : (String × Json) × List Char}
    (h : memberFrom care fuel depth text = .ok out) (other : c ≠ '"') :
    (skipBlanks text).head? ≠ some c := by
  cases fuel with
  | zero =>
    rw [memberFrom] at h
    cases h
  | succ fuel =>
    rw [memberFrom] at h
    obtain ⟨rest, opened, _⟩ := bind_eq_ok_iff.mp h
    rw [expect_eq_ok_iff.mp opened]
    rintro ⟨rfl⟩
    exact other rfl

/-! ### Lists of values -/

section Lists

variable {β : Type} {one : Nat → Reader β} {more : Nat → Reader (List β)} {mark opening : Char}
  {wrap : List β → Json}

/-- The rest of a list, up to its closing mark. -/
structure ReadsList (mark : Char) (one : Nat → Reader β) (more : Nat → Reader (List β)) : Prop where
  close : ∀ fuel {text rest : List Char}, skipBlanks text = mark :: rest →
    more (fuel + 1) text = .ok ([], rest)
  comma : ∀ fuel {text rest : List Char}, skipBlanks text = ',' :: rest →
    more (fuel + 1) text = (do
      let (item, rest) ← one fuel rest
      let (items, rest) ← more fuel rest
      return (item :: items, rest))
  cases : ∀ {fuel} {text : List Char} {out : List β × List Char}, more (fuel + 1) text = .ok out →
    ∃ c rest, skipBlanks text = c :: rest ∧ (c = mark ∨ c = ',')

theorem ReadsList.takes {fuel : Nat} {items : List β} (reads : ReadsList mark one more)
    (apart : continuesNumber mark = false)
    (ones : ∀ {text a rest}, one fuel text = .ok (a, rest) → Takes one text a rest)
    (others : ∀ {text items rest}, more fuel text = .ok (items, rest) →
      TakesClosed more text items rest)
    (h : more (fuel + 1) text = .ok (items, rest)) : TakesClosed more text items rest := by
  obtain ⟨c, tail, first, which⟩ := reads.cases h
  obtain ⟨b, blanks, rfl, again⟩ := exists_blank first
  -- Behind an item stands a comma or the closing mark, which `Ends` a number.
  have ends (behind : List Char) : Ends (b ++ c :: behind) := by
    refine blanks.ends (stops_cons ?_)
    obtain rfl | rfl := which
    · exact apart
    · decide
  have some_fuel {k n : Nat} (enough : b.length + (k + 1) ≤ n) : ∃ m, n = m + 1 ∧ k ≤ m :=
    ⟨n - 1, by omega, by omega⟩
  obtain rfl | rfl := which
  · rw [reads.close fuel first] at h
    obtain ⟨rfl, rfl⟩ := Prod.mk.inj (Except.ok.inj h)
    refine ⟨b ++ [c], by simp, fun behind => by simpa using ends behind,
      fun fuel behind enough => ?_⟩
    rw [List.length_append, List.length_cons] at enough
    obtain ⟨fuel, rfl, _⟩ := some_fuel enough
    rw [← List.append_cons, reads.close fuel (again behind)]
  · rw [reads.comma fuel first] at h
    obtain ⟨⟨item, text₁⟩, here, h⟩ := bind_eq_ok_iff.mp h
    obtain ⟨⟨rest_items, text₂⟩, there, h⟩ := bind_eq_ok_iff.mp h
    obtain ⟨rfl, rfl⟩ := Prod.mk.inj (Except.ok.inj h)
    obtain ⟨taken, _, rfl, here_again⟩ := ones here
    obtain ⟨last, rfl, last_ends, there_again⟩ := others there
    refine ⟨b ++ ',' :: (taken ++ last), by simp,
      fun behind => by simpa using ends (taken ++ last ++ behind), fun fuel behind enough => ?_⟩
    rw [List.length_append, List.length_cons, List.length_append] at enough
    obtain ⟨fuel, rfl, enough⟩ := some_fuel enough
    rw [List.append_assoc, List.cons_append, List.append_assoc, reads.comma fuel (again _)]
    exact bind_eq_ok_iff.mpr ⟨_, here_again fuel _ (by omega) (.inl (last_ends behind)),
      bind_eq_ok_iff.mpr ⟨_, there_again fuel behind (by omega), rfl⟩⟩

theorem takes_bracketed {fuel : Nat} {j : Json}
    (empty : ∀ fuel {rest tail : List Char}, skipBlanks rest = mark :: tail →
      valueFrom care (fuel + 1) depth (opening :: rest) = .ok (wrap [], tail))
    (full : ∀ fuel {rest : List Char}, (skipBlanks rest).head? ≠ some mark →
      valueFrom care (fuel + 1) depth (opening :: rest) = (do
        let (item, rest) ← one fuel rest
        let (items, rest) ← more fuel rest
        return (wrap (item :: items), rest)))
    (starts : ∀ {fuel text out}, one fuel text = .ok out → (skipBlanks text).head? ≠ some mark)
    (ones : ∀ {text a rest}, one fuel text = .ok (a, rest) → Takes one text a rest)
    (others : ∀ {text items rest}, more fuel text = .ok (items, rest) →
      TakesClosed more text items rest)
    (h : valueFrom care (fuel + 1) depth (opening :: text) = .ok (j, rest)) :
    Takes (valueFrom care · depth) (opening :: text) j rest := by
  by_cases none : (skipBlanks text).head? = some mark
  · obtain ⟨tail, first⟩ := List.head?_eq_some_iff.mp none
    rw [empty fuel first] at h
    obtain ⟨rfl, rfl⟩ := Prod.mk.inj (Except.ok.inj h)
    obtain ⟨b, _, rfl, again⟩ := exists_blank first
    rw [List.append_cons]
    exact takes_cons (b ++ [mark]) fun fuel behind _ _ =>
      empty fuel (by rw [← List.append_cons, again])
  · rw [full fuel none] at h
    obtain ⟨⟨item, text₁⟩, here, h⟩ := bind_eq_ok_iff.mp h
    obtain ⟨⟨items, text₂⟩, there, h⟩ := bind_eq_ok_iff.mp h
    obtain ⟨rfl, rfl⟩ := Prod.mk.inj (Except.ok.inj h)
    obtain ⟨taken, _, rfl, here_again⟩ := ones here
    obtain ⟨last, rfl, ends, there_again⟩ := others there
    rw [← List.append_assoc]
    refine takes_cons (taken ++ last) fun fuel behind enough _ => ?_
    rw [List.length_append] at enough
    have here_too := here_again fuel (last ++ behind) (by omega) (.inl (ends behind))
    -- The list is still not empty, for an item starts with no closing mark.
    rw [List.append_assoc, full fuel (starts here_too)]
    exact bind_eq_ok_iff.mpr ⟨_, here_too, bind_eq_ok_iff.mpr
      ⟨_, there_again fuel behind (by omega), rfl⟩⟩

end Lists

theorem readsList_items : ReadsList ']' (valueFrom care · depth) (itemsFrom care · depth) where
  close fuel _ _ h := by
    rw [itemsFrom, h]
    rfl
  comma fuel _ _ h := by
    rw [itemsFrom, h]
    rfl
  cases h := by
    rw [itemsFrom] at h
    split at h
    · next first => exact ⟨_, _, first, .inl rfl⟩
    · next first => exact ⟨_, _, first, .inr rfl⟩
    · cases h

theorem readsList_members :
    ReadsList '\x7d' (memberFrom care · depth) (membersFrom care · depth) where
  close fuel _ _ h := by
    rw [membersFrom, h]
    rfl
  comma fuel _ _ h := by
    rw [membersFrom, h]
    rfl
  cases h := by
    rw [membersFrom] at h
    split at h
    · next first => exact ⟨_, _, first, .inl rfl⟩
    · next first => exact ⟨_, _, first, .inr rfl⟩
    · cases h

theorem memberFrom_takes_step {fuel : Nat} {m : String × Json}
    (values : ∀ {text j rest}, valueFrom care fuel depth text = .ok (j, rest) →
      Takes (valueFrom care · depth) text j rest)
    (h : memberFrom care (fuel + 1) depth text = .ok (m, rest)) :
    Takes (memberFrom care · depth) text m rest := by
  rw [memberFrom] at h
  obtain ⟨_, opened, h⟩ := bind_eq_ok_iff.mp h
  obtain ⟨⟨name, _⟩, named, h⟩ := bind_eq_ok_iff.mp h
  obtain ⟨_, parted, h⟩ := bind_eq_ok_iff.mp h
  obtain ⟨⟨j, _⟩, read, h⟩ := bind_eq_ok_iff.mp h
  obtain ⟨rfl, rfl⟩ := Prod.mk.inj (Except.ok.inj h)
  obtain ⟨before, _, rfl, before_again⟩ := exists_blank (expect_eq_ok_iff.mp opened)
  obtain ⟨spelled, _, rfl, spelled_again⟩ := quotedFrom_takes named
  obtain ⟨between, _, rfl, between_again⟩ := exists_blank (expect_eq_ok_iff.mp parted)
  obtain ⟨taken, _, rfl, again⟩ := values read
  refine ⟨before ++ '"' :: (spelled ++ (between ++ ':' :: taken)), by simp, by simp,
    fun fuel behind enough ends => ?_⟩
  simp only [List.length_append, List.length_cons] at enough
  obtain ⟨fuel, rfl⟩ : ∃ k, fuel = k + 1 := ⟨fuel - 1, by omega⟩
  simp only [List.append_assoc, List.cons_append]
  rw [memberFrom, before_again]
  refine bind_eq_ok_iff.mpr ⟨_, expect_eq_ok_iff.mpr rfl, bind_eq_ok_iff.mpr
    ⟨_, spelled_again _, bind_eq_ok_iff.mpr ⟨_, ?_, bind_eq_ok_iff.mpr
      ⟨_, again fuel behind (by omega) ends, rfl⟩⟩⟩⟩
  rw [between_again]
  exact expect_eq_ok_iff.mpr rfl

mutual

theorem valueFrom_takes : ∀ (fuel : Nat) {depth : Nat} {text rest : List Char} {j : Json},
    valueFrom care fuel depth text = .ok (j, rest) → Takes (valueFrom care · depth) text j rest
  | 0, _, _, _, _, h => by
    rw [valueFrom_zero] at h
    cases h
  | fuel + 1, depth, text, rest, j, h => by
    obtain ⟨c, tail, first, starts⟩ := startsValue_of_valueFrom h
    obtain ⟨b, blanks, rfl, _⟩ := exists_blank first
    rw [← valueFrom_skipBlanks, first] at h
    -- By the first character: a word, a string, a number, an array or an object.
    refine Takes.blanks blanks ?_
    obtain rfl | rfl | rfl | rfl | digit | rfl | rfl := starts
    · exact takes_word (valueFrom_null care · depth) h
    · exact takes_word (valueFrom_true care · depth) h
    · exact takes_word (valueFrom_false care · depth) h
    · exact takes_string h
    · exact takes_number digit h
    · by_cases room : (care == .strict && depth ≤ 1) = true
      · rw [valueFrom_array_deep care fuel depth tail room] at h
        cases h
      · exact takes_bracketed (valueFrom_array_nil care · depth room)
          (valueFrom_array_cons care · depth room)
          (fun read => head?_ne_of_valueFrom read (by decide))
          (valueFrom_takes fuel) (itemsFrom_takes fuel) h
    · by_cases room : (care == .strict && depth ≤ 1) = true
      · rw [valueFrom_object_deep care fuel depth tail room] at h
        cases h
      · exact takes_bracketed (valueFrom_object_nil care · depth room)
          (valueFrom_object_cons care · depth room)
          (fun read => head?_ne_of_memberFrom read (by decide))
          (memberFrom_takes fuel) (membersFrom_takes fuel) h

theorem itemsFrom_takes : ∀ (fuel : Nat) {depth : Nat} {text rest : List Char} {items : List Json},
    itemsFrom care fuel depth text = .ok (items, rest) →
      TakesClosed (itemsFrom care · depth) text items rest
  | 0, _, _, _, _, h => by
    rw [itemsFrom] at h
    cases h
  | fuel + 1, _, _, _, _, h =>
    readsList_items.takes (by decide) (valueFrom_takes fuel) (itemsFrom_takes fuel) h

theorem memberFrom_takes : ∀ (fuel : Nat) {depth : Nat} {text rest : List Char} {m : String × Json},
    memberFrom care fuel depth text = .ok (m, rest) → Takes (memberFrom care · depth) text m rest
  | 0, _, _, _, _, h => by
    rw [memberFrom] at h
    cases h
  | fuel + 1, _, _, _, _, h => memberFrom_takes_step (valueFrom_takes fuel) h

theorem membersFrom_takes : ∀ (fuel : Nat) {depth : Nat} {text rest : List Char}
    {members : List (String × Json)}, membersFrom care fuel depth text = .ok (members, rest) →
      TakesClosed (membersFrom care · depth) text members rest
  | 0, _, _, _, _, h => by
    rw [membersFrom] at h
    cases h
  | fuel + 1, _, _, _, _, h =>
    readsList_members.takes (by decide) (memberFrom_takes fuel) (membersFrom_takes fuel) h

end

/-! ### Values passed over -/

theorem skip_eq_ok_iff :
    skip text = .ok rest ↔
      ∃ j, valueFrom .extent (2 * text.length + 2) 0 text = .ok (j, rest) := by
  rw [skip, map_eq_ok_iff]
  constructor
  · rintro ⟨⟨j, _⟩, read, rfl⟩
    exact ⟨j, read⟩
  · rintro ⟨j, read⟩
    exact ⟨_, read, rfl⟩

/-- The extent of a value, as `skip` finds it, does not depend on the text behind it. -/
theorem skip_takes (h : skip text = .ok rest) :
    ∃ taken, taken ≠ [] ∧ text = taken ++ rest ∧ ∀ behind, Ends behind →
      skip (taken ++ behind) = .ok behind := by
  obtain ⟨j, read⟩ := skip_eq_ok_iff.mp h
  obtain ⟨taken, some_char, rfl, again⟩ := valueFrom_takes _ read
  refine ⟨taken, some_char, rfl, fun behind ends => skip_eq_ok_iff.mpr ⟨j, ?_⟩⟩
  exact again _ behind (by rw [List.length_append]; omega) (.inl ends)

/-- `skip` passes over what `valueFrom` takes, with any sufficient fuel. -/
theorem skip_of_valueFrom (fuel : Nat) {j : Json}
    (h : valueFrom .extent fuel 0 (skipBlanks text) = .ok (j, rest)) : skip text = .ok rest := by
  obtain ⟨taken, _, split, again⟩ := valueFrom_takes fuel h
  obtain ⟨b, _, behind, _⟩ := skipBlanks_spec text
  refine skip_eq_ok_iff.mpr ⟨j, ?_⟩
  rw [← valueFrom_skipBlanks, split]
  refine again _ rest ?_ (.inr rfl)
  rw [behind, split]
  simp only [List.length_append]
  omega

end Relayer.Json
