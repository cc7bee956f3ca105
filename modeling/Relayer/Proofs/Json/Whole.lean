import Relayer.Proofs.Json.Extent

namespace Relayer.Json

/-!
# Whole — values and the texts that hold one

A reader of one value takes what `skip` passes over, neither more nor less.  So it makes of a value
before other text what it makes of the value alone, and texts can be put together from values.

* `whole` — what a reader makes of a whole text;
* `IsValue` — texts that are one value;
* `Steady` — readers of one value, as `steady_readAs`, `steady_readWord` and `Steady.nullable` say;
* `Steady.toOption_append` — values before other text.
-/

variable {α β : Type} {text rest behind trail taken : List Char} {read : Reader α}

/-! ### Whole texts -/

theorem finished_eq_ok_iff : finished text = .ok () ↔ Blank text := by
  rw [finished, Blank]
  cases skipBlanks text <;> simp

/-- The result of a reader on a text that it takes to the end, up to blanks. -/
def whole (read : Reader α) (text : List Char) : Option α :=
  (parseAs read (String.ofList text)).toOption

theorem toOption_eq_some_iff {x : Except Problem α} {a : α} : x.toOption = some a ↔ x = .ok a := by
  cases x <;> simp [Except.toOption]

theorem parseAs_eq_ok_iff {s : String} {a : α} :
    parseAs read s = .ok a ↔ ∃ rest, read s.toList = .ok (a, rest) ∧ Blank rest := by
  rw [parseAs, bind_eq_ok_iff]
  constructor
  · rintro ⟨⟨_, rest⟩, here, last⟩
    obtain ⟨⟨⟩, blank, same⟩ := bind_eq_ok_iff.mp last
    obtain rfl := Except.ok.inj same
    exact ⟨rest, here, finished_eq_ok_iff.mp blank⟩
  · rintro ⟨rest, here, blank⟩
    exact ⟨_, here, bind_eq_ok_iff.mpr ⟨_, finished_eq_ok_iff.mpr blank, rfl⟩⟩

theorem whole_eq_some_iff {a : α} :
    whole read text = some a ↔ ∃ rest, read text = .ok (a, rest) ∧ Blank rest := by
  rw [whole, toOption_eq_some_iff, parseAs_eq_ok_iff, String.toList_ofList]

/-- A text that is one value, perhaps between blanks. -/
def IsValue (text : List Char) : Prop := ∃ rest, skip text = .ok rest ∧ Blank rest

/-! ### Readers of one value -/

theorem ends_nil : Ends [] := fun _ first => by cases first

/-- A reader of one value: leading blanks make no difference, it takes exactly what `skip` passes
    over, and the text behind that makes no difference. -/
structure Steady (read : Reader α) : Prop where
  blanks : ∀ text, read (skipBlanks text) = read text
  takes : ∀ {text a rest}, read text = .ok (a, rest) →
    ∃ taken, text = taken ++ rest ∧ ∀ behind, Ends behind → read (taken ++ behind) = .ok (a, behind)
  skips : ∀ {text a rest}, read text = .ok (a, rest) → skip text = .ok rest

theorem Steady.again {a : α} (steady : Steady read) (h : read (taken ++ rest) = .ok (a, rest))
    (ends : Ends behind) : read (taken ++ behind) = .ok (a, behind) := by
  obtain ⟨others, same, again⟩ := steady.takes h
  rw [List.append_cancel_right same]
  exact again behind ends

/-- The first character taken is one that `StartsValue`. -/
theorem Steady.first {a : α} (steady : Steady read) (h : read (taken ++ rest) = .ok (a, rest)) :
    ∃ c, StartsValue c ∧ ∀ behind, (skipBlanks (taken ++ behind)).head? = some c := by
  obtain ⟨j, here⟩ := skip_eq_ok_iff.mp (steady.skips (steady.again h ends_nil))
  obtain ⟨c, tail, first, starts⟩ := startsValue_of_valueFrom here
  obtain ⟨b, _, split, again⟩ := exists_blank first
  rw [List.append_nil] at split
  refine ⟨c, starts, fun behind => ?_⟩
  rw [split, List.append_assoc, List.cons_append, again]
  rfl

theorem Steady.starts {out : α × List Char} (steady : Steady read) (h : read text = .ok out) :
    ∃ c tail, skipBlanks text = c :: tail ∧ StartsValue c := by
  obtain ⟨j, here⟩ := skip_eq_ok_iff.mp (steady.skips h)
  exact startsValue_of_valueFrom here

theorem Steady.isValue {a : α} (steady : Steady read) (h : whole read text = some a) :
    IsValue text := by
  obtain ⟨rest, here, blank⟩ := whole_eq_some_iff.mp h
  exact ⟨rest, steady.skips here, blank⟩

/-- A reader of a value before other text has the result that it has on the value alone. -/
theorem Steady.toOption_append (steady : Steady read) (value : skip text = .ok trail)
    (blank : Blank trail) (ends : Ends behind) :
    (read (text ++ behind)).toOption = (whole read text).map (·, trail ++ behind) := by
  obtain ⟨core, _, rfl, passed⟩ := skip_takes value
  have trail_ends : Ends trail := by simpa using blank.ends ends_nil
  have behind_ends : Ends (trail ++ behind) := blank.ends ends
  cases found : read (core ++ trail ++ behind) with
  | ok out =>
    obtain ⟨a, rest⟩ := out
    -- The reader ends where the value ends, so what it read is the value.
    have passed_too := steady.skips found
    rw [List.append_assoc, passed _ behind_ends] at passed_too
    obtain rfl := Except.ok.inj passed_too
    rw [List.append_assoc] at found
    rw [whole_eq_some_iff.mpr ⟨trail, steady.again found trail_ends, blank⟩]
    rfl
  | error p =>
    cases made : whole read (core ++ trail) with
    | none => rfl
    | some a =>
      -- What is read from the value alone would be read here too.
      obtain ⟨rest, here, _⟩ := whole_eq_some_iff.mp made
      obtain rfl := Except.ok.inj ((passed trail trail_ends).symm.trans (steady.skips here))
      have everywhere := steady.again here behind_ends
      rw [← List.append_assoc, found] at everywhere
      cases everywhere

theorem readString_eq_ok_iff {s : String} :
    readString text = .ok (s, rest) ↔ ∃ tail chars, skipBlanks text = '"' :: tail ∧
      quoted true tail = .ok (chars, rest) ∧ String.ofList chars = s := by
  rw [readString]
  constructor
  · intro h
    split at h
    · next tail first =>
      obtain ⟨⟨chars, _⟩, found, same⟩ := map_eq_ok_iff.mp h
      obtain ⟨rfl, rfl⟩ := Prod.mk.inj same
      exact ⟨tail, chars, first, found, rfl⟩
    · cases h
  · rintro ⟨tail, chars, first, found, rfl⟩
    rw [first]
    exact map_eq_ok_iff.mpr ⟨_, found, rfl⟩

theorem steady_readString : Steady readString where
  blanks text := by rw [readString, readString, skipBlanks_skipBlanks]
  takes h := by
    obtain ⟨tail, chars, first, found, rfl⟩ := readString_eq_ok_iff.mp h
    obtain ⟨b, _, rfl, again⟩ := exists_blank first
    obtain ⟨taken, _, rfl, found_again⟩ := quotedFrom_takes found
    refine ⟨b ++ '"' :: taken, by simp, fun behind _ => readString_eq_ok_iff.mpr
      ⟨taken ++ behind, chars, ?_, found_again behind, rfl⟩⟩
    rw [List.append_assoc, List.cons_append, again]
  skips h := by
    obtain ⟨tail, chars, first, found, rfl⟩ := readString_eq_ok_iff.mp h
    obtain ⟨others, careless⟩ := quotedFrom_careless .plain [] found
    refine skip_of_valueFrom 1 (j := string (String.ofList others)) ?_
    rw [first, valueFrom_string]
    exact map_eq_ok_iff.mpr ⟨_, careless, rfl⟩

theorem readNumeral_eq_ok_iff {n : Numeral} :
    readNumeral text = .ok (n, rest) ↔ ∃ c tail, skipBlanks text = c :: tail ∧
      (c = '-' ∨ c.isDigit) ∧ numeral (c :: tail) = .ok (n, rest) ∧ n.isHuge = false := by
  rw [readNumeral]
  constructor
  · intro h
    split at h
    · next c tail first =>
      split at h
      · next digit =>
        split at h
        · next n rest found =>
          split at h
          · cases h
          · next narrow =>
            obtain ⟨rfl, rfl⟩ := Prod.mk.inj (Except.ok.inj h)
            exact ⟨c, tail, first, digit, found, by simpa using narrow⟩
        · cases h
      · cases h
    · cases h
  · rintro ⟨c, tail, first, digit, found, narrow⟩
    rw [first]
    dsimp only
    rw [if_pos digit, found]
    exact if_neg (by simp [narrow])

theorem steady_readNumeral : Steady readNumeral where
  blanks text := by rw [readNumeral, readNumeral, skipBlanks_skipBlanks]
  takes h := by
    obtain ⟨c, tail, first, digit, found, narrow⟩ := readNumeral_eq_ok_iff.mp h
    obtain ⟨b, _, rfl, again⟩ := exists_blank first
    obtain ⟨taken, some_char, split, found_again⟩ := numeral_takes found
    obtain ⟨d, taken, rfl⟩ := List.exists_cons_of_ne_nil some_char
    obtain ⟨rfl, rfl⟩ := List.cons.inj split
    refine ⟨b ++ c :: taken, by simp, fun behind ends => readNumeral_eq_ok_iff.mpr
      ⟨c, taken ++ behind, ?_, digit, found_again behind (.inl ends), narrow⟩⟩
    rw [List.append_assoc, List.cons_append, again]
  skips {text n rest} h := by
    obtain ⟨c, tail, first, digit, found, _⟩ := readNumeral_eq_ok_iff.mp h
    refine skip_of_valueFrom 1 (j := number n) ?_
    rw [first, valueFrom_number _ _ _ _ digit, found]
    rfl

/-- A reader followed by a check of its result is steady. -/
theorem Steady.refine {read' : Reader β} {holds : α → β → Prop} (steady : Steady read)
    (blanks : ∀ text, read' (skipBlanks text) = read' text)
    (h : ∀ {text b rest}, read' text = .ok (b, rest) ↔ ∃ a, read text = .ok (a, rest) ∧ holds a b) :
    Steady read' where
  blanks := blanks
  takes found := by
    obtain ⟨a, found, fits⟩ := h.mp found
    obtain ⟨taken, split, again⟩ := steady.takes found
    exact ⟨taken, split, fun behind ends => h.mpr ⟨a, again behind ends, fits⟩⟩
  skips found := by
    obtain ⟨a, found, _⟩ := h.mp found
    exact steady.skips found

theorem readAs_eq_ok_iff {f : String → Option α} {a : α} :
    readAs f text = .ok (a, rest) ↔ ∃ s, readString text = .ok (s, rest) ∧ f s = some a := by
  rw [readAs, bind_eq_ok_iff]
  constructor
  · rintro ⟨⟨s, rest⟩, found, h⟩
    dsimp only at h
    split at h
    · next fits =>
      obtain ⟨rfl, rfl⟩ := Prod.mk.inj (Except.ok.inj h)
      exact ⟨s, found, fits⟩
    · cases h
  · rintro ⟨s, found, fits⟩
    refine ⟨_, found, ?_⟩
    dsimp only
    rw [fits]

theorem steady_readAs (f : String → Option α) : Steady (readAs f) :=
  steady_readString.refine (fun text => by rw [readAs, readAs, steady_readString.blanks])
    readAs_eq_ok_iff

/-- The result of `readAs` on a whole text depends only on the string that the text denotes. -/
theorem whole_readAs {s : String} (h : readString text = .ok (s, rest)) (blank : Blank rest)
    (f : String → Option α) : whole (readAs f) text = f s := by
  cases made : f s with
  | some a => exact whole_eq_some_iff.mpr ⟨rest, readAs_eq_ok_iff.mpr ⟨s, h, made⟩, blank⟩
  | none =>
    rw [Option.eq_none_iff_forall_not_mem]
    intro a found
    obtain ⟨_, here, _⟩ := whole_eq_some_iff.mp found
    obtain ⟨other, found, fits⟩ := readAs_eq_ok_iff.mp here
    obtain ⟨rfl, _⟩ := Prod.mk.inj (Except.ok.inj (h.symm.trans found))
    cases made.symm.trans fits

theorem readWord_eq_ok_iff {w : UInt64} :
    readWord text = .ok (w, rest) ↔ ∃ n, readNumeral text = .ok (n, rest) ∧
      ∃ k, n.toNat? = some k ∧ k < UInt64.size ∧ UInt64.ofNat k = w := by
  rw [readWord, bind_eq_ok_iff]
  constructor
  · rintro ⟨⟨n, rest⟩, found, h⟩
    dsimp only at h
    split at h
    · next k value =>
      split at h
      · next held =>
        obtain ⟨rfl, rfl⟩ := Prod.mk.inj (Except.ok.inj h)
        exact ⟨n, found, k, value, held, rfl⟩
      · cases h
    · cases h
  · rintro ⟨n, found, k, value, held, rfl⟩
    refine ⟨_, found, ?_⟩
    dsimp only
    rw [value]
    exact if_pos held

theorem steady_readWord : Steady readWord :=
  steady_readNumeral.refine (fun text => by rw [readWord, readWord, steady_readNumeral.blanks])
    readWord_eq_ok_iff

theorem readNullable_null (h : skipBlanks text = 'n' :: rest) :
    readNullable read text = (expectAll "ull".toList rest).map fun rest => (none, rest) := by
  rw [readNullable, h]
  rfl

theorem readNullable_some (h : (skipBlanks text).head? ≠ some 'n')
    (blanks : ∀ text, read (skipBlanks text) = read text) :
    readNullable read text = (read text).map fun (a, rest) => (some a, rest) := by
  rw [readNullable]
  split
  · next first => exact absurd (congrArg List.head? first) h
  · rw [blanks]

theorem Steady.nullable (steady : Steady read) : Steady (readNullable read) where
  blanks text := by rw [readNullable, readNullable, skipBlanks_skipBlanks]
  takes {text a rest} h := by
    by_cases null : (skipBlanks text).head? = some 'n'
    · obtain ⟨tail, first⟩ := List.head?_eq_some_iff.mp null
      rw [readNullable_null first] at h
      obtain ⟨_, passed, same⟩ := map_eq_ok_iff.mp h
      obtain ⟨rfl, rfl⟩ := Prod.mk.inj same
      obtain rfl := expectAll_eq_ok_iff.mp passed
      -- `null` is taken, with the blanks before it.
      obtain ⟨b, _, rfl, again⟩ := exists_blank first
      refine ⟨b ++ 'n' :: "ull".toList, by simp, fun behind _ => ?_⟩
      rw [List.append_assoc, List.cons_append, readNullable_null (again _),
        expectAll_eq_ok_iff.mpr rfl]
      rfl
    · rw [readNullable_some null steady.blanks] at h
      obtain ⟨⟨a, _⟩, found, same⟩ := map_eq_ok_iff.mp h
      obtain ⟨rfl, rfl⟩ := Prod.mk.inj same
      obtain ⟨taken, rfl, again⟩ := steady.takes found
      obtain ⟨c, _, first⟩ := steady.first found
      rw [first] at null
      refine ⟨taken, rfl, fun behind ends => ?_⟩
      rw [readNullable_some (by rw [first]; exact null) steady.blanks, again behind ends]
      rfl
  skips {text a rest} h := by
    by_cases null : (skipBlanks text).head? = some 'n'
    · obtain ⟨tail, first⟩ := List.head?_eq_some_iff.mp null
      rw [readNullable_null first] at h
      obtain ⟨_, passed, same⟩ := map_eq_ok_iff.mp h
      obtain ⟨rfl, rfl⟩ := Prod.mk.inj same
      refine skip_of_valueFrom 1 (j := Json.null) ?_
      rw [first, valueFrom_null, passed]
      rfl
    · rw [readNullable_some null steady.blanks] at h
      -- A value is passed over as `steady` says.
      obtain ⟨⟨a, _⟩, found, same⟩ := map_eq_ok_iff.mp h
      obtain ⟨rfl, rfl⟩ := Prod.mk.inj same
      exact steady.skips found

end Relayer.Json
