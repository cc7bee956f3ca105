import Relayer.Proofs.Json.Whole
import Relayer.Proofs.Text.Hex

namespace Relayer.Json

/-!
# Spelling — strings and words are read back as they are written

`readString` returns every string from its `quote`, and `readWord` every word from its decimal
digits.  Conversely, a text that denotes a string or `null` is read as that by the readers of
strings and of optional values.

* `readString_quote` / `whole_quote` — strings;
* `whole_word` / `whole_null` — optional words;
* `whole_of_parse_string` / `whole_of_parse_null` — values by what they denote.
-/

variable {α : Type} {read : Reader α} {rest text : List Char}

/-! ### Strings -/

theorem quotedFrom_escape (c : Char) (chars rest : List Char) :
    quotedFrom true .plain chars (escape c ++ rest) = quotedFrom true .plain (c :: chars) rest := by
  rw [escape]
  split
  · next same => subst same; rfl
  split
  · next same => subst same; rfl
  split
  · next same => subst same; rfl
  split
  · next same => subst same; rfl
  split
  · next same => subst same; rfl
  split
  · next same => subst same; rfl
  split
  · next same => subst same; rfl
  split
  · next control =>
    have high : Hex.value? (Hex.digit (c.toNat / 16)) = some (c.toNat / 16) :=
      Hex.value?_digit (by omega)
    have low : Hex.value? (Hex.digit (c.toNat % 16)) = some (c.toNat % 16) :=
      Hex.value?_digit (by omega)
    have zero : Hex.value? '0' = some 0 := rfl
    -- A control character is below thirty-two, so its number is that of the last two digits and
    -- no half of a pair.
    have fits : denoted none (16 * (16 * (16 * (16 * 0 + 0) + 0) + c.toNat / 16) + c.toNat % 16) =
        some (.plain, [c]) := by
      have : 16 * (16 * (16 * (16 * 0 + 0) + 0) + c.toNat / 16) + c.toNat % 16 = c.toNat := by omega
      rw [this, denoted, if_neg (by omega), if_neg (by omega), Char.ofNat_toNat]
    simp only [List.cons_append, List.nil_append]
    rw [quotedFrom_of_leads .mark, quotedFrom_of_leads .number,
      quotedFrom_of_leads (.digit zero (by decide)), quotedFrom_of_leads (.digit zero (by decide)),
      quotedFrom_of_leads (.digit high (by decide)),
      quotedFrom_of_leads (.denoted rfl low (by decide) fits)]
    rfl
  · next quote mark _ _ _ _ _ visible => exact quotedFrom_of_leads (.itself quote mark visible) rest

theorem quotedFrom_flatMap_escape (s chars rest : List Char) :
    quotedFrom true .plain chars (s.flatMap escape ++ '"' :: rest) =
      .ok (chars.reverse ++ s, rest) := by
  induction s generalizing chars with
  | nil => simp [quotedFrom]
  | cons c s ih =>
    rw [List.flatMap_cons, List.append_assoc, quotedFrom_escape, ih]
    simp

theorem readString_quote (s : String) (rest : List Char) :
    readString (quote s ++ rest) = .ok (s, rest) := by
  refine readString_eq_ok_iff.mpr
    ⟨s.toList.flatMap escape ++ '"' :: rest, s.toList, ?_, ?_, String.ofList_toList⟩
  · simp [quote, skipBlanks_of_not_blank (show ¬IsBlank '"' by decide)]
  · exact quotedFrom_flatMap_escape s.toList [] rest

theorem parseAs_quote (s : String) : parseAs readString (String.ofList (quote s)) = .ok s := by
  refine parseAs_eq_ok_iff.mpr ⟨[], ?_, rfl⟩
  simpa using readString_quote s []

theorem whole_quote (f : String → Option α) (s : String) : whole (readAs f) (quote s) = f s :=
  have found : readString (quote s) = .ok (s, []) := by simpa using readString_quote s []
  whole_readAs found rfl f

/-! ### Numbers -/

theorem head?_toDigits_ten {n : Nat} (h : (Nat.toDigits 10 n).head? = some '0') : n = 0 := by
  induction n using Nat.strongRecOn with
  | ind n ih =>
    rw [Nat.toDigits_eq_if (by decide)] at h
    split at h
    · exact Nat.digitChar_eq_zero.mp (Option.some.inj h)
    · next long =>
      obtain ⟨d, ds, front⟩ :=
        List.exists_cons_of_ne_nil (Nat.toDigits_ne_nil (n := n / 10) (b := 10))
      have := ih (n / 10) (by omega) (by simpa [front] using h)
      omega

theorem digitsValue_toDigits (n : Nat) : Numeral.digitsValue (Nat.toDigits 10 n) = n := by
  induction n using Nat.strongRecOn with
  | ind n ih =>
    rw [Nat.toDigits_eq_if (by decide)]
    split
    · next small =>
      simp [Numeral.digitsValue, Nat.toNat_digitChar_sub_48_of_lt_ten small]
    · next long =>
      have last := Nat.toNat_digitChar_sub_48_of_lt_ten (Nat.mod_lt n (show 0 < 10 by decide))
      have front := ih (n / 10) (by omega)
      rw [Numeral.digitsValue] at front ⊢
      rw [List.foldl_append, front]
      show 10 * (n / 10) + ((n % 10).digitChar.toNat - 48) = n
      rw [last, Nat.div_add_mod]

theorem numeral_ofNat (n : Nat) (ends : Ends rest) :
    numeral (Nat.toDigits 10 n ++ rest) = .ok (.ofNat n, rest) := by
  have digits : ∀ c ∈ Nat.toDigits 10 n, c.isDigit := fun c =>
    Nat.isDigit_of_mem_toDigits (by decide) (by decide)
  obtain ⟨d, ds, split⟩ := List.exists_cons_of_ne_nil (Nat.toDigits_ne_nil (n := n) (b := 10))
  -- No number but zero starts with `0`.
  have single : ∀ e tail, Nat.toDigits 10 n ≠ '0' :: e :: tail := by
    intro e tail same
    obtain rfl := head?_toDigits_ten (n := n) (by rw [same]; rfl)
    simp at same
  have stops : Stops Char.isDigit rest :=
    ends.mono fun c => by simp +contextual [continuesNumber, startsFraction]
  -- The digits are the whole part; what `Ends` them is neither a fraction nor an exponent.
  have whole : wholePart (Nat.toDigits 10 n ++ rest) = .ok (Nat.toDigits 10 n, rest) :=
    wholePart_eq_ok_iff.mpr
      ⟨someDigits_eq_ok_iff.mpr ⟨rfl, Nat.toDigits_ne_nil, digits, stops⟩, single⟩
  have no_fraction : fractionPart rest = .ok (none, rest) := by
    rw [fractionPart.eq_def]
    split
    · cases ends '.' rfl
    · rfl
  have no_exponent : exponentPart rest = .ok (none, rest) := by
    cases rest with
    | nil => rfl
    | cons c rest =>
      have other : continuesNumber c = false := ends c rfl
      refine if_neg ?_
      rintro (rfl | rfl) <;> cases other
  have unsigned : (Nat.toDigits 10 n ++ rest).head? ≠ some '-' := by
    rw [split]
    rintro ⟨rfl⟩
    exact absurd (digits '-' (by simp [split])) (by decide)
  rw [numeral_plain unsigned]
  exact bind_eq_ok_iff.mpr ⟨_, whole, bind_eq_ok_iff.mpr ⟨_, no_fraction,
    bind_eq_ok_iff.mpr ⟨_, no_exponent, rfl⟩⟩⟩

theorem toNat?_ofNat (n : Nat) : (Numeral.ofNat n).toNat? = some n := by
  rw [Numeral.toNat?, Numeral.ofNat]
  exact congrArg some (digitsValue_toDigits n)

theorem isHuge_ofNat {n : Nat} (held : n < UInt64.size) : (Numeral.ofNat n).isHuge = false := by
  have below : n < Nat.pow 2 1024 - Nat.pow 2 970 := Nat.lt_of_lt_of_le held (by decide +kernel)
  rw [Numeral.isHuge]
  -- The bound stays a name, for it is too large to be computed with.
  generalize Nat.pow 2 1024 - Nat.pow 2 970 = bound at below ⊢
  simp only [Numeral.ofNat, Option.getD_none, List.append_nil, digitsValue_toDigits]
  split
  · rfl
  · simpa using below

theorem write_nat (n : Nat) : (nat n).write = Nat.toDigits 10 n := by
  simp [nat, write, Numeral.write, Numeral.ofNat]

/-- The text of a number starts with a digit. -/
theorem write_nat_cons (n : Nat) :
    ∃ d ds, (nat n).write = d :: ds ∧ d.isDigit ∧ ∀ tail, skipBlanks (d :: tail) = d :: tail := by
  obtain ⟨d, ds, split⟩ := List.exists_cons_of_ne_nil (Nat.toDigits_ne_nil (n := n) (b := 10))
  have digit : d.isDigit :=
    Nat.isDigit_of_mem_toDigits (n := n) (b := 10) (by decide) (by decide) (by simp [split])
  refine ⟨d, ds, (write_nat n).trans split, digit, fun tail => skipBlanks_of_not_blank ?_ tail⟩
  rintro (rfl | rfl | rfl | rfl) <;> exact absurd digit (by decide)

theorem readWord_write (w : UInt64) (ends : Ends rest) :
    readWord ((nat w.toNat).write ++ rest) = .ok (w, rest) := by
  obtain ⟨d, ds, split, digit, visible⟩ := write_nat_cons w.toNat
  have held : w.toNat < UInt64.size := w.toNat_lt_size
  have found := numeral_ofNat w.toNat ends
  rw [← write_nat, split, List.cons_append] at found
  refine readWord_eq_ok_iff.mpr ⟨.ofNat w.toNat, readNumeral_eq_ok_iff.mpr
    ⟨d, ds ++ rest, ?_, .inr digit, found, isHuge_ofNat held⟩, w.toNat, toNat?_ofNat _, held,
    by simp⟩
  rw [split, List.cons_append, visible]

theorem whole_null (read : Reader α) : whole (readNullable read) null.write = some none := by
  have first : skipBlanks null.write = 'n' :: "ull".toList := rfl
  refine whole_eq_some_iff.mpr ⟨[], ?_, rfl⟩
  rw [readNullable_null first]
  rfl

theorem whole_word (w : UInt64) :
    whole (readNullable readWord) (nat w.toNat).write = some (some w) := by
  obtain ⟨d, ds, split, digit, visible⟩ := write_nat_cons w.toNat
  have found := readWord_write w ends_nil
  rw [List.append_nil] at found
  refine whole_eq_some_iff.mpr ⟨[], ?_, rfl⟩
  rw [readNullable_some ?_ steady_readWord.blanks, found]
  · rfl
  · rw [split, visible]
    rintro ⟨rfl⟩
    exact absurd digit (by decide)

/-- The text of an optional word is read back, `null` where it is `none`. -/
theorem whole_ofOption (w : Option UInt64) :
    whole (readNullable readWord) (ofOption (fun w => nat w.toNat) w).write = some w := by
  cases w with
  | none => exact whole_null readWord
  | some w => exact whole_word w

/-! ### Values by what they denote -/

/-- The first characters of values of this kind. -/
def Starts : Json → Char → Prop
  | null, c => c = 'n'
  | bool _, c => c = 't' ∨ c = 'f'
  | number _, c => c = '-' ∨ c.isDigit
  | string _, c => c = '"'
  | array _, c => c = '['
  | object _, c => c = '\x7b'

theorem starts_of_valueFrom {care : Care} {fuel depth : Nat} {j : Json}
    (h : valueFrom care fuel depth text = .ok (j, rest)) :
    ∃ c tail, skipBlanks text = c :: tail ∧ Starts j c := by
  obtain ⟨c, tail, first, starts⟩ := startsValue_of_valueFrom h
  refine ⟨c, tail, first, ?_⟩
  cases fuel with
  | zero =>
    rw [valueFrom_zero] at h
    cases h
  | succ fuel =>
    rw [← valueFrom_skipBlanks, first] at h
    obtain rfl | rfl | rfl | rfl | digit | rfl | rfl := starts
    · rw [valueFrom_null, map_eq_ok_iff] at h
      obtain ⟨_, _, ⟨⟩⟩ := h
      rfl
    · rw [valueFrom_true, map_eq_ok_iff] at h
      obtain ⟨_, _, ⟨⟩⟩ := h
      exact .inl rfl
    · rw [valueFrom_false, map_eq_ok_iff] at h
      obtain ⟨_, _, ⟨⟩⟩ := h
      exact .inr rfl
    · rw [valueFrom_string, map_eq_ok_iff] at h
      obtain ⟨_, _, ⟨⟩⟩ := h
      rfl
    · rw [valueFrom_number care fuel depth tail digit] at h
      split at h
      · split at h
        · cases h
        · cases h
          exact digit
      · cases h
    · by_cases room : (care == .strict && depth ≤ 1) = true
      · rw [valueFrom_array_deep care fuel depth tail room] at h
        cases h
      by_cases empty : (skipBlanks tail).head? = some ']'
      · obtain ⟨tail, first⟩ := List.head?_eq_some_iff.mp empty
        rw [valueFrom_array_nil care fuel depth room first] at h
        cases h
        rfl
      · rw [valueFrom_array_cons care fuel depth room empty] at h
        obtain ⟨_, _, h⟩ := bind_eq_ok_iff.mp h
        obtain ⟨_, _, ⟨⟩⟩ := bind_eq_ok_iff.mp h
        rfl
    · -- Objects, like arrays.
      by_cases room : (care == .strict && depth ≤ 1) = true
      · rw [valueFrom_object_deep care fuel depth tail room] at h
        cases h
      by_cases empty : (skipBlanks tail).head? = some '\x7d'
      · obtain ⟨tail, first⟩ := List.head?_eq_some_iff.mp empty
        rw [valueFrom_object_nil care fuel depth room first] at h
        cases h
        rfl
      · rw [valueFrom_object_cons care fuel depth room empty] at h
        obtain ⟨_, _, h⟩ := bind_eq_ok_iff.mp h
        obtain ⟨_, _, ⟨⟩⟩ := bind_eq_ok_iff.mp h
        rfl

/-- `readString` of a text that denotes a string is that string. -/
theorem readString_of_value {depth : Nat} {s : String}
    (h : value depth text = .ok (string s, rest)) :
    readString text = .ok (s, rest) := by
  obtain ⟨_, tail, first, rfl⟩ := starts_of_valueFrom h
  rw [value, ← valueFrom_skipBlanks, first, valueFrom_string, map_eq_ok_iff] at h
  obtain ⟨⟨chars, _⟩, found, same⟩ := h
  obtain ⟨⟨rfl⟩, rfl⟩ := Prod.mk.inj same
  exact readString_eq_ok_iff.mpr ⟨tail, chars, first, found, rfl⟩

/-- `quote s` denotes the string `s`. -/
theorem parse_quote (s : String) : Json.parse (String.ofList (quote s)) = .ok (string s) := by
  refine parseAs_eq_ok_iff.mpr ⟨[], ?_, rfl⟩
  have found := quotedFrom_flatMap_escape s.toList [] []
  rw [String.toList_ofList, value, quote, List.cons_append, valueFrom_string]
  refine map_eq_ok_iff.mpr ⟨_, found, ?_⟩
  simp

theorem whole_of_parse_string {s : String} (h : Json.parse (String.ofList text) = .ok (string s))
    (f : String → Option α) : whole (readAs f) text = f s := by
  obtain ⟨rest, found, blank⟩ := parseAs_eq_ok_iff.mp h
  rw [String.toList_ofList] at found
  exact whole_readAs (readString_of_value found) blank f

theorem whole_of_parse_null (h : Json.parse (String.ofList text) = .ok null) (read : Reader α) :
    whole (readNullable read) text = some none := by
  obtain ⟨rest, found, blank⟩ := parseAs_eq_ok_iff.mp h
  rw [String.toList_ofList] at found
  obtain ⟨_, tail, first, rfl⟩ := starts_of_valueFrom found
  rw [value, ← valueFrom_skipBlanks, first, valueFrom_null, map_eq_ok_iff] at found
  obtain ⟨_, passed, same⟩ := found
  obtain ⟨_, rfl⟩ := Prod.mk.inj same
  refine whole_eq_some_iff.mpr ⟨_, ?_, blank⟩
  rw [readNullable_null first, passed]
  rfl

end Relayer.Json
