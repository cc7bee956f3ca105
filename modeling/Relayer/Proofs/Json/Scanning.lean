import Mathlib.Data.List.TakeWhile
import Relayer.Json.Reader

namespace Relayer.Json

/-!
# Scanning — blanks, strings and numbers at the front of a text

What a reader takes off the front of a text does not depend on the rest.  A string ends at its
closing quote; a number ends at the first character that is no `continuesNumber`.

* `Blank` / `skipBlanks_append` — blanks before a value;
* `Ends` — texts that do not continue a number;
* `quotedFrom_takes` / `quotedFrom_careless` — strings, with the same extent for both readers of
  them;
* `numeral_takes` — numbers.
-/

variable {α : Type} {strict : Bool} {spot spot' : Spot} {c : Char}
  {text rest read read' chars b taken : List Char} {out : List Char × List Char}

/-! ### Results -/

theorem map_eq_ok_iff {β : Type} {x : Except Problem α} {f : α → β} {y : β} :
    x.map f = .ok y ↔ ∃ a, x = .ok a ∧ f a = y := by
  cases x <;> simp [Except.map]

theorem bind_eq_ok_iff {β : Type} {x : Except Problem α} {f : α → Except Problem β} {y : β} :
    x >>= f = .ok y ↔ ∃ a, x = .ok a ∧ f a = .ok y := by
  cases x <;> simp [bind, Except.bind]

theorem expect_eq_ok_iff : expect c text = .ok rest ↔ text = c :: rest := by
  cases text with
  | nil => simp [expect]
  | cons d text =>
    rw [expect]
    by_cases same : c = d
    · simp [same]
    · simp [same, Ne.symm same]

theorem expectAll_eq_ok_iff {word : List Char} :
    expectAll word text = .ok rest ↔ text = word ++ rest := by
  induction word generalizing text with
  | nil => simp [expectAll]
  | cons c word ih => simp [expectAll, bind_eq_ok_iff, expect_eq_ok_iff, ih]

/-! ### The end of a number -/

/-- The text is empty, or its first character fails `p`. -/
def Stops (p : Char → Bool) (text : List Char) : Prop := ∀ c, text.head? = some c → p c = false

/-- A digit or the decimal point. -/
def startsFraction (c : Char) : Bool := c.isDigit || c == '.'

/-- A character that may follow within a number. -/
def continuesNumber (c : Char) : Bool := startsFraction c || c == 'e' || c == 'E'

/-- The text does not continue a number. -/
def Ends (text : List Char) : Prop := Stops continuesNumber text

theorem Stops.mono {p q : Char → Bool} (h : Stops q text) (fewer : ∀ c, p c = true → q c = true) :
    Stops p text := fun c first => by
  have other := h c first
  cases wanted : p c with
  | false => rfl
  | true => exact absurd (fewer c wanted) (by simp [other])

theorem stops_cons {p : Char → Bool} (h : p c = false) : Stops p (c :: text) := by
  rintro d ⟨rfl⟩
  exact h

/-! ### Blanks -/

/-- Nothing but blanks. -/
def Blank (text : List Char) : Prop := skipBlanks text = []

/-- A blank between values. -/
def IsBlank (c : Char) : Prop := c = ' ' ∨ c = '\n' ∨ c = '\t' ∨ c = '\r'

instance : DecidablePred IsBlank := fun c => by unfold IsBlank; infer_instance

theorem skipBlanks_cons (c : Char) (rest : List Char) :
    skipBlanks (c :: rest) = if IsBlank c then skipBlanks rest else c :: rest := rfl

theorem skipBlanks_append (h : Blank b) (text : List Char) :
    skipBlanks (b ++ text) = skipBlanks text := by
  induction b with
  | nil => rfl
  | cons c b ih =>
    rw [Blank, skipBlanks_cons] at h
    split at h
    · next blank =>
      rw [List.cons_append, skipBlanks_cons, if_pos blank]
      exact ih h
    · cases h

/-- `skipBlanks` leaves a text whose first character, if there is one, is no blank. -/
theorem skipBlanks_spec (text : List Char) :
    ∃ b, Blank b ∧ text = b ++ skipBlanks text ∧
      ∀ c rest, skipBlanks text = c :: rest → ¬IsBlank c := by
  induction text with
  | nil => exact ⟨[], rfl, rfl, fun _ _ h => by cases h⟩
  | cons c text ih =>
    rw [skipBlanks_cons]
    split
    · next blank =>
      obtain ⟨b, blanks, split, other⟩ := ih
      refine ⟨c :: b, ?_, congrArg (c :: ·) split, other⟩
      rw [Blank, skipBlanks_cons, if_pos blank]
      exact blanks
    · next other =>
      refine ⟨[], rfl, rfl, fun d rest h => ?_⟩
      obtain ⟨rfl, rfl⟩ := List.cons.inj h
      exact other

theorem skipBlanks_of_not_blank (h : ¬IsBlank c) (rest : List Char) :
    skipBlanks (c :: rest) = c :: rest := if_neg h

theorem skipBlanks_skipBlanks (text : List Char) :
    skipBlanks (skipBlanks text) = skipBlanks text := by
  obtain ⟨_, _, _, other⟩ := skipBlanks_spec text
  cases behind : skipBlanks text with
  | nil => rfl
  | cons c rest => exact skipBlanks_of_not_blank (other c rest behind) rest

/-- A text whose `skipBlanks` starts with `c` is some blanks before `c`. -/
theorem exists_blank (h : skipBlanks text = c :: rest) :
    ∃ b, Blank b ∧ text = b ++ c :: rest ∧
      ∀ behind, skipBlanks (b ++ c :: behind) = c :: behind := by
  obtain ⟨b, blanks, split, other⟩ := skipBlanks_spec text
  refine ⟨b, blanks, h ▸ split, fun behind => ?_⟩
  rw [skipBlanks_append blanks]
  exact skipBlanks_of_not_blank (other c rest h) behind

theorem continuesNumber_of_isBlank (h : IsBlank c) : continuesNumber c = false := by
  obtain rfl | rfl | rfl | rfl := h <;> decide

theorem Blank.ends (h : Blank b) (behind : Ends text) : Ends (b ++ text) := by
  cases b with
  | nil => exact behind
  | cons c b =>
    rw [Blank, skipBlanks_cons] at h
    split at h
    · next blank => exact stops_cons (continuesNumber_of_isBlank blank)
    · cases h

/-! ### Strings -/

/-- The spot behind one more character of a string, other than the closing quote. -/
inductive Spot.Leads (strict : Bool) : Spot → List Char → Char → Spot → List Char → Prop
  | itself {read : List Char} {c : Char} (quote : c ≠ '"') (mark : c ≠ '\\')
      (visible : ¬c.toNat < 0x20) : Leads strict .plain read c .plain (c :: read)
  | mark {read : List Char} : Leads strict .plain read '\\' .escaped read
  | number {read : List Char} : Leads strict .escaped read 'u' (.digits none 0 0) read
  | letter {read : List Char} {c d : Char} (other : c ≠ 'u') (stands : escapeOf? c = some d) :
      Leads strict .escaped read c .plain (d :: read)
  | digit {first : Option Nat} {count value digit : Nat} {read : List Char} {c : Char}
      (is_digit : Hex.value? c = some digit) (more : count < 3) :
      Leads strict (.digits first count value) read c
        (.digits first (count + 1) (16 * value + digit)) read
  | denoted {first : Option Nat} {count value digit : Nat} {read chars : List Char} {c : Char}
      {spot : Spot} (careful : strict = true) (is_digit : Hex.value? c = some digit)
      (last : ¬count < 3) (fits : denoted first (16 * value + digit) = some (spot, chars)) :
      Leads strict (.digits first count value) read c spot (chars ++ read)
  | ignored {first : Option Nat} {count value digit : Nat} {read : List Char} {c : Char}
      (careless : ¬strict = true) (is_digit : Hex.value? c = some digit) (last : ¬count < 3) :
      Leads strict (.digits first count value) read c .plain read
  | pairMark {first : Nat} {read : List Char} :
      Leads strict (.pairMark first) read '\\' (.pairLetter first) read
  | pairLetter {first : Nat} {read : List Char} :
      Leads strict (.pairLetter first) read 'u' (.digits (some first) 0 0) read

theorem quotedFrom_of_leads (h : spot.Leads strict read c spot' read') (rest : List Char) :
    quotedFrom strict spot read (c :: rest) = quotedFrom strict spot' read' rest := by
  cases h with
  | itself quote mark visible => rw [quotedFrom, if_neg quote, if_neg mark, if_neg visible]
  | mark => rfl
  | number => rfl
  | letter other stands => rw [quotedFrom, if_neg other, stands]
  | digit is_digit more =>
    rw [quotedFrom, is_digit]
    exact if_pos more
  | denoted careful is_digit last fits =>
    rw [quotedFrom, is_digit]
    dsimp only
    rw [if_neg last, if_pos careful, fits]
  | ignored careless is_digit last =>
    rw [quotedFrom, is_digit]
    dsimp only
    rw [if_neg last, if_neg careless]
  | pairMark => rfl
  | pairLetter => rfl

theorem quotedFrom_cons (h : quotedFrom strict spot read (c :: rest) = .ok out) :
    (spot = .plain ∧ c = '"' ∧ out = (read.reverse, rest)) ∨
      ∃ spot' read', spot.Leads strict read c spot' read' ∧
        quotedFrom strict spot' read' rest = .ok out := by
  cases spot with
  | plain =>
    rw [quotedFrom] at h
    split at h
    · next quote => exact .inl ⟨rfl, quote, (Except.ok.inj h).symm⟩
    · next quote =>
      split at h
      · next mark =>
        subst mark
        exact .inr ⟨_, _, .mark, h⟩
      · next mark =>
        split at h
        · cases h
        · next visible => exact .inr ⟨_, _, .itself quote mark visible, h⟩
  | escaped =>
    rw [quotedFrom] at h
    split at h
    · next letter =>
      subst letter
      exact .inr ⟨_, _, .number, h⟩
    · next other =>
      split at h
      · next stands => exact .inr ⟨_, _, .letter other stands, h⟩
      · cases h
  | digits first count value =>
    rw [quotedFrom] at h
    split at h
    · split at h <;> cases h
    · next digit is_digit =>
      dsimp only at h
      split at h
      · next more => exact .inr ⟨_, _, .digit is_digit more, h⟩
      · next last =>
        split at h
        · next careful =>
          split at h
          · next fits => exact .inr ⟨_, _, .denoted careful is_digit last fits, h⟩
          · cases h
        · next careless => exact .inr ⟨_, _, .ignored careless is_digit last, h⟩
  | pairMark first =>
    rw [quotedFrom] at h
    split at h
    · next mark =>
      subst mark
      exact .inr ⟨_, _, .pairMark, h⟩
    · cases h
  | pairLetter first =>
    rw [quotedFrom] at h
    split at h
    · next letter =>
      subst letter
      exact .inr ⟨_, _, .pairLetter, h⟩
    · cases h

theorem quotedFrom_nil : quotedFrom strict spot read [] = .error .truncated := by
  cases spot <;> rfl

/-- The extent of a string does not depend on the text behind it. -/
theorem quotedFrom_takes (h : quotedFrom strict spot read text = .ok (chars, rest)) :
    ∃ taken, taken ≠ [] ∧ text = taken ++ rest ∧
      ∀ behind, quotedFrom strict spot read (taken ++ behind) = .ok (chars, behind) := by
  induction text generalizing spot read with
  | nil => 
    rw [quotedFrom_nil] at h
    cases h
  | cons c text ih =>
    obtain ⟨rfl, rfl, closed⟩ | ⟨spot', read', leads, goes⟩ := quotedFrom_cons h
    · obtain ⟨rfl, rfl⟩ := Prod.mk.inj closed
      exact ⟨['"'], List.cons_ne_nil _ _, rfl, fun _ => rfl⟩
    · obtain ⟨taken, _, rfl, same⟩ := ih goes
      refine ⟨c :: taken, List.cons_ne_nil _ _, rfl, fun behind => ?_⟩
      rw [List.cons_append, quotedFrom_of_leads leads]
      exact same behind

/-- The spot of the reader that skips escapes, next to the spot of the one that reads them. -/
inductive Spot.Like : Spot → Spot → Prop
  | plain : Like .plain .plain
  | escaped : Like .escaped .escaped
  | digits (first : Option Nat) (count value value' : Nat) :
      Like (.digits first count value) (.digits none count value')
  | pairMark (first : Nat) : Like (.pairMark first) .plain
  | pairLetter (first : Nat) : Like (.pairLetter first) .escaped

theorem Spot.Leads.careless {careless : Spot} (h : spot.Leads true read c spot' read')
    (alike : spot.Like careless) (other : List Char) :
    ∃ careless' other', careless.Leads false other c careless' other' ∧ spot'.Like careless' := by
  cases h with
  | itself quote mark visible => 
    cases alike
    exact ⟨_, _, .itself quote mark visible, .plain⟩
  | mark =>
    cases alike
    exact ⟨_, _, .mark, .escaped⟩
  | number =>
    cases alike
    exact ⟨_, _, .number, .digits ..⟩
  | letter other stands =>
    cases alike
    exact ⟨_, _, .letter other stands, .plain⟩
  | digit is_digit more =>
    cases alike
    exact ⟨_, _, .digit is_digit more, .digits ..⟩
  | denoted _ is_digit last fits =>
    cases alike
    -- Behind four digits the careful reader may wait for a second half; the other one is back
    -- between characters, where that half is one more number.
    refine ⟨_, _, .ignored (by decide) is_digit last, ?_⟩
    simp only [Relayer.Json.denoted] at fits
    split at fits <;> split at fits <;> (try split at fits) <;> cases fits <;> constructor
  | ignored careless => exact absurd rfl careless
  | pairMark =>
    cases alike
    exact ⟨_, _, .mark, .pairLetter _⟩
  | pairLetter =>
    cases alike
    exact ⟨_, _, .number, .digits ..⟩

/-- Both readers of strings take the same characters. -/
theorem quotedFrom_careless {careless : Spot} (alike : spot.Like careless) (other : List Char)
    (h : quotedFrom true spot read text = .ok (chars, rest)) :
    ∃ chars', quotedFrom false careless other text = .ok (chars', rest) := by
  induction text generalizing spot read careless other with
  | nil =>
    rw [quotedFrom_nil] at h
    cases h
  | cons c text ih =>
    obtain ⟨rfl, rfl, closed⟩ | ⟨spot', read', leads, goes⟩ := quotedFrom_cons h
    · obtain ⟨rfl, rfl⟩ := Prod.mk.inj closed
      cases alike
      exact ⟨_, rfl⟩
    · obtain ⟨careless', other', same, alike'⟩ := leads.careless alike other
      rw [quotedFrom_of_leads same]
      exact ih alike' other' goes

/-! ### Numbers -/

theorem someDigits_eq_ok_iff :
    someDigits text = .ok (chars, rest) ↔
      text = chars ++ rest ∧ chars ≠ [] ∧ (∀ c ∈ chars, c.isDigit) ∧ Stops Char.isDigit rest := by
  have scan : text.takeWhile Char.isDigit ++ text.dropWhile Char.isDigit = text :=
    List.takeWhile_append_dropWhile
  rw [someDigits]
  constructor
  · intro h
    split at h
    · cases h
    · next some_digit =>
      obtain ⟨rfl, rfl⟩ := Prod.mk.inj (Except.ok.inj h)
      refine ⟨scan.symm, some_digit, fun c => List.mem_takeWhile_imp, fun c first => ?_⟩
      have := List.head?_dropWhile_not Char.isDigit text
      rw [first] at this
      simpa using this
  · rintro ⟨rfl, some_digit, digits, behind⟩
    -- The scan stops where `rest` begins.
    have stop : rest.takeWhile Char.isDigit = [] ∧ rest.dropWhile Char.isDigit = rest := by
      cases rest with
      | nil => exact ⟨rfl, rfl⟩
      | cons c rest =>
        have := behind c rfl
        simp [this]
    rw [List.takeWhile_append_of_pos digits, List.dropWhile_append_of_pos digits, stop.1, stop.2,
      List.append_nil]
    split
    · exact absurd rfl some_digit
    · rfl

theorem someDigits_takes (h : someDigits text = .ok (chars, rest)) :
    text = chars ++ rest ∧
      ∀ behind, Stops Char.isDigit behind → someDigits (chars ++ behind) = .ok (chars, behind) := by
  obtain ⟨split, some_digit, digits, _⟩ := someDigits_eq_ok_iff.mp h
  exact ⟨split, fun _ stops => someDigits_eq_ok_iff.mpr ⟨rfl, some_digit, digits, stops⟩⟩

theorem wholePart_eq_ok_iff :
    wholePart text = .ok (chars, rest) ↔
      someDigits text = .ok (chars, rest) ∧ ∀ d tail, chars ≠ '0' :: d :: tail := by
  rw [wholePart]
  constructor
  · intro h
    obtain ⟨⟨digits, behind⟩, scanned, h⟩ := bind_eq_ok_iff.mp h
    dsimp only at h
    split at h
    · cases h
    · next single =>
      obtain ⟨rfl, rfl⟩ := Prod.mk.inj (Except.ok.inj h)
      exact ⟨scanned, single⟩
  · rintro ⟨scanned, single⟩
    refine bind_eq_ok_iff.mpr ⟨_, scanned, ?_⟩
    dsimp only
    split
    · next d tail => exact absurd rfl (single d tail)
    · rfl

theorem fractionPart_takes {fraction : Option (List Char)}
    (h : fractionPart text = .ok (fraction, rest)) :
    ∃ taken, text = taken ++ rest ∧ ∀ behind, Stops startsFraction behind →
      fractionPart (taken ++ behind) = .ok (fraction, behind) ∧
        Stops Char.isDigit (taken ++ behind) := by
  have whole (behind : List Char) (stops : Stops startsFraction behind) :
      Stops Char.isDigit behind := stops.mono fun c => by simp +contextual [startsFraction]
  rw [fractionPart.eq_def] at h
  split at h
  · next text =>
    obtain ⟨⟨digits, _⟩, scanned, same⟩ := map_eq_ok_iff.mp h
    obtain ⟨rfl, rfl⟩ := Prod.mk.inj same
    obtain ⟨rfl, again⟩ := someDigits_takes scanned
    refine ⟨'.' :: digits, rfl, fun behind stops => ⟨?_, stops_cons (by decide)⟩⟩
    rw [List.cons_append, fractionPart, again behind (whole behind stops)]
    rfl
  · obtain ⟨rfl, rfl⟩ := Prod.mk.inj (Except.ok.inj h)
    refine ⟨[], rfl, fun behind stops => ⟨?_, whole behind stops⟩⟩
    rw [List.nil_append, fractionPart.eq_def]
    split
    · cases stops '.' rfl
    · rfl

/-- The exponent, behind its sign. -/
def exponentDigits (negative : Bool) (text : List Char) :
    Except Problem (Option (Bool × List Char) × List Char) :=
  (someDigits text).map fun (digits, rest) => (some (negative, digits), rest)

theorem exponentDigits_takes {negative : Bool} {exponent : Option (Bool × List Char)}
    (h : exponentDigits negative text = .ok (exponent, rest)) :
    ∃ digits, text = digits ++ rest ∧ (∀ tail, ¬Stops Char.isDigit (digits ++ tail)) ∧
      ∀ behind, Stops Char.isDigit behind →
        exponentDigits negative (digits ++ behind) = .ok (exponent, behind) := by
  obtain ⟨⟨digits, _⟩, scanned, same⟩ := map_eq_ok_iff.mp h
  obtain ⟨rfl, rfl⟩ := Prod.mk.inj same
  obtain ⟨rfl, some_digit, all, _⟩ := someDigits_eq_ok_iff.mp scanned
  refine ⟨digits, rfl, fun tail stops => ?_, fun behind stops => ?_⟩
  · obtain ⟨d, ds, rfl⟩ := List.exists_cons_of_ne_nil some_digit
    exact absurd (all d (List.mem_cons_self ..)) (by simp [stops d rfl])
  · exact map_eq_ok_iff.mpr ⟨_, someDigits_eq_ok_iff.mpr ⟨rfl, some_digit, all, stops⟩, rfl⟩

theorem exponentPart_unsigned (mark : c = 'e' ∨ c = 'E') (minus : text.head? ≠ some '-')
    (plus : text.head? ≠ some '+') : exponentPart (c :: text) = exponentDigits false text := by
  rw [exponentPart, if_pos mark]
  · rfl
  · rintro rest rfl
    exact minus rfl
  · rintro rest rfl
    exact plus rfl

/-- The exponent of a text is that of the digits behind its sign, `-`, `+` or none, and other digits
    may stand there. -/
theorem exponentPart_signed (mark : c = 'e' ∨ c = 'E') (text : List Char) :
    ∃ sign negative tail, text = sign ++ tail ∧
      exponentPart (c :: text) = exponentDigits negative tail ∧
      ∀ other, ¬Stops Char.isDigit other →
        exponentPart (c :: (sign ++ other)) = exponentDigits negative other := by
  by_cases minus : text.head? = some '-'
  · obtain ⟨tail, rfl⟩ : ∃ tail, text = '-' :: tail := List.head?_eq_some_iff.mp minus
    exact ⟨['-'], true, tail, rfl, if_pos mark, fun other _ => if_pos mark⟩
  · by_cases plus : text.head? = some '+'
    · obtain ⟨tail, rfl⟩ : ∃ tail, text = '+' :: tail := List.head?_eq_some_iff.mp plus
      exact ⟨['+'], false, tail, rfl, if_pos mark, fun other _ => if_pos mark⟩
    · refine ⟨[], false, text, rfl, exponentPart_unsigned mark minus plus, fun other digit => ?_⟩
      refine exponentPart_unsigned mark (fun first => digit ?_) (fun first => digit ?_)
      · intro d same
        obtain rfl := Option.some.inj (first.symm.trans same)
        decide
      · intro d same
        obtain rfl := Option.some.inj (first.symm.trans same)
        decide

theorem exponentPart_takes {exponent : Option (Bool × List Char)}
    (h : exponentPart text = .ok (exponent, rest)) :
    ∃ taken, text = taken ++ rest ∧ ∀ behind, Ends behind →
      exponentPart (taken ++ behind) = .ok (exponent, behind) ∧
        Stops startsFraction (taken ++ behind) := by
  -- What `Ends` a number stops its digits and its fraction as well.
  have fraction (behind : List Char) (ends : Ends behind) : Stops startsFraction behind :=
    ends.mono fun c => by simp +contextual [continuesNumber]
  have digits (behind : List Char) (ends : Ends behind) : Stops Char.isDigit behind :=
    ends.mono fun c => by simp +contextual [continuesNumber, startsFraction]
  have absent : ∀ text : List Char, (∀ c, text.head? = some c → ¬(c = 'e' ∨ c = 'E')) →
      exponentPart text = .ok (none, text) := by
    rintro (_ | ⟨c, text⟩) other
    · rfl
    · exact if_neg (other c rfl)
  by_cases mark : ∃ c tail, text = c :: tail ∧ (c = 'e' ∨ c = 'E')
  · -- The text has an exponent: its sign and its digits are taken.
    obtain ⟨c, tail, rfl, mark⟩ := mark
    obtain ⟨sign, negative, tail, rfl, here, everywhere⟩ := exponentPart_signed mark tail
    obtain ⟨ds, rfl, some_digit, again⟩ := exponentDigits_takes (here ▸ h)
    refine ⟨c :: (sign ++ ds), by simp, fun behind ends => ⟨?_, stops_cons ?_⟩⟩
    · rw [List.cons_append, List.append_assoc, everywhere _ (some_digit behind)]
      exact again behind (digits behind ends)
    · obtain rfl | rfl := mark <;> decide
  · -- There is no exponent, so nothing is taken.
    have other : ∀ c, text.head? = some c → ¬(c = 'e' ∨ c = 'E') := fun c first marked =>
      have ⟨tail, split⟩ := List.head?_eq_some_iff.mp first
      mark ⟨c, tail, split, marked⟩
    obtain ⟨rfl, rfl⟩ := Prod.mk.inj (Except.ok.inj ((absent text other).symm.trans h))
    refine ⟨[], rfl, fun behind ends =>
      ⟨absent behind fun c first marked => ?_, fraction behind ends⟩⟩
    have := ends c first
    obtain rfl | rfl := marked <;> cases this

/-- The number, behind its sign. -/
def magnitude (negative : Bool) (text : List Char) : Except Problem (Numeral × List Char) := do
  let (whole, text) ← wholePart text
  let (fraction, text) ← fractionPart text
  let (exponent, text) ← exponentPart text
  return (⟨negative, whole, fraction, exponent⟩, text)

theorem numeral_plain (h : text.head? ≠ some '-') : numeral text = magnitude false text := by
  rw [numeral]
  · rfl
  · rintro rest rfl
    exact h rfl

theorem magnitude_takes {negative : Bool} {n : Numeral}
    (h : magnitude negative text = .ok (n, rest)) :
    ∃ taken, text = taken ++ rest ∧ (∀ tail, ¬Stops Char.isDigit (taken ++ tail)) ∧
      ∀ behind, Ends behind → magnitude negative (taken ++ behind) = .ok (n, behind) := by
  obtain ⟨⟨whole, text₁⟩, read_whole, h⟩ := bind_eq_ok_iff.mp h
  obtain ⟨⟨fraction, text₂⟩, read_fraction, h⟩ := bind_eq_ok_iff.mp h
  obtain ⟨⟨exponent, text₃⟩, read_exponent, h⟩ := bind_eq_ok_iff.mp h
  obtain ⟨rfl, rfl⟩ := Prod.mk.inj (Except.ok.inj h)
  obtain ⟨scanned, single⟩ := wholePart_eq_ok_iff.mp read_whole
  obtain ⟨rfl, some_digit, all, _⟩ := someDigits_eq_ok_iff.mp scanned
  obtain ⟨before, rfl, fraction_again⟩ := fractionPart_takes read_fraction
  obtain ⟨last, rfl, exponent_again⟩ := exponentPart_takes read_exponent
  refine ⟨whole ++ (before ++ last), by simp, fun tail stops => ?_, fun behind ends => ?_⟩
  · obtain ⟨d, ds, rfl⟩ := List.exists_cons_of_ne_nil some_digit
    exact absurd (all d (List.mem_cons_self ..)) (by simp [stops d rfl])
  · obtain ⟨exponent_here, no_fraction⟩ := exponent_again behind ends
    obtain ⟨fraction_here, no_digit⟩ := fraction_again _ no_fraction
    have whole_here : wholePart (whole ++ (before ++ (last ++ behind))) = .ok (whole, _) :=
      wholePart_eq_ok_iff.mpr ⟨someDigits_eq_ok_iff.mpr ⟨rfl, some_digit, all, no_digit⟩, single⟩
    rw [List.append_assoc, List.append_assoc]
    exact bind_eq_ok_iff.mpr ⟨_, whole_here, bind_eq_ok_iff.mpr ⟨_, fraction_here,
      bind_eq_ok_iff.mpr ⟨_, exponent_here, rfl⟩⟩⟩

/-- The extent of a number does not depend on the text behind it, if that text `Ends` it. -/
theorem numeral_takes {n : Numeral} (h : numeral text = .ok (n, rest)) :
    ∃ taken, taken ≠ [] ∧ text = taken ++ rest ∧
      ∀ behind, Ends behind ∨ behind = rest → numeral (taken ++ behind) = .ok (n, behind) := by
  -- Before the rest itself the reading is the given one, whatever the rest starts with.
  suffices ∃ taken, taken ≠ [] ∧ text = taken ++ rest ∧
      ∀ behind, Ends behind → numeral (taken ++ behind) = .ok (n, behind) by
    obtain ⟨taken, some_char, rfl, again⟩ := this
    refine ⟨taken, some_char, rfl, ?_⟩
    rintro behind (ends | rfl)
    · exact again behind ends
    · exact h
  by_cases minus : text.head? = some '-'
  · obtain ⟨tail, rfl⟩ : ∃ tail, text = '-' :: tail := List.head?_eq_some_iff.mp minus
    obtain ⟨taken, rfl, _, again⟩ := magnitude_takes h
    exact ⟨'-' :: taken, List.cons_ne_nil _ _, rfl, again⟩
  · rw [numeral_plain minus] at h
    obtain ⟨taken, rfl, digit, again⟩ := magnitude_takes h
    refine ⟨taken, ?_, rfl, fun behind ends => ?_⟩
    · rintro rfl
      exact digit [] (fun _ first => by cases first)
    · rw [numeral_plain fun first => digit behind fun c same => ?_]
      · exact again behind ends
      · obtain rfl := Option.some.inj (first.symm.trans same)
        decide

end Relayer.Json
