import Relayer.Proofs.Json.Whole

namespace Relayer.Json

/-!
# Members — objects and arrays as they are written

An object is written as members between braces, an array as items between brackets.  A record that
is read from an object is made of its members one after the other, each by its own value; what
stands between them makes no difference.

* `Member` / `Listing` — members and objects as they are written;
* `Fields` — records whose fields are read by their values alone;
* `toOption_readObject_members` / `exists_members` — objects are read by their members, and what is
  read as an object has some;
* `readItem?_first` / `readItem?_next` — items of an array.
-/

variable {α β σ : Type} {rest behind b : List Char} {read : Reader α}

/-! ### Members -/

/-- A member of an object: its name in quotes and its value, as they are written. -/
structure Member where
  name : String
  /-- The name in quotes, perhaps between blanks. -/
  label : List Char
  /-- The value, perhaps between blanks. -/
  value : List Char
  named : parseAs readString (String.ofList label) = .ok name
  valued : IsValue value

/-- The characters of a member. -/
def Member.text (m : Member) : List Char := m.label ++ ':' :: m.value

/-- Members after the first one, each behind a comma. -/
def further (ms : List Member) : List Char := ms.flatMap fun m => ',' :: m.text

/-- A reader of fields whose result depends on the values alone: `field` applies `add` to what is
    read of the whole value. -/
structure Fields (field : String → σ → Reader σ) (add : String → List Char → σ → Option σ) :
    Prop where
  passes : ∀ {name record record' text rest}, field name record text = .ok (record', rest) →
    ∃ tail, skipBlanks text = ':' :: tail ∧ skip tail = .ok rest
  reads : ∀ {gap value trail behind} (name record), Blank gap → skip value = .ok trail →
    Blank trail → Ends behind → (field name record (gap ++ ':' :: (value ++ behind))).toOption =
      (add name value record).map (·, trail ++ behind)

/-- The record after a list of members. -/
def gather (add : String → List Char → σ → Option σ) (ms : List Member) (record : σ) : Option σ :=
  ms.foldlM (fun record m => add m.name m.value record) record

theorem toOption_bind {x : Except Problem α} {f : α → Except Problem β} :
    (x >>= f).toOption = x.toOption.bind fun a => (f a).toOption := by
  cases x <;> rfl

variable {field : String → σ → Reader σ} {add : String → List Char → σ → Option σ}

theorem Member.readMember_eq (m : Member) (field : String → σ → Reader σ) :
    ∃ gap, Blank gap ∧ ∀ record behind, readMember anyName field record (m.text ++ behind) =
      field m.name record (gap ++ ':' :: (m.value ++ behind)) := by
  obtain ⟨gap, read, blank⟩ := parseAs_eq_ok_iff.mp m.named
  rw [String.toList_ofList] at read
  obtain ⟨tail, chars, first, spelled, named⟩ := readString_eq_ok_iff.mp read
  obtain ⟨b, _, split, again⟩ := exists_blank first
  obtain ⟨taken, _, rfl, spelled_again⟩ := quotedFrom_takes spelled
  refine ⟨gap, blank, fun record behind => ?_⟩
  rw [Member.text, split]
  simp only [List.append_assoc, List.cons_append]
  rw [readMember, again, expect, if_pos rfl]
  show (anyName _ >>= _) = _
  rw [anyName, quoted, spelled_again, ← named]
  rfl

theorem Member.toOption_readMember (m : Member) (fields : Fields field add) :
    ∃ trail, Blank trail ∧ ∀ record behind, Ends behind →
      (readMember anyName field record (m.text ++ behind)).toOption =
        (add m.name m.value record).map (·, trail ++ behind) := by
  obtain ⟨gap, blank, same⟩ := m.readMember_eq field
  obtain ⟨trail, passed, trail_blank⟩ := m.valued
  exact ⟨trail, trail_blank, fun record behind ends => by
    rw [same, fields.reads m.name record blank passed trail_blank ends]⟩

theorem ends_further (ms : List Member) (behind : List Char) :
    Ends (further ms ++ '\x7d' :: behind) := by
  cases ms with
  | nil => exact stops_cons (by decide)
  | cons m ms => exact stops_cons (by decide)

theorem further_cons (m : Member) (ms : List Member) :
    further (m :: ms) = ',' :: (m.text ++ further ms) := rfl

theorem length_le_length_further (ms : List Member) : ms.length ≤ (further ms).length := by
  induction ms with
  | nil => exact Nat.le_refl _
  | cons m ms ih =>
    rw [further_cons]
    simp only [List.length_cons, List.length_append]
    omega

theorem toOption_readMembers (fields : Fields field add) (behind : List Char) :
    ∀ (ms : List Member) {fuel : Nat} {b : List Char} (record : σ), Blank b → ms.length < fuel →
      (readMembers anyName field fuel record (b ++ (further ms ++ '\x7d' :: behind))).toOption =
        (gather add ms record).map (·, '\x7d' :: behind)
  | _, 0, _, _, _, enough => absurd enough (Nat.not_lt_zero _)
  | [], fuel + 1, _, record, blank, _ => by
    rw [readMembers, skipBlanks_append blank]
    rfl
  | m :: ms, fuel + 1, _, record, blank, enough => by
    -- The blanks behind this member are those before the next comma.
    obtain ⟨trail, trail_blank, read⟩ := m.toOption_readMember fields
    rw [readMembers, skipBlanks_append blank, further_cons]
    rw [List.cons_append, List.append_assoc]
    show (readMember anyName field record _ >>= _).toOption = _
    rw [toOption_bind, read record _ (ends_further ms behind)]
    cases added : add m.name m.value record with
    | none => simp [gather, added]
    | some next =>
      show (readMembers anyName field fuel next _).toOption = _
      rw [toOption_readMembers fields behind ms next trail_blank (Nat.lt_of_succ_lt_succ enough)]
      simp [gather, added]

theorem Member.skipBlanks_text (m : Member) :
    ∃ tail, ∀ behind, skipBlanks (m.text ++ behind) = '"' :: (tail ++ behind) := by
  obtain ⟨gap, read, _⟩ := parseAs_eq_ok_iff.mp m.named
  rw [String.toList_ofList] at read
  obtain ⟨tail, chars, first, _, _⟩ := readString_eq_ok_iff.mp read
  obtain ⟨b, _, split, again⟩ := exists_blank first
  refine ⟨tail ++ ':' :: m.value, fun behind => ?_⟩
  rw [Member.text, split]
  simp only [List.append_assoc, List.cons_append, again]

theorem readMember_skipBlanks (record : σ) (text : List Char) :
    readMember anyName field record (skipBlanks text) = readMember anyName field record text := by
  rw [readMember, readMember, skipBlanks_skipBlanks]

theorem readObject_of_quote {text tail : List Char} {record : σ}
    (h : skipBlanks text = '"' :: tail) :
    readObject anyName field record text = (do
      let (record, rest) ← readMember anyName field record text
      readMembers anyName field (rest.length + 1) record rest) := by
  rw [← readMember_skipBlanks, h, readObject, h]
  rfl

/-- `readObject` applies `add` to its members in order. -/
theorem toOption_readObject (fields : Fields field add) (m : Member) (ms : List Member) (record : σ)
    (behind : List Char) :
    (readObject anyName field record (m.text ++ (further ms ++ '\x7d' :: behind))).toOption =
      (gather add (m :: ms) record).map (·, '\x7d' :: behind) := by
  obtain ⟨tail, first⟩ := m.skipBlanks_text
  obtain ⟨trail, blank, read⟩ := m.toOption_readMember fields
  rw [readObject_of_quote (first _), toOption_bind, read record _ (ends_further ms behind)]
  cases added : add m.name m.value record with
  | none => simp [gather, added]
  | some next =>
    have enough : ms.length < (trail ++ (further ms ++ '\x7d' :: behind)).length + 1 := by
      have := length_le_length_further ms
      simp only [List.length_append]
      omega
    show (readMembers anyName field _ next _).toOption = _
    rw [toOption_readMembers fields behind ms next blank enough]
    simp [gather, added]

/-! ### Members of a text -/

/-- The text that `field` takes is the label and the value of a member, and blanks. -/
theorem exists_member (fields : Fields field add) {text : List Char} {record record' : σ}
    (h : readMember anyName field record text = .ok (record', rest)) (blank : Blank b)
    (split : rest = b ++ behind) : ∃ m : Member, text = m.text ++ behind := by
  obtain ⟨_, opened, h⟩ := bind_eq_ok_iff.mp h
  obtain ⟨⟨name, _⟩, named, h⟩ := bind_eq_ok_iff.mp h
  obtain ⟨⟨chars, _⟩, spelled, same⟩ := map_eq_ok_iff.mp named
  obtain ⟨rfl, rfl⟩ := Prod.mk.inj same
  obtain ⟨tail, colon, passed⟩ := fields.passes h
  obtain ⟨before, _, rfl, before_again⟩ := exists_blank (expect_eq_ok_iff.mp opened)
  obtain ⟨taken, _, rfl, spelled_again⟩ := quotedFrom_takes spelled
  obtain ⟨gap, gap_blank, rfl, _⟩ := exists_blank colon
  obtain ⟨core, _, rfl, value⟩ := skip_takes passed
  have label : readString (before ++ '"' :: (taken ++ gap)) = .ok (String.ofList chars, gap) :=
    readString_eq_ok_iff.mpr ⟨taken ++ gap, chars, before_again _, spelled_again gap, rfl⟩
  refine ⟨⟨String.ofList chars, before ++ '"' :: (taken ++ gap), core ++ b, ?_, ?_⟩, ?_⟩
  · exact parseAs_eq_ok_iff.mpr ⟨gap, by rw [String.toList_ofList]; exact label, gap_blank⟩
  · exact ⟨b, value b (by simpa using blank.ends ends_nil), blank⟩
  · simp [Member.text, split]

theorem exists_further (fields : Fields field add) :
    ∀ (fuel : Nat) {text : List Char} {record record' : σ},
    readMembers anyName field fuel record text = .ok (record', rest) →
      ∃ b ms tail, Blank b ∧ text = b ++ (further ms ++ '\x7d' :: tail) ∧ rest = '\x7d' :: tail
  | 0, _, _, _, h => by cases h
  | fuel + 1, text, record, record', h => by
    rw [readMembers] at h
    split at h
    · next tail first =>
      obtain ⟨rfl, rfl⟩ := Prod.mk.inj (Except.ok.inj h)
      obtain ⟨b, blank, rfl, _⟩ := exists_blank first
      exact ⟨b, [], tail, blank, rfl, rfl⟩
    · next tail first =>
      obtain ⟨⟨next, rest'⟩, here, there⟩ := bind_eq_ok_iff.mp h
      obtain ⟨b', ms, tail', blank', split', rfl⟩ := exists_further fields fuel there
      obtain ⟨m, rfl⟩ := exists_member fields here blank' split'
      obtain ⟨b, blank, rfl, _⟩ := exists_blank first
      exact ⟨b, m :: ms, tail', blank, by simp [further_cons], rfl⟩
    · cases h

/-- The text of an object that is read is a list of members, or nothing but blanks. -/
theorem exists_members (fields : Fields field add) {text : List Char} {record record' : σ}
    (h : readObject anyName field record text = .ok (record', rest)) :
    ∃ tail, rest = '\x7d' :: tail ∧
      ((∃ (m : Member) (ms : List Member), text = m.text ++ (further ms ++ '\x7d' :: tail)) ∨
        record' = record) := by
  rw [readObject] at h
  split at h
  · next tail first =>
    obtain ⟨rfl, rfl⟩ := Prod.mk.inj (Except.ok.inj h)
    exact ⟨tail, rfl, .inr rfl⟩
  · cases h
  · obtain ⟨⟨next, rest'⟩, here, there⟩ := bind_eq_ok_iff.mp h
    obtain ⟨b, ms, tail, blank, split, rfl⟩ := exists_further fields _ there
    rw [readMember_skipBlanks] at here
    obtain ⟨m, rfl⟩ := exists_member fields here blank split
    exact ⟨tail, rfl, .inl ⟨m, ms, rfl⟩⟩

/-! ### Objects -/

/-- An object as it is written: its members, and the blanks around it. -/
structure Listing where
  before : List Char
  members : List Member
  after : List Char
  blank_before : Blank before
  blank_after : Blank after

/-- The text of an object. -/
def Listing.text (o : Listing) : String :=
  String.ofList (o.before ++
    '\x7b' :: ([','].intercalate (o.members.map Member.text) ++ '\x7d' :: o.after))

/-- The value of the first member with this name. -/
def Listing.value? (o : Listing) (name : String) : Option (List Char) :=
  (o.members.find? (·.name == name)).map Member.value

/-- The text of an array, in the place of an object. -/
def Listing.array (o : Listing) (items : List (List Char)) : String :=
  String.ofList (o.before ++ '[' :: ([','].intercalate items ++ ']' :: o.after))

theorem intercalate_members (m : Member) (ms : List Member) :
    [','].intercalate ((m :: ms).map Member.text) = m.text ++ further ms := by
  induction ms generalizing m with
  | nil => simp [further]
  | cons n ms ih =>
    rw [further_cons, ← ih n]
    simp [List.intercalate_cons_cons]

/-- `readObject` of a listing is `gather` of its members. -/
theorem toOption_readObject_members (fields : Fields field add) (ms : List Member) (record : σ)
    (behind : List Char) :
    (readObject anyName field record
      ([','].intercalate (ms.map Member.text) ++ '\x7d' :: behind)).toOption =
        (gather add ms record).map (·, '\x7d' :: behind) := by
  cases ms with
  | nil => rfl
  | cons m ms =>
    rw [intercalate_members, List.append_assoc]
    exact toOption_readObject fields m ms record behind

/-! ### Items -/

variable {text : List Char} {a : α}

theorem readItem?_first (steady : Steady read) (h : read text = .ok (a, rest)) :
    readItem? read true text = .ok (some a, rest) := by
  obtain ⟨c, tail, first, starts⟩ := steady.starts h
  rw [← steady.blanks, first] at h
  rw [readItem?, first]
  split
  · next same =>
    obtain ⟨rfl, _⟩ := List.cons.inj same
    exact absurd starts (by decide)
  · next same =>
    obtain ⟨rfl, _⟩ := List.cons.inj same
    exact absurd starts (by decide)
  · next same => cases same
  · rw [if_pos rfl, h]
    rfl

theorem readItem?_next (steady : Steady read) (h : read text = .ok (a, rest)) (blank : Blank b) :
    readItem? read false (b ++ ',' :: text) = .ok (some a, rest) := by
  obtain ⟨c, tail, first, starts⟩ := steady.starts h
  rw [← steady.blanks, first] at h
  have comma : skipBlanks (b ++ ',' :: text) = ',' :: text := by
    rw [skipBlanks_append blank]
    exact skipBlanks_of_not_blank (by decide) text
  rw [readItem?, comma]
  simp only [Bool.false_eq_true, if_false, first]
  split
  · next same =>
    obtain ⟨rfl, _⟩ := List.cons.inj same
    exact absurd starts (by decide)
  · rw [h]
    rfl

/-- A value that is read before other text is read alone as well, up to the blanks behind it. -/
theorem Steady.exists_trail (steady : Steady read) (h : whole read text = some a) :
    ∃ trail, Blank trail ∧
      ∀ behind, Ends behind → read (text ++ behind) = .ok (a, trail ++ behind) := by
  obtain ⟨trail, value, blank⟩ := steady.isValue h
  refine ⟨trail, blank, fun behind ends => toOption_eq_some_iff.mp ?_⟩
  rw [steady.toOption_append value blank ends, h]
  rfl

end Relayer.Json
