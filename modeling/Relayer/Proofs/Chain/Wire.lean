import Relayer.Chain.Call
import Relayer.Proofs.Json.Members
import Relayer.Proofs.Json.Spelling

namespace Relayer.Call

open Json

/-!
# Wire — the wire form of `Call`

A call is read from an object or from an array.  The value of a field is decided by the members of
its name alone, wherever they stand: one member fills the field, none leaves its default, and more
than one are an error.

* `fields` — each member changes the draft by its own value;
* `Collected` / `parse_text_eq_ok_iff` — which objects are calls;
* `collected_insert`, `parse_array_inOrder`, `parse_render` — omitted fields, arrays, and calls as
  they are written;
* `wire_form` — the three together.
-/

variable {α : Type} {reader : Reader α} {rest : List Char} {a : α}

/-! ### Fields -/

/-- A value for a field that is still vacant. -/
def vacant (old new : Option α) : Option α := if old.isSome then none else new

theorem toOption_map {β : Type} {x : Except Problem α} {f : α → β} :
    (x.map f).toOption = x.toOption.map f := by
  cases x <;> rfl

section Once

variable {σ : Type} {old : Option α} {set : α → σ} {put : α × List Char → σ × List Char}
  (steady : Steady reader) (puts : ∀ a rest, put (a, rest) = (set a, rest))

include steady puts

theorem once_passes {text : List Char} {s : σ}
    (h : (once old reader text).map put = .ok (s, rest)) :
    ∃ tail, skipBlanks text = ':' :: tail ∧ skip tail = .ok rest := by
  obtain ⟨⟨a, _⟩, found, same⟩ := map_eq_ok_iff.mp h
  obtain ⟨rfl, rfl⟩ := Prod.mk.inj ((puts _ _).symm.trans same)
  rw [once] at found
  split at found
  · cases found
  · obtain ⟨tail, colon, found⟩ := bind_eq_ok_iff.mp found
    exact ⟨tail, expect_eq_ok_iff.mp colon, steady.skips found⟩

theorem toOption_once {gap value trail behind : List Char} (gap_blank : Blank gap)
    (passed : skip value = .ok trail) (blank : Blank trail) (ends : Ends behind) :
    ((once old reader (gap ++ ':' :: (value ++ behind))).map put).toOption =
      ((vacant old (whole reader value)).map set).map (·, trail ++ behind) := by
  have colon : skipBlanks (gap ++ ':' :: (value ++ behind)) = ':' :: (value ++ behind) := by
    rw [skipBlanks_append gap_blank]
    exact skipBlanks_of_not_blank (by decide) _
  have same := steady.toOption_append passed blank ends
  rw [once, vacant]
  split
  · rfl
  · rw [memberValue, colon, expect, if_pos rfl]
    show ((reader (value ++ behind)).map put).toOption = _
    rw [toOption_map, same, Option.map_map, Option.map_map]
    exact congrArg (fun f => (whole reader value).map f) (funext fun a => puts a _)

end Once

/-- The draft with one more field, as the whole value gives it. -/
def Draft.add (name : String) (value : List Char) (d : Draft) : Option Draft :=
  if name = "to" then
    (vacant d.recipient (whole (readAs Address.ofWire?) value)).map fun a =>
      { d with recipient := some a }
  else if name = "value" then
    (vacant d.value (whole (readAs Amount.ofHex?) value)).map fun v =>
      { d with value := some v }
  else if name = "data" then
    (vacant d.data (whole (readAs Hex.toBytes?) value)).map fun b =>
      { d with data := some b }
  else if name = "gas_limit" then
    (vacant d.gasLimit (whole (readNullable readWord) value)).map fun g =>
      { d with gasLimit := some g }
  else some d

theorem fields : Fields Draft.field Draft.add where
  passes {name d d' text rest} h := by
    rw [Draft.field] at h
    split at h
    · exact once_passes (steady_readAs _) (fun _ _ => rfl) h
    split at h
    · exact once_passes (steady_readAs _) (fun _ _ => rfl) h
    split at h
    · exact once_passes (steady_readAs _) (fun _ _ => rfl) h
    split at h
    · exact once_passes steady_readWord.nullable (fun _ _ => rfl) h
    · obtain ⟨tail, colon, h⟩ := bind_eq_ok_iff.mp h
      obtain ⟨_, passed, ⟨⟩⟩ := bind_eq_ok_iff.mp h
      exact ⟨tail, expect_eq_ok_iff.mp colon, passed⟩
  reads {gap value trail behind} name d gap_blank passed blank ends := by
    rw [Draft.field, Draft.add]
    split
    · exact toOption_once (steady_readAs _) (fun _ _ => rfl) gap_blank passed blank ends
    split
    · exact toOption_once (steady_readAs _) (fun _ _ => rfl) gap_blank passed blank ends
    split
    · exact toOption_once (steady_readAs _) (fun _ _ => rfl) gap_blank passed blank ends
    split
    · exact toOption_once steady_readWord.nullable (fun _ _ => rfl) gap_blank passed blank ends
    · -- A member of any other name is passed over.
      have colon : skipBlanks (gap ++ ':' :: (value ++ behind)) = ':' :: (value ++ behind) := by
        rw [skipBlanks_append gap_blank]
        exact skipBlanks_of_not_blank (by decide) _
      obtain ⟨core, _, rfl, again⟩ := skip_takes passed
      rw [colon, expect, if_pos rfl]
      show (skip _ >>= _).toOption = _
      rw [List.append_assoc, again _ (blank.ends ends)]
      rfl

/-! ### What the members say about a field -/

/-- The values of the members of one name, as their reader returns them. -/
def column (name : String) (reader : Reader α) (ms : List Member) : List (Option α) :=
  (ms.filter (·.name == name)).map fun m => whole reader m.value

/-- A field after some values: filled by a single one if it is vacant, unchanged by none. -/
def settle : Option α → List (Option α) → Option (Option α)
  | old, [] => some old
  | none, [x] => x.map some
  | _, _ => none

theorem settle_cons (old x : Option α) (others : List (Option α)) :
    settle old (x :: others) = (vacant old x).bind fun a => settle (some a) others := by
  cases old <;> cases x <;> cases others <;> simp [settle, vacant]

theorem column_cons (name : String) (reader : Reader α) (m : Member) (ms : List Member) :
    column name reader (m :: ms) =
      if m.name = name then whole reader m.value :: column name reader ms
      else column name reader ms := by
  by_cases same : m.name = name <;> simp [column, same]

/-- A draft after some members. -/
def Draft.settle (d : Draft) (ms : List Member) : Option Draft := do
  let recipient ← Call.settle d.recipient (column "to" (readAs Address.ofWire?) ms)
  let value ← Call.settle d.value (column "value" (readAs Amount.ofHex?) ms)
  let data ← Call.settle d.data (column "data" (readAs Hex.toBytes?) ms)
  let gasLimit ← Call.settle d.gasLimit (column "gas_limit" (readNullable readWord) ms)
  return ⟨recipient, value, data, gasLimit⟩

/-- `gather` settles each field by the members of its name. -/
theorem gather_eq_settle (ms : List Member) (d : Draft) : gather Draft.add ms d = d.settle ms := by
  induction ms generalizing d with
  | nil => rfl
  | cons m ms ih =>
    have step : gather Draft.add (m :: ms) d =
        (Draft.add m.name m.value d).bind (gather Draft.add ms) := by
      simp only [gather, List.foldlM_cons]
      rfl
    rw [step, Draft.add, Draft.settle]
    simp only [column_cons]
    -- A member lengthens the column of its own name alone.
    by_cases recipient : m.name = "to"
    · simp only [recipient, reduceIte, String.reduceEq, settle_cons]
      cases vacant d.recipient (whole (readAs Address.ofWire?) m.value) with
      | none => rfl
      | some a => exact ih _
    by_cases value : m.name = "value"
    · simp only [value, reduceIte, String.reduceEq, settle_cons]
      cases vacant d.value (whole (readAs Amount.ofHex?) m.value) with
      | none => simp
      | some v => exact ih _
    by_cases data : m.name = "data"
    · simp only [data, reduceIte, String.reduceEq, settle_cons]
      cases vacant d.data (whole (readAs Hex.toBytes?) m.value) with
      | none => simp
      | some b => exact ih _
    by_cases gas : m.name = "gas_limit"
    · simp only [gas, reduceIte, String.reduceEq, settle_cons]
      cases vacant d.gasLimit (whole (readNullable readWord) m.value) with
      | none => simp
      | some g => exact ih _
    · simp only [if_neg recipient, if_neg value, if_neg data, if_neg gas]
      exact ih d

/-- The members fill the fields of a draft, each by the members of its name. -/
structure Collected (ms : List Member) (d : Draft) : Prop where
  recipient : settle none (column "to" (readAs Address.ofWire?) ms) = some d.recipient
  value : settle none (column "value" (readAs Amount.ofHex?) ms) = some d.value
  data : settle none (column "data" (readAs Hex.toBytes?) ms) = some d.data
  gasLimit : settle none (column "gas_limit" (readNullable readWord) ms) = some d.gasLimit

variable {ms front back : List Member} {m : Member} {d : Draft} {c : Call} {name : String}

theorem gather_empty_eq_some_iff : gather Draft.add ms .empty = some d ↔ Collected ms d := by
  rw [gather_eq_settle]
  simp only [Draft.settle, Draft.empty, Option.bind_eq_bind, Option.bind_eq_some_iff,
    Option.pure_def, Option.some.injEq]
  constructor
  · rintro ⟨_, recipient, _, value, _, data, _, gasLimit, rfl⟩
    exact ⟨recipient, value, data, gasLimit⟩
  · rintro ⟨recipient, value, data, gasLimit⟩
    exact ⟨_, recipient, _, value, _, data, _, gasLimit, rfl⟩

/-! ### Objects -/

theorem read_object {text : List Char} (h : skipBlanks text = '\x7b' :: rest) :
    read text = (do
      let (draft, rest) ← readObject anyName Draft.field Draft.empty rest
      let call ← draft.finish
      return (call, ← closing '\x7d' rest)) := by
  rw [read, h]
  rfl

theorem closing_mark {mark : Char} {b : List Char} (visible : ¬IsBlank mark) (blank : Blank b)
    (rest : List Char) : closing mark (b ++ mark :: rest) = .ok rest := by
  rw [closing, skipBlanks_append blank, skipBlanks_of_not_blank visible]
  exact expect_eq_ok_iff.mpr rfl

/-- An object is parsed as a call exactly where its members are `Collected` into its fields. -/
theorem parse_text_eq_ok_iff (o : Listing) :
    parse o.text = .ok c ↔ ∃ d, Collected o.members d ∧ d.finish = .ok c := by
  have brace : skipBlanks (o.before ++ '\x7b' ::
      ([','].intercalate (o.members.map Member.text) ++ '\x7d' :: o.after)) =
        '\x7b' :: ([','].intercalate (o.members.map Member.text) ++ '\x7d' :: o.after) := by
    rw [skipBlanks_append o.blank_before]
    exact skipBlanks_of_not_blank (by decide) _
  -- The members are read as `gather` puts them together, up to the closing brace.
  have members (d : Draft) (rest : List Char) :
      readObject anyName Draft.field Draft.empty
        ([','].intercalate (o.members.map Member.text) ++ '\x7d' :: o.after) = .ok (d, rest) ↔
      Collected o.members d ∧ rest = '\x7d' :: o.after := by
    rw [← toOption_eq_some_iff, toOption_readObject_members fields, ← gather_empty_eq_some_iff,
      Option.map_eq_some_iff]
    constructor
    · rintro ⟨_, settled, ⟨⟩⟩
      exact ⟨settled, rfl⟩
    · rintro ⟨settled, rfl⟩
      exact ⟨d, settled, rfl⟩
  have closed : closing '\x7d' ('\x7d' :: o.after) = .ok o.after :=
    closing_mark (b := []) (by decide) rfl o.after
  rw [parse, parseAs_eq_ok_iff, Listing.text, String.toList_ofList, read_object brace]
  constructor
  · rintro ⟨rest, h, _⟩
    obtain ⟨⟨d, _⟩, gathered, h⟩ := bind_eq_ok_iff.mp h
    obtain ⟨settled, rfl⟩ := (members d _).mp gathered
    obtain ⟨call, finished, h⟩ := bind_eq_ok_iff.mp h
    obtain ⟨_, _, ⟨⟩⟩ := bind_eq_ok_iff.mp h
    exact ⟨d, settled, finished⟩
  · rintro ⟨d, settled, finished⟩
    exact ⟨o.after, bind_eq_ok_iff.mpr ⟨_, (members d _).mpr ⟨settled, rfl⟩, bind_eq_ok_iff.mpr
      ⟨c, finished, bind_eq_ok_iff.mpr ⟨_, closed, rfl⟩⟩⟩, o.blank_after⟩

/-- A text that starts an object and is parsed as a call is a `Listing`. -/
theorem exists_listing {text : String} (object : (skipBlanks text.toList).head? = some '\x7b')
    (h : parse text = .ok c) : ∃ o : Listing, o.text = text := by
  obtain ⟨tail, first⟩ := List.head?_eq_some_iff.mp object
  obtain ⟨after, h, blank_after⟩ := parseAs_eq_ok_iff.mp h
  rw [read_object first] at h
  obtain ⟨⟨d, rest⟩, found, h⟩ := bind_eq_ok_iff.mp h
  obtain ⟨call, finished, h⟩ := bind_eq_ok_iff.mp h
  obtain ⟨after', closed, ⟨⟩⟩ := bind_eq_ok_iff.mp h
  obtain ⟨before, blank_before, split, _⟩ := exists_blank first
  obtain ⟨last, rfl, ⟨m, ms, rfl⟩ | rfl⟩ := exists_members fields found
  · have last_closed : closing '\x7d' ('\x7d' :: last) = .ok last :=
      closing_mark (b := []) (by decide) rfl last
    obtain rfl := Except.ok.inj (closed.symm.trans last_closed)
    refine ⟨⟨before, m :: ms, after, blank_before, blank_after⟩, ?_⟩
    rw [← String.toList_inj, Listing.text, String.toList_ofList, split, intercalate_members,
      List.append_assoc]
  · cases finished

/-! ### Values as they are written -/

theorem whole_address (a : Address) :
    whole (readAs Address.ofWire?) (Json.string a.toHex).write = some a := by
  rw [write, whole_quote, Address.ofWire?_toHex]

theorem whole_amount (v : Amount) :
    whole (readAs Amount.ofHex?) (Json.string v.toHex).write = some v := by
  rw [write, whole_quote, Amount.ofHex?_toHex]

theorem whole_bytes (b : List UInt8) :
    whole (readAs Hex.toBytes?) (Json.string (Hex.ofBytes b)).write = some b := by
  rw [write, whole_quote, Hex.toBytes?_ofBytes]

/-! ### Fields that are left out -/

/-- The optional members, with the values of their defaults. -/
def defaults : List (String × Json) :=
  [("value", .string "0x0"), ("data", .string "0x"), ("gas_limit", .null)]

/-- A member that states the default of its field. -/
def IsDefault (m : Member) : Prop :=
  ∃ j, (m.name, j) ∈ defaults ∧ Json.parse (String.ofList m.value) = .ok j

theorem column_insert_of_ne (h : m.name ≠ name) :
    column name reader (front ++ m :: back) = column name reader (front ++ back) := by
  simp [column, h]

theorem column_eq_nil (reader : Reader α) (absent : ∀ k ∈ ms, k.name ≠ name) :
    column name reader ms = [] := by
  rw [column, List.map_eq_nil_iff, List.filter_eq_nil_iff]
  simpa using absent

theorem column_insert_self (h : m.name = name) (absent : ∀ k ∈ front ++ back, k.name ≠ name) :
    column name reader (front ++ m :: back) = [whole reader m.value] := by
  have none_before := column_eq_nil reader fun k here => absent k (List.mem_append_left _ here)
  have none_behind := column_eq_nil reader fun k here => absent k (List.mem_append_right _ here)
  rw [column, List.map_eq_nil_iff] at none_before none_behind
  simp [column, h, none_before, none_behind]

/-- A field without a member of its name is filled by an inserted one. -/
theorem settle_insert {x : Option α} (h : m.name = name)
    (absent : ∀ k ∈ front ++ back, k.name ≠ name)
    (settled : settle none (column name reader (front ++ back)) = some x)
    (made : whole reader m.value = some a) :
    x = none ∧ settle none (column name reader (front ++ m :: back)) = some (some a) := by
  rw [column_eq_nil reader absent] at settled
  rw [column_insert_self h absent, made]
  exact ⟨(Option.some.inj settled).symm, rfl⟩

theorem collected_insert (default : IsDefault m) (absent : ∀ k ∈ front ++ back, k.name ≠ m.name)
    (settled : Collected (front ++ back) d) :
    ∃ d', Collected (front ++ m :: back) d' ∧ d'.finish = d.finish := by
  obtain ⟨j, listed, made⟩ := default
  -- The fields of other names are settled as before; the field left out is now filled, with what
  -- `finish` would have put there.
  have others {β : Type} {reader : Reader β} {name : String} {x : Option β} (other : m.name ≠ name)
      (h : settle none (column name reader (front ++ back)) = some x) :
      settle none (column name reader (front ++ m :: back)) = some x := by
    rw [column_insert_of_ne other]
    exact h
  obtain ⟨recipient, value, data, gasLimit⟩ := settled
  simp only [defaults, List.mem_cons, Prod.mk.injEq, List.not_mem_nil, or_false] at listed
  obtain ⟨named, rfl⟩ | ⟨named, rfl⟩ | ⟨named, rfl⟩ := listed
  · have zero : whole (readAs Amount.ofHex?) m.value = some .zero := by
      rw [whole_of_parse_string made]
      exact Amount.ofHex?_toHex .zero
    obtain ⟨left_out, filled⟩ := settle_insert named (named ▸ absent) value zero
    refine ⟨{ d with value := some .zero }, ⟨others ?_ recipient, filled, others ?_ data,
      others ?_ gasLimit⟩, ?_⟩
    · simp [named]
    · simp [named]
    · simp [named]
    · simp [Draft.finish, left_out]
  · have empty : whole (readAs Hex.toBytes?) m.value = some [] := by
      rw [whole_of_parse_string made]
      exact Hex.toBytes?_ofBytes []
    obtain ⟨left_out, filled⟩ := settle_insert named (named ▸ absent) data empty
    refine ⟨{ d with data := some [] }, ⟨others ?_ recipient, others ?_ value, filled,
      others ?_ gasLimit⟩, ?_⟩
    · simp [named]
    · simp [named]
    · simp [named]
    · simp [Draft.finish, left_out]
  · have open_limit : whole (readNullable readWord) m.value = some none :=
      whole_of_parse_null made readWord
    obtain ⟨left_out, filled⟩ := settle_insert named (named ▸ absent) gasLimit open_limit
    refine ⟨{ d with gasLimit := some none }, ⟨others ?_ recipient, others ?_ value, others ?_ data,
      filled⟩, ?_⟩
    · simp [named]
    · simp [named]
    · simp [named]
    · simp [Draft.finish, left_out]

/-! ### Arrays -/

theorem read_array {text : List Char} (h : skipBlanks text = '[' :: rest) :
    read text = (do
      let (draft, rest) ← Draft.ofItems rest
      let call ← draft.finish
      return (call, ← closing ']' rest)) := by
  rw [read, h]
  rfl

/-- The values of the four fields in order are parsed as those fields. -/
theorem ofItems_intercalate {target value data gas : List Char} {recipient : Address}
    {amount : Amount}
    {bytes : List UInt8} {limit : Option UInt64}
    (is_recipient : whole (readAs Address.ofWire?) target = some recipient)
    (is_amount : whole (readAs Amount.ofHex?) value = some amount)
    (is_data : whole (readAs Hex.toBytes?) data = some bytes)
    (is_limit : whole (readNullable readWord) gas = some limit) (after : List Char) :
    ∃ trail, Blank trail ∧
      Draft.ofItems ([','].intercalate [target, value, data, gas] ++ ']' :: after) =
        .ok (⟨some recipient, some amount, some bytes, some limit⟩, trail ++ ']' :: after) := by
  have items : [','].intercalate [target, value, data, gas] ++ ']' :: after =
      target ++ ',' :: (value ++ ',' :: (data ++ ',' :: (gas ++ ']' :: after))) := by
    simp [List.intercalate_cons_cons]
  obtain ⟨trail₁, blank₁, read₁⟩ := (steady_readAs _).exists_trail is_recipient
  obtain ⟨trail₂, blank₂, read₂⟩ := (steady_readAs _).exists_trail is_amount
  obtain ⟨trail₃, blank₃, read₃⟩ := (steady_readAs _).exists_trail is_data
  obtain ⟨trail₄, blank₄, read₄⟩ := steady_readWord.nullable.exists_trail is_limit
  have comma (tail : List Char) : Ends (',' :: tail) := stops_cons (by decide)
  have bracket : Ends (']' :: after) := stops_cons (by decide)
  refine ⟨trail₄, blank₄, ?_⟩
  rw [items, Draft.ofItems]
  refine bind_eq_ok_iff.mpr ⟨_, readItem?_first (steady_readAs _) (read₁ _ (comma _)), ?_⟩
  refine bind_eq_ok_iff.mpr ⟨_, readItem?_next (steady_readAs _) (read₂ _ (comma _)) blank₁, ?_⟩
  refine bind_eq_ok_iff.mpr ⟨_, readItem?_next (steady_readAs _) (read₃ _ (comma _)) blank₂, ?_⟩
  exact bind_eq_ok_iff.mpr
    ⟨_, readItem?_next steady_readWord.nullable (read₄ _ bracket) blank₃, rfl⟩

/-- The values of a listing in the order of the fields, with the defaults of omitted ones. -/
def inOrder (o : Listing) : List (List Char) :=
  (o.value? "to").getD [] :: defaults.map fun p => (o.value? p.1).getD p.2.write

theorem whole_value? {o : Listing} {x : Option α} (default : List Char)
    (settled : settle none (column name reader o.members) = some x) :
    whole reader ((o.value? name).getD default) = x.or (whole reader default) := by
  rw [Listing.value?, ← List.head?_filter]
  rw [column] at settled
  cases named : o.members.filter (·.name == name) with
  | nil =>
    rw [named] at settled
    obtain rfl := Option.some.inj settled
    rfl
  | cons m ms =>
    rw [named, List.map_cons, settle_cons] at settled
    obtain ⟨a, made, settled⟩ := Option.bind_eq_some_iff.mp settled
    cases ms with
    | nil =>
      obtain rfl := Option.some.inj settled
      exact made
    | cons k ms => simp [settle] at settled

theorem parse_array_inOrder (o : Listing) (h : parse o.text = .ok c) :
    parse (o.array (inOrder o)) = .ok c := by
  obtain ⟨d, ⟨recipient, value, data, gasLimit⟩, finished⟩ := (parse_text_eq_ok_iff o).mp h
  cases target : d.recipient with
  | none =>
    rw [Draft.finish, target] at finished
    cases finished
  | some a =>
    -- Every item is read as the field of the draft, or as its default where that is `none`.
    have is_recipient : whole (readAs Address.ofWire?) ((o.value? "to").getD []) = some a := by
      rw [whole_value? [] recipient, target]
      rfl
    have is_amount :
        whole (readAs Amount.ofHex?) ((o.value? "value").getD (Json.string "0x0").write) =
          some (d.value.getD .zero) := by
      have zero : whole (readAs Amount.ofHex?) (Json.string "0x0").write = some .zero :=
        whole_amount .zero
      rw [whole_value? _ value, zero, Option.or_some]
    have is_data : whole (readAs Hex.toBytes?) ((o.value? "data").getD (Json.string "0x").write) =
        some (d.data.getD []) := by
      have empty : whole (readAs Hex.toBytes?) (Json.string "0x").write = some [] :=
        whole_bytes []
      rw [whole_value? _ data, empty, Option.or_some]
    have is_limit : whole (readNullable readWord) ((o.value? "gas_limit").getD Json.null.write) =
        some (d.gasLimit.getD none) := by
      rw [whole_value? _ gasLimit, whole_null, Option.or_some]
    -- So the four items in order are read as the four fields.
    obtain ⟨trail, blank, read_items⟩ :=
      ofItems_intercalate is_recipient is_amount is_data is_limit o.after
    have bracket :
        skipBlanks (o.before ++ '[' :: ([','].intercalate (inOrder o) ++ ']' :: o.after)) =
        '[' :: ([','].intercalate (inOrder o) ++ ']' :: o.after) := by
      rw [skipBlanks_append o.blank_before]
      exact skipBlanks_of_not_blank (by decide) _
    rw [Draft.finish, target] at finished
    rw [parse, parseAs_eq_ok_iff, Listing.array, String.toList_ofList, read_array bracket]
    exact ⟨o.after, bind_eq_ok_iff.mpr ⟨_, read_items, bind_eq_ok_iff.mpr ⟨c, finished,
      bind_eq_ok_iff.mpr ⟨_, closing_mark (by decide) blank o.after, rfl⟩⟩⟩, o.blank_after⟩

/-! ### What is written is read back -/

/-- A member as it is written without blanks. -/
def member (name : String) (value : Json) (valued : IsValue value.write) : Member :=
  ⟨name, quote name, value.write, parseAs_quote name, valued⟩

section Written

variable (c : Call)

/-- The object that `render` writes. -/
def listing : Listing where
  before := []
  members :=
    [ member "to" _ ((steady_readAs _).isValue (whole_address c.recipient)),
      member "value" _ ((steady_readAs _).isValue (whole_amount c.value)),
      member "data" _ ((steady_readAs _).isValue (whole_bytes c.data)),
      member "gas_limit" _ (steady_readWord.nullable.isValue (whole_ofOption c.gasLimit)) ]
  after := []
  blank_before := rfl
  blank_after := rfl

theorem text_listing : c.listing.text = c.toJson.render := by
  simp [Listing.text, listing, member, Member.text, render, toJson, write, writeMembers,
    List.intercalate_cons_cons]

theorem parse_render : parse c.toJson.render = .ok c := by
  rw [← text_listing, parse_text_eq_ok_iff]
  refine ⟨⟨some c.recipient, some c.value, some c.data, some c.gasLimit⟩, ⟨?_, ?_, ?_, ?_⟩, rfl⟩
  · simp [listing, member, column, settle, whole_address]
  · simp [listing, member, column, settle, whole_amount]
  · simp [listing, member, column, settle, whole_bytes]
  · simp [listing, member, column, settle, whole_ofOption]

end Written

/-- The wire form keeps every call: the text of a call is read as that call; and a text with an
    object that is read as a call is an object as it is written, which may say what it leaves out,
    wherever among its members, or give its four values as an array, and is the same call. -/
theorem wire_form :
    (∀ c : Call, parse c.toJson.render = .ok c) ∧
    (∀ (text : String) (c : Call), (skipBlanks text.toList).head? = some '\x7b' →
      parse text = .ok c → ∃ o : Listing, o.text = text) ∧
    ∀ (o : Listing) (c : Call), parse o.text = .ok c →
      (∀ (front back : List Member) (m : Member), o.members = front ++ back → IsDefault m →
        (∀ k ∈ o.members, k.name ≠ m.name) →
        parse { o with members := front ++ m :: back }.text = .ok c) ∧
      parse (o.array (inOrder o)) = .ok c := by
  refine ⟨parse_render, fun _ _ => exists_listing, fun o c h => ⟨?_, parse_array_inOrder o h⟩⟩
  intro front back m split default absent
  obtain ⟨d, settled, finished⟩ := (parse_text_eq_ok_iff o).mp h
  rw [split] at settled absent
  obtain ⟨d', settled', same⟩ := collected_insert default absent settled
  exact (parse_text_eq_ok_iff _).mpr ⟨d', settled', same.trans finished⟩

/-- The object that names a recipient and nothing else. -/
def recipientAlone (a : Address) : Listing where
  before := []
  members := [member "to" _ ((steady_readAs _).isValue (whole_address a))]
  after := []
  blank_before := rfl
  blank_after := rfl

theorem parse_recipientAlone (a : Address) : parse (recipientAlone a).text = .ok (plain a []) := by
  refine (parse_text_eq_ok_iff _).mpr ⟨⟨some a, none, none, none⟩, ⟨?_, ?_, ?_, ?_⟩, rfl⟩
  · show settle none [whole (readAs Address.ofWire?) (Json.string a.toHex).write] = _
    rw [whole_address]
    rfl
  · simp [recipientAlone, member, column, settle]
  · simp [recipientAlone, member, column, settle]
  · simp [recipientAlone, member, column, settle]

example : (recipientAlone (.repeated 9)).text =
    "\x7b\"to\":\"0x0909090909090909090909090909090909090909\"\x7d" := by
  rfl

/-- The member that states a value of zero. -/
def noValue : Member :=
  member "value" (.string "0x0")
    ((steady_readAs some).isValue (a := "0x0") (whole_quote some "0x0"))

/-- An object that names a recipient alone may say before it that no value is moved, and may be an
    array of four. -/
theorem wire_form_recipientAlone :
    parse { recipientAlone (.repeated 9) with
      members := noValue :: (recipientAlone (.repeated 9)).members }.text =
        .ok (plain (.repeated 9) []) ∧
    parse ((recipientAlone (.repeated 9)).array (inOrder (recipientAlone (.repeated 9)))) =
      .ok (plain (.repeated 9) []) := by
  obtain ⟨inserted, ordered⟩ :=
    wire_form.2.2 (recipientAlone (.repeated 9)) _ (parse_recipientAlone (.repeated 9))
  have default : IsDefault noValue :=
    ⟨.string "0x0", by simp [defaults, noValue, member], parse_quote "0x0"⟩
  refine ⟨inserted [] _ noValue rfl default ?_, ordered⟩
  simp [recipientAlone, noValue, member]

end Relayer.Call
