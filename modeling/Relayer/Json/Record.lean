import Relayer.Json.Reader

namespace Relayer.Json

/-!
# Record — records read by a table of their fields

* `Field` — one field: its name, whether it must be there, and what its value does to the record;
* `readRecord` — a record written as an object;
* `readTuple` — a record written as the list of its values;
* `readEither` — a record written in either way;
* `readList` — things of one kind.
-/

variable {σ : Type}

/-! ### Fields -/

/-- One field of a record. -/
structure Field (σ : Type) where
  name : String
  /-- Whether an object without it is refused. -/
  needed : Bool
  read : σ → Reader σ

namespace Field

/-- A field that must be there and is kept. -/
def kept {α : Type} (name : String) (read : Reader α) (put : α → σ → σ) : Field σ where
  name
  needed := true
  read record text := (read text).map fun (a, rest) => (put a record, rest)

/-- A field that may be left out or `null`, and is kept otherwise. -/
def keptIfAny {α : Type} (name : String) (read : Reader α) (put : Option α → σ → σ) :
    Field σ :=
  { kept name (readNullable read) put with needed := false }

/-- A field that must be there and is only looked at. -/
def checked {α : Type} (name : String) (read : Reader α) : Field σ :=
  kept name read fun _ record => record

/-- A field that may be left out or `null`, and is only looked at otherwise. -/
def checkedIfAny {α : Type} (name : String) (read : Reader α) : Field σ :=
  keptIfAny name read fun _ record => record

end Field

/-! ### Objects -/

/-- A record in the making, with the names of the fields that came. -/
structure Filled (σ : Type) where
  record : σ
  seen : List String

/-- The value of a member behind its name.  A known field may come once; the value of an unknown one
    is handed to `other`. -/
def Filled.field (fields : List (Field σ)) (other : Reader Unit) (name : String) (f : Filled σ) :
    Reader (Filled σ) := fun text => do
  let text ← expect ':' (skipBlanks text)
  match fields.find? (·.name == name) with
  | none => (other text).map fun (_, rest) => (f, rest)
  | some field =>
    if f.seen.contains name then .error .mismatch
    else (field.read f.record text).map fun (record, rest) => (⟨record, name :: f.seen⟩, rest)

/-- The record, if every field came that is needed. -/
def Filled.finish (fields : List (Field σ)) (f : Filled σ) : Except Problem σ :=
  if fields.all fun field => !field.needed || f.seen.contains field.name then .ok f.record
  else .error .mismatch

/-- A record written as an object. -/
def readRecord (name : Reader String) (fields : List (Field σ)) (other : Reader Unit) (blank : σ)
    (text : List Char) : Except Problem (σ × List Char) :=
  match skipBlanks text with
  | [] => .error .truncated
  | '\x7b' :: rest => do
    let (filled, rest) ← readObject name (Filled.field fields other) ⟨blank, []⟩ rest
    let record ← filled.finish fields
    return (record, ← closing '\x7d' rest)
  | text => .error (wanted text)

/-! ### Lists -/

/-- The values of the fields in order, none of which may be missing. -/
def readItems : List (Field σ) → (first : Bool) → σ → Reader σ
  | [], _, record, text => .ok (record, text)
  | field :: fields, first, record, text => do
    let (item, rest) ← readItem? (field.read record) first text
    match item with
    | some record => readItems fields false record rest
    | none => .error .mismatch

/-- A record written as the list of its values. -/
def readTuple (fields : List (Field σ)) (blank : σ) (text : List Char) :
    Except Problem (σ × List Char) :=
  match skipBlanks text with
  | '[' :: rest => do
    let (record, rest) ← readItems fields true blank rest
    return (record, ← closing ']' rest)
  | [] => .error .truncated
  | text => .error (wanted text)

/-- A record written as an object, whose unknown members are passed over, or as a list. -/
def readEither (fields : List (Field σ)) (blank : σ) (text : List Char) :
    Except Problem (σ × List Char) :=
  match skipBlanks text with
  | '[' :: rest => readTuple fields blank ('[' :: rest)
  | text =>
    let other (text : List Char) := (skip text).map fun rest => ((), rest)
    readRecord anyName fields other blank text

/-- A list of things of one kind, behind its opening bracket and `first` if no item came before. -/
def readListFrom {α : Type} (read : Reader α) : (fuel : Nat) → (first : Bool) → Reader (List α)
  | 0, _, _ => .error .malformed
  | fuel + 1, first, text => do
    let (item, rest) ← readItem? read first text
    match item with
    | some a =>
      let (items, rest) ← readListFrom read fuel false rest
      return (a :: items, rest)
    | none => return ([], ← closing ']' rest)

/-- A list of things of one kind. -/
def readList {α : Type} (read : Reader α) (text : List Char) :
    Except Problem (List α × List Char) :=
  match skipBlanks text with
  | '[' :: rest => readListFrom read (rest.length + 1) true rest
  | [] => .error .truncated
  | text => .error (wanted text)

end Relayer.Json
