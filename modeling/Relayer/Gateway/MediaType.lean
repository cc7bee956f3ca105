namespace Relayer.MediaType

/-!
# MediaType — whether a body is announced as JSON

A media type is a type and a subtype, perhaps with a suffix behind a `+`, and parameters behind
semicolons.

* `parse` — type, subtype and suffix, where the parameters are well formed too;
* `isJson` — whether they announce JSON.
-/

/-- The characters of names. -/
def isToken (c : Char) : Bool :=
  c.isAlphanum || "!#$%&'*+-.^_`|~".toList.contains c

/-- The characters between quotes. -/
def isQuotable (c : Char) : Bool := 0x20 ≤ c.toNat && c.toNat < 0x7f

/-- Where among the parameters the reader stands. -/
inductive Spot where
  /-- Before a name. -/
  | start
  /-- In a name. -/
  | name
  /-- Behind the equals sign. -/
  | equals
  /-- In a plain value. -/
  | value
  /-- Behind an opening quote. -/
  | opened
  /-- In a value between quotes. -/
  | quoted
  /-- Behind a closing quote. -/
  | closed

/-- Whether the rest of the parameters is well formed. -/
def parametersFrom : Spot → List Char → Bool
  | .start, [] => true
  | .name, [] => false
  | .equals, [] => true
  | .value, [] => true
  | .opened, [] => false
  | .quoted, [] => false
  | .closed, [] => true
  | .start, c :: rest =>
    if c = ' ' then parametersFrom .start rest else isToken c && parametersFrom .name rest
  | .name, c :: rest =>
    if c = '=' then parametersFrom .equals rest else isToken c && parametersFrom .name rest
  | .equals, c :: rest =>
    if c = '"' then parametersFrom .opened rest else isToken c && parametersFrom .value rest
  | .value, c :: rest =>
    if c = ';' then parametersFrom .start rest else isToken c && parametersFrom .value rest
  | .opened, c :: rest => isQuotable c && parametersFrom .quoted rest
  | .quoted, c :: rest =>
    if c = '"' then parametersFrom .closed rest else isQuotable c && parametersFrom .quoted rest
  | .closed, c :: rest =>
    if c = ';' then parametersFrom .start rest
    else if c = ' ' then parametersFrom .closed rest
    else false

/-- The text in front of the last `+` that is not its first character, and the text behind it. -/
def splitSuffix (name : List Char) : List Char × Option (List Char) :=
  let behind := (name.reverse.takeWhile (· ≠ '+')).reverse
  let front := name.take (name.length - behind.length - 1)
  if front.isEmpty || behind.length = name.length then (name, none) else (front, some behind)

/-- Type, subtype and suffix. -/
def parse (text : List Char) : Option (List Char × List Char × Option (List Char)) :=
  let type := text.takeWhile (· ≠ '/')
  match text.drop type.length with
  | [] => none
  | _ :: rest =>
    let name := rest.takeWhile (· ≠ ';')
    let parameters := (rest.drop name.length).drop 1
    if type.isEmpty || !type.all isToken || !name.all isToken || !parametersFrom .start parameters
    then none
    else if name.isEmpty && name.length < rest.length then none
    else
      let (subtype, suffix) := splitSuffix name
      some (type, subtype, suffix)

/-- Whether a header announces JSON, in whatever letter case. -/
def isJson (header : String) : Bool :=
  match parse (header.toList.map Char.toLower) with
  | some (type, subtype, suffix) =>
    type == "application".toList &&
      (subtype == "json".toList || suffix == some "json".toList)
  | none => false

end Relayer.MediaType
