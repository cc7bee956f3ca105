import Relayer.Json.Basic

namespace Relayer.Json

/-!
# Reader — values from text

Reading goes from left to right and stops at the first fault, which is one of three: the text is
no JSON (`malformed`), it ends too early (`truncated`), or it is JSON of another shape than the
one wanted (`mismatch`).

* `Problem` — the three faults;
* `quoted` / `numeral` — strings and numbers;
* `value` — any value, with a bound on its depth;
* `skip` — any value, when only its extent matters;
* `wanted` — the fault where another kind of value was wanted;
* `readObject` / `readItem?` — the members of an object or the items of an array, each handed to a
  reader of its own.
-/

/-- What is wrong with a text. -/
inductive Problem where
  | malformed
  | mismatch
  | truncated
  deriving DecidableEq, Repr

/-- A reader answers a value and the text behind it. -/
abbrev Reader (α : Type) := List Char → Except Problem (α × List Char)

/-- Leave out leading blanks. -/
def skipBlanks : List Char → List Char
  | c :: rest => if c = ' ' ∨ c = '\n' ∨ c = '\t' ∨ c = '\r' then skipBlanks rest else c :: rest
  | [] => []

/-- The fault where a character other than the wanted one stands, or none at all. -/
def unexpected : List Char → Problem
  | [] => .truncated
  | _ :: _ => .malformed

/-- Pass over one given character. -/
def expect (c : Char) : List Char → Except Problem (List Char)
  | [] => .error .truncated
  | d :: rest => if c = d then .ok rest else .error .malformed

/-- Pass over a given word. -/
def expectAll : List Char → List Char → Except Problem (List Char)
  | [], text => .ok text
  | c :: word, text => do expectAll word (← expect c text)

/-! ### Strings -/

/-- Where in a string the reader stands. -/
inductive Spot where
  /-- Between characters. -/
  | plain
  /-- Behind a backslash. -/
  | escaped
  /-- Behind `count` digits of a number with that value, perhaps the second half of a pair. -/
  | digits (first : Option Nat) (count value : Nat)
  /-- Behind the first half of a pair, where the backslash of the second is due. -/
  | pairMark (first : Nat)
  /-- Behind that backslash, where its letter is due. -/
  | pairLetter (first : Nat)

/-- How many bytes a text takes. -/
def byteCount (text : List Char) : Nat := text.foldl (fun n c => n + c.utf8Size) 0

/-- The character that a letter behind a backslash stands for. -/
def escapeOf? (c : Char) : Option Char :=
  if c = '"' ∨ c = '\\' ∨ c = '/' then some c
  else if c = 'b' then some '\x08'
  else if c = 'f' then some '\x0c'
  else if c = 'n' then some '\n'
  else if c = 'r' then some '\r'
  else if c = 't' then some '\t'
  else none

/-- What follows a complete number of four digits: the character it denotes, the wait for the
    second half of a pair, or nothing where the halves do not fit. -/
def denoted (first : Option Nat) (value : Nat) : Option (Spot × List Char) :=
  match first with
  | none =>
    if 0xDC00 ≤ value ∧ value ≤ 0xDFFF then none
    else if 0xD800 ≤ value ∧ value ≤ 0xDBFF then some (.pairMark value, [])
    else some (.plain, [Char.ofNat value])
  | some high =>
    if 0xDC00 ≤ value ∧ value ≤ 0xDFFF then
      some (.plain, [Char.ofNat (0x10000 + (high - 0xD800) * 0x400 + (value - 0xDC00))])
    else none

/-- The rest of a string behind its opening quote, with `read` the characters so far in reverse.
    A `strict` reader refuses halves of pairs that stand alone; the other one leaves them out. -/
def quotedFrom (strict : Bool) : Spot → List Char → Reader (List Char)
  | _, _, [] => .error .truncated
  | .plain, read, c :: rest =>
    if c = '"' then .ok (read.reverse, rest)
    else if c = '\\' then quotedFrom strict .escaped read rest
    else if c.toNat < 0x20 then .error .malformed
    else quotedFrom strict .plain (c :: read) rest
  | .escaped, read, c :: rest =>
    if c = 'u' then quotedFrom strict (.digits none 0 0) read rest
    else match escapeOf? c with
      | some d => quotedFrom strict .plain (d :: read) rest
      | none => .error .malformed
  | .digits first count value, read, c :: rest =>
    match Hex.value? c with
    | none =>
      if 4 ≤ count + byteCount (c :: rest) then .error .malformed else .error .truncated
    | some digit =>
      let value := 16 * value + digit
      if count < 3 then quotedFrom strict (.digits first (count + 1) value) read rest
      else if strict then
        match denoted first value with
        | some (spot, chars) => quotedFrom strict spot (chars ++ read) rest
        | none => .error .malformed
      else quotedFrom strict .plain read rest
  | .pairMark first, read, c :: rest =>
    if c = '\\' then quotedFrom strict (.pairLetter first) read rest else .error .malformed
  | .pairLetter first, read, c :: rest =>
    if c = 'u' then quotedFrom strict (.digits (some first) 0 0) read rest else .error .malformed

/-- A string behind its opening quote. -/
def quoted (strict : Bool) (text : List Char) : Except Problem (List Char × List Char) :=
  quotedFrom strict .plain [] text

/-! ### Numbers -/

/-- At least one digit. -/
def someDigits (text : List Char) : Except Problem (List Char × List Char) :=
  match text.takeWhile Char.isDigit with
  | [] => .error (unexpected text)
  | digits => .ok (digits, text.dropWhile Char.isDigit)

/-- The digits before the point: a zero alone, or digits that start with another one. -/
def wholePart (text : List Char) : Except Problem (List Char × List Char) := do
  let (digits, rest) ← someDigits text
  match digits with
  | '0' :: _ :: _ => .error .malformed
  | _ => .ok (digits, rest)

/-- The digits behind a point, if there is one. -/
def fractionPart : List Char → Except Problem (Option (List Char) × List Char)
  | '.' :: rest => (someDigits rest).map fun (digits, rest) => (some digits, rest)
  | text => .ok (none, text)

/-- The exponent, if there is one. -/
def exponentPart (text : List Char) : Except Problem ((Option (Bool × List Char)) × List Char) :=
  match text with
  | c :: rest =>
    if c = 'e' ∨ c = 'E' then
      let (negative, rest) := match rest with
        | '-' :: rest => (true, rest)
        | '+' :: rest => (false, rest)
        | _ => (false, rest)
      (someDigits rest).map fun (digits, rest) => (some (negative, digits), rest)
    else .ok (none, text)
  | [] => .ok (none, [])

/-- A number that starts here. -/
def numeral (text : List Char) : Except Problem (Numeral × List Char) := do
  let (negative, text) := match text with
    | '-' :: rest => (true, rest)
    | _ => (false, text)
  let (whole, text) ← wholePart text
  let (fraction, text) ← fractionPart text
  let (exponent, text) ← exponentPart text
  return (⟨negative, whole, fraction, exponent⟩, text)

/-- Whether a number leaves the range of 64-bit floating point: its magnitude rounds to 2¹⁰²⁴ or
    more. -/
def Numeral.isHuge (n : Numeral) : Bool :=
  let fraction := n.fraction.getD []
  let mantissa := Numeral.digitsValue (n.whole ++ fraction)
  let places := fraction.length
  let bound := Nat.pow 2 1024 - Nat.pow 2 970
  if mantissa = 0 then false
  else match n.exponent with
    | some (true, digits) =>
      let e := Numeral.digitsValue digits
      decide (places + e + 308 < (Nat.toDigits 10 mantissa).length) &&
        decide (bound * Nat.pow 10 (places + e) ≤ mantissa)
    | exponent =>
      let e := (exponent.map fun p => Numeral.digitsValue p.2).getD 0
      if places + 400 < e then true
      else decide (bound * Nat.pow 10 places ≤ mantissa * Nat.pow 10 e)

/-! ### Values -/

/-- How a value is read: a strict reader keeps strings and numbers within their ranges and
    objects within a depth; the other one only looks for the end. -/
inductive Care where
  | strict
  | extent
  deriving DecidableEq, Repr

mutual

/-- Any value.  `fuel` bounds the number of steps and `depth` the nesting. -/
def valueFrom (care : Care) : (fuel depth : Nat) → Reader Json
  | 0, _, _ => .error .malformed
  | fuel + 1, depth, text =>
    match skipBlanks text with
    | [] => .error .truncated
    | c :: rest =>
      if c = 'n' then (expectAll "ull".toList rest).map fun rest => (null, rest)
      else if c = 't' then (expectAll "rue".toList rest).map fun rest => (bool true, rest)
      else if c = 'f' then (expectAll "alse".toList rest).map fun rest => (bool false, rest)
      else if c = '"' then
        (quoted (care == .strict) rest).map fun (s, rest) => (string (String.ofList s), rest)
      else if c = '-' ∨ c.isDigit then
        match numeral (c :: rest) with
        | .ok (n, rest) =>
          if care == .strict && n.isHuge then .error .malformed else .ok (number n, rest)
        | .error p => .error p
      else if c = '[' then
        if care == .strict && depth ≤ 1 then .error .malformed
        else match skipBlanks rest with
          | ']' :: rest => .ok (array [], rest)
          | rest => do
            let (item, rest) ← valueFrom care fuel (depth - 1) rest
            let (items, rest) ← itemsFrom care fuel (depth - 1) rest
            return (array (item :: items), rest)
      else if c = '\x7b' then
        if care == .strict && depth ≤ 1 then .error .malformed
        else match skipBlanks rest with
          | '\x7d' :: rest => .ok (object [], rest)
          | rest => do
            let (m, rest) ← memberFrom care fuel (depth - 1) rest
            let (members, rest) ← membersFrom care fuel (depth - 1) rest
            return (object (m :: members), rest)
      else .error .malformed

/-- Further items up to the closing bracket. -/
def itemsFrom (care : Care) : (fuel depth : Nat) → Reader (List Json)
  | 0, _, _ => .error .malformed
  | fuel + 1, depth, text =>
    match skipBlanks text with
    | ']' :: rest => .ok ([], rest)
    | ',' :: rest => do
      let (item, rest) ← valueFrom care fuel depth rest
      let (items, rest) ← itemsFrom care fuel depth rest
      return (item :: items, rest)
    | rest => .error (unexpected rest)

/-- One member of an object. -/
def memberFrom (care : Care) : (fuel depth : Nat) → Reader (String × Json)
  | 0, _, _ => .error .malformed
  | fuel + 1, depth, text => do
    let rest ← expect '"' (skipBlanks text)
    let (name, rest) ← quoted (care == .strict) rest
    let rest ← expect ':' (skipBlanks rest)
    let (value, rest) ← valueFrom care fuel depth rest
    return ((String.ofList name, value), rest)

/-- Further members up to the closing brace. -/
def membersFrom (care : Care) : (fuel depth : Nat) → Reader (List (String × Json))
  | 0, _, _ => .error .malformed
  | fuel + 1, depth, text =>
    match skipBlanks text with
    | '\x7d' :: rest => .ok ([], rest)
    | ',' :: rest => do
      let (m, rest) ← memberFrom care fuel depth rest
      let (members, rest) ← membersFrom care fuel depth rest
      return (m :: members, rest)
    | rest => .error (unexpected rest)

end

/-- The value that starts here, at most `depth - 1` levels deep. -/
def value (depth : Nat) (text : List Char) : Except Problem (Json × List Char) :=
  valueFrom .strict (2 * text.length + 2) depth text

/-- Pass over the value that starts here, whatever it holds. -/
def skip (text : List Char) : Except Problem (List Char) :=
  (valueFrom .extent (2 * text.length + 2) 0 text).map (·.2)

/-- Only blanks are left. -/
def finished (text : List Char) : Except Problem Unit :=
  if (skipBlanks text).isEmpty then .ok () else .error .malformed

/-- A text that is one thing of a kind. -/
def parseAs {α : Type} (read : Reader α) (text : String) : Except Problem α := do
  let (a, rest) ← read text.toList
  finished rest
  return a

/-- A text that is one value. -/
def parse (text : String) : Except Problem Json := parseAs (value 128) text

/-! ### Values of a wanted kind -/

/-- The fault where a value of another kind was wanted: a simple value is read first, a list or an
    object is refused at its bracket. -/
def wanted (text : List Char) : Problem :=
  match text with
  | '[' :: _ => .mismatch
  | '\x7b' :: _ => .mismatch
  | _ =>
    match valueFrom .strict 1 0 text with
    | .ok _ => .mismatch
    | .error p => p

/-- A string. -/
def readString (text : List Char) : Except Problem (String × List Char) :=
  match skipBlanks text with
  | '"' :: rest => (quoted true rest).map fun (s, rest) => (String.ofList s, rest)
  | text => .error (wanted text)

/-- A value that is written as a string of its own form. -/
def readAs {α : Type} (read : String → Option α) (text : List Char) :
    Except Problem (α × List Char) := do
  let (s, rest) ← readString text
  match read s with
  | some a => .ok (a, rest)
  | none => .error .mismatch

/-- A number. -/
def readNumeral (text : List Char) : Except Problem (Numeral × List Char) :=
  match skipBlanks text with
  | c :: rest =>
    if c = '-' ∨ c.isDigit then
      match numeral (c :: rest) with
      | .ok (n, rest) => if n.isHuge then .error .malformed else .ok (n, rest)
      | .error p => .error p
    else .error (wanted (c :: rest))
  | [] => .error .truncated

/-- A 64-bit word. -/
def readWord (text : List Char) : Except Problem (UInt64 × List Char) := do
  let (n, rest) ← readNumeral text
  match n.toNat? with
  | some w => if w < UInt64.size then .ok (UInt64.ofNat w, rest) else .error .mismatch
  | none => .error .mismatch

/-- A whole number of 64 bits with a sign. -/
def readInteger (text : List Char) : Except Problem (Int × List Char) := do
  let half : Int := UInt64.size / 2
  let (n, rest) ← readNumeral text
  match n.toInt? with
  | some i =>
    if (if n.negative then i < 0 ∧ -half ≤ i else i < half) then .ok (i, rest)
    else .error .mismatch
  | none => .error .mismatch

/-- A truth value. -/
def readBool (text : List Char) : Except Problem (Bool × List Char) :=
  match skipBlanks text with
  | 't' :: rest => (expectAll "rue".toList rest).map fun rest => (true, rest)
  | 'f' :: rest => (expectAll "alse".toList rest).map fun rest => (false, rest)
  | text => .error (wanted text)

/-- The characters of a value, whatever it holds, as they are written. -/
def readSpan (text : List Char) : Except Problem (String × List Char) := do
  let start := skipBlanks text
  let rest ← skip start
  return (String.ofList (start.take (start.length - rest.length)), rest)

/-- A value that may be `null`. -/
def readNullable {α : Type} (read : Reader α) (text : List Char) :
    Except Problem (Option α × List Char) :=
  match skipBlanks text with
  | 'n' :: rest => (expectAll "ull".toList rest).map fun rest => (none, rest)
  | text => (read text).map fun (a, rest) => (some a, rest)

/-! ### Records -/

/-- The name of a member behind its opening quote. -/
def anyName (text : List Char) : Except Problem (String × List Char) :=
  (quoted true text).map fun (s, rest) => (String.ofList s, rest)

/-- The name of a member that is written without any escape. -/
def plainName (text : List Char) : Except Problem (String × List Char) := do
  let (s, rest) ← quoted true text
  if s.length + 1 + rest.length = text.length then .ok (String.ofList s, rest) else .error .mismatch

/-- The member that starts behind an opening brace or a comma, handed to `field` under its name;
    the result is the record with that field in it. -/
def readMember {σ : Type} (name : Reader String) (field : String → σ → Reader σ) (record : σ)
    (text : List Char) : Except Problem (σ × List Char) := do
  let rest ← expect '"' (skipBlanks text)
  let (name, rest) ← name rest
  field name record rest

/-- Further members of a record. -/
def readMembers {σ : Type} (name : Reader String) (field : String → σ → Reader σ) :
    (fuel : Nat) → σ → Reader σ
  | 0, _, _ => .error .malformed
  | fuel + 1, record, text =>
    match skipBlanks text with
    | '\x7d' :: rest => .ok (record, '\x7d' :: rest)
    | ',' :: rest => do
      let (record, rest) ← readMember name field record rest
      readMembers name field fuel record rest
    | rest => .error (unexpected rest)

/-- The members of an object behind its opening brace, up to the closing one, which is left. -/
def readObject {σ : Type} (name : Reader String) (field : String → σ → Reader σ) (record : σ)
    (text : List Char) : Except Problem (σ × List Char) :=
  match skipBlanks text with
  | '\x7d' :: rest => .ok (record, '\x7d' :: rest)
  | [] => .error .truncated
  | rest => do
    let (record, rest) ← readMember name field record rest
    readMembers name field (rest.length + 1) record rest

/-- The value of a member behind its name. -/
def memberValue {α : Type} (read : Reader α) (text : List Char) :
    Except Problem (α × List Char) := do
  read (← expect ':' (skipBlanks text))

/-- The next item of an array, if there is one.  `first` says that no item came before. -/
def readItem? {α : Type} (read : Reader α) (first : Bool) (text : List Char) :
    Except Problem (Option α × List Char) :=
  match skipBlanks text with
  | ']' :: rest => .ok (none, ']' :: rest)
  | ',' :: rest =>
    if first then .error .malformed
    else match skipBlanks rest with
      | ']' :: _ => .error .malformed
      | rest => (read rest).map fun (a, rest) => (some a, rest)
  | [] => .error .truncated
  | rest => if first then (read rest).map fun (a, rest) => (some a, rest) else .error .malformed

/-- The closing bracket of an array or an object. -/
def closing (c : Char) (text : List Char) : Except Problem (List Char) :=
  expect c (skipBlanks text)

end Relayer.Json
