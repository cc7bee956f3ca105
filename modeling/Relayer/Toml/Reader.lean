import Relayer.Json.Reader
import Relayer.Toml.Outline

namespace Relayer.Toml

/-!
# Reader — settings files from text

A file is read line by line; a reader answers what it has read and the text behind it, or nothing
where the text is malformed.

* `readString` — the four forms of strings;
* `number` / `moment?` — numbers, dates and times;
* `value` — any value;
* `parse` — a whole file.
-/

/-- A reader answers a value and the text behind it. -/
abbrev Reader (α : Type) := List Char → Option (α × List Char)

/-! ### Blanks and lines -/

/-- Spaces and tabs. -/
def isSpace (c : Char) : Bool := c = ' ' || c = '\t'

/-- Characters that may stand in a line. -/
def isPlain (c : Char) : Bool :=
  c = '\t' || (0x20 ≤ c.toNat && c.toNat ≤ 0x7e) || 0x80 ≤ c.toNat

/-- Leave out spaces. -/
def skipSpaces (text : List Char) : List Char := text.dropWhile isSpace

/-- Leave out a comment, up to the end of its line. -/
def skipComment (text : List Char) : List Char :=
  match text with
  | '#' :: rest => rest.dropWhile isPlain
  | _ => text

/-- Pass over the end of a line. -/
def lineEnd : List Char → Option (List Char)
  | [] => some []
  | '\n' :: rest => some rest
  | '\r' :: '\n' :: rest => some rest
  | _ => none

/-- Pass over what may follow on a line, and its end. -/
def restOfLine (text : List Char) : Option (List Char) := lineEnd (skipComment (skipSpaces text))

/-- Leave out spaces, comments and ends of lines. -/
def skipLines : (fuel : Nat) → List Char → List Char
  | 0, text => text
  | fuel + 1, text =>
    match skipSpaces text with
    | '#' :: rest => skipLines fuel (rest.dropWhile isPlain)
    | '\n' :: rest => skipLines fuel rest
    | '\r' :: '\n' :: rest => skipLines fuel rest
    | rest => rest

/-- Leave out spaces, comments and ends of lines. -/
def skipBlanks (text : List Char) : List Char := skipLines (text.length + 1) text

/-- Pass over one given character. -/
def expect (c : Char) : List Char → Option (List Char)
  | d :: rest => if c = d then some rest else none
  | [] => none

/-! ### Strings -/

/-- Where in a string the reader stands. -/
inductive Spot where
  | plain
  /-- Behind a backslash. -/
  | escaped
  /-- Before the last `left` digits of a character's number. -/
  | digits (left value : Nat)
  /-- Behind `count` marks, which may close the string. -/
  | marks (count : Nat)
  /-- Behind a carriage return, where the end of the line is due. -/
  | lineBreak
  /-- Behind a backslash and spaces, where the end of the line is due. -/
  | joint
  /-- Between a backslash at the end of a line and the next visible character. -/
  | joining
  /-- There, behind a carriage return. -/
  | joiningBreak
  deriving DecidableEq, Repr

/-- The character that a letter behind a backslash stands for. -/
def escapeOf? (c : Char) : Option Char :=
  if c = '"' ∨ c = '\\' then some c
  else if c = 'b' then some '\x08'
  else if c = 'f' then some '\x0c'
  else if c = 'n' then some '\n'
  else if c = 'r' then some '\r'
  else if c = 't' then some '\t'
  else none

/-- What a letter behind a backslash leads to. -/
def escaped (c : Char) : Option (Spot × List Char) :=
  if c = 'u' then some (.digits 4 0, [])
  else if c = 'U' then some (.digits 8 0, [])
  else (escapeOf? c).map fun d => (.plain, [d])

/-- What one more digit leads to; the number must be that of a character. -/
def oneDigit (left value : Nat) (c : Char) : Option (Spot × List Char) := do
  let digit ← Hex.value? c
  let value := 16 * value + digit
  if 1 < left then return (.digits (left - 1) value, [])
  else if value.isValidChar then return (.plain, [Char.ofNat value])
  else none

/-- A string of one line behind its opening mark, with `read` the characters so far in reverse. -/
def lineFrom (mark : Char) : Spot → List Char → Reader (List Char)
  | _, _, [] => none
  | spot, read, c :: rest =>
    let next : Option (Spot × List Char) := match spot with
      | .escaped => escaped c
      | .digits left value => oneDigit left value c
      | _ =>
        if c = '\\' ∧ mark = '"' then some (.escaped, [])
        else if isPlain c then some (.plain, [c])
        else none
    if spot = .plain ∧ c = mark then some (read.reverse, rest)
    else match next with
      | some (spot, chars) => lineFrom mark spot (chars ++ read) rest
      | none => none

/-- What a character leads to in the middle of a string of several lines. -/
def inLines (mark c : Char) : Option (Spot × List Char) :=
  if c = mark then some (.marks 1, [])
  else if c = '\\' ∧ mark = '"' then some (.escaped, [])
  else if c = '\n' then some (.plain, ['\n'])
  else if c = '\r' then some (.lineBreak, [])
  else if isPlain c then some (.plain, [c])
  else none

/-- What a character leads to in a string of several lines, where it does not close it. -/
def nextInLines (mark : Char) (spot : Spot) (c : Char) : Option (Spot × List Char) :=
  match spot with
  | .plain => inLines mark c
  | .escaped =>
    if isSpace c then some (.joint, [])
    else if c = '\n' then some (.joining, [])
    else if c = '\r' then some (.joiningBreak, [])
    else escaped c
  | .digits left value => oneDigit left value c
  | .marks count =>
    if c = mark then some (.marks (count + 1), [])
    else (inLines mark c).map fun (spot, chars) => (spot, chars ++ List.replicate count mark)
  | .lineBreak => if c = '\n' then some (.plain, ['\n']) else none
  | .joint =>
    if isSpace c then some (.joint, [])
    else if c = '\n' then some (.joining, [])
    else if c = '\r' then some (.joiningBreak, [])
    else none
  | .joining =>
    if isSpace c ∨ c = '\n' then some (.joining, [])
    else if c = '\r' then some (.joiningBreak, [])
    else inLines mark c
  | .joiningBreak => if c = '\n' then some (.joining, []) else none

/-- Whether a string of several lines is closed before the character `c`.  Two marks more than the
    closing three belong to the string. -/
def isClosed (mark : Char) (spot : Spot) (c : Char) : Bool :=
  match spot with
  | .marks count => count = 5 || (3 ≤ count && c ≠ mark)
  | _ => false

/-- The text of a closed string, given behind all its marks. -/
def closed (mark : Char) (spot : Spot) (read : List Char) : Option (List Char) :=
  match spot with
  | .marks count =>
    if 3 ≤ count then some (read.reverse ++ List.replicate (count - 3) mark) else none
  | _ => none

/-- A string of several lines behind its opening marks. -/
def linesFrom (mark : Char) : Spot → List Char → Reader (List Char)
  | spot, read, [] => (closed mark spot read).map (·, [])
  | spot, read, c :: rest =>
    if isClosed mark spot c then (closed mark spot read).map (·, c :: rest)
    else match nextInLines mark spot c with
      | some (spot, chars) => linesFrom mark spot (chars ++ read) rest
      | none => none

/-- A string of several lines behind its opening marks; an end of line right there does not
    count. -/
def lines (mark : Char) (text : List Char) : Option (List Char × List Char) :=
  match text with
  | '\n' :: rest => linesFrom mark .plain [] rest
  | '\r' :: '\n' :: rest => linesFrom mark .plain [] rest
  | _ => linesFrom mark .plain [] text

/-- A string of one line. -/
def line (text : List Char) : Option (String × List Char) :=
  match text with
  | c :: rest =>
    if c = '"' ∨ c = '\'' then
      (lineFrom c .plain [] rest).map fun (s, rest) => (String.ofList s, rest)
    else none
  | [] => none

/-- A string. -/
def readString (text : List Char) : Option (String × List Char) :=
  match text with
  | '"' :: '"' :: '"' :: rest => (lines '"' rest).map fun (s, rest) => (String.ofList s, rest)
  | '\'' :: '\'' :: '\'' :: rest => (lines '\'' rest).map fun (s, rest) => (String.ofList s, rest)
  | _ => line text

/-! ### Keys -/

/-- The characters of a key that stands without quotes. -/
def isBare (c : Char) : Bool := c.isAlphanum || c = '-' || c = '_'

/-- One name of a key. -/
def simpleKey (text : List Char) : Option (String × List Char) :=
  match text with
  | c :: _ =>
    if c = '"' ∨ c = '\'' then line text
    else
      let name := text.takeWhile isBare
      if name.isEmpty then none else some (String.ofList name, text.dropWhile isBare)
  | [] => none

/-- Keys with more names than this are refused, and so are deeper values. -/
def maxDepth : Nat := 80

/-- The names of a key, with points between them. -/
def namesFrom : (fuel : Nat) → Reader (List String)
  | 0, _ => none
  | fuel + 1, text =>
    match simpleKey (skipSpaces text) with
    | none => none
    | some (name, rest) =>
      match skipSpaces rest with
      | '.' :: rest => (namesFrom fuel rest).map fun (names, rest) => (name :: names, rest)
      | rest => some ([name], rest)

/-- A key: the names before the last one, and the last one. -/
def key (text : List Char) : Option ((List String × String) × List Char) := do
  let (names, rest) ← namesFrom maxDepth.pred text
  return ((names.dropLast, ← names.getLast?), rest)

/-! ### Numbers -/

/-- At least one digit, with single underscores between digits, which are left out. -/
def digitRun (isDigit : Char → Bool) : List Char → List Char × List Char
  | c :: '_' :: d :: rest =>
    if isDigit c then
      if isDigit d then
        let (digits, rest) := digitRun isDigit (d :: rest)
        (c :: digits, rest)
      else ([c], '_' :: d :: rest)
    else ([], c :: '_' :: d :: rest)
  | c :: rest =>
    if isDigit c then
      let (digits, rest) := digitRun isDigit rest
      (c :: digits, rest)
    else ([], c :: rest)
  | [] => ([], [])

/-- A sign, if there is one. -/
def sign : List Char → Bool × List Char
  | '-' :: rest => (true, rest)
  | '+' :: rest => (false, rest)
  | text => (false, text)

/-- The digits of a whole number; one that starts with a zero has no other digit. -/
def wholeDigits (text : List Char) : Option (List Char × List Char) :=
  match text with
  | '0' :: rest => some (['0'], rest)
  | _ =>
    let (digits, rest) := digitRun Char.isDigit text
    if digits.isEmpty then none else some (digits, rest)

/-- A run of digits behind a point or an exponent's mark. -/
def moreDigits (text : List Char) : Option (List Char × List Char) :=
  let (digits, rest) := digitRun Char.isDigit text
  if digits.isEmpty then none else some (digits, rest)

/-- The exponent, if there is one. -/
def exponent (text : List Char) : Option (Option (Bool × List Char) × List Char) :=
  match text with
  | c :: rest =>
    if c = 'e' ∨ c = 'E' then
      let (negative, rest) := sign rest
      (moreDigits rest).map fun (digits, rest) => (some (negative, digits), rest)
    else some (none, text)
  | [] => some (none, [])

/-- A whole number below 2⁶³, where it is one. -/
def integer? (negative : Bool) (n : Nat) : Option Toml :=
  if negative then if n ≤ UInt64.size / 2 then some (.integer (-n)) else none
  else if n < UInt64.size / 2 then some (.integer n) else none

/-- A decimal number.  One with a point or an exponent must not be too large for 64-bit floating
    point, unless it is negative. -/
def decimal (text : List Char) : Option (Toml × List Char) := do
  let (negative, rest) := sign text
  let (whole, rest) ← wholeDigits rest
  let (fraction, rest) ← match rest with
    | '.' :: rest => (moreDigits rest).map fun (digits, rest) => (some digits, rest)
    | _ => some (none, rest)
  let (exponent, rest) ← exponent rest
  let n : Json.Numeral := ⟨negative, whole, fraction, exponent⟩
  if n.isWhole then return (← integer? negative (Json.Numeral.digitsValue whole), rest)
  else if n.isHuge ∧ !negative then none
  else return (.float (String.ofList n.write), rest)

/-- A whole number of another base behind its mark. -/
def based (base : Nat) (text : List Char) : Option (Toml × List Char) := do
  let isDigit (c : Char) : Bool := match Hex.value? c with
    | some d => d < base
    | none => false
  let (digits, rest) := digitRun isDigit text
  if digits.isEmpty then none
  else
    let n := digits.foldl (fun n c => base * n + (Hex.value? c).getD 0) 0
    return (← integer? false n, rest)

/-- A word with an optional sign, if it is there. -/
def specialFloat (text : List Char) : Option (Toml × List Char) :=
  match (sign text).2 with
  | 'i' :: 'n' :: 'f' :: rest => some (.float "inf", rest)
  | 'n' :: 'a' :: 'n' :: rest => some (.float "nan", rest)
  | _ => none

/-- A number. -/
def number (text : List Char) : Option (Toml × List Char) :=
  match text with
  | '0' :: 'x' :: rest => based 16 rest
  | '0' :: 'o' :: rest => based 8 rest
  | '0' :: 'b' :: rest => based 2 rest
  | _ => (specialFloat text).or (decimal text)

/-! ### Dates and times -/

/-- A number of exactly `n` digits. -/
def digitsOf (n : Nat) (text : List Char) : Option (Nat × List Char) :=
  let digits := text.take n
  if digits.length = n ∧ digits.all Char.isDigit then
    some (Json.Numeral.digitsValue digits, text.drop n)
  else none

/-- A number of two digits within bounds. -/
def twoDigits (lo hi : Nat) (text : List Char) : Option (Nat × List Char) := do
  let (n, rest) ← digitsOf 2 text
  if lo ≤ n ∧ n ≤ hi then return (n, rest) else none

/-- How many days a month has. -/
def daysIn (year month : Nat) : Nat :=
  if month = 2 then
    if year % 4 = 0 ∧ (year % 100 ≠ 0 ∨ year % 400 = 0) then 29 else 28
  else if month = 4 ∨ month = 6 ∨ month = 9 ∨ month = 11 then 30
  else 31

/-- Pass over a date. -/
def date (text : List Char) : Option (List Char) := do
  let (year, rest) ← digitsOf 4 text
  let (month, rest) ← twoDigits 1 12 (← expect '-' rest)
  let (_, rest) ← twoDigits 1 (daysIn year month) (← expect '-' rest)
  return rest

/-- Pass over a time of day. -/
def time (text : List Char) : Option (List Char) := do
  let (_, rest) ← twoDigits 0 23 text
  let (_, rest) ← twoDigits 0 59 (← expect ':' rest)
  let (_, rest) ← twoDigits 0 60 (← expect ':' rest)
  match rest with
  | '.' :: digits =>
    if digits.takeWhile Char.isDigit = [] then return rest
    else return digits.dropWhile Char.isDigit
  | _ => return rest

/-- Pass over the distance from the time of the prime meridian, if it is given. -/
def offset (text : List Char) : Option (List Char) :=
  match text with
  | c :: rest =>
    if c = 'Z' ∨ c = 'z' then some rest
    else if c = '+' ∨ c = '-' then do
      let (_, rest) ← twoDigits 0 23 rest
      let (_, rest) ← twoDigits 0 59 (← expect ':' rest)
      return rest
    else some text
  | [] => some []

/-- A date, a time, or both, if they are there. -/
def moment? (text : List Char) : Option (Toml × List Char) :=
  match date text with
  | none => (time text).map (Toml.moment, ·)
  | some rest =>
    match rest with
    | c :: later =>
      if c = 'T' ∨ c = 't' ∨ c = ' ' then
        match time later with
        | some rest => (offset rest).map (Toml.moment, ·)
        | none => some (Toml.moment, rest)
      else some (Toml.moment, rest)
    | [] => some (Toml.moment, [])

/-! ### Values -/

/-- Pass over a given word. -/
def expectAll : List Char → List Char → Option (List Char)
  | [], text => some text
  | c :: word, text => do expectAll word (← expect c text)

mutual

/-- Any value.  `fuel` bounds the number of steps and `depth` the nesting. -/
def valueFrom : (fuel depth : Nat) → Reader Toml
  | 0, _, _ => none
  | fuel + 1, depth, text =>
    match text with
    | [] => none
    | c :: rest =>
      if c = '"' ∨ c = '\'' then (readString text).map fun (s, rest) => (.string s, rest)
      else if c = '[' then
        if depth ≤ 1 then none
        else match skipBlanks rest with
          | ']' :: rest => some (.array [], rest)
          | rest => (itemsFrom fuel (depth - 1) rest).map fun (items, rest) => (.array items, rest)
      else if c = '\x7b' then
        if depth ≤ 1 then none
        else match skipSpaces rest with
          | '\x7d' :: rest => some (.table [], rest)
          | rest => (membersFrom fuel (depth - 1) [] rest).map fun (ms, rest) =>
            (.table (finishMembers ms), rest)
      else if c = 't' then (expectAll "true".toList text).map (.bool true, ·)
      else if c = 'f' then (expectAll "false".toList text).map (.bool false, ·)
      else (moment? text).or (number text)

/-- The items of an array up to its closing bracket. -/
def itemsFrom : (fuel depth : Nat) → Reader (List Toml)
  | 0, _, _ => none
  | fuel + 1, depth, text => do
    let (item, rest) ← valueFrom fuel depth (skipBlanks text)
    match skipBlanks rest with
    | ']' :: rest => return ([item], rest)
    | ',' :: rest =>
      match skipBlanks rest with
      | ']' :: rest => return ([item], rest)
      | rest =>
        let (items, rest) ← itemsFrom fuel depth rest
        return (item :: items, rest)
    | _ => none

/-- The members of a table on one line up to its closing brace. -/
def membersFrom : (fuel depth : Nat) → Members → Reader Members
  | 0, _, _, _ => none
  | fuel + 1, depth, ms, text => do
    let ((path, name), rest) ← key text
    let (v, rest) ← valueFrom fuel depth (skipSpaces (← expect '=' rest))
    let ms ← ms.assign path name v
    match skipSpaces rest with
    | '\x7d' :: rest => return (ms, rest)
    | ',' :: rest => membersFrom fuel depth ms rest
    | _ => none

end

/-- Any value. -/
def value (text : List Char) : Option (Toml × List Char) :=
  valueFrom (2 * text.length + 2) maxDepth text

/-! ### Files -/

/-- One header or assignment, with the rest of its line. -/
def statement (o : Outline) (text : List Char) : Option (Outline × List Char) :=
  match text with
  | '[' :: '[' :: rest => do
    let ((path, name), rest) ← key rest
    let rest ← expect ']' (← expect ']' rest)
    return (← o.arrayHeader (path ++ [name]), ← restOfLine rest)
  | '[' :: rest => do
    let ((path, name), rest) ← key rest
    let rest ← expect ']' rest
    return (← o.header (path ++ [name]), ← restOfLine rest)
  | _ => do
    let ((path, name), rest) ← key text
    let (v, rest) ← value (skipSpaces (← expect '=' rest))
    return (← o.assign path name v, ← restOfLine rest)

/-- Statements up to the end of the text. -/
def statements : (fuel : Nat) → Outline → List Char → Option Outline
  | 0, _, _ => none
  | fuel + 1, o, text =>
    match skipSpaces text with
    | [] => some o
    | c :: rest =>
      if c = '#' ∨ c = '\n' ∨ c = '\r' then
        match lineEnd (skipComment (c :: rest)) with
        | some rest => statements fuel o rest
        | none => none
      else
        match statement o (c :: rest) with
        | some (o, rest) => statements fuel o rest
        | none => none

/-- The members of a whole file.  A mark of the byte order in front of it does not count. -/
def parse (text : String) : Option (List (String × Toml)) := do
  let text := match text.toList with
    | '\ufeff' :: rest => rest
    | text => text
  let o ← statements (text.length + 1) .empty text
  return finishMembers (← o.close)

end Relayer.Toml
