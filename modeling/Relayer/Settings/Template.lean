namespace Relayer.Template

/-!
# Template — environment variables in a text

`${NAME}` stands for the value of an environment variable.

* `names` — the names that occur in a text;
* `replace` — a text with one name replaced;
* `fill` — a text with all its names replaced, one after the other.
-/

/-- The characters that a name may start with. -/
def isFirst (c : Char) : Bool := c.isUpper || c = '_'

/-- The characters of a name. -/
def isName (c : Char) : Bool := isFirst c || c.isDigit

/-- A variable as it stands in a text. -/
def mark (name : List Char) : List Char := ['$', '\x7b'] ++ name ++ ['\x7d']

/-- The name of the variable that a text starts with. -/
def name? (text : List Char) : Option (List Char) :=
  match text with
  | '$' :: '\x7b' :: c :: rest =>
    let name := c :: rest.takeWhile isName
    if isFirst c && (rest.dropWhile isName).head? == some '\x7d' then some name else none
  | _ => none

/-- The names that occur in a text, in order and as often as they occur. -/
def names : List Char → List (List Char)
  | [] => []
  | c :: rest => (name? (c :: rest)).toList ++ names rest

/-- The text behind `skip` further characters, with every occurrence of `old` replaced. -/
def replaceFrom (old new : List Char) : (skip : Nat) → List Char → List Char
  | _, [] => []
  | skip + 1, _ :: rest => replaceFrom old new skip rest
  | 0, c :: rest =>
    if old.isPrefixOf (c :: rest) then new ++ replaceFrom old new (old.length - 1) rest
    else c :: replaceFrom old new 0 rest

/-- The text with every occurrence of `old` replaced. -/
def replace (old new text : List Char) : List Char := replaceFrom old new 0 text

/-- A text with the names that occur in it replaced, in order.  Where a value brings in another one
    of these names, that is replaced as well, if its turn is still to come. -/
def fillList (value : List Char → List Char) (text : List Char) : List Char :=
  (names text).foldl (fun text name => replace (mark name) (value name) text) text

/-- A text with the names that occur in it replaced.  A variable that is not set stands for
    nothing. -/
def fill (value? : String → Option String) (text : String) : String :=
  String.ofList
    (fillList (fun name => ((value? (String.ofList name)).getD "").toList) text.toList)

end Relayer.Template
