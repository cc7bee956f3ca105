import Relayer.Toml.Basic

namespace Relayer.Toml

/-!
# Outline — the tables of a settings file while it is being read

Headers and dotted keys open tables; a table may be opened only once, but a header of a longer path
may come before that of a shorter one.

* `Node` — what stands under a name;
* `descend` — go down a path, opening tables on the way;
* `Outline` — the tables so far and the one that is being filled;
* `Outline.header` / `Outline.arrayHeader` / `Outline.assign` — what a line does to it.
-/

/-! ### Tables under construction -/

/-- How a table came to be. -/
inductive Origin where
  /-- By a header of its own. -/
  | explicit
  /-- On the way of a longer header. -/
  | implicit
  /-- On the way of a dotted key. -/
  | dotted
  deriving DecidableEq, Repr

/-- What stands under a name. -/
inductive Node where
  | value (v : Toml)
  | table (origin : Origin) (members : List (String × Node))
  /-- Tables of one name, of which the last one is still open. -/
  | tables (items : List (List (String × Node)))

/-- The members of a table. -/
abbrev Members := List (String × Node)

namespace Members

/-- What stands under a name. -/
def find? (ms : Members) (name : String) : Option Node :=
  (List.find? (fun m => m.1 == name) ms).map (·.2)

/-- Put something under a name. -/
def put (ms : Members) (name : String) (node : Node) : Members :=
  if ms.any (·.1 == name) then ms.map fun m => if m.1 == name then (name, node) else m
  else ms ++ [(name, node)]

/-- Take a name away. -/
def remove (ms : Members) (name : String) : Members := ms.filter (·.1 != name)

end Members

/-- Go down a path from a table and act on the table at its end, which learns how it came to be.
    Tables that are not there are opened.  A dotted key may not enter a table that has a header of
    its own. -/
def descend {α : Type} (byKey : Bool) (act : Origin → Members → Option (α × Members)) :
    List String → Origin → Members → Option (α × Members)
  | [], origin, ms => act origin ms
  | name :: path, _, ms =>
    match ms.find? name with
    | none =>
      let origin := if byKey then .dotted else .implicit
      (descend byKey act path origin []).map fun (a, child) =>
        (a, ms.put name (.table origin child))
    | some (.value _) => none
    | some (.table origin child) =>
      if byKey && origin = .explicit then none
      else (descend byKey act path origin child).map fun (a, child) =>
        (a, ms.put name (.table origin child))
    | some (.tables items) =>
      (descend byKey act path .explicit (items.getLast?.getD [])).map fun (a, child) =>
        (a, ms.put name (.tables (items.dropLast ++ [child])))

/-- Put a value under a key of one or more names.  A table that a header or another table opened
    cannot be filled from outside. -/
def Members.assign (ms : Members) (path : List String) (name : String) (v : Toml) :
    Option Members :=
  (descend true (fun origin table =>
    if (origin = .dotted) != !path.isEmpty then none
    else if (table.find? name).isSome then none
    else some ((), table.put name (.value v))) path .explicit ms).map (·.2)

/-! ### The file -/

/-- The tables so far, and the one that is being filled: at the start the outermost one. -/
structure Outline where
  root : Members
  path : List String
  /-- Whether the open table is one of several of its name. -/
  isArray : Bool
  body : Members

namespace Outline

/-- An empty file. -/
def empty : Outline := ⟨[], [], false, []⟩

/-- The open table is complete. -/
def close (o : Outline) : Option Members :=
  match o.path.getLast? with
  | none => some o.body
  | some name =>
    (descend false (fun _ parent =>
      if o.isArray then
        match parent.find? name with
        | some (.tables items) => some ((), parent.put name (.tables (items ++ [o.body])))
        | _ => none
      else some ((), parent.put name (.table .explicit o.body)))
      o.path.dropLast .explicit o.root).map (·.2)

/-- A header opens a table, which may have been opened on the way of a longer header. -/
def header (o : Outline) (path : List String) : Option Outline := do
  let root ← o.close
  let name ← path.getLast?
  let (body, root) ← descend false (fun _ parent =>
    match parent.find? name with
    | none => some ([], parent)
    | some (.table .implicit ms) => some (ms, parent.remove name)
    | some _ => none) path.dropLast .explicit root
  return ⟨root, path, false, body⟩

/-- A double header opens one more table of its name. -/
def arrayHeader (o : Outline) (path : List String) : Option Outline := do
  let root ← o.close
  let name ← path.getLast?
  let ((), root) ← descend false (fun _ parent =>
    match parent.find? name with
    | none => some ((), parent.put name (.tables []))
    | some (.tables _) => some ((), parent)
    | some _ => none) path.dropLast .explicit root
  return ⟨root, path, true, []⟩

/-- A line puts a value under a key of the open table. -/
def assign (o : Outline) (path : List String) (name : String) (v : Toml) : Option Outline :=
  (o.body.assign path name v).map fun body => { o with body }

end Outline

/-! ### Results -/

mutual

/-- The finished value of a node. -/
def Node.finish : Node → Toml
  | .value v => v
  | .table _ ms => .table (finishMembers ms)
  | .tables items => .array (finishTables items)

/-- The finished members of a table. -/
def finishMembers : List (String × Node) → List (String × Toml)
  | [] => []
  | (name, node) :: rest => (name, node.finish) :: finishMembers rest

/-- The finished tables of one name. -/
def finishTables : List (List (String × Node)) → List Toml
  | [] => []
  | ms :: rest => .table (finishMembers ms) :: finishTables rest

end

end Relayer.Toml
