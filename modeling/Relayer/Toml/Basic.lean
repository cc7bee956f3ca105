namespace Relayer

/-!
# Toml — values of a settings file

A settings file is a table; tables, arrays and plain values nest in it.
-/

/-- A value.  Of a date or a time only the kind is kept. -/
inductive Toml where
  | string (s : String)
  | integer (n : Int)
  /-- A number with a point or an exponent, as it is written. -/
  | float (text : String)
  | bool (b : Bool)
  | moment
  | array (items : List Toml)
  | table (members : List (String × Toml))
  deriving Repr

namespace Toml

instance : Inhabited Toml := ⟨table []⟩

/-- The member of that name. -/
def member? (members : List (String × Toml)) (name : String) : Option Toml :=
  (members.find? (·.1 == name)).map (·.2)

end Toml

end Relayer
