import Relayer.Text.CaseTable

namespace Relayer.Lowercase

/-!
# Lowercase — the lower-case form of a text

* `lower` — one character;
* `map` — a text, character by character.

Capital sigma becomes `σ` wherever it stands.
-/

open CaseTable

/-- Whether a code point belongs to a run of capital letters. -/
def covers (r : Run) (n : Nat) : Bool :=
  r.first ≤ n && n ≤ r.last && (n - r.first) % r.stride == 0

/-- The lower-case form of a character.  Capital I with a dot above is the only one whose form
    has two characters: the plain letter and a combining dot. -/
def lower (c : Char) : List Char :=
  let n := c.toNat
  if n == 0x130 then ['i', Char.ofNat 0x307]
  else match runs.find? (covers · n) with
    | some r => [Char.ofNat (r.lower + (n - r.first))]
    | none => [c]

/-- The lower-case form of a text. -/
def map (text : List Char) : List Char := text.flatMap lower

end Relayer.Lowercase
