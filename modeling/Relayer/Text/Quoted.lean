import Relayer.Text.Hex
import Relayer.Text.HiddenTable

namespace Relayer.Quoted

/-!
# Quoted — a text between quotes, with nothing hidden in it

Quotes, backslashes and characters that do not show on their own are spelled out, so that the
text can be distinguished from its surroundings.
-/

/-- Binary search for the range that holds `n`, among `ranges[lo]` up to but not including
    `ranges[hi]`. -/
def within (ranges : Array (Nat × Nat)) (n lo hi : Nat) : Bool :=
  if lo < hi then
    let mid := (lo + hi) / 2
    match ranges[mid]? with
    | none => false
    | some (a, b) =>
      if n < a then within ranges n lo mid
      else if b < n then within ranges n (mid + 1) hi
      else true
  else false
termination_by hi - lo

/-- Whether a character is spelled out by its number. -/
def isHidden (c : Char) : Bool :=
  within HiddenTable.ranges c.toNat 0 HiddenTable.ranges.size

/-- One character inside quotes. -/
def escape (c : Char) : List Char :=
  if c = '"' then ['\\', '"']
  else if c = '\\' then ['\\', '\\']
  else if c = '\n' then ['\\', 'n']
  else if c = '\r' then ['\\', 'r']
  else if c = '\t' then ['\\', 't']
  else if c = '\x00' then ['\\', '0']
  else if isHidden c then ['\\', 'u', '\x7b'] ++ Hex.number c.toNat ++ ['\x7d']
  else [c]

/-- The text between quotes. -/
def quote (text : String) : String :=
  String.ofList ('"' :: text.toList.flatMap escape ++ ['"'])

end Relayer.Quoted
