import Relayer.Text.Decimal

namespace Relayer.Duration

/-!
# Duration — a span of time as a short text

Spans are counted in milliseconds.  From one second on they are written in seconds, below that in
milliseconds, and nothing at all is no nanoseconds.
-/

/-- The digits behind the point for `ms` thousandths, without closing zeros. -/
def thousandths (ms : Nat) : List Char :=
  let digits := [ms / 100, ms / 10 % 10, ms % 10].map Nat.digitChar
  (digits.reverse.dropWhile (· = '0')).reverse

/-- The text of a span. -/
def write (ms : Nat) : String :=
  if ms = 0 then "0ns"
  else if ms < 1000 then Decimal.write ms ++ "ms"
  else
    let digits := thousandths (ms % 1000)
    Decimal.write (ms / 1000) ++ String.ofList (if digits.isEmpty then [] else '.' :: digits) ++ "s"

end Relayer.Duration
