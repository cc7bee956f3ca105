import Relayer.Metrics.Basic

namespace Relayer.Metrics

/-!
# Exposition — counters as lines of text

Every family has a line of explanation, a line with its type, and a line for every sample.  A family
without samples is left out.
-/

/-- A label's value inside quotes. -/
def escapeLabel (value : String) : String :=
  String.ofList (value.toList.flatMap fun c =>
    if c = '\\' then ['\\', '\\']
    else if c = '"' then ['\\', '"']
    else if c = '\n' then ['\\', 'n']
    else [c])

/-- A name with one label. -/
def withLabel (name label value : String) : String :=
  name ++ "\x7b" ++ label ++ "=\"" ++ escapeLabel value ++ "\"\x7d"

/-- A span of milliseconds in seconds. -/
def seconds (ms : Nat) : String := quotientText (ms, 1000)

/-- A line with one sample. -/
def sample (name value : String) : String := name ++ " " ++ value

/-- The lines with the samples of a histogram. -/
def histogramLines (name : String) (h : Histogram) : List String :=
  h.within.map (fun (bound, n) =>
    sample (withLabel (name ++ "_bucket") "le" (seconds bound)) (toString n)) ++
  [ sample (withLabel (name ++ "_bucket") "le" "+Inf") (toString h.count),
    sample (name ++ "_sum") (seconds h.sum),
    sample (name ++ "_count") (toString h.count) ]

/-- The type of a family. -/
def Samples.type : Samples → String
  | counter _ | labelled _ _ => "counter"
  | gauge _ => "gauge"
  | histogram _ => "histogram"

/-- The lines with the samples of a family. -/
def Family.sampleLines (f : Family) : List String :=
  match f.samples with
  | .counter n => [sample f.name (toString n)]
  | .gauge text => [sample f.name text]
  | .labelled label counts =>
    counts.map fun (value, n) => sample (withLabel f.name label value) (toString n)
  | .histogram h => histogramLines f.name h

/-- The lines about the family itself. -/
def Family.headLines (f : Family) : List String :=
  [ "# HELP " ++ f.name ++ " " ++ f.help, "# TYPE " ++ f.name ++ " " ++ f.samples.type ]

/-- The lines of a family. -/
def Family.lines (f : Family) : List String :=
  if f.sampleLines.isEmpty then [] else f.headLines ++ f.sampleLines

/-- All lines. -/
def lines (m : Metrics) : List String := m.families.flatMap Family.lines

end Relayer.Metrics
