import Relayer.Json.Normal
import Relayer.Json.Record

namespace Relayer

/-!
# Answer — what comes back from a request to a node

A request is a method with its parameters; the answer is a text that holds either a result or an
error, and both only in one very strict form.

* `Query` — a request;
* `NodeError` — the error a node answers with;
* `NodeAnswer.parse` — the answer in a text;
* `Delivery` — what a transport brings back;
* `Attempt` — what became of a request for a result of some kind.
-/

/-- A request to a node. -/
structure Query where
  method : String
  params : List Json

/-! ### Errors of a node -/

/-- An error that a node answers with. -/
structure NodeError where
  code : Int
  message : String
  data : Option Json

namespace NodeError

/-- The text of an error. -/
def text (e : NodeError) : String :=
  "(code: " ++ toString e.code ++ ", message: " ++ e.message ++ ", data: " ++
    (match e.data with
      | none => "None"
      | some data => "Some(" ++ data.describe ++ ")") ++ ")"

/-- The fields of an error.  Its data may be any value, some levels of which the answer itself takes
    up. -/
def fields : List (Json.Field NodeError) :=
  [ .kept "code" Json.readInteger fun code e => { e with code },
    .kept "message" Json.readString fun message e => { e with message },
    .keptIfAny "data" (Json.value 126) fun data e => { e with data := data.map Json.normal } ]

/-- An error that starts here. -/
def read : Json.Reader NodeError := Json.readEither fields ⟨0, "", none⟩

end NodeError

/-! ### Answers -/

/-- An answer: the text of a result, or an error. -/
inductive NodeAnswer where
  | result (text : String)
  | error (e : NodeError)

namespace NodeAnswer

/-- The parts of an answer that matter. -/
structure Parts where
  result : Option String
  error : Option NodeError

/-- The fields of an answer.  Names and version are written without escapes, and there are no other
    fields. -/
def fields : List (Json.Field Parts) :=
  [ .checked "jsonrpc" fun text => do
      let (version, rest) ← Json.plainName (← Json.expect '"' (Json.skipBlanks text))
      if version = "2.0" then return ((), rest) else .error .mismatch,
    .checked "id" Json.readWord,
    { Json.Field.kept "result" Json.readSpan (fun text p => { p with result := some text }) with
      needed := false },
    { Json.Field.kept "error" NodeError.read (fun e p => { p with error := some e }) with
      needed := false } ]

/-- The answer in a text: exactly one of result and error. -/
def parse (text : String) : Except Json.Problem NodeAnswer := do
  let read := Json.readRecord Json.plainName fields (fun _ => .error .mismatch) ⟨none, none⟩
  match ← Json.parseAs read text with
  | ⟨some written, none⟩ => .ok (.result written)
  | ⟨none, some e⟩ => .ok (.error e)
  | _ => .error .mismatch

end NodeAnswer

/-! ### Attempts -/

/-- What a transport brings back from a request. -/
inductive Delivery where
  /-- A text, whatever it says. -/
  | body (text : String)
  /-- The connection failed. -/
  | lost
  /-- Nothing came within the network timeout. -/
  | late
  deriving DecidableEq, Repr

/-- Why an answer in time is of no use. -/
inductive CallError where
  /-- The node answered with an error. -/
  | refused (e : NodeError)
  /-- The answer, or the result in it, cannot be read. -/
  | unreadable (text : String)
  /-- The connection failed. -/
  | unreachable

/-- The text of an error.  An answer that cannot be read is quoted. -/
def CallError.text : CallError → String
  | refused e => e.text
  | unreadable text => "Deserialization Error: unexpected value. Response: " ++ text
  | unreachable => "error sending request: connection failed"

/-- What became of a request. -/
inductive Attempt (α : Type) where
  | got (a : α)
  | failed (e : CallError)
  | late

/-- The result in what a transport brought back. -/
def Delivery.attempt {α : Type} (read : Json.Reader α) : Delivery → Attempt α
  | lost => .failed .unreachable
  | late => .late
  | body text =>
    match NodeAnswer.parse text with
    | .error _ => .failed (.unreadable text)
    | .ok (.error e) => .failed (.refused e)
    | .ok (.result result) =>
      match Json.parseAs read result with
      | .ok a => .got a
      | .error _ => .failed (.unreadable result)

end Relayer
