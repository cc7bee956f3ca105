import Relayer.Amount
import Relayer.Chain.Address
import Relayer.Json.Reader

namespace Relayer

/-!
# Call — what a caller wants done on the chain

* `Call` — recipient, value, data and perhaps a gas limit;
* `Call.toJson` / `Call.read` — its wire form, an object of named fields or an array of the
  fields in order.
-/

/-- A call without nonce, price or signature. -/
structure Call where
  recipient : Address
  value : Amount
  data : List UInt8
  /-- The caller's own limit, which makes an estimate unnecessary. -/
  gasLimit : Option UInt64
  deriving DecidableEq, Repr

namespace Call

/-- A call that moves no value and leaves the gas limit open. -/
def plain (recipient : Address) (data : List UInt8) : Call := ⟨recipient, .zero, data, none⟩

/-! ### Wire form -/

/-- The object of the four fields. -/
def toJson (c : Call) : Json :=
  .object
    [ ("to", .string c.recipient.toHex),
      ("value", .string c.value.toHex),
      ("data", .string (Hex.ofBytes c.data)),
      ("gas_limit", .ofOption (fun w => .nat w.toNat) c.gasLimit) ]

/-- The fields read so far. -/
structure Draft where
  recipient : Option Address
  value : Option Amount
  data : Option (List UInt8)
  gasLimit : Option (Option UInt64)

/-- Nothing read yet. -/
def Draft.empty : Draft := ⟨none, none, none, none⟩

/-- The call of a draft.  The recipient must be there; the other fields may be left out. -/
def Draft.finish (d : Draft) : Except Json.Problem Call :=
  match d.recipient with
  | none => .error .mismatch
  | some recipient =>
    .ok ⟨recipient, d.value.getD .zero, d.data.getD [], d.gasLimit.getD none⟩

/-- A field that may come once. -/
def once {α : Type} (old : Option α) (read : Json.Reader α) : Json.Reader α := fun text =>
  if old.isSome then .error .mismatch else Json.memberValue read text

/-- Read the field of that name into the draft; a field of another name is passed over. -/
def Draft.field (name : String) (d : Draft) : Json.Reader Draft := fun text =>
  if name = "to" then
    (once d.recipient (Json.readAs Address.ofWire?) text).map fun (a, rest) =>
      ({ d with recipient := some a }, rest)
  else if name = "value" then
    (once d.value (Json.readAs Amount.ofHex?) text).map fun (v, rest) =>
      ({ d with value := some v }, rest)
  else if name = "data" then
    (once d.data (Json.readAs Hex.toBytes?) text).map fun (b, rest) =>
      ({ d with data := some b }, rest)
  else if name = "gas_limit" then
    (once d.gasLimit (Json.readNullable Json.readWord) text).map fun (g, rest) =>
      ({ d with gasLimit := some g }, rest)
  else do
    let rest ← Json.expect ':' (Json.skipBlanks text)
    return (d, ← Json.skip rest)

/-- The fields in order, up to the closing bracket, which is left. -/
def Draft.ofItems (text : List Char) : Except Json.Problem (Draft × List Char) := do
  let (recipient, text) ← Json.readItem? (Json.readAs Address.ofWire?) true text
  if recipient.isNone then .error .mismatch
  else
    let (value, text) ← Json.readItem? (Json.readAs Amount.ofHex?) false text
    if value.isNone then .ok ({ Draft.empty with recipient }, text)
    else
      let (data, text) ← Json.readItem? (Json.readAs Hex.toBytes?) false text
      if data.isNone then .ok ({ Draft.empty with recipient, value }, text)
      else
        let (gasLimit, text) ← Json.readItem? (Json.readNullable Json.readWord) false text
        .ok (⟨recipient, value, data, gasLimit⟩, text)

/-- A call that starts here. -/
def read (text : List Char) : Except Json.Problem (Call × List Char) :=
  match Json.skipBlanks text with
  | [] => .error .truncated
  | '[' :: rest => do
    let (draft, rest) ← Draft.ofItems rest
    let call ← draft.finish
    return (call, ← Json.closing ']' rest)
  | '\x7b' :: rest => do
    let (draft, rest) ← Json.readObject Json.anyName Draft.field Draft.empty rest
    let call ← draft.finish
    return (call, ← Json.closing '\x7d' rest)
  | text => .error (Json.wanted text)

/-- A text that is one call. -/
def parse (text : String) : Except Json.Problem Call := Json.parseAs read text

end Call

end Relayer
