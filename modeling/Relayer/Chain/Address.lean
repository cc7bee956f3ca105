import Relayer.Failure
import Relayer.Text.Hex

namespace Relayer

/-!
# Address — accounts and hashes

Both are byte strings of a fixed length, written as `0x` and lower-case digits.

* `Address` — twenty bytes; `Address.parse` reads one from a settings text;
* `Digest` — thirty-two bytes, the name of a transaction or a block.
-/

/-- A list of exactly `n` bytes, where it is one. -/
def exactly? (n : Nat) (bytes : List UInt8) : Option (Vector UInt8 n) :=
  if h : bytes.length = n then some ⟨bytes.toArray, by simpa using h⟩ else none

/-! ### Addresses -/

/-- The twenty bytes that name an account. -/
structure Address where
  bytes : Vector UInt8 20
  deriving DecidableEq, Repr

namespace Address

/-- The address whose bytes are all the same. -/
def repeated (b : UInt8) : Address := ⟨Vector.replicate 20 b⟩

instance : Inhabited Address := ⟨repeated 0⟩

/-- The twenty bytes in order. -/
def toBytes (a : Address) : List UInt8 := a.bytes.toList

theorem toBytes_injective {a b : Address} (same : a.toBytes = b.toBytes) : a = b := by
  obtain ⟨a⟩ := a
  obtain ⟨b⟩ := b
  exact congrArg Address.mk (Vector.toList_inj.mp same)

/-- The written form. -/
def toHex (a : Address) : String := Hex.ofBytes a.toBytes

/-- The address of twenty bytes. -/
def ofBytes? (bytes : List UInt8) : Option Address := (exactly? 20 bytes).map Address.mk

/-- The address that forty digits denote, with or without the `0x` mark. -/
def ofHex? (text : String) : Option Address := (Hex.toExactBytes? 20 text).bind ofBytes?

/-- The address in a node's or a caller's text. -/
def ofWire? (text : String) : Option Address := (Hex.toWireBytes? 20 text).bind ofBytes?

/-- Whether a text has the form of an address: forty bytes behind at most one mark, all of them
    digits. -/
def isSpelled (text : String) : Bool :=
  let digits := Hex.unprefixed text.toList
  (String.ofList digits).utf8ByteSize == 40 && digits.all Hex.isDigit

/-- The failure that quotes a text which is no address. -/
def unreadable (text : String) : Failure := .configInvalid ("invalid address: " ++ text)

/-- Read an address from a settings text.  The form is checked before the digits are read. -/
def parse (text : String) : Except Failure Address :=
  if isSpelled text then
    match ofHex? text with
    | some a => .ok a
    | none => .error (unreadable text)
  else .error (unreadable text)

end Address

/-! ### Digests -/

/-- The thirty-two bytes that name a transaction or a block. -/
structure Digest where
  bytes : Vector UInt8 32
  deriving DecidableEq, Repr

namespace Digest

/-- The thirty-two bytes in order. -/
def toBytes (d : Digest) : List UInt8 := d.bytes.toList

/-- The written form. -/
def toHex (d : Digest) : String := Hex.ofBytes d.toBytes

/-- The digest of thirty-two bytes. -/
def ofBytes? (bytes : List UInt8) : Option Digest := (exactly? 32 bytes).map Digest.mk

/-- The digest that sixty-four digits denote, with or without the `0x` mark. -/
def ofHex? (text : String) : Option Digest := (Hex.toWireBytes? 32 text).bind ofBytes?

/-- The digest whose bytes are all the same. -/
def repeated (b : UInt8) : Digest := ⟨Vector.replicate 32 b⟩

instance : Inhabited Digest := ⟨repeated 0⟩

end Digest

end Relayer
