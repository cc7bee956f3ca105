namespace Relayer

/-!
# Rlp — nested byte strings in one byte string

The encoding of transactions: every encoded item contains its length, so that the parts can be
separated again.

* `Rlp` — a byte string or a list of items;
* `Rlp.encode` — the written form;
* `Rlp.number` — a number as a byte string without leading zeros.
-/

/-- An item: a byte string, or a list of items. -/
inductive Rlp where
  | bytes (content : List UInt8)
  | list (items : List Rlp)
  deriving Repr

namespace Rlp

/-- The bytes of a number, most significant first; none for zero. -/
def bigEndian (n : Nat) : List UInt8 :=
  if n = 0 then [] else bigEndian (n / 256) ++ [UInt8.ofNat (n % 256)]
termination_by n
decreasing_by omega

/-- A number as an item. -/
def number (n : Nat) : Rlp := .bytes (bigEndian n)

/-- The mark before a body of `n` bytes: one byte up to 55, else the length of the length and the
    length itself.  `base` tells strings from lists. -/
def mark (base : UInt8) (n : Nat) : List UInt8 :=
  if n ≤ 55 then [base + UInt8.ofNat n]
  else
    let size := bigEndian n
    (base + 55 + UInt8.ofNat size.length) :: size

/-- A byte string in its written form.  A single byte below 128 stands for itself. -/
def encodeBytes (content : List UInt8) : List UInt8 :=
  match content with
  | [b] => if b < 0x80 then [b] else 0x81 :: [b]
  | _ => mark 0x80 content.length ++ content

mutual

/-- The written form of an item. -/
def encode : Rlp → List UInt8
  | .bytes content => encodeBytes content
  | .list items => let body := encodeAll items; mark 0xC0 body.length ++ body

/-- The written forms of several items, one after the other. -/
def encodeAll : List Rlp → List UInt8
  | [] => []
  | item :: rest => encode item ++ encodeAll rest

end

end Rlp

end Relayer
