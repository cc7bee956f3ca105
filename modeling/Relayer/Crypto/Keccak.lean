import Relayer.Chain.Address

namespace Relayer.Keccak

/-!
# Keccak — the 256-bit hash that names transactions and accounts

A sponge over twenty-five 64-bit lanes with a rate of 136 bytes and the padding `0x01 … 0x80`.

* `permute` — twenty-four rounds on the lanes;
* `pad` / `blocks` — the message as whole blocks;
* `hash` — the digest of a byte string.
-/

/-! ### The permutation -/

/-- Twenty-five lanes; lane `x + 5 * y` stands in column `x` and row `y`. -/
abbrev Lanes := Vector UInt64 25

/-- Turn a word to the left. -/
def rotate (w : UInt64) (n : Nat) : UInt64 :=
  if n = 0 then w else (w <<< UInt64.ofNat n) ||| (w >>> UInt64.ofNat (64 - n))

/-- How far each lane is turned. -/
def offsets : Vector Nat 25 :=
  #v[0, 1, 62, 28, 27, 36, 44, 6, 55, 20, 3, 10, 43, 25, 39, 41, 45, 15, 21, 8, 18, 2, 61, 56, 14]

/-- The constants that tell the rounds apart. -/
def roundConstants : List UInt64 :=
  [ 0x0000000000000001, 0x0000000000008082, 0x800000000000808A, 0x8000000080008000,
    0x000000000000808B, 0x0000000080000001, 0x8000000080008081, 0x8000000000008009,
    0x000000000000008A, 0x0000000000000088, 0x0000000080008009, 0x000000008000000A,
    0x000000008000808B, 0x800000000000008B, 0x8000000000008089, 0x8000000000008003,
    0x8000000000008002, 0x8000000000000080, 0x000000000000800A, 0x800000008000000A,
    0x8000000080008081, 0x8000000000008080, 0x0000000080000001, 0x8000000080008008 ]

/-- Lane of column `x` and row `y`, both taken modulo five. -/
def lane (a : Lanes) (x y : Nat) : UInt64 :=
  a.get ⟨x % 5 + 5 * (y % 5), by omega⟩

/-- Add to every lane the parities of two neighbouring columns. -/
def mixColumns (a : Lanes) : Lanes :=
  let parity : Vector UInt64 5 :=
    .ofFn fun x => lane a x 0 ^^^ lane a x 1 ^^^ lane a x 2 ^^^ lane a x 3 ^^^ lane a x 4
  .ofFn fun i =>
    let x := i.val % 5
    a.get i ^^^ parity.get ⟨(x + 4) % 5, by omega⟩ ^^^ rotate (parity.get ⟨(x + 1) % 5, by omega⟩) 1

/-- Turn the lanes and move them: column `y`, row `2 x + 3 y` takes the lane of column `x`,
    row `y`. -/
def turnAndMove (a : Lanes) : Lanes :=
  .ofFn fun i =>
    let y := i.val % 5
    let x := (i.val % 5 + 3 * (i.val / 5)) % 5
    rotate (lane a x y) (offsets.get ⟨x % 5 + 5 * (y % 5), by omega⟩)

/-- Combine every lane with its two neighbours in the row. -/
def mixRows (a : Lanes) : Lanes :=
  .ofFn fun i =>
    let x := i.val % 5
    let y := i.val / 5
    a[i] ^^^ (~~~ lane a (x + 1) y &&& lane a (x + 2) y)

/-- One round. -/
def round (a : Lanes) (constant : UInt64) : Lanes :=
  let b := mixRows (turnAndMove (mixColumns a))
  b.set 0 (b[0] ^^^ constant)

/-- All rounds. -/
def permute (a : Lanes) : Lanes := roundConstants.foldl round a

/-! ### The sponge -/

/-- Bytes taken in at a time. -/
def rate : Nat := 136

/-- The bytes that fill up a message of `n` bytes to whole blocks. -/
def padding (n : Nat) : List UInt8 :=
  let missing := rate - n % rate
  if missing = 1 then [0x81] else 0x01 :: List.replicate (missing - 2) 0 ++ [0x80]

/-- The word of at most eight bytes, the first byte lowest. -/
def wordOf (bytes : List UInt8) : UInt64 :=
  bytes.foldr (fun b w => (w <<< 8) ||| b.toUInt64) 0

/-- Cut a list into pieces of `n + 1`. -/
def pieces {α : Type} (n : Nat) (xs : List α) : List (List α) :=
  match xs with
  | [] => []
  | x :: rest => (x :: rest.take n) :: pieces n (rest.drop n)
termination_by xs.length
decreasing_by simp only [List.length_drop, List.length_cons]; omega

/-- Take in one block. -/
def absorb (a : Lanes) (block : List UInt8) : Lanes :=
  let words := ((pieces 7 block).map wordOf).toArray
  permute (.ofFn fun i => a[i] ^^^ words.getD i.val 0)

/-- The lanes after a whole message. -/
def lanesOf (message : List UInt8) : Lanes :=
  (pieces (rate - 1) (message ++ padding message.length)).foldl absorb (.replicate 25 0)

/-- The digest: the first four lanes, low bytes first. -/
def hash (message : List UInt8) : Digest :=
  let a := lanesOf message
  ⟨.ofFn fun i => (a.get ⟨i.val / 8, by omega⟩ >>> UInt64.ofNat (8 * (i.val % 8))).toUInt8⟩

end Relayer.Keccak
