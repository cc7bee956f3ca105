namespace Relayer.Sha256

/-!
# Sha256 — the 256-bit hash over 32-bit words

* `extend` / `compress` — one block of 64 bytes;
* `pad` — the message as whole blocks;
* `hash` — the digest of a byte string.
-/

/-! ### One block -/

/-- The eight words that the blocks are mixed into. -/
structure State where
  a : UInt32
  b : UInt32
  c : UInt32
  d : UInt32
  e : UInt32
  f : UInt32
  g : UInt32
  h : UInt32

/-- The words before the first block. -/
def State.initial : State where
  a := 0x6a09e667
  b := 0xbb67ae85
  c := 0x3c6ef372
  d := 0xa54ff53a
  e := 0x510e527f
  f := 0x9b05688c
  g := 0x1f83d9ab
  h := 0x5be0cd19

/-- The constants that tell the rounds apart. -/
def roundConstants : List UInt32 :=
  [ 0x428a2f98, 0x71374491, 0xb5c0fbcf, 0xe9b5dba5, 0x3956c25b, 0x59f111f1, 0x923f82a4, 0xab1c5ed5,
    0xd807aa98, 0x12835b01, 0x243185be, 0x550c7dc3, 0x72be5d74, 0x80deb1fe, 0x9bdc06a7, 0xc19bf174,
    0xe49b69c1, 0xefbe4786, 0x0fc19dc6, 0x240ca1cc, 0x2de92c6f, 0x4a7484aa, 0x5cb0a9dc, 0x76f988da,
    0x983e5152, 0xa831c66d, 0xb00327c8, 0xbf597fc7, 0xc6e00bf3, 0xd5a79147, 0x06ca6351, 0x14292967,
    0x27b70a85, 0x2e1b2138, 0x4d2c6dfc, 0x53380d13, 0x650a7354, 0x766a0abb, 0x81c2c92e, 0x92722c85,
    0xa2bfe8a1, 0xa81a664b, 0xc24b8b70, 0xc76c51a3, 0xd192e819, 0xd6990624, 0xf40e3585, 0x106aa070,
    0x19a4c116, 0x1e376c08, 0x2748774c, 0x34b0bcb5, 0x391c0cb3, 0x4ed8aa4a, 0x5b9cca4f, 0x682e6ff3,
    0x748f82ee, 0x78a5636f, 0x84c87814, 0x8cc70208, 0x90befffa, 0xa4506ceb, 0xbef9a3f7, 0xc67178f2 ]

/-- Turn a word to the right. -/
@[inline] def rotate (w : UInt32) (n : UInt32) : UInt32 := (w >>> n) ||| (w <<< (32 - n))

/-- One round with the sum of its constant and its message word. -/
def round (s : State) (input : UInt32) : State :=
  let mixE := rotate s.e 6 ^^^ rotate s.e 11 ^^^ rotate s.e 25
  let choice := (s.e &&& s.f) ^^^ (~~~ s.e &&& s.g)
  let t := s.h + mixE + choice + input
  let mixA := rotate s.a 2 ^^^ rotate s.a 13 ^^^ rotate s.a 22
  let majority := (s.a &&& s.b) ^^^ (s.a &&& s.c) ^^^ (s.b &&& s.c)
  ⟨t + mixA + majority, s.a, s.b, s.c, s.d + t, s.e, s.f, s.g⟩

/-- Add `n` message words to those there are; each depends on four of the last sixteen. -/
def extend : Nat → Array UInt32 → Array UInt32
  | 0, words => words
  | n + 1, words =>
    let back (k : Nat) : UInt32 := words.getD (words.size - k) 0
    let near := rotate (back 15) 7 ^^^ rotate (back 15) 18 ^^^ (back 15 >>> 3)
    let far := rotate (back 2) 17 ^^^ rotate (back 2) 19 ^^^ (back 2 >>> 10)
    extend n (words.push (back 16 + near + back 7 + far))

/-- The word of 4 bytes, the first byte highest. -/
def wordOf (bytes : List UInt8) : UInt32 :=
  bytes.foldl (fun w b => (w <<< 8) ||| b.toUInt32) 0

/-- Split off the words of a list of bytes. -/
def wordsOf (bytes : List UInt8) : List UInt32 :=
  match bytes with
  | [] => []
  | b :: rest => wordOf (b :: rest.take 3) :: wordsOf (rest.drop 3)
termination_by bytes.length
decreasing_by simp only [List.length_drop, List.length_cons]; omega

/-- Mix one block in. -/
def compress (s : State) (block : List UInt8) : State :=
  let words := extend 48 (wordsOf block).toArray
  let t := (roundConstants.zip words.toList).foldl (fun t (k, w) => round t (k + w)) s
  ⟨s.a + t.a, s.b + t.b, s.c + t.c, s.d + t.d, s.e + t.e, s.f + t.f, s.g + t.g, s.h + t.h⟩

/-! ### The whole message -/

/-- The `n` low bytes of a number, the highest first. -/
def lowBytes : Nat → Nat → List UInt8
  | 0, _ => []
  | n + 1, value => lowBytes n (value / 256) ++ [UInt8.ofNat (value % 256)]

/-- The message with a mark, zeros and its length in bits, up to whole blocks. -/
def pad (message : List UInt8) : List UInt8 :=
  let n := message.length
  message ++ 0x80 :: List.replicate ((64 - (n + 9) % 64) % 64) 0 ++ lowBytes 8 (8 * n)

/-- Mix in the blocks of a padded message. -/
def absorb (s : State) (message : List UInt8) : State :=
  match message with
  | [] => s
  | b :: rest => absorb (compress s (b :: rest.take 63)) (rest.drop 63)
termination_by message.length
decreasing_by simp only [List.length_drop, List.length_cons]; omega

/-- The bytes of a word, the highest first. -/
def bytesOf (w : UInt32) : List UInt8 := lowBytes 4 w.toNat

/-- The 32 bytes of the digest. -/
def hash (message : List UInt8) : List UInt8 :=
  let s := absorb .initial (pad message)
  [s.a, s.b, s.c, s.d, s.e, s.f, s.g, s.h].flatMap bytesOf

end Relayer.Sha256
