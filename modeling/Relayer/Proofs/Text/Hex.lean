import Mathlib.Algebra.GroupWithZero.Nat
import Relayer.Amount
import Relayer.Chain.Address

namespace Relayer

/-!
# Hex — digits read back

Bytes are written as pairs of digits, amounts in the fewest digits, addresses as forty digits, and
each reader inverts its writer.  A reader of numbers takes digits in pairs, so an odd count of
digits is read with a zero before it.

* `Hex.decode?_encode` / `Hex.spaced?_encode` — bytes;
* `Hex.spaced?_number` — numbers;
* `Address.ofWire?_toHex`, `Amount.ofHex?_toHex`, `Hex.toBytes?_ofBytes` — the three with the mark.
-/

namespace Hex

variable {n : Nat}

/-! ### One digit -/

theorem value?_digit (small : n < 16) : value? (digit n) = some n := by
  have all : ∀ k : Fin 16, value? (digit k) = some k.val := by decide
  exact all ⟨n, small⟩

theorem digitChar_eq_digit (small : n < 16) : n.digitChar = digit n := by
  have all : ∀ k : Fin 16, Nat.digitChar k = digit k := by decide
  exact all ⟨n, small⟩

theorem isBlank_digit (small : n < 16) : isBlank (digit n) = false := by
  have all : ∀ k : Fin 16, isBlank (digit k) = false := by decide
  exact all ⟨n, small⟩

/-! ### Bytes -/

variable (bytes : List UInt8)

theorem halves (b : UInt8) : UInt8.ofNat (16 * (b.toNat / 16) + b.toNat % 16) = b := by
  rw [Nat.div_add_mod, UInt8.ofNat_toNat]

theorem halves_lt (b : UInt8) : b.toNat / 16 < 16 ∧ b.toNat % 16 < 16 := by
  have := b.toNat_lt
  omega

@[simp] theorem length_encode : (encode bytes).length = 2 * bytes.length := by
  induction bytes with
  | nil => rfl
  | cons b rest ih =>
    simp only [encode, List.length_cons, ih]
    omega

@[simp] theorem decode?_encode : decode? (encode bytes) = some bytes := by
  induction bytes with
  | nil => rfl
  | cons b rest ih =>
    obtain ⟨high, low⟩ := halves_lt b
    rw [encode, decode?, value?_digit high, value?_digit low, ih]
    exact congrArg (some <| · :: rest) (halves b)

/-- The digits of bytes, two to a byte. -/
def nibbles : List UInt8 → List Nat
  | [] => []
  | b :: rest => b.toNat / 16 :: b.toNat % 16 :: nibbles rest

theorem digits?_cons_digit (small : n < 16) (rest : List Char) :
    digits? (digit n :: rest) = (digits? rest).map (n :: ·) := by
  rw [digits?, isBlank_digit small, value?_digit small]
  cases digits? rest <;> rfl

theorem digits?_encode : digits? (encode bytes) = some (nibbles bytes) := by
  induction bytes with
  | nil => rfl
  | cons b rest ih =>
    obtain ⟨high, low⟩ := halves_lt b
    rw [encode, digits?_cons_digit high, digits?_cons_digit low, ih]
    rfl

theorem pairs_nibbles : pairs (nibbles bytes) = bytes := by
  induction bytes with
  | nil => rfl
  | cons b rest ih => rw [nibbles, pairs, ih, halves]

theorem spaced?_encode : spaced? (encode bytes) = some bytes := by
  have even : ¬(encode bytes).length % 2 = 1 := by
    rw [length_encode]
    omega
  rw [spaced?, digits?_encode, Option.map_some, if_neg even, pairs_nibbles]

/-! ### Numbers -/

/-- The number of digits, the most significant first. -/
def digitsNumber (ds : List Nat) : Nat := ds.foldl (fun n d => 16 * n + d) 0

theorem digitsNumber_concat (ds : List Nat) (d : Nat) :
    digitsNumber (ds ++ [d]) = 16 * digitsNumber ds + d := by
  rw [digitsNumber, List.foldl_append]
  rfl

/-- The value of digits in base sixteen is that of their pairs in base 256. -/
theorem foldl_pairs {ds : List Nat} (even : ds.length % 2 = 0) (small : ∀ d ∈ ds, d < 16)
    (start : Nat) :
    (pairs ds).foldl (fun n b => 256 * n + b.toNat) start =
      ds.foldl (fun n d => 16 * n + d) start := by
  induction ds using pairs.induct generalizing start with
  | case1 high low rest ih =>
    obtain ⟨small_high, small_low, small_rest⟩ : high < 16 ∧ low < 16 ∧ ∀ d ∈ rest, d < 16 := by
      simpa using small
    have even_rest : rest.length % 2 = 0 := by
      simp only [List.length_cons] at even
      omega
    have byte : (UInt8.ofNat (16 * high + low)).toNat = 16 * high + low :=
      UInt8.toNat_ofNat_of_lt' (by show 16 * high + low < 256; omega)
    have step : 256 * start + (16 * high + low) = 16 * (16 * start + high) + low := by omega
    rw [pairs, List.foldl_cons, ih even_rest small_rest, byte, step]
    rfl
  | case2 ds short =>
    match ds with
    | [] => rfl
    | [_] => cases even
    | high :: low :: rest => exact absurd rfl (short high low rest)

theorem digits?_append {text more : List Char} {ds es : List Nat} (here : digits? text = some ds)
    (there : digits? more = some es) : digits? (text ++ more) = some (ds ++ es) := by
  induction text generalizing ds with
  | nil =>
    obtain rfl := Option.some.inj here
    exact there
  | cons c rest ih =>
    rw [digits?] at here
    rw [List.cons_append, digits?]
    split at here
    · next blank => rw [if_pos blank, ih here]
    · next digit =>
      rw [if_neg digit]
      simp only [Option.bind_eq_bind, Option.bind_eq_some_iff, Option.pure_def,
        Option.some.injEq] at here
      obtain ⟨d, first, others, read, rfl⟩ := here
      rw [first, ih read]
      rfl

/-- `Hex.digits?` inverts the digits of a number, each of them below sixteen. -/
theorem digits?_number (n : Nat) :
    ∃ ds, digits? (number n) = some ds ∧ (∀ d ∈ ds, d < 16) ∧ ds.length = (number n).length ∧
      digitsNumber ds = n := by
  induction n using Nat.strongRecOn with
  | ind n ih =>
    have last {d : Nat} (small : d < 16) : digits? [d.digitChar] = some [d] := by
      rw [digitChar_eq_digit small, digits?_cons_digit small]
      rfl
    rw [number, Nat.toDigits_eq_if (by decide)]
    by_cases small : n < 16
    · rw [if_pos small]
      exact ⟨[n], last small, by simpa using small, rfl, by simp [digitsNumber]⟩
    · rw [if_neg small]
      have digit := Nat.mod_lt n (show 0 < 16 by decide)
      obtain ⟨ds, read, below, long, value⟩ := ih (n / 16) (by omega)
      refine ⟨ds ++ [n % 16], digits?_append read (last digit), ?_, ?_, ?_⟩
      · simpa [or_imp, forall_and] using ⟨below, digit⟩
      · rw [List.length_append, List.length_append, long]
        rfl
      · rw [digitsNumber_concat, value, Nat.div_add_mod]

theorem spaced?_number (n : Nat) :
    (spaced? (number n)).map (·.foldl (fun n b => 256 * n + b.toNat) 0) = some n := by
  obtain ⟨ds, read, small, long, value⟩ := digits?_number n
  rw [spaced?, read, Option.map_some, Option.map_some, ← long]
  congr 1
  split
  · next odd =>
    -- The zero before an odd count of digits adds nothing.
    rw [foldl_pairs (by rw [List.length_cons]; omega) (by simpa using small)]
    exact value
  · next even =>
    rw [foldl_pairs (by omega) small]
    exact value

/-! ### Texts with the mark -/

theorem toBytes?_ofBytes : toBytes? (ofBytes bytes) = some bytes := by
  rw [toBytes?, ofBytes, String.toList_ofList]
  exact decode?_encode bytes

theorem toWireBytes?_ofBytes : toWireBytes? bytes.length (ofBytes bytes) = some bytes := by
  have mark : unprefixed (ofBytes bytes).toList = encode bytes := by
    rw [ofBytes, String.toList_ofList]
    rfl
  simp only [toWireBytes?, mark]
  rw [if_pos (length_encode bytes), spaced?_encode]
  simp

theorem toWireNumber?_ofNumber {k : Nat} (held : n < 16 ^ k) (positive : 0 < k) :
    toWireNumber? k (ofNumber n) = some n := by
  have mark : unprefixed (ofNumber n).toList = number n := by
    rw [ofNumber, String.toList_ofList]
    rfl
  have short : (number n).length ≤ k := (Nat.length_toDigits_le_iff (by decide) positive).mpr held
  have some_digit : (number n).isEmpty = false :=
    List.isEmpty_eq_false_iff.mpr Nat.toDigits_ne_nil
  simp only [toWireNumber?, mark, some_digit]
  rw [if_neg (by simpa using short)]
  exact spaced?_number n

end Hex

/-! ### Addresses and amounts -/

theorem Address.ofWire?_toHex (a : Address) : Address.ofWire? a.toHex = some a := by
  have long : a.toBytes.length = 20 := by simp [Address.toBytes]
  have read := Hex.toWireBytes?_ofBytes a.toBytes
  rw [long] at read
  rw [Address.ofWire?, Address.toHex, read, Option.bind_some, Address.ofBytes?, exactly?,
    dif_pos long]
  rfl

theorem Amount.ofHex?_toHex (a : Amount) : Amount.ofHex? a.toHex = some a := by
  rw [Amount.ofHex?, Amount.toHex, Hex.toWireNumber?_ofNumber (k := 64) a.toNat_lt (by decide),
    Option.bind_some, Amount.ofNat?, dif_pos a.toNat_lt]

end Relayer
