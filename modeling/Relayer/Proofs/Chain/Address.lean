import Relayer.Proofs.Text.Hex

namespace Relayer

/-!
# Address — which settings texts are addresses

A settings text is checked by `Address.isSpelled` before it is read by `Address.ofHex?`: forty bytes
behind the mark, all of them digits.  The reader takes a mark off once more and skips blanks, so the
two agree only because the check leaves nothing but digits.

* `Hex.Stands`, `Hex.Denotes` — the values of digits of either case, one by one and in pairs;
* `Hex.Denotes.digits?_eq` / `Hex.exists_denotes` — the reader of digits returns what they denote,
  and an even number of them always denotes bytes;
* `Address.Spells` and `Address.isSpelled_iff` — the form of an address, and the check of it;
* `Address.parse_grammar` — the texts that are read as addresses, and as which.
-/

namespace Hex

variable {c c' : Char} {n : Nat} {digits digits' : List Char} {bytes bytes' : List UInt8}

/-! ### Digits of either case -/

/-- A hexadecimal digit of either case. -/
def IsDigit (c : Char) : Prop :=
  '0' ≤ c ∧ c ≤ '9' ∨ 'a' ≤ c ∧ c ≤ 'f' ∨ 'A' ≤ c ∧ c ≤ 'F'

instance : DecidablePred IsDigit := fun c =>
  inferInstanceAs (Decidable ('0' ≤ c ∧ c ≤ '9' ∨ 'a' ≤ c ∧ c ≤ 'f' ∨ 'A' ≤ c ∧ c ≤ 'F'))

/-- The value of a digit of either case. -/
def Stands (c : Char) (n : Nat) : Prop := "0123456789abcdef".toList[n]? = some c.toLower

instance (c : Char) (n : Nat) : Decidable (Stands c n) :=
  inferInstanceAs (Decidable ("0123456789abcdef".toList[n]? = some c.toLower))

/-- `Hex.isDigit` is `IsDigit`. -/
theorem isDigit_iff : isDigit c = true ↔ IsDigit c := by
  unfold isDigit value? IsDigit
  split
  · next decimal => simp [decimal]
  · next not_decimal =>
    split
    · next lower => simp [lower]
    · next not_lower =>
      split
      · next upper => simp [upper]
      · next not_upper => simp [not_decimal, not_lower, not_upper]

/-- Digits are ASCII characters. -/
theorem IsDigit.toNat_lt (digit : IsDigit c) : c.toNat < 128 := by
  have most : c ≤ '9' ∨ c ≤ 'f' ∨ c ≤ 'F' := by
    rcases digit with ⟨-, h⟩ | ⟨-, h⟩ | ⟨-, h⟩
    · exact .inl h
    · exact .inr (.inl h)
    · exact .inr (.inr h)
  rcases most with h | h | h
  · exact Nat.lt_of_le_of_lt (show c.toNat ≤ 57 from h) (by decide)
  · exact Nat.lt_of_le_of_lt (show c.toNat ≤ 102 from h) (by decide)
  · exact Nat.lt_of_le_of_lt (show c.toNat ≤ 70 from h) (by decide)

/-- Every digit has a value below sixteen, and `Hex.digit?` returns it. -/
theorem IsDigit.stands (digit : IsDigit c) :
    ∃ n < 16, Stands c n ∧ value? c = some n ∧ isBlank c = false := by
  have all : ∀ k : Fin 128, IsDigit (Char.ofNat k) →
      ∃ n : Fin 16, Stands (Char.ofNat k) n ∧ value? (Char.ofNat k) = some n.val ∧
        isBlank (Char.ofNat k) = false := by decide +kernel
  have plain := digit.toNat_lt
  obtain ⟨n, stands, value, mark⟩ := all ⟨c.toNat, plain⟩ (by rwa [Char.ofNat_toNat])
  rw [Char.ofNat_toNat] at stands value mark
  exact ⟨n, n.isLt, stands, value, mark⟩

/-- A digit has one value. -/
theorem Stands.unique {m : Nat} (stands : Stands c n) (stands' : Stands c m) : n = m := by
  have apart : "0123456789abcdef".toList.Nodup := by decide
  have here : n < "0123456789abcdef".toList.length := (List.getElem?_eq_some_iff.mp stands).1
  exact (List.getElem?_inj here apart).mp (stands.trans stands'.symm)

/-- The written digit of a number below sixteen has that value. -/
theorem stands_digit (small : n < 16) : Stands (digit n) n := by
  have all : ∀ k : Fin 16, Stands (digit k) k := by decide
  exact all ⟨n, small⟩

theorem isDigit_digit (small : n < 16) : IsDigit (digit n) := by
  have all : ∀ k : Fin 16, IsDigit (digit k) := by decide
  exact all ⟨n, small⟩

/-! ### Digits in pairs -/

/-- Digits denote bytes: two of them a byte, the high half first. -/
inductive Denotes : List Char → List UInt8 → Prop
  | nil : Denotes [] []
  | cons {high low : Char} {b : UInt8} {digits : List Char} {bytes : List UInt8}
      (above : Stands high (b.toNat / 16)) (below : Stands low (b.toNat % 16))
      (rest : Denotes digits bytes) : Denotes (high :: low :: digits) (b :: bytes)

/-- `Hex.encode` denotes the bytes that it encodes. -/
theorem denotes_encode (bytes : List UInt8) : Denotes (encode bytes) bytes := by
  induction bytes with
  | nil => exact .nil
  | cons b rest ih =>
    obtain ⟨high, low⟩ := halves_lt b
    exact .cons (stands_digit high) (stands_digit low) ih

theorem isDigit_of_mem_encode (bytes : List UInt8) : ∀ d ∈ encode bytes, IsDigit d := by
  induction bytes with
  | nil => simp [encode]
  | cons b rest ih =>
    obtain ⟨high, low⟩ := halves_lt b
    simp only [encode, List.mem_cons, forall_eq_or_imp]
    exact ⟨isDigit_digit high, isDigit_digit low, ih⟩

/-- **The case of the digits makes no difference** to what they denote. -/
theorem Denotes.of_toLower (denotes : Denotes digits bytes)
    (same : digits.map Char.toLower = digits'.map Char.toLower) : Denotes digits' bytes := by
  induction denotes generalizing digits' with
  | nil =>
    obtain rfl := List.map_eq_nil_iff.mp same.symm
    exact .nil
  | @cons high low b digits bytes above below _ ih =>
    match digits' with
    | [] | [_] => simp at same
    | high' :: low' :: rest' =>
      simp only [List.map_cons, List.cons.injEq] at same
      obtain ⟨same_high, same_low, same_rest⟩ := same
      refine .cons ?_ ?_ (ih same_rest)
      · rwa [Stands, ← same_high]
      · rwa [Stands, ← same_low]

/-- **`Hex.digits?`** returns the halves of the bytes that digits denote. -/
theorem Denotes.digits?_eq (denotes : Denotes digits bytes) (all : ∀ d ∈ digits, IsDigit d) :
    digits? digits = some (nibbles bytes) := by
  induction denotes with
  | nil => rfl
  | @cons high low b digits bytes above below _ ih =>
    simp only [List.mem_cons, forall_eq_or_imp] at all
    obtain ⟨high_digit, low_digit, rest_digits⟩ := all
    obtain ⟨h, -, stands_high, read_high, shown_high⟩ := high_digit.stands
    obtain ⟨l, -, stands_low, read_low, shown_low⟩ := low_digit.stands
    obtain rfl := above.unique stands_high
    obtain rfl := below.unique stands_low
    rw [digits?, shown_high, digits?, shown_low, read_high, read_low, ih rest_digits]
    rfl

/-- An even number of digits denotes half as many bytes. -/
theorem exists_denotes {k : Nat} (even : digits.length = 2 * k) (all : ∀ d ∈ digits, IsDigit d) :
    ∃ bytes, Denotes digits bytes ∧ bytes.length = k := by
  induction k generalizing digits with
  | zero =>
    obtain rfl := List.length_eq_zero_iff.mp even
    exact ⟨[], .nil, rfl⟩
  | succ k ih =>
    match digits with
    | [] | [_] => simp only [List.length_nil, List.length_singleton] at even; omega
    | high :: low :: rest =>
      simp only [List.mem_cons, forall_eq_or_imp] at all
      obtain ⟨high_digit, low_digit, rest_digits⟩ := all
      have even_rest : rest.length = 2 * k := by
        simp only [List.length_cons] at even
        omega
      obtain ⟨bytes, denotes, half⟩ := ih even_rest rest_digits
      obtain ⟨h, high_lt, stands_high, -, -⟩ := high_digit.stands
      obtain ⟨l, low_lt, stands_low, -, -⟩ := low_digit.stands
      have byte : (UInt8.ofNat (16 * h + l)).toNat = 16 * h + l :=
        UInt8.toNat_ofNat_of_lt' (by show 16 * h + l < 256; omega)
      refine ⟨UInt8.ofNat (16 * h + l) :: bytes, .cons ?_ ?_ denotes, congrArg Nat.succ half⟩
      · have quotient : (16 * h + l) / 16 = h := by omega
        rwa [byte, quotient]
      · have remainder : (16 * h + l) % 16 = l := by omega
        rwa [byte, remainder]

theorem length_nibbles (bytes : List UInt8) : (nibbles bytes).length = 2 * bytes.length := by
  induction bytes with
  | nil => rfl
  | cons b rest ih =>
    simp only [nibbles, List.length_cons, ih]
    omega

/-! ### The mark -/

/-- `unprefixed` takes off at most one mark. -/
theorem marked_unprefixed (text : List Char) :
    text = unprefixed text ∨ text = '0' :: 'x' :: unprefixed text := by
  unfold unprefixed
  split
  · exact .inr rfl
  · exact .inl rfl

/-- `unprefixed` leaves digits alone. -/
theorem unprefixed_of_digits (all : ∀ d ∈ digits, IsDigit d) : unprefixed digits = digits := by
  unfold unprefixed
  split
  · next rest =>
    have mark : ¬ IsDigit 'x' := by decide
    exact absurd (all 'x' (by simp)) mark
  · rfl

/-- Digits have one byte each. -/
theorem utf8ByteSize_of_digits (all : ∀ d ∈ digits, IsDigit d) :
    (String.ofList digits).utf8ByteSize = digits.length := by
  induction digits with
  | nil => rfl
  | cons d rest ih =>
    simp only [List.mem_cons, forall_eq_or_imp] at all
    have plain : d.utf8Size = 1 := by
      rw [Char.utf8Size_eq_one_iff]
      exact Nat.le_of_lt_succ all.1.toNat_lt
    rw [String.ofList_cons, String.utf8ByteSize_append, String.utf8ByteSize_singleton, plain,
      ih all.2, List.length_cons, Nat.add_comm]

end Hex

/-! ### Addresses -/

namespace Address

/-- A text spells an address by some digits: forty of them, behind at most one lower-case mark. -/
structure Spells (text : String) (digits : List Char) : Prop where
  marked : text.toList = digits ∨ text.toList = '0' :: 'x' :: digits
  forty : digits.length = 40
  digits : ∀ d ∈ digits, Hex.IsDigit d

variable {text text' : String} {digits digits' : List Char}

/-- `unprefixed` leaves the digits. -/
theorem Spells.unprefixed_eq (spells : Spells text digits) :
    Hex.unprefixed text.toList = digits := by
  rcases spells.marked with plain | marked
  · rw [plain]
    exact Hex.unprefixed_of_digits spells.digits
  · rw [marked]
    rfl

/-- **`isSpelled` is `Spells`**: it counts bytes, but digits have one byte each. -/
theorem isSpelled_iff : isSpelled text = true ↔ ∃ digits, Spells text digits := by
  simp only [isSpelled, Bool.and_eq_true, beq_iff_eq, List.all_eq_true, Hex.isDigit_iff]
  constructor
  · rintro ⟨forty, all⟩
    rw [Hex.utf8ByteSize_of_digits all] at forty
    exact ⟨_, Hex.marked_unprefixed text.toList, forty, all⟩
  · rintro ⟨digits, spells⟩
    rw [spells.unprefixed_eq, Hex.utf8ByteSize_of_digits spells.digits]
    exact ⟨spells.forty, spells.digits⟩

/-- **`ofHex?` does not fail on a text that passed `isSpelled`**: it returns the bytes that the
    digits denote. -/
theorem Spells.ofHex?_eq (spells : Spells text digits) :
    ∃ a, ofHex? text = some a ∧ Hex.Denotes digits a.toBytes := by
  obtain ⟨bytes, denotes, twenty⟩ := Hex.exists_denotes (k := 20) spells.forty spells.digits
  have halves : (Hex.nibbles bytes).length = 2 * 20 := by rw [Hex.length_nibbles, twenty]
  have read : Hex.toExactBytes? 20 text = some bytes := by
    rw [Hex.toExactBytes?, spells.unprefixed_eq, denotes.digits?_eq spells.digits,
      Option.bind_some, if_pos halves, Hex.pairs_nibbles]
  refine ⟨⟨⟨bytes.toArray, by simpa using twenty⟩⟩, ?_, ?_⟩
  · rw [ofHex?, read, Option.bind_some, ofBytes?, exactly?, dif_pos twenty]
    rfl
  · exact denotes

/-- `toHex` spells its address. -/
theorem spells_toHex (a : Address) : Spells a.toHex (Hex.encode a.toBytes) where
  marked := .inr (by rw [toHex, Hex.ofBytes, String.toList_ofList])
  forty := by simp [toBytes]
  digits := Hex.isDigit_of_mem_encode a.toBytes

/-- A text that spells an address is parsed as the one that its digits denote. -/
theorem Spells.parse_eq (spells : Spells text digits) :
    ∃ a, parse text = .ok a ∧ Hex.Denotes digits a.toBytes := by
  obtain ⟨a, read, denotes⟩ := spells.ofHex?_eq
  refine ⟨a, ?_, denotes⟩
  rw [parse, if_pos (isSpelled_iff.mpr ⟨digits, spells⟩), read]

/-- Any other text is an error, which quotes it unchanged. -/
theorem parse_of_not_spells (stray : ∀ digits, ¬ Spells text digits) :
    parse text = .error (.configInvalid ("invalid address: " ++ text)) := by
  have refused : ¬ isSpelled text = true := by
    rw [isSpelled_iff]
    rintro ⟨digits, spells⟩
    exact stray digits spells
  rw [parse, if_neg refused, unreadable]

/-- The same digits denote the same bytes. -/
theorem eq_of_denotes {a b : Address} (all : ∀ d ∈ digits, Hex.IsDigit d)
    (left : Hex.Denotes digits a.toBytes) (right : Hex.Denotes digits b.toBytes) : a = b := by
  have halves : Hex.nibbles a.toBytes = Hex.nibbles b.toBytes :=
    Option.some.inj ((left.digits?_eq all).symm.trans (right.digits?_eq all))
  have bytes : a.toBytes = b.toBytes := by
    rw [← Hex.pairs_nibbles a.toBytes, halves, Hex.pairs_nibbles]
  exact toBytes_injective bytes

/-- **Which texts are addresses.** A settings text is read as an address exactly where it spells
    one: forty digits behind at most one lower-case mark.  It is the address of the bytes that the
    digits denote, whatever their case and with or without the mark; so the written form of an
    address is read back.  All other texts are refused, and quoted unchanged. -/
theorem parse_grammar :
    (∀ text, (∃ a, parse text = .ok a) ↔ ∃ digits, Spells text digits) ∧
    (∀ text digits a, Spells text digits → (parse text = .ok a ↔ Hex.Denotes digits a.toBytes)) ∧
    (∀ text text' digits digits', Spells text digits → Spells text' digits' →
      digits.map Char.toLower = digits'.map Char.toLower → parse text = parse text') ∧
    (∀ a, parse a.toHex = .ok a) ∧
    (∀ text, (∀ digits, ¬ Spells text digits) →
      parse text = .error (.configInvalid ("invalid address: " ++ text))) := by
  have reads : ∀ text digits a, Spells text digits →
      (parse text = .ok a ↔ Hex.Denotes digits a.toBytes) := by
    intro text digits a spells
    obtain ⟨b, read, denotes⟩ := spells.parse_eq
    rw [read, Except.ok.injEq]
    constructor
    · rintro rfl
      exact denotes
    · exact eq_of_denotes spells.digits denotes
  refine ⟨fun text => ⟨?_, ?_⟩, reads, ?_, ?_, fun text => parse_of_not_spells⟩
  · rintro ⟨a, read⟩
    -- By contraposition: a text that spells no address is an error.
    by_cases spelled : ∃ digits, Spells text digits
    · exact spelled
    · rw [parse_of_not_spells (not_exists.mp spelled)] at read
      cases read
  · rintro ⟨digits, spells⟩
    obtain ⟨a, read, -⟩ := spells.parse_eq
    exact ⟨a, read⟩
  · intro text text' digits digits' spells spells' same
    obtain ⟨a, read, denotes⟩ := spells.parse_eq
    rw [read, (reads text' digits' a spells').mpr (denotes.of_toLower same)]
  · intro a
    exact (reads a.toHex _ a a.spells_toHex).mpr (Hex.denotes_encode a.toBytes)

/-- An account with digits of both cases and without the mark is read as the one with the mark and
    in lower case; a mark in upper case is refused. -/
theorem parse_grammar_mixed :
    parse "70997970C51812dc3A010C7d01b50e0d17dc79C8" =
        parse "0x70997970c51812dc3a010c7d01b50e0d17dc79c8" ∧
      parse "0X70997970C51812dc3A010C7d01b50e0d17dc79C8" =
        .error (.configInvalid "invalid address: 0X70997970C51812dc3A010C7d01b50e0d17dc79C8") := by
  have digits {text : String} (all : text.toList.all Hex.isDigit = true) :
      ∀ d ∈ text.toList, Hex.IsDigit d :=
    fun d here => Hex.isDigit_iff.mp (List.all_eq_true.mp all d here)
  have plain : Spells "70997970C51812dc3A010C7d01b50e0d17dc79C8"
      "70997970C51812dc3A010C7d01b50e0d17dc79C8".toList := ⟨.inl rfl, by decide, digits rfl⟩
  have marked : Spells "0x70997970c51812dc3a010c7d01b50e0d17dc79c8"
      "70997970c51812dc3a010c7d01b50e0d17dc79c8".toList := ⟨.inr (by decide), by decide, digits rfl⟩
  have stray : ∀ digits, ¬ Spells "0X70997970C51812dc3A010C7d01b50e0d17dc79C8" digits := by
    intro digits spells
    have length := congrArg List.length spells.unprefixed_eq
    rw [spells.forty] at length
    revert length
    decide
  exact ⟨parse_grammar.2.2.1 _ _ _ _ plain marked (by decide), parse_grammar.2.2.2.2 _ stray⟩

end Address

end Relayer
