import Mathlib.Algebra.GroupWithZero.Nat
import Mathlib.Data.List.Induction
import Relayer.Chain.Rlp
import Relayer.Crypto.Signature

namespace Relayer

/-!
# Rlp — decoding inverts encoding

The encoding of an item contains its length, so items can be decoded from the front of a byte
string.  The decoder accepts the shortest form alone, and so exactly the encodings of items, as long
as no length needs more than eight bytes.

* `bigEndianValue_bigEndian` — the number of the bytes of a number;
* `Rlp.body?` — the content behind a mark; `body?_mark` and `mark_of_body?` say which marks those
  are;
* `Rlp.decode?` — the item of some bytes;
* `decode?_encode` / `decode?_eq_some_iff` — `decode?` is the inverse of `encode`.
-/

/-! ### Numbers -/

theorem bigEndianValue_concat (bytes : List UInt8) (b : UInt8) :
    bigEndianValue (bytes ++ [b]) = 256 * bigEndianValue bytes + b.toNat := by
  rw [bigEndianValue, List.foldl_append]
  rfl

namespace Rlp

variable {n k size : Nat} {b base : UInt8} {bytes content digits rest xs ys : List UInt8}
  {item : Rlp} {items : List Rlp}

theorem bigEndian_zero : bigEndian 0 = [] := by
  rw [bigEndian, if_pos rfl]

theorem bigEndian_of_ne_zero (h : n ≠ 0) :
    bigEndian n = bigEndian (n / 256) ++ [UInt8.ofNat (n % 256)] := by
  rw [bigEndian, if_neg h]

theorem toNat_ofNat_mod (n : Nat) : (UInt8.ofNat (n % 256)).toNat = n % 256 :=
  UInt8.toNat_ofNat_of_lt' (Nat.mod_lt n (by decide))

@[simp] theorem bigEndianValue_bigEndian (n : Nat) : bigEndianValue (bigEndian n) = n := by
  fun_induction bigEndian n with
  | case1 => rfl
  | case2 n _ ih =>
    rw [bigEndianValue_concat, ih, toNat_ofNat_mod]
    exact Nat.div_add_mod n 256

theorem bigEndian_eq_nil_iff : bigEndian n = [] ↔ n = 0 := by
  constructor
  · intro h
    rw [← bigEndianValue_bigEndian n, h]
    rfl
  · rintro rfl
    exact bigEndian_zero

/-- `bigEndian` has no leading zeros. -/
theorem head?_bigEndian (n : Nat) : (bigEndian n).head? ≠ some 0 := by
  fun_induction bigEndian n with
  | case1 => simp
  | case2 n positive ih =>
    rw [List.head?_append]
    by_cases small : n / 256 = 0
    · rw [small, bigEndian_zero]
      intro h
      have value : (UInt8.ofNat (n % 256)).toNat = 0 := by
        rw [Option.some.inj h]
        rfl
      rw [toNat_ofNat_mod] at value
      omega
    · obtain ⟨c, tail, split⟩ := List.exists_cons_of_ne_nil (mt bigEndian_eq_nil_iff.mp small)
      rw [split] at ih ⊢
      exact ih

theorem length_bigEndian_le (h : n < 256 ^ k) : (bigEndian n).length ≤ k := by
  induction k generalizing n with
  | zero =>
    obtain rfl : n = 0 := by simpa using h
    simp [bigEndian_zero]
  | succ k ih =>
    by_cases zero : n = 0
    · simp [zero, bigEndian_zero]
    · rw [bigEndian_of_ne_zero zero, List.length_append, List.length_singleton]
      have smaller : n / 256 < 256 ^ k := by
        rw [Nat.div_lt_iff_lt_mul (by decide), ← Nat.pow_succ]
        exact h
      exact Nat.succ_le_succ (ih smaller)

/-- Bytes without leading zeros are the `bigEndian` of their value. -/
theorem bigEndian_bigEndianValue : ∀ {bytes : List UInt8}, bytes.head? ≠ some 0 →
    bigEndian (bigEndianValue bytes) = bytes := by
  intro bytes
  induction bytes using List.reverseRecOn with
  | nil => exact fun _ => bigEndian_zero
  | append_singleton bytes b ih =>
    intro leading
    have below : b.toNat < 256 := b.toNat_lt
    have last : UInt8.ofNat ((256 * bigEndianValue bytes + b.toNat) % 256) = b := by
      rw [Nat.mul_add_mod, Nat.mod_eq_of_lt below, UInt8.ofNat_toNat]
    have front : (256 * bigEndianValue bytes + b.toNat) / 256 = bigEndianValue bytes := by
      omega
    rw [bigEndianValue_concat]
    cases bytes with
    | nil =>
      have positive : b.toNat ≠ 0 := fun zero =>
        leading (congrArg some (UInt8.toNat_inj.mp zero))
      rw [bigEndian_of_ne_zero (by simpa [bigEndianValue] using positive), last, front]
      simp [bigEndianValue, bigEndian_zero]
    | cons c bytes =>
      have ne : bigEndianValue (c :: bytes) ≠ 0 := by
        intro zero
        have := ih (by simpa using leading)
        rw [zero, bigEndian_zero] at this
        cases this
      rw [bigEndian_of_ne_zero (by omega), last, front, ih (by simpa using leading)]

/-! ### Marks -/

/-- The first `n` bytes and the rest, if there are as many. -/
def split? (n : Nat) (bytes : List UInt8) : Option (List UInt8 × List UInt8) :=
  if n ≤ bytes.length then some (bytes.take n, bytes.drop n) else none

theorem split?_eq_some_iff : split? n bytes = some (xs, ys) ↔ xs.length = n ∧ bytes = xs ++ ys := by
  rw [split?]
  constructor
  · intro h
    split at h
    · next enough =>
      obtain ⟨rfl, rfl⟩ := Prod.mk.inj (Option.some.inj h)
      exact ⟨List.length_take_of_le enough, (List.take_append_drop n bytes).symm⟩
    · cases h
  · rintro ⟨rfl, rfl⟩
    rw [List.length_append, if_pos (Nat.le_add_right _ _), List.take_left, List.drop_left]

/-- The content that a mark announces, and what follows it.  What the first byte of the mark adds to
    its base is the length itself, or says how many bytes of length come first.  A length is written
    in the shortest way. -/
@[irreducible]
def body? (base b : UInt8) (bytes : List UInt8) : Option (List UInt8 × List UInt8) :=
  let size := b.toNat - base.toNat
  if size ≤ 55 then split? size bytes
  else match split? (size - 55) bytes with
    | some (digits, rest) =>
      if digits.head? = some 0 ∨ bigEndianValue digits ≤ 55 then none
      else split? (bigEndianValue digits) rest
    | none => none

/-- A first byte that belongs to `base`. -/
def IsMark (base b : UInt8) : Prop := base.toNat ≤ b.toNat ∧ b.toNat < base.toNat + 64

theorem toNat_add_ofNat (room : base.toNat + n < 256) :
    (base + UInt8.ofNat n).toNat = base.toNat + n := by
  rw [UInt8.toNat_add, UInt8.toNat_ofNat_of_lt' (by show n < 256; omega)]
  exact Nat.mod_eq_of_lt room

theorem mark_short (h : n ≤ 55) : mark base n = [base + UInt8.ofNat n] := by
  rw [mark, if_pos h]

theorem mark_long (h : 55 < n) :
    mark base n = (base + UInt8.ofNat (55 + (bigEndian n).length)) :: bigEndian n := by
  have sum : base + 55 + UInt8.ofNat (bigEndian n).length =
      base + UInt8.ofNat (55 + (bigEndian n).length) := by
    rw [UInt8.ofNat_add, ← UInt8.add_assoc]
    rfl
  rw [mark, if_neg (by omega), ← sum]

/-- A length of at most eight bytes. -/
theorem length_bigEndian_mem {n : Nat} (long : 55 < n) (held : n < 2 ^ 64) :
    0 < (bigEndian n).length ∧ (bigEndian n).length ≤ 8 := by
  refine ⟨List.length_pos_iff.mpr (mt bigEndian_eq_nil_iff.mp (by omega)), ?_⟩
  exact length_bigEndian_le (by simpa using held)

theorem mark_eq_cons (base : UInt8) (room : base.toNat + 64 ≤ 256) (held : n < 2 ^ 64) :
    ∃ b digits, mark base n = b :: digits ∧ IsMark base b := by
  by_cases short : n ≤ 55
  · refine ⟨_, [], mark_short short, ?_⟩
    rw [IsMark, toNat_add_ofNat (by omega)]
    omega
  · have few := length_bigEndian_mem (by omega) held
    refine ⟨_, _, mark_long (by omega), ?_⟩
    rw [IsMark, toNat_add_ofNat (by omega)]
    omega

theorem body?_mark (room : base.toNat + 64 ≤ 256) (held : content.length < 2 ^ 64)
    (split : b :: bytes = mark base content.length ++ (content ++ rest)) :
    body? base b bytes = some (content, rest) := by
  by_cases short : content.length ≤ 55
  · rw [mark_short short] at split
    obtain ⟨rfl, rfl⟩ := List.cons.inj split
    rw [body?, toNat_add_ofNat (by omega), Nat.add_sub_cancel_left, if_pos short]
    exact split?_eq_some_iff.mpr ⟨rfl, rfl⟩
  · have few := length_bigEndian_mem (Nat.lt_of_not_le short) held
    rw [mark_long (by omega), List.cons_append] at split
    obtain ⟨rfl, rfl⟩ := List.cons.inj split
    have digits : split? (55 + (bigEndian content.length).length - 55)
        (bigEndian content.length ++ (content ++ rest)) =
          some (bigEndian content.length, content ++ rest) :=
      split?_eq_some_iff.mpr ⟨by omega, rfl⟩
    rw [body?, toNat_add_ofNat (by omega), Nat.add_sub_cancel_left, if_neg (by omega), digits]
    have shortest : ¬((bigEndian content.length).head? = some 0 ∨
        bigEndianValue (bigEndian content.length) ≤ 55) := by
      rw [bigEndianValue_bigEndian]
      exact not_or.mpr ⟨head?_bigEndian _, short⟩
    dsimp only
    rw [if_neg shortest, bigEndianValue_bigEndian]
    exact split?_eq_some_iff.mpr ⟨rfl, rfl⟩

theorem mark_of_body? (room : base.toNat + 64 ≤ 256) (h : IsMark base b)
    (read : body? base b bytes = some (content, rest)) :
    b :: bytes = mark base content.length ++ (content ++ rest) := by
  obtain ⟨least, most⟩ := h
  rw [body?] at read
  split at read
  · next short =>
    obtain ⟨same, rfl⟩ := split?_eq_some_iff.mp read
    -- One byte: `b = base + length`.
    have first : base + UInt8.ofNat content.length = b := by
      rw [← UInt8.toNat_inj, toNat_add_ofNat (by omega)]
      omega
    rw [mark_short (by omega), first]
    rfl
  · next long =>
    split at read
    · next digits tail hsplit =>
      obtain ⟨many, rfl⟩ := split?_eq_some_iff.mp hsplit
      split at read
      · cases read
      · next shortest =>
        obtain ⟨leading, big⟩ := not_or.mp shortest
        obtain ⟨same, rfl⟩ := split?_eq_some_iff.mp read
        -- The digits of the length are without leading zeros, so they are those that `mark` writes.
        have written : bigEndian content.length = digits := by
          rw [same, bigEndian_bigEndianValue leading]
        have first : base + UInt8.ofNat (55 + digits.length) = b := by
          rw [← UInt8.toNat_inj, toNat_add_ofNat (by omega)]
          omega
        rw [mark_long (by omega), written, first]
        rfl
    · cases read

/-! ### Items -/

/-- A byte below `0x80`, which is its own encoding. -/
def isLone : List UInt8 → Bool
  | [b] => b < 0x80
  | _ => false

theorem encodeBytes_lone (h : b < 0x80) : encodeBytes [b] = [b] := by
  rw [encodeBytes, if_pos h]

theorem encodeBytes_marked (h : ¬isLone content = true) :
    encodeBytes content = mark 0x80 content.length ++ content := by
  match content with
  | [b] =>
    rw [encodeBytes, if_neg (by simpa [isLone] using h)]
    rfl
  | [] => rfl
  | _ :: _ :: _ => rfl

theorem mark_ne_nil (base : UInt8) (n : Nat) : mark base n ≠ [] := by
  rw [mark]
  split <;> exact List.cons_ne_nil _ _

theorem length_encode_pos (item : Rlp) : 0 < (encode item).length := by
  rw [List.length_pos_iff]
  cases item with
  | bytes content =>
    rw [encode]
    by_cases lone : isLone content = true
    · match content, lone with
      | [b], lone =>
        rw [encodeBytes_lone (by simpa [isLone] using lone)]
        exact List.cons_ne_nil _ _
    · rw [encodeBytes_marked lone]
      exact List.append_ne_nil_of_left_ne_nil (mark_ne_nil _ _) _
  | list items =>
    rw [encode]
    exact List.append_ne_nil_of_left_ne_nil (mark_ne_nil _ _) _

mutual

/-- The item at the front of some bytes, and the bytes behind it. -/
def readItem : (fuel : Nat) → List UInt8 → Option (Rlp × List UInt8)
  | 0, _ => none
  | _ + 1, [] => none
  | fuel + 1, b :: tail =>
    if b < 0x80 then some (.bytes [b], tail)
    else if b < 0xC0 then
      match body? 0x80 b tail with
      | some (content, rest) => if isLone content then none else some (.bytes content, rest)
      | none => none
    else
      match body? 0xC0 b tail with
      | some (body, rest) => (readItems fuel body).map fun items => (.list items, rest)
      | none => none

/-- The items that some bytes are the encodings of. -/
def readItems : (fuel : Nat) → List UInt8 → Option (List Rlp)
  | 0, _ => none
  | _ + 1, [] => some []
  | fuel + 1, b :: tail =>
    match readItem fuel (b :: tail) with
    | some (item, rest) => (readItems fuel rest).map (item :: ·)
    | none => none

end

/-- The item whose encoding some bytes are. -/
def decode? (bytes : List UInt8) : Option Rlp :=
  match readItem (2 * bytes.length) bytes with
  | some (item, []) => some item
  | _ => none

/-! ### What is written is read back -/

theorem readItem_bytes (fuel : Nat) (rest : List UInt8)
    (held : (encodeBytes content).length < 2 ^ 64) :
    readItem (fuel + 1) (encodeBytes content ++ rest) = some (.bytes content, rest) := by
  by_cases lone : isLone content = true
  · match content, lone with
    | [b], lone =>
      have small : b < 0x80 := by simpa [isLone] using lone
      rw [encodeBytes_lone small, List.singleton_append, readItem, if_pos small]
  · rw [encodeBytes_marked lone] at held ⊢
    rw [List.length_append] at held
    have short : content.length < 2 ^ 64 := by omega
    obtain ⟨b, digits, split, least, most⟩ := mark_eq_cons 0x80 (by decide) short
    have body : body? 0x80 b (digits ++ (content ++ rest)) =
        some (content, rest) :=
      body?_mark (by decide) short (by rw [split, List.cons_append])
    rw [split, List.cons_append, List.cons_append, List.append_assoc, readItem,
      if_neg (UInt8.not_lt.mpr least), if_pos (UInt8.lt_iff_toNat_lt.mpr most), body]
    exact if_neg lone

theorem readItem_list (fuel : Nat) (rest : List UInt8)
    (held : (encode (.list items)).length < 2 ^ 64)
    (read : readItems fuel (encodeAll items) = some items) :
    readItem (fuel + 1) (encode (.list items) ++ rest) = some (.list items, rest) := by
  rw [encode, List.length_append] at held
  have short : (encodeAll items).length < 2 ^ 64 := by omega
  obtain ⟨b, digits, split, least, most⟩ := mark_eq_cons 0xC0 (by decide) short
  have body : body? 0xC0 b (digits ++ (encodeAll items ++ rest)) =
      some (encodeAll items, rest) :=
    body?_mark (by decide) short (by rw [split, List.cons_append])
  have large : (0xC0 : UInt8) ≤ b := least
  have larger : (0x80 : UInt8) ≤ b := UInt8.le_trans (by decide) large
  show readItem (fuel + 1) (mark 0xC0 (encodeAll items).length ++ encodeAll items ++ rest) = _
  rw [split, List.cons_append, List.cons_append, List.append_assoc, readItem,
    if_neg (UInt8.not_lt.mpr larger), if_neg (UInt8.not_lt.mpr large), body]
  dsimp only
  rw [read]
  rfl

mutual

theorem readItem_encode (rest : List UInt8) : ∀ (item : Rlp) (fuel : Nat),
    (encode item).length < 2 ^ 64 → 2 * (encode item).length ≤ fuel →
      readItem fuel (encode item ++ rest) = some (item, rest)
  | item, 0, _, enough => by
    have some_byte := length_encode_pos item
    omega
  | .bytes content, fuel + 1, held, _ => by
    rw [encode] at held ⊢
    exact readItem_bytes fuel rest held
  | .list items, fuel + 1, held, enough => by
    refine readItem_list fuel rest held (readItems_encodeAll items fuel ?_ ?_) <;>
    · rw [encode, List.length_append] at held enough
      have marked := List.length_pos_iff.mpr (mark_ne_nil 0xC0 (encodeAll items).length)
      omega

theorem readItems_encodeAll : ∀ (items : List Rlp) (fuel : Nat),
    (encodeAll items).length < 2 ^ 64 → 2 * (encodeAll items).length < fuel →
      readItems fuel (encodeAll items) = some items
  | _, 0, _, enough => absurd enough (Nat.not_lt_zero _)
  | [], _ + 1, _, _ => rfl
  | item :: items, fuel + 1, held, enough => by
    rw [encodeAll, List.length_append] at held enough
    have some_byte := length_encode_pos item
    have here := readItem_encode (encodeAll items) item fuel (by omega) (by omega)
    have behind := readItems_encodeAll items fuel (by omega) (by omega)
    obtain ⟨b, bytes, split⟩ := List.exists_cons_of_length_pos some_byte
    rw [encodeAll]
    rw [split, List.cons_append] at here ⊢
    rw [readItems, here]
    dsimp only
    rw [behind]
    rfl

end

theorem decode?_encode (held : (encode item).length < 2 ^ 64) :
    decode? (encode item) = some item := by
  have read := readItem_encode [] item (2 * (encode item).length) held (Nat.le_refl _)
  rw [List.append_nil] at read
  rw [decode?, read]

/-! ### Nothing else is read -/

theorem encodeBytes_of_body? (least : (0x80 : UInt8) ≤ b) (most : b < 0xC0)
    (read : body? 0x80 b xs = some (content, rest)) (marked : ¬isLone content = true) :
    b :: xs = encodeBytes content ++ rest := by
  have behind := mark_of_body? (by decide) ⟨least, UInt8.lt_iff_toNat_lt.mp most⟩ read
  rw [behind, encodeBytes_marked marked, List.append_assoc]

theorem encodeAll_of_body? (least : (0xC0 : UInt8) ≤ b)
    (read : body? 0xC0 b xs = some (encodeAll items, rest)) :
    b :: xs = encode (.list items) ++ rest := by
  have behind := mark_of_body? (by decide) ⟨least, b.toNat_lt⟩ read
  rw [behind, encode, List.append_assoc]

mutual

theorem eq_encode_of_readItem : ∀ (fuel : Nat) {item : Rlp} {bytes rest : List UInt8},
    readItem fuel bytes = some (item, rest) → bytes = encode item ++ rest
  | 0, _, _, _, h => by cases h
  | _ + 1, _, [], _, h => by cases h
  | fuel + 1, item, b :: tail, rest, h => by
    rw [readItem] at h
    split at h
    · next small =>
      obtain ⟨rfl, rfl⟩ := Prod.mk.inj (Option.some.inj h)
      -- A byte below `0x80` is itself.
      rw [encode, encodeBytes_lone small, List.singleton_append]
    · next large =>
      split at h
      · next most =>
        split at h
        · next content behind read =>
          split at h
          · cases h
          · next marked =>
            obtain ⟨rfl, rfl⟩ := Prod.mk.inj (Option.some.inj h)
            rw [encode]
            -- A mark below `0xC0` is that of a byte string.
            exact encodeBytes_of_body? (UInt8.not_lt.mp large) most read marked
        · cases h
      · next least =>
        split at h
        · next body behind read =>
          obtain ⟨items, inside, same⟩ := Option.map_eq_some_iff.mp h
          obtain ⟨rfl, rfl⟩ := Prod.mk.inj same
          -- Any other mark is that of a list, whose items are read with less fuel.
          rw [eq_encodeAll_of_readItems fuel inside] at read
          exact encodeAll_of_body? (UInt8.not_lt.mp least) read
        · cases h

theorem eq_encodeAll_of_readItems : ∀ (fuel : Nat) {items : List Rlp} {bytes : List UInt8},
    readItems fuel bytes = some items → bytes = encodeAll items
  | 0, _, _, h => by cases h
  | _ + 1, _, [], h => by
    obtain rfl := Option.some.inj h
    rfl
  | fuel + 1, items, b :: tail, h => by
    rw [readItems] at h
    split at h
    · next item behind read =>
      obtain ⟨others, inside, rfl⟩ := Option.map_eq_some_iff.mp h
      rw [eq_encode_of_readItem fuel read, eq_encodeAll_of_readItems fuel inside, encodeAll]
    · cases h

end

/-- Bytes are decoded as an item exactly where they are its encoding. -/
theorem decode?_eq_some_iff (held : (encode item).length < 2 ^ 64) :
    decode? bytes = some item ↔ bytes = encode item := by
  constructor
  · intro h
    rw [decode?] at h
    split at h
    · next read =>
      obtain rfl := Option.some.inj h
      rw [eq_encode_of_readItem _ read, List.append_nil]
    · cases h
  · rintro rfl
    exact decode?_encode held

/-! ### Numbers as items -/

/-- The number that an item is, if it is a byte string without leading zeros. -/
def toNat? : Rlp → Option Nat
  | .bytes content => if content.head? = some 0 then none else some (bigEndianValue content)
  | .list _ => none

theorem toNat?_number (n : Nat) : toNat? (number n) = some n := by
  rw [number, toNat?, if_neg (head?_bigEndian n), bigEndianValue_bigEndian]

theorem number_injective : Function.Injective number := by
  intro m n same
  have read := toNat?_number m
  rw [same, toNat?_number] at read
  exact (Option.some.inj read).symm

end Rlp

end Relayer
