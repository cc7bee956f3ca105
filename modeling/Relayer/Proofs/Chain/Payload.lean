import Relayer.Proofs.Chain.Rlp
import Relayer.Proofs.Chain.Signing

namespace Relayer

/-!
# Payload — transactions are read back from their bytes

Both `Transaction.payload` and `Transaction.signed` are an RLP list of the six fields of a
transaction, followed by the chain or by the signature.  Decoding returns all nine items, so
candidates with the same bytes agree in their call, nonce, gas limit and bid.

* `length_encodeBytes_le` — the length of an item next to that of its content;
* `decode?_fields` — six fields and three numbers are read back;
* `Call.payload_lossless` — the payload and the signed bytes, read back.
-/

namespace Rlp

variable {n : Nat} {content : List UInt8}

/-! ### Lengths -/

theorem length_mark_le (base : UInt8) (held : n < 2 ^ 64) : (mark base n).length ≤ 9 := by
  by_cases short : n ≤ 55
  · rw [mark_short short, List.length_singleton]
    omega
  · have few := length_bigEndian_mem (by omega) held
    rw [mark_long (by omega), List.length_cons]
    omega

/-- An item is at most nine bytes longer than its content. -/
theorem length_encodeBytes_le (held : content.length < 2 ^ 64) :
    (encodeBytes content).length ≤ content.length + 9 := by
  by_cases lone : isLone content = true
  · match content, lone with
    | [b], lone =>
      rw [encodeBytes_lone (by simpa [isLone] using lone)]
      omega
  · have few := length_mark_le 0x80 held
    rw [encodeBytes_marked lone, List.length_append]
    omega

theorem length_number_le (h : n < 2 ^ 256) : (encode (number n)).length ≤ 41 := by
  have few : (bigEndian n).length ≤ 32 := length_bigEndian_le (by simpa using h)
  have short : (bigEndian n).length < 2 ^ 64 := by omega
  have marked := length_encodeBytes_le short
  rw [number, encode]
  omega

theorem encodeAll_append (xs ys : List Rlp) :
    encodeAll (xs ++ ys) = encodeAll xs ++ encodeAll ys := by
  induction xs with
  | nil => rfl
  | cons item xs ih => rw [List.cons_append, encodeAll, encodeAll, ih, List.append_assoc]

theorem decode?_list {items : List Rlp} (held : (encodeAll items).length < 2 ^ 64 - 9) :
    decode? (encode (.list items)) = some (.list items) := by
  refine decode?_encode ?_
  have short : (encodeAll items).length < 2 ^ 64 := by omega
  have few := length_mark_le 0xC0 short
  rw [encode, List.length_append]
  omega

end Rlp

/-! ### Transactions -/

namespace Call

variable {c : Call} {x y z : Nat}

/-- The items of the six fields of a candidate. -/
def items (c : Call) (nonce : UInt64) (gasLimit gasPrice : Amount) : List Rlp :=
  [ .number nonce.toNat, .number gasPrice.toNat, .number gasLimit.toNat,
    .bytes c.recipient.toBytes, .number c.value.toNat, .bytes c.data ]

theorem word_lt (w : UInt64) : w.toNat < 2 ^ 256 := Nat.lt_trans w.toNat_lt (by decide)

theorem length_items_le (nonce : UInt64) (gasLimit gasPrice : Amount)
    (held : c.data.length < 2 ^ 63) :
    (Rlp.encodeAll (c.items nonce gasLimit gasPrice)).length ≤ c.data.length + 202 := by
  have forNonce := Rlp.length_number_le (word_lt nonce)
  have forPrice := Rlp.length_number_le gasPrice.toNat_lt
  have forLimit := Rlp.length_number_le gasLimit.toNat_lt
  have forValue := Rlp.length_number_le c.value.toNat_lt
  have twenty : c.recipient.toBytes.length = 20 := Vector.length_toList
  have short : c.recipient.toBytes.length < 2 ^ 64 := by omega
  have forRecipient := Rlp.length_encodeBytes_le short
  have forData := Rlp.length_encodeBytes_le (Nat.lt_trans held (by decide))
  simp only [items, Rlp.encodeAll, Rlp.encode, List.length_append, List.length_nil] at *
  omega

/-- The six items and three numbers behind them are read back, if the data fits into memory. -/
theorem decode?_items (nonce : UInt64) (gasLimit gasPrice : Amount)
    (held : c.data.length < 2 ^ 63) (hx : x < 2 ^ 256) (hy : y < 2 ^ 256)
    (hz : z < 2 ^ 256) :
    Rlp.decode? (Rlp.encode
        (.list (c.items nonce gasLimit gasPrice ++ [.number x, .number y, .number z]))) =
      some (.list (c.items nonce gasLimit gasPrice ++ [.number x, .number y, .number z])) := by
  refine Rlp.decode?_list ?_
  have forItems := length_items_le nonce gasLimit gasPrice held
  have forX := Rlp.length_number_le hx
  have forY := Rlp.length_number_le hy
  have forZ := Rlp.length_number_le hz
  rw [Rlp.encodeAll_append, List.length_append]
  simp only [Rlp.encodeAll, List.length_append, List.length_nil]
  omega

theorem payload_toTransaction (c : Call) (sender : Address) (chainId nonce : UInt64)
    (gasLimit gasPrice : Amount) :
    (c.toTransaction sender chainId nonce gasLimit gasPrice).payload =
      Rlp.encode (.list (c.items nonce gasLimit gasPrice ++
        [.number chainId.toNat, .number 0, .number 0])) := rfl

theorem decode?_payload (sender : Address) (chainId nonce : UInt64) (gasLimit gasPrice : Amount)
    (held : c.data.length < 2 ^ 63) :
    Rlp.decode? (c.toTransaction sender chainId nonce gasLimit gasPrice).payload =
      some (.list (c.items nonce gasLimit gasPrice ++
        [.number chainId.toNat, .bytes [], .bytes []])) := by
  have empty : Rlp.number 0 = .bytes [] := congrArg Rlp.bytes Rlp.bigEndian_zero
  rw [← empty, payload_toTransaction]
  exact decode?_items _ _ _ held (word_lt chainId) (by decide) (by decide)

/-- Equal payloads are those of equal calls, chains, nonces, gas limits and bids. -/
theorem eq_of_payload_eq {c' : Call} {sender sender' : Address}
    {chainId chainId' nonce nonce' : UInt64}
    {gasLimit gasLimit' gasPrice gasPrice' : Amount} (held : c.data.length < 2 ^ 63)
    (held' : c'.data.length < 2 ^ 63)
    (same : (c'.toTransaction sender' chainId' nonce' gasLimit' gasPrice').payload =
      (c.toTransaction sender chainId nonce gasLimit gasPrice).payload) :
    c'.recipient = c.recipient ∧ c'.value = c.value ∧ c'.data = c.data ∧ chainId' = chainId ∧
      nonce' = nonce ∧ gasLimit' = gasLimit ∧ gasPrice' = gasPrice := by
  have read := decode?_payload sender chainId nonce gasLimit gasPrice held
  rw [← same, decode?_payload sender' chainId' nonce' gasLimit' gasPrice' held'] at read
  have fields := Rlp.list.inj (Option.some.inj read)
  simp only [items, List.cons_append, List.nil_append, List.cons.injEq, Rlp.bytes.injEq,
    Rlp.number_injective.eq_iff, UInt64.toNat_inj, and_true] at fields
  obtain ⟨hnonce, hprice, hlimit, hrecipient, hvalue, hdata, hchain⟩ := fields
  exact ⟨Address.toBytes_injective hrecipient, Amount.ext_toNat hvalue, hdata, hchain, hnonce,
    Amount.ext_toNat hlimit, Amount.ext_toNat hprice⟩

end Call

/-- **The encoding of a candidate is lossless.**  The payload of `toTransaction`, decoded, is
    `[nonce, gasPrice, gasLimit, recipient, value, data, chainId, "", ""]`, so equal payloads agree
    in all of these.  `k.sign id` signs it for the chain `id` whatever `chainId` is: with the first
    nonce in range, the signed bytes decode to the same six fields, `v = 35 + 2 * id + parity`, `r`
    and the lower of `s` and `-s`.  Only an `r` or an `s` of zero is an error, and only a generator
    without a number in range keeps signing from its end.  The data is as long as memory can be. -/
theorem Call.payload_lossless (c : Call) (sender : Address) (chainId nonce : UInt64)
    (gasLimit gasPrice : Amount) (held : c.data.length < 2 ^ 63) :
    let t := c.toTransaction sender chainId nonce gasLimit gasPrice
    Rlp.decode? t.payload =
        some (.list
          [ .number nonce.toNat, .number gasPrice.toNat, .number gasLimit.toNat,
            .bytes c.recipient.toBytes, .number c.value.toNat, .bytes c.data,
            .number chainId.toNat, .bytes [], .bytes [] ]) ∧
      (∀ (c' : Call) (sender' : Address) (chainId' nonce' : UInt64) (gasLimit' gasPrice' : Amount),
        c'.data.length < 2 ^ 63 →
          (c'.toTransaction sender' chainId' nonce' gasLimit' gasPrice').payload = t.payload →
            c'.recipient = c.recipient ∧ c'.value = c.value ∧ c'.data = c.data ∧
              chainId' = chainId ∧ nonce' = nonce ∧ gasLimit' = gasLimit ∧ gasPrice' = gasPrice) ∧
      ∀ (k : Key) (id : UInt64), 2 * id.toNat + 36 < 2 ^ 64 →
        let hash := Key.hashFor id t
        let nonces := Nonces.seed k.secret hash
        (∀ n, nonces.Finds n → ¬ (Signature.rOf n = 0 ∨ Signature.sOf k.secret hash n = 0) →
          ∃ raw, k.sign id t = some (.ok (.ok raw)) ∧
            Rlp.decode? raw =
              some (.list
                [ .number nonce.toNat, .number gasPrice.toNat, .number gasLimit.toNat,
                  .bytes c.recipient.toBytes, .number c.value.toNat, .bytes c.data,
                  .number (35 + 2 * id.toNat + (Signature.parity k.secret hash n).toNat),
                  .number (Signature.rOf n), .number (Signature.lowOf k.secret hash n) ])) ∧
        (∀ n, nonces.Finds n → (Signature.rOf n = 0 ∨ Signature.sOf k.secret hash n = 0) →
          k.sign id t = some (.ok (.error (.signer "signature error")))) ∧
        ((∀ n, ¬ nonces.Finds n) → k.sign id t = none) := by
  intro t
  refine ⟨decode?_payload sender chainId nonce gasLimit gasPrice held,
    fun _ _ _ _ _ _ held' same => eq_of_payload_eq held held' same, fun k id room => ?_⟩
  refine ⟨fun n finds nonzero => ?_, fun n finds zero => Key.sign_eq_error finds zero,
    fun never => Key.sign_eq_none never⟩
  obtain ⟨v, value, signed⟩ := Key.sign_eq_ok room finds nonzero
  have order : Curve.order < 2 ^ 256 := by decide
  have raw := decode?_items nonce gasLimit gasPrice held (word_lt v)
    (Nat.lt_trans (Signature.rOf_lt n) order)
    (Nat.lt_trans (Signature.lowOf_lt k.secret (Key.hashFor id t) n) order)
  exact ⟨_, signed, raw.trans (by rw [value]; rfl)⟩

/-! ### One candidate, signed -/

namespace Key

/-- The key with the digits `46…46`. -/
def sample : Key :=
  ⟨⟨0x4646464646464646464646464646464646464646464646464646464646464646, by decide, by decide⟩⟩

/-- A candidate for chain 900 with sixty bytes of data, more than a short length holds. -/
def sampleCandidate : Transaction :=
  (Call.plain (.repeated 0x55) (List.replicate 60 0xAB)).toTransaction (.repeated 0x11) 900 4
    (.ofWord 21000) (.ofWord 1000000000)

/-- The nonce of its signature for chain 1. -/
def sampleNonce : Curve.Scalar :=
  ⟨0x1fd7b815a87f7db6f18de263a290cb2926705998632f4e18e1931fc43696b09b, by decide, by decide⟩

theorem hashFor_sample : hashFor 1 sampleCandidate =
    0xdd4c18a68e13cd965e153f84cdfd558b884aefcbd821511524dcd398de50050a := by
  decide +kernel

/-- The first number of the generator is in range. -/
theorem finds_sample :
    (Nonces.seed sample.secret (hashFor 1 sampleCandidate)).Finds sampleNonce := by
  rw [hashFor_sample]
  have first : (Nonces.seed sample.secret
      0xdd4c18a68e13cd965e153f84cdfd558b884aefcbd821511524dcd398de50050a).nth 0 =
      sampleNonce.value := by
    decide +kernel
  refine ⟨0, ?_, fun j below => absurd below (Nat.not_lt_zero j)⟩
  rw [first]
  exact dif_pos ⟨sampleNonce.positive, sampleNonce.below⟩

theorem rOf_sample : Signature.rOf sampleNonce =
    0xa90451cd89bc64ccff4720ea35cd6acbb5fcc96c230e65ea92bd0effed2d0d34 := by
  decide +kernel

/-- Its `s` is in the upper half, so that `-s` is the lower one. -/
theorem sOf_sample : Signature.sOf sample.secret (hashFor 1 sampleCandidate) sampleNonce =
    0x9241099c723449339d0ffe0610c6bc9092cf0fe5ec80f9d81566f3d1aa081b05 := by
  rw [hashFor_sample]
  decide +kernel

theorem serves_sample : ¬ (Signature.rOf sampleNonce = 0 ∨
    Signature.sOf sample.secret (hashFor 1 sampleCandidate) sampleNonce = 0) := by
  rw [rOf_sample, sOf_sample]
  decide

theorem lowOf_sample : Signature.lowOf sample.secret (hashFor 1 sampleCandidate) sampleNonce =
    0x6dbef6638dcbb6cc62f001f9ef39436e27dfcd00c2c7a663aa6b6abb262e263c := by
  rw [Signature.lowOf, sOf_sample]
  decide

/-- The second coordinate of `k · G` is odd, that of `-k · G` is even. -/
theorem parity_sample :
    Signature.parity sample.secret (hashFor 1 sampleCandidate) sampleNonce = false := by
  have odd : decide ((Signature.point sampleNonce).2 % 2 = 1) = true := by decide +kernel
  rw [Signature.parity, sOf_sample, odd]
  decide

end Key

/-- The data of a candidate for chain 900, read back from the payload, and from what a key signs of
    it for chain 1: there `v` is `35 + 2 * 1`, and `s` the lower one. -/
theorem Call.payload_lossless_long :
    let c := Call.plain (.repeated 0x55) (List.replicate 60 0xAB)
    let t := c.toTransaction (.repeated 0x11) 900 4 (.ofWord 21000) (.ofWord 1000000000)
    c.data.length < 2 ^ 63 ∧
      Rlp.decode? t.payload =
        some (.list
          [ .number 4, .number 1000000000, .number 21000, .bytes (List.replicate 20 0x55),
            .number 0, .bytes (List.replicate 60 0xAB), .number 900, .bytes [], .bytes [] ]) ∧
      ∃ raw, Key.sample.sign 1 t = some (.ok (.ok raw)) ∧
        Rlp.decode? raw =
          some (.list
            [ .number 4, .number 1000000000, .number 21000, .bytes (List.replicate 20 0x55),
              .number 0, .bytes (List.replicate 60 0xAB), .number 37,
              .number 0xa90451cd89bc64ccff4720ea35cd6acbb5fcc96c230e65ea92bd0effed2d0d34,
              .number 0x6dbef6638dcbb6cc62f001f9ef39436e27dfcd00c2c7a663aa6b6abb262e263c ]) := by
  intro c t
  have long : c.data.length = 60 := List.length_replicate
  have held : c.data.length < 2 ^ 63 := by omega
  obtain ⟨payload, -, signed⟩ :=
    c.payload_lossless (.repeated 0x11) 900 4 (.ofWord 21000) (.ofWord 1000000000) held
  refine ⟨held, payload, ?_⟩
  obtain ⟨raw, result, read⟩ :=
    (signed Key.sample 1 (by decide)).1 Key.sampleNonce Key.finds_sample Key.serves_sample
  have low : Signature.lowOf Key.sample.secret (Key.hashFor 1 t) Key.sampleNonce = _ :=
    Key.lowOf_sample
  have parity : Signature.parity Key.sample.secret (Key.hashFor 1 t) Key.sampleNonce = _ :=
    Key.parity_sample
  rw [Key.rOf_sample, low, parity] at read
  exact ⟨raw, result, read⟩

end Relayer
