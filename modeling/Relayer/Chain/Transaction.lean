import Relayer.Chain.Call
import Relayer.Chain.Rlp
import Relayer.Crypto.Keccak

namespace Relayer

/-!
# Transaction — legacy transactions, signed candidates and receipts

* `Transaction` — the fields of a legacy transaction, each of which may be open;
* `Transaction.payload` / `Transaction.signingHash` — what is signed;
* `Transaction.signed` — the bytes to broadcast;
* `Call.toTransaction` / `Call.toEstimate` — the transactions made of a call;
* `Candidate` — one signed attempt;
* `ChainReceipt` / `Receipt` — what a node says of a mined transaction, and what a caller gets.
-/

/-! ### Transactions -/

/-- A legacy transaction. -/
structure Transaction where
  sender : Option Address
  recipient : Option Address
  value : Option Amount
  data : Option (List UInt8)
  nonce : Option Amount
  gas : Option Amount
  gasPrice : Option Amount
  chainId : Option UInt64
  deriving DecidableEq, Repr

namespace Transaction

/-- No field is known. -/
def blank : Transaction := ⟨none, none, none, none, none, none, none, none⟩

instance : Inhabited Transaction := ⟨blank⟩

/-- A field that may be open, which is then an empty byte string. -/
def item {α : Type} (write : α → Rlp) : Option α → Rlp
  | some a => write a
  | none => .bytes []

/-- An amount as an item. -/
def amountItem (a : Amount) : Rlp := .number a.toNat

/-- The six fields that open every form of a transaction. -/
def fields (t : Transaction) : List Rlp :=
  [ item amountItem t.nonce, item amountItem t.gasPrice, item amountItem t.gas,
    item (fun a => .bytes a.toBytes) t.recipient, item amountItem t.value,
    item .bytes t.data ]

/-- What is signed: the fields, and behind them the chain with two empty places. -/
def payload (t : Transaction) : List UInt8 :=
  match t.chainId with
  | some id => Rlp.encode (.list (t.fields ++ [.number id.toNat, .number 0, .number 0]))
  | none => Rlp.encode (.list t.fields)

/-- The hash that is signed. -/
def signingHash (t : Transaction) : Digest := Keccak.hash t.payload

/-- The bytes to broadcast: the fields, and behind them the signature. -/
def signed (t : Transaction) (v : UInt64) (r s : Nat) : List UInt8 :=
  Rlp.encode (.list (t.fields ++ [.number v.toNat, .number r, .number s]))

/-- The request form that nodes and remote signers take: the known fields by name.  The chain is
    not part of it. -/
def toJson (t : Transaction) : Json :=
  .object <| [("type", Json.string "0x00")] ++
    (t.sender.map fun a => ("from", .string a.toHex)).toList ++
    (t.recipient.map fun a => ("to", .string a.toHex)).toList ++
    (t.gas.map fun a => ("gas", .string a.toHex)).toList ++
    (t.gasPrice.map fun a => ("gasPrice", .string a.toHex)).toList ++
    (t.value.map fun a => ("value", .string a.toHex)).toList ++
    (t.data.map fun b => ("data", .string (Hex.ofBytes b))).toList ++
    (t.nonce.map fun a => ("nonce", .string a.toHex)).toList

end Transaction

/-! ### Transactions of a call -/

/-- The transaction to sign for a call. -/
def Call.toTransaction (c : Call) (sender : Address) (chainId nonce : UInt64)
    (gasLimit gasPrice : Amount) : Transaction where
  sender := some sender
  recipient := some c.recipient
  value := some c.value
  data := some c.data
  nonce := some (.ofWord nonce)
  gas := some gasLimit
  gasPrice := some gasPrice
  chainId := some chainId

/-- The transaction to estimate for a call, without nonce and price. -/
def Call.toEstimate (c : Call) (sender : Address) : Transaction :=
  { Transaction.blank with
    sender := some sender
    recipient := some c.recipient
    value := some c.value
    data := some c.data }

/-! ### Candidates -/

/-- One signed attempt at getting a call mined. -/
structure Candidate where
  nonce : UInt64
  gasPrice : Amount
  gasLimit : Amount
  hash : Digest
  raw : List UInt8
  deriving DecidableEq, Repr

/-- The candidate of signed bytes; their hash is known before any node answers. -/
def Candidate.ofSigned (nonce : UInt64) (gasPrice gasLimit : Amount) (raw : List UInt8) :
    Candidate :=
  ⟨nonce, gasPrice, gasLimit, Keccak.hash raw, raw⟩

/-! ### Receipts -/

/-- What a node says of a transaction that was carried out. -/
structure ChainReceipt where
  hash : Digest
  /-- The block, unless the receipt is of a pending one. -/
  block : Option Nat
  status : Option Nat
  gasUsed : Option Amount
  price : Option Amount
  blockHash : Option Digest
  deriving DecidableEq, Repr

/-- The receipt that a caller gets. -/
structure Receipt where
  hash : Digest
  block : Nat
  blockHash : Option Digest
  /-- Whether the call was carried out; a reverted one is mined all the same. -/
  success : Bool
  gasUsed : Option Amount
  price : Option Amount
  /-- Blocks above `block` when the receipt was read. -/
  confirmations : Nat
  deriving DecidableEq, Repr

namespace Receipt

/-- The receipt of a mined transaction, seen when the chain had that head.  A head below the block
    counts as no confirmation. -/
def ofChain? (r : ChainReceipt) (head : Nat) : Option Receipt :=
  r.block.map fun block =>
    { hash := r.hash
      block
      blockHash := r.blockHash
      success := r.status == some 1
      gasUsed := r.gasUsed
      price := r.price
      confirmations := head - block }

/-- The wire form. -/
def toJson (r : Receipt) : Json :=
  .object
    [ ("tx_hash", .string r.hash.toHex),
      ("block_number", .nat r.block),
      ("block_hash", .ofOption (fun d => .string d.toHex) r.blockHash),
      ("success", .bool r.success),
      ("gas_used", .ofOption (fun a => .string a.toHex) r.gasUsed),
      ("effective_gas_price", .ofOption (fun a => .string a.toHex) r.price),
      ("confirmations", .nat r.confirmations) ]

end Receipt

end Relayer
