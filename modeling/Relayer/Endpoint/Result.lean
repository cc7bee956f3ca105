import Relayer.Chain.Transaction
import Relayer.Json.Record

namespace Relayer.Result

/-!
# Result — the results that nodes answer with

Numbers, hashes and addresses are strings of hexadecimal digits.  A receipt and a transaction have
to be complete in every field that nodes must fill, although only some of them are kept.

* `word` / `amount` / `digest` / `address` — single values;
* `receipt` — the receipt of a transaction, or none;
* `transaction` — the hash of a transaction that the node knows, or none.
-/

/-! ### Single values -/

/-- A number of up to 64 bits. -/
def word : Json.Reader Nat := Json.readAs (Hex.toWireNumber? 16)

/-- An amount. -/
def amount : Json.Reader Amount := Json.readAs Amount.ofHex?

/-- A hash. -/
def digest : Json.Reader Digest := Json.readAs Digest.ofHex?

/-- An address. -/
def address : Json.Reader Address := Json.readAs Address.ofWire?

/-- Bytes. -/
def bytes : Json.Reader (List UInt8) := Json.readAs Hex.toBytes?

/-- The filter over the events of a transaction. -/
def bloom : Json.Reader (List UInt8) := Json.readAs (Hex.toWireBytes? 256)

/-- How deep the values of unknown fields may be. -/
def otherDepth : Nat := 127

/-- The value of an unknown field. -/
def other (text : List Char) : Except Json.Problem (Unit × List Char) :=
  (Json.value otherDepth text).map fun (_, rest) => ((), rest)

/-! ### Receipts -/

/-- The fields of an event, none of which is kept. -/
def eventFields : List (Json.Field Unit) :=
  [ .checked "address" address,
    .checked "topics" (Json.readList digest),
    .checked "data" bytes,
    .checkedIfAny "blockHash" digest,
    .checkedIfAny "blockNumber" word,
    .checkedIfAny "transactionHash" digest,
    .checkedIfAny "transactionIndex" word,
    .checkedIfAny "logIndex" amount,
    .checkedIfAny "transactionLogIndex" amount,
    .checkedIfAny "logType" Json.readString,
    .checkedIfAny "removed" Json.readBool ]

/-- The fields of a receipt. -/
def receiptFields : List (Json.Field ChainReceipt) :=
  [ .kept "transactionHash" digest fun hash r => { r with hash },
    .checked "transactionIndex" word,
    .keptIfAny "blockHash" digest fun blockHash r => { r with blockHash },
    .keptIfAny "blockNumber" word fun block r => { r with block },
    .checked "from" address,
    .checkedIfAny "to" address,
    .checked "cumulativeGasUsed" amount,
    .keptIfAny "gasUsed" amount fun gasUsed r => { r with gasUsed },
    .checkedIfAny "contractAddress" address,
    .checked "logs" (Json.readList (Json.readEither eventFields ())),
    .keptIfAny "status" word fun status r => { r with status },
    .checkedIfAny "root" digest,
    .checked "logsBloom" bloom,
    .checkedIfAny "type" word,
    .keptIfAny "effectiveGasPrice" amount fun price r => { r with price } ]

/-- A receipt, or none. -/
def receipt : Json.Reader (Option ChainReceipt) :=
  Json.readNullable <| Json.readRecord Json.anyName receiptFields other
    ⟨default, none, none, none, none, none⟩

/-! ### Transactions -/

/-- The fields of an entry of an access list, none of which is kept. -/
def accessFields : List (Json.Field Unit) :=
  [ .checked "address" address, .checked "storageKeys" (Json.readList digest) ]

/-- The fields of a transaction, of which only the hash is kept. -/
def transactionFields : List (Json.Field Digest) :=
  [ .kept "hash" digest fun hash _ => hash,
    .checked "nonce" amount,
    .checkedIfAny "blockHash" digest,
    .checkedIfAny "blockNumber" word,
    .checkedIfAny "transactionIndex" word,
    { Json.Field.checked "from" address with needed := false },
    .checkedIfAny "to" address,
    .checked "value" amount,
    .checkedIfAny "gasPrice" amount,
    .checked "gas" amount,
    .checked "input" bytes,
    .checked "v" word,
    .checked "r" amount,
    .checked "s" amount,
    .checkedIfAny "type" word,
    .checkedIfAny "accessList" (Json.readList (Json.readEither accessFields ())),
    .checkedIfAny "maxPriorityFeePerGas" amount,
    .checkedIfAny "maxFeePerGas" amount,
    .checkedIfAny "chainId" amount ]

/-- The hash of a transaction, or none. -/
def transaction : Json.Reader (Option Digest) :=
  Json.readNullable (Json.readRecord Json.anyName transactionFields other default)

end Relayer.Result
