import Relayer.Endpoint.Pool
import Relayer.Endpoint.Result

namespace Relayer

/-!
# Calls — the calls of a pool

* `Wire` — the transport;
* `Query.chainId` and the others — the requests;
* `Pool.read` / `Pool.once` — a call with an attempt at every node, and one with a single attempt;
* `Pool.chainId` and the others — the calls.
-/

/-- A transport: what comes back from a request to a URL within the network timeout, and what the
    outside remembers. -/
abbrev Wire (σ : Type) := String → Query → σ → Delivery × σ

/-! ### Requests -/

namespace Query

/-- The chain. -/
def chainId : Query := ⟨"eth_chainId", []⟩

/-- The gas price that the node suggests. -/
def gasPrice : Query := ⟨"eth_gasPrice", []⟩

/-- The pending nonce of an account. -/
def nonce (account : Address) : Query :=
  ⟨"eth_getTransactionCount", [.string account.toHex, .string "pending"]⟩

/-- The gas estimate of a transaction. -/
def estimate (t : Transaction) : Query := ⟨"eth_estimateGas", [t.toJson]⟩

/-- The broadcast of signed bytes. -/
def broadcast (raw : List UInt8) : Query :=
  ⟨"eth_sendRawTransaction", [.string (Hex.ofBytes raw)]⟩

/-- The receipt of a transaction. -/
def receipt (hash : Digest) : Query := ⟨"eth_getTransactionReceipt", [.string hash.toHex]⟩

/-- A transaction by its hash. -/
def transaction (hash : Digest) : Query := ⟨"eth_getTransactionByHash", [.string hash.toHex]⟩

/-- The number of the head block. -/
def head : Query := ⟨"eth_blockNumber", []⟩

end Query

/-! ### Calls -/

namespace Pool

variable {σ α : Type}

/-- One attempt at the node of an index. -/
def ask (wire : Wire σ) (query : Query) (reader : Json.Reader α) (p : Pool) (place : Nat)
    (outside : σ) : Attempt α × σ :=
  match p.endpoints[place]? with
  | some url =>
    let (delivery, outside) := wire url query outside
    (delivery.attempt reader, outside)
  | none => (.failed .unreachable, outside)

/-- A call with one attempt at every node, from the active one. -/
def read (wire : Wire σ) (query : Query) (reader : Json.Reader α) (p : Pool) (outside : σ) :
    Except Failure α × Pool × σ :=
  let attempt (place : Nat) (outside : σ) :=
    let (a, outside) := p.ask wire query reader place outside
    (a.read query.method p.timeout, outside)
  p.readFrom attempt (p.size - 1) outside

/-- A call with a single attempt, at the active node. -/
def once (wire : Wire σ) (query : Query) (reader : Json.Reader α)
    (judge : String → Nat → Attempt α → Except Failure α) (p : Pool) (outside : σ) :
    Except Failure α × Pool × σ :=
  let (a, outside) := p.ask wire query reader p.active outside
  let result := judge query.method p.timeout a
  (result, p.after result, outside)

/-- An amount that has to be a 64-bit word. -/
def asWord : Except Failure Amount → Except Stop UInt64
  | .ok a => a.toWord.mapError .fault
  | .error f => .error (.failure f)

/-- The chain id of the nodes. -/
def chainId (wire : Wire σ) (p : Pool) (outside : σ) : Except Stop UInt64 × Pool × σ :=
  (p.read wire .chainId Result.amount outside).map asWord id

/-- The gas price that the nodes suggest. -/
def gasPrice (wire : Wire σ) (p : Pool) (outside : σ) : Except Failure Amount × Pool × σ :=
  p.read wire .gasPrice Result.amount outside

/-- The pending nonce of an account. -/
def nonce (wire : Wire σ) (account : Address) (p : Pool) (outside : σ) :
    Except Stop UInt64 × Pool × σ :=
  (p.read wire (.nonce account) Result.amount outside).map asWord id

/-- The gas estimate of a transaction. -/
def estimate (wire : Wire σ) (t : Transaction) (p : Pool) (outside : σ) :
    Except Failure Amount × Pool × σ :=
  p.once wire (.estimate t) Result.amount Attempt.estimate outside

/-- The broadcast of signed bytes; the answer is their hash. -/
def broadcast (wire : Wire σ) (raw : List UInt8) (p : Pool) (outside : σ) :
    Except Failure Digest × Pool × σ :=
  p.once wire (.broadcast raw) Result.digest Attempt.broadcast outside

/-- The receipt of a transaction, if there is one. -/
def receipt (wire : Wire σ) (hash : Digest) (p : Pool) (outside : σ) :
    Except Failure (Option ChainReceipt) × Pool × σ :=
  p.read wire (.receipt hash) Result.receipt outside

/-- The hash of a transaction that the nodes know. -/
def transaction (wire : Wire σ) (hash : Digest) (p : Pool) (outside : σ) :
    Except Failure (Option Digest) × Pool × σ :=
  p.read wire (.transaction hash) Result.transaction outside

/-- The number of the head block. -/
def head (wire : Wire σ) (p : Pool) (outside : σ) : Except Failure Nat × Pool × σ :=
  p.read wire .head Result.word outside

end Pool

end Relayer
