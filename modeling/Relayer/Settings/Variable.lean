import Relayer.Settings.Basic
import Relayer.Text.Blank
import Relayer.Text.Decimal

namespace Relayer

/-!
# Variable — settings overridden by the environment

Every setting has a variable of the environment, which overrides the file.

* `Variable` — the variables, `Variable.name` — what follows the common prefix in their keys;
* `Variable.apply` — the settings with the value of one variable;
* `Settings.override` — the settings with the values of an environment;
* `Variable.unknown` — the keys that have the prefix but belong to no variable.
-/

/-- The variables. -/
inductive Variable where
  /-- The path of the file.  It overrides no setting. -/
  | file
  | endpoints
  | privateKey
  | mnemonic
  | hdPath
  | remoteUrl
  | remoteAddress
  | confirmations
  | nonceTolerance
  | resubmitAfter
  | networkTimeout
  | sendTimeout
  | mempoolTimeout
  | receiptInterval
  | bufferSize
  | maxGasPrice
  | bumpPercent
  | limitPercent
  | apiHost
  | apiPort
  | metricsEnabled
  | metricsPort
  deriving DecidableEq, Repr

namespace Variable

/-! ### Names -/

/-- The prefix of the keys. -/
def mark : String := "ROLLUP_TXMGR"

/-- What follows the prefix and an underscore. -/
def name : Variable → String
  | file => "CONFIG"
  | endpoints => "L1_ETH_RPC"
  | privateKey => "PRIVATE_KEY"
  | mnemonic => "MNEMONIC"
  | hdPath => "HD_PATH"
  | remoteUrl => "REMOTE_SIGNER_URL"
  | remoteAddress => "REMOTE_SIGNER_ADDRESS"
  | confirmations => "NUM_CONFIRMATIONS"
  | nonceTolerance => "SAFE_ABORT_NONCE_TOO_LOW_COUNT"
  | resubmitAfter => "RESUBMISSION_TIMEOUT_MS"
  | networkTimeout => "NETWORK_TIMEOUT_MS"
  | sendTimeout => "TX_SEND_TIMEOUT_MS"
  | mempoolTimeout => "TX_NOT_IN_MEMPOOL_TIMEOUT_MS"
  | receiptInterval => "RECEIPT_QUERY_INTERVAL_MS"
  | bufferSize => "TX_BUFFER_SIZE"
  | maxGasPrice => "MAX_GAS_PRICE_GWEI"
  | bumpPercent => "PRICE_BUMP_PERCENT"
  | limitPercent => "GAS_LIMIT_BUFFER_PERCENT"
  | apiHost => "API_HOST"
  | apiPort => "API_PORT"
  | metricsEnabled => "METRICS_ENABLED"
  | metricsPort => "METRICS_PORT"

/-- All variables. -/
def all : List Variable :=
  [ file, endpoints, privateKey, mnemonic, hdPath, remoteUrl, remoteAddress, confirmations,
    nonceTolerance, resubmitAfter, networkTimeout, sendTimeout, mempoolTimeout, receiptInterval,
    bufferSize, maxGasPrice, bumpPercent, limitPercent, apiHost, apiPort, metricsEnabled,
    metricsPort ]

/-- The rest of a key behind a prefix and an underscore. -/
def rest? (mark key : String) : Option String :=
  let start := mark.toList ++ ['_']
  if start.isPrefixOf key.toList then some (String.ofList (key.toList.drop start.length)) else none

/-- The variable of that name. -/
def ofName? (name : String) : Option Variable := all.find? (·.name == name)

/-- The variable of a key. -/
def ofKey? (mark key : String) : Option Variable := (rest? mark key).bind ofName?

/-- The keys that have the prefix but belong to no variable. -/
def unknown (mark : String) (keys : List String) : List String :=
  keys.filter fun key => match rest? mark key with
    | some name => (ofName? name).isNone
    | none => false

/-! ### Values -/

/-- A number below a bound, or the cause why the value is invalid. -/
def number (bound : Nat) (text : String) : Except String Nat :=
  (Decimal.read bound text).mapError (·.message)

/-- A number of 64 bits. -/
def word (text : String) : Except String UInt64 := (number UInt64.size text).map UInt64.ofNat

/-- A number of 16 bits. -/
def port (text : String) : Except String UInt16 := (number UInt16.size text).map UInt16.ofNat

/-- `true` or `false`. -/
def flag (text : String) : Except String Bool :=
  if text = "true" then .ok true
  else if text = "false" then .ok false
  else .error "provided string was not `true` or `false`"

/-- Items between commas, trimmed. -/
def items (text : String) : List String :=
  (text.toList.splitOn ',').map fun item => String.ofList (Blank.trimList item)

/-- Change the section about the remote signer, which is created where it is missing. -/
def withRemote (s : Settings) (f : RemoteSettings → RemoteSettings) : Settings :=
  { s with signer := { s.signer with remote := some (f (s.signer.remote.getD ⟨"", ""⟩)) } }

/-- Change the policy. -/
def withPolicy (s : Settings) (f : PolicySettings → PolicySettings) : Settings :=
  { s with policy := f s.policy }

/-- The settings with the value of a variable, or the cause why the value is invalid. -/
def apply (v : Variable) (value : String) (s : Settings) : Except String Settings :=
  match v with
  | file => .ok s
  | endpoints => .ok { s with endpoints := items value }
  | privateKey => .ok { s with signer := { s.signer with privateKey := some value } }
  | mnemonic => .ok { s with signer := { s.signer with mnemonic := some value } }
  | hdPath => .ok { s with signer := { s.signer with hdPath := some value } }
  | remoteUrl => .ok (withRemote s fun r => { r with url := value })
  | remoteAddress => .ok (withRemote s fun r => { r with address := value })
  | confirmations =>
    (word value).map fun n => withPolicy s fun p => { p with confirmations := n }
  | nonceTolerance =>
    (number UInt32.size value).map fun n =>
      withPolicy s fun p => { p with nonceTolerance := UInt32.ofNat n }
  | resubmitAfter =>
    (word value).map fun n => withPolicy s fun p => { p with resubmitAfter := n }
  | networkTimeout =>
    (word value).map fun n => withPolicy s fun p => { p with networkTimeout := n }
  | sendTimeout => (word value).map fun n => withPolicy s fun p => { p with sendTimeout := n }
  | mempoolTimeout =>
    (word value).map fun n => withPolicy s fun p => { p with mempoolTimeout := n }
  | receiptInterval =>
    (word value).map fun n => withPolicy s fun p => { p with receiptInterval := n }
  | bufferSize => (word value).map fun n => withPolicy s fun p => { p with bufferSize := n }
  | maxGasPrice =>
    (word value).map fun n => withPolicy s fun p => { p with maxGasPriceGwei := n }
  | bumpPercent => (word value).map fun n => withPolicy s fun p => { p with bumpPercent := n }
  | limitPercent => (word value).map fun n => withPolicy s fun p => { p with limitPercent := n }
  | apiHost => .ok { s with api := { s.api with host := value } }
  | apiPort => (port value).map fun n => { s with api := { s.api with port := n } }
  | metricsEnabled =>
    (flag value).map fun b => { s with metrics := { s.metrics with enabled := b } }
  | metricsPort => (port value).map fun n => { s with metrics := { s.metrics with port := n } }

end Variable

/-! ### Many variables -/

/-- The settings with the values of the variables among some keys, in order, up to the first invalid
    value. -/
def Settings.override (mark : String) (s : Settings) :
    List (String × String) → Settings × Option Settings.Problem
  | [] => (s, none)
  | (key, value) :: rest =>
    match Variable.ofKey? mark key with
    | none => s.override mark rest
    | some v =>
      match v.apply value s with
      | .ok s => s.override mark rest
      | .error cause => (s, some (.badValue key cause))

end Relayer
