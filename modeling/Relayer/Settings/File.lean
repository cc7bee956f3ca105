import Relayer.Settings.Template
import Relayer.Settings.Variable
import Relayer.Text.Quoted
import Relayer.Toml.Reader

namespace Relayer

/-!
# File — settings from a file

A section is a table of named values or an array of the values in order.

* `Settings.ofToml?` — the settings in a file;
* `Settings.parse` — the settings in the text of a file with variables;
* `Settings.load` — the settings of a service in its environment.
-/

namespace Toml

/-! ### Values of one kind -/

/-- A text. -/
def text? : Toml → Option String
  | string s => some s
  | _ => none

/-- One of the two truth values. -/
def flag? : Toml → Option Bool
  | bool b => some b
  | _ => none

/-- A number that is not negative and below a bound. -/
def below? (bound : Nat) : Toml → Option Nat
  | integer n => if 0 ≤ n ∧ n < bound then some n.toNat else none
  | _ => none

/-- A number of 64 bits. -/
def word? (v : Toml) : Option UInt64 := (v.below? UInt64.size).map UInt64.ofNat

/-- A number of 32 bits. -/
def halfWord? (v : Toml) : Option UInt32 := (v.below? UInt32.size).map UInt32.ofNat

/-- A number of 16 bits. -/
def port? (v : Toml) : Option UInt16 := (v.below? UInt16.size).map UInt16.ofNat

/-- Texts in order. -/
def texts? : Toml → Option (List String)
  | array items => items.mapM text?
  | _ => none

/-! ### Sections -/

/-- The value of a section under a name, or at a place where the section is an array.  `absent` and
    `short` stand in for a missing value.  A date is a section without any of its names. -/
def field {α : Type} (part : Toml) (place : Nat) (name : String) (read : Toml → Option α)
    (absent short : Option α) : Option α :=
  match part with
  | table ms => match member? ms name with
    | some v => read v
    | none => absent
  | array items => match items[place]? with
    | some v => read v
    | none => short
  | moment => absent
  | _ => none

/-- A value that a section may leave out, for which `other` stands then. -/
def optional {α : Type} (part : Toml) (place : Nat) (name : String) (read : Toml → Option α)
    (other : α) : Option α :=
  part.field place name read (some other) (some other)

/-- A value that a section must have. -/
def required {α : Type} (part : Toml) (place : Nat) (name : String) (read : Toml → Option α) :
    Option α :=
  part.field place name read none none

/-- A value that a table may leave out and an array must have. -/
def nullable {α : Type} (part : Toml) (place : Nat) (name : String) (read : Toml → Option α) :
    Option (Option α) :=
  part.field place name (fun v => (read v).map some) (some none) none

/-- The section about the policy. -/
def policy? (v : Toml) : Option PolicySettings := do
  let d := PolicySettings.standard
  return {
    confirmations := ← v.optional 0 "num_confirmations" word? d.confirmations
    nonceTolerance := ← v.optional 1 "safe_abort_nonce_too_low_count" halfWord? d.nonceTolerance
    resubmitAfter := ← v.optional 2 "resubmission_timeout_ms" word? d.resubmitAfter
    networkTimeout := ← v.optional 3 "network_timeout_ms" word? d.networkTimeout
    sendTimeout := ← v.optional 4 "tx_send_timeout_ms" word? d.sendTimeout
    mempoolTimeout := ← v.optional 5 "tx_not_in_mempool_timeout_ms" word? d.mempoolTimeout
    receiptInterval := ← v.optional 6 "receipt_query_interval_ms" word? d.receiptInterval
    bufferSize := ← v.optional 7 "tx_buffer_size" word? d.bufferSize
    bumpPercent := ← v.optional 8 "price_bump_percent" word? d.bumpPercent
    maxGasPriceGwei := ← v.optional 9 "max_gas_price_gwei" word? d.maxGasPriceGwei
    limitPercent := ← v.optional 10 "gas_limit_buffer_percent" word? d.limitPercent }

/-- The section about a remote signer. -/
def remote? (v : Toml) : Option RemoteSettings := do
  return ⟨← v.required 0 "url" text?, ← v.required 1 "address" text?⟩

/-- The section about the signer. -/
def signer? (v : Toml) : Option SignerSettings := do
  return {
    privateKey := ← v.nullable 0 "private_key" text?
    mnemonic := ← v.nullable 1 "mnemonic" text?
    hdPath := ← v.nullable 2 "hd_path" text?
    remote := ← v.nullable 3 "remote" remote? }

/-- The section about the API. -/
def api? (other : ApiSettings) (v : Toml) : Option ApiSettings := do
  return ⟨← v.optional 0 "host" text? other.host, ← v.optional 1 "port" port? other.port⟩

/-- The section about the metrics. -/
def metrics? (other : MetricsSettings) (v : Toml) : Option MetricsSettings := do
  return ⟨← v.optional 0 "enabled" flag? other.enabled, ← v.optional 1 "port" port? other.port⟩

end Toml

namespace Settings

/-- The settings in a file.  Unknown names are ignored. -/
def ofToml? (members : List (String × Toml)) : Option Settings := do
  let file := Toml.table members
  let endpoints ← file.required 0 "l1" fun v => v.required 0 "rpc_urls" Toml.texts?
  let d := standard endpoints
  return {
    endpoints
    policy := ← file.optional 1 "txmgr" Toml.policy? d.policy
    signer := ← file.optional 2 "signer" Toml.signer? d.signer
    api := ← file.optional 3 "api" (Toml.api? d.api) d.api
    metrics := ← file.optional 4 "metrics" (Toml.metrics? d.metrics) d.metrics }

/-- The value of a variable of the environment. -/
def lookUp (environment : List (String × String)) (key : String) : Option String :=
  (environment.find? (·.1 == key)).map (·.2)

/-- The settings in the text of a file, with environment variables substituted. -/
def parse (environment : List (String × String)) (text : String) : Except Problem Settings :=
  match (Toml.parse (Template.fill (lookUp environment) text)).bind ofToml? with
  | some s => .ok s
  | none => .error .malformed

/-- Where the file is: where the environment says, or at its usual place. -/
def path (environment : List (String × String)) : String :=
  (lookUp environment (Variable.mark ++ "_" ++ Variable.file.name)).getD "config/default.toml"

/-- The settings of a service: those of the file, overridden by the environment, if they are
    valid. -/
def load (environment : List (String × String)) (read : String → Option String) :
    Except Problem Settings := do
  match read (path environment) with
  | none => .error (.unreadable (path environment))
  | some text =>
    let s ← parse environment text
    match s.override Variable.mark environment with
    | (_, some problem) => .error problem
    | (s, none) =>
      s.validate
      return s

/-- The wording of a problem. -/
def Problem.message : Problem → String
  | unreadable path => "Failed to read config file: " ++ Quoted.quote path
  | malformed => "Failed to parse configuration"
  | badValue key _ => "Invalid value for " ++ key
  | noEndpoint => "must provide at least one L1 RPC url"
  | failure f => f.message

end Settings

end Relayer
