import Relayer.Chain.Address
import Relayer.Policy

namespace Relayer

/-!
# Settings — the configuration of the service

* `PolicySettings` — the policy as it is written, in whole milliseconds and gwei;
* `SignerSettings` — where the key comes from;
* `Settings` — all sections;
* `SignerSettings.check` / `PolicySettings.toPolicy` — what is valid.
-/

/-! ### Sections -/

/-- The section about the policy. -/
structure PolicySettings where
  confirmations : UInt64
  nonceTolerance : UInt32
  resubmitAfter : UInt64
  networkTimeout : UInt64
  /-- Zero stands for no timeout. -/
  sendTimeout : UInt64
  mempoolTimeout : UInt64
  receiptInterval : UInt64
  bufferSize : UInt64
  bumpPercent : UInt64
  maxGasPriceGwei : UInt64
  limitPercent : UInt64
  deriving DecidableEq, Repr

namespace PolicySettings

/-- The default policy. -/
def standard : PolicySettings where
  confirmations := 10
  nonceTolerance := 3
  resubmitAfter := 48000
  networkTimeout := 2000
  sendTimeout := 0
  mempoolTimeout := 120000
  receiptInterval := 12000
  bufferSize := 10
  bumpPercent := 10
  maxGasPriceGwei := 500
  limitPercent := 20

/-- The policy that is meant, whether it is valid or not. -/
def meaning (p : PolicySettings) : Policy where
  confirmations := p.confirmations
  nonceTolerance := p.nonceTolerance.toNat
  resubmitAfter := p.resubmitAfter.toNat
  networkTimeout := p.networkTimeout.toNat
  sendTimeout := if p.sendTimeout = 0 then none else some p.sendTimeout.toNat
  mempoolTimeout := p.mempoolTimeout.toNat
  receiptInterval := p.receiptInterval.toNat
  bufferSize := p.bufferSize
  bumpPercent := p.bumpPercent
  maxGasPrice := gwei p.maxGasPriceGwei
  limitPercent := p.limitPercent

/-- The policy, if it is valid. -/
def toPolicy (p : PolicySettings) : Except Failure Policy := do
  p.meaning.validate
  return p.meaning

end PolicySettings

/-- The section about a remote signer. -/
structure RemoteSettings where
  url : String
  address : String
  deriving DecidableEq, Repr

/-- The section about the signer. -/
structure SignerSettings where
  privateKey : Option String
  mnemonic : Option String
  hdPath : Option String
  remote : Option RemoteSettings
  deriving DecidableEq, Repr

namespace SignerSettings

/-- No source of a key. -/
def empty : SignerSettings := ⟨none, none, none, none⟩

/-- How many sources of a key there are. -/
def sources (s : SignerSettings) : Nat :=
  s.privateKey.isSome.toNat + s.mnemonic.isSome.toNat + s.remote.isSome.toNat

/-- What is invalid about the sources, in the order in which it is reported. -/
def complaints (s : SignerSettings) : List (Bool × String) :=
  [ (s.hdPath.isSome && s.mnemonic.isNone, "hd_path requires mnemonic to be set"),
    (s.remote.any fun r => r.url.isEmpty || r.address.isEmpty,
      "remote signer needs both url and address"),
    (s.sources == 0, "no signer configured: set private_key, mnemonic or remote"),
    (1 < s.sources, "only one of private_key, mnemonic or remote may be set") ]

/-- Accept a section with exactly one source, else report the first complaint. -/
def check (s : SignerSettings) : Except Failure Unit :=
  match s.complaints.find? (·.1) with
  | some (_, text) => .error (.configInvalid text)
  | none => .ok ()

end SignerSettings

/-- The section about the API. -/
structure ApiSettings where
  host : String
  port : UInt16
  deriving DecidableEq, Repr

/-- The section about the metrics. -/
structure MetricsSettings where
  enabled : Bool
  port : UInt16
  deriving DecidableEq, Repr

/-! ### All sections -/

/-- All sections. -/
structure Settings where
  /-- The URLs of the nodes, in the order of failover. -/
  endpoints : List String
  policy : PolicySettings
  signer : SignerSettings
  api : ApiSettings
  metrics : MetricsSettings
  deriving DecidableEq, Repr

namespace Settings

/-- The default settings with these nodes. -/
def standard (endpoints : List String) : Settings where
  endpoints
  policy := .standard
  signer := .empty
  api := ⟨"127.0.0.1", 7300⟩
  metrics := ⟨true, 7301⟩

/-- Why settings are not accepted. -/
inductive Problem where
  /-- The file cannot be read. -/
  | unreadable (path : String)
  /-- The file is malformed, or a value in it is of another kind. -/
  | malformed
  /-- A variable of the environment has an invalid value, with the cause. -/
  | badValue (key cause : String)
  /-- There is no node. -/
  | noEndpoint
  | failure (f : Failure)
  deriving DecidableEq, Repr

/-- Accept settings that are valid. -/
def validate (s : Settings) : Except Problem Unit := do
  if s.endpoints.isEmpty then .error .noEndpoint
  else
    s.signer.check.mapError .failure
    let _ ← s.policy.toPolicy.mapError .failure
    match s.signer.remote with
    | some r => (Address.parse r.address).map (fun _ => ()) |>.mapError .failure
    | none => .ok ()

end Settings

end Relayer
