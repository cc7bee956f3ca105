import Relayer.Endpoint.Url
import Relayer.Settings.Basic
import Relayer.Wallet.Key

namespace Relayer

/-!
# Choice — the signer that the settings ask for

* `SignerChoice` — a local key, or a remote signer;
* `SignerSettings.choose` — the signer of some settings.
-/

/-- A signer. -/
inductive SignerChoice where
  | key (k : Key)
  | remote (url : String) (account : Address)
  deriving DecidableEq, Repr

/-- The account that a signer signs for. -/
def SignerChoice.address : SignerChoice → Address
  | key k => k.address
  | remote _ account => account

/-- The path of the first account of a phrase. -/
def Path.standard : String := "m/44'/60'/0'/0/0"

/-- A service elsewhere, whose account is looked at before its place. -/
def RemoteSettings.choose (r : RemoteSettings) : Except Failure SignerChoice := do
  let account ← Address.parse r.address
  if Url.isValid r.url then return .remote r.url account
  else .error (.configInvalid ("Invalid remote signer url " ++ r.url ++ ": "))

/-- The signer of some settings. -/
def SignerSettings.choose (s : SignerSettings) : Except Fault (Except Failure SignerChoice) :=
  match s.check, s.privateKey, s.mnemonic, s.remote with
  | .error f, _, _, _ => .ok (.error f)
  | .ok (), some text, _, _ => .ok ((Key.ofText text).map .key)
  | .ok (), none, some phrase, _ =>
    (Key.ofPhrase phrase (s.hdPath.getD Path.standard)).map (·.map .key)
  | .ok (), none, none, some r => .ok r.choose
  | .ok (), none, none, none => .ok (.error (.configInvalid "no signer configured"))

end Relayer
