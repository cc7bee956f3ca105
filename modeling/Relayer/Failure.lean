import Relayer.Fault
import Relayer.Text.Lowercase

namespace Relayer

/-!
# Failure — the errors of a send, of a broadcast and of the service

* `Failure` — every way in which a request, a broadcast or a whole send can fail;
* `Failure.message` / `Failure.kind` — the text for people and the label for programs;
* `Failure.isRetryable` / `needsIntervention` / `mayResend` — what to do about it;
* `Failure.ofNodeMessage` — the classification of a node's free text.
-/

/-- The failures.  `nonceTooLow`, `underpriced`, `insufficientFunds` and `alreadyKnown` are what a
    node answers to one broadcast; the others can also end a send. -/
inductive Failure where
  /-- The configuration is invalid. -/
  | configInvalid (text : String)
  /-- A request failed in transit. -/
  | transientRpc (text : String)
  /-- The nonce of the lease was used by another sender. -/
  | nonceStale (nonce : UInt64) (observations : Nat)
  /-- The account cannot fund the candidate. -/
  | underfunded
  /-- A candidate was underpriced at the ceiling. -/
  | priceTooLow (bid : String)
  /-- No candidate was seen in the mempool in time. -/
  | notInMempool (waitedMs : Nat)
  /-- The overall deadline expired. -/
  | timedOut
  /-- The send was cancelled. -/
  | cancelled
  | nonceTooLow
  | underpriced
  | insufficientFunds
  | alreadyKnown
  /-- Signing failed. -/
  | signer (text : String)
  /-- The node refused to estimate the call. -/
  | gasEstimation (text : String)
  | queueFull
  | queueClosed
  /-- A part of the service stopped. -/
  | internal (text : String)
  deriving DecidableEq, Repr

namespace Failure

/-! ### Texts -/

/-- The text for people. -/
def message : Failure → String
  | configInvalid text => "Configuration error: " ++ text
  | transientRpc text => "RPC error: " ++ text
  | nonceStale nonce observations =>
    "Nonce " ++ toString nonce.toNat ++ " is stale: nonce too low observed " ++
      toString observations ++ " times"
  | underfunded => "Account cannot pay for the transaction"
  | priceTooLow bid => "Transaction underpriced at the maximum bid of " ++ bid ++ " wei"
  | notInMempool waitedMs =>
    "Transaction not seen in the mempool after " ++ toString waitedMs ++ "ms"
  | timedOut => "Timed out waiting for confirmation"
  | cancelled => "Send cancelled"
  | nonceTooLow => "Nonce too low"
  | underpriced => "Transaction underpriced"
  | insufficientFunds => "Insufficient funds"
  | alreadyKnown => "Transaction already known"
  | signer text => "Signer error: " ++ text
  | gasEstimation text => "Gas estimation error: " ++ text
  | queueFull => "Submission queue is full"
  | queueClosed => "Submission queue is closed"
  | internal text => "Internal error: " ++ text

/-- The label for programs. -/
def kind : Failure → String
  | configInvalid _ => "config_invalid"
  | transientRpc _ => "transient_rpc"
  | nonceStale _ _ => "nonce_stale"
  | underfunded => "underfunded"
  | priceTooLow _ => "price_too_low"
  | notInMempool _ => "not_in_mempool"
  | timedOut => "timed_out"
  | cancelled => "cancelled"
  | nonceTooLow => "nonce_too_low"
  | underpriced => "underpriced"
  | insufficientFunds => "insufficient_funds"
  | alreadyKnown => "already_known"
  | signer _ => "signer"
  | gasEstimation _ => "gas_estimation"
  | queueFull => "queue_full"
  | queueClosed => "queue_closed"
  | internal _ => "internal"

/-! ### What to do about a failure -/

/-- Whether a running send absorbs the failure and retries. -/
def isRetryable : Failure → Bool
  | transientRpc _ | underpriced | nonceTooLow | alreadyKnown => true
  | _ => false

/-- Whether an operator has to attend to the account or the configuration before the next send. -/
def needsIntervention : Failure → Bool
  | nonceStale _ _ | underfunded | configInvalid _ | signer _ => true
  | _ => false

/-- Whether the caller may safely send the same call again. -/
def mayResend : Failure → Bool
  | notInMempool _ | timedOut | cancelled | priceTooLow _ | queueFull => true
  | _ => false

/-! ### Reading a node's text -/

/-- Whether a phrase occurs anywhere in a text. -/
def occurs (phrase : List Char) : List Char → Bool
  | [] => phrase.isEmpty
  | c :: rest => phrase.isPrefixOf (c :: rest) || occurs phrase rest

/-- The phrases that nodes use, in groups with the failure each stands for; the first group with a
    phrase that occurs decides. -/
def phrases : List (List String × Failure) :=
  [ (["nonce too low"], nonceTooLow),
    (["underpriced"], underpriced),
    (["insufficient funds", "insufficient balance"], insufficientFunds),
    (["already known", "known transaction"], alreadyKnown) ]

/-- The failure that a node's text stands for.  Letter case does not matter; a text with none of the
    phrases is `transientRpc`, with the text kept as it is. -/
def ofNodeMessage (text : String) : Failure :=
  let lowered := Lowercase.map text.toList
  match phrases.find? fun group => group.1.any fun phrase => occurs phrase.toList lowered with
  | some (_, failure) => failure
  | none => transientRpc text

end Failure

/-! ### Ends without a result -/

/-- Why a task has no result: it failed, or it panicked. -/
inductive Stop where
  | failure (f : Failure)
  | fault (f : Fault)
  deriving DecidableEq, Repr

end Relayer
