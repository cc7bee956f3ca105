import Relayer.Gateway.MediaType
import Relayer.Queue

namespace Relayer

/-!
# Gateway — the service over HTTP

`/health` and `/status` report on the service, `/send` submits a call and answers when its send has
ended.

* `Request` / `Response` — what comes in and goes out;
* `Gateway.statusOf` / `Gateway.failureBody` — how failures are reported;
* `Visit` — one request until its response.
-/

/-! ### Messages -/

/-- A request. -/
structure Request where
  method : String
  path : String
  body : String
  /-- The announced type of the body. -/
  contentType : Option String
  deriving DecidableEq, Repr

/-- A response; only bodies that are JSON are kept. -/
structure Response where
  status : Nat
  body : Option Json
  deriving Repr

/-- What was to be fetched, or only that it is there. -/
def Response.fetched (isBare : Bool) (body : Json) : Response :=
  ⟨200, if isBare then none else some body⟩

namespace Gateway

/-- The version of the service. -/
def version : String := "0.1.0"

/-- What the service answers to. -/
inductive Route where
  | health
  | status
  | send
  deriving DecidableEq, Repr

/-- The route of a path, without what follows a question mark or a hash. -/
def route? (path : String) : Option Route :=
  match String.ofList (path.toList.takeWhile fun c => c ≠ '?' && c ≠ '#') with
  | "/health" => some .health
  | "/status" => some .status
  | "/send" => some .send
  | _ => none

/-- The methods of a route.  What can be fetched can also be asked for without its body. -/
def allows : Route → String → Bool
  | .send, method => method == "POST"
  | _, method => method == "GET" || method == "HEAD"

/-! ### Bodies -/

/-- The body of `/health`. -/
def healthBody : Json := .object [("status", .string "ok"), ("version", .string version)]

/-- The body of `/status`. -/
def statusBody {σ : Type} (desk : Desk σ) (uptime : Nat) (next : Option UInt64) (leased : Bool)
    (q : Queue) : Json :=
  .object
    [ ("version", .string version),
      ("uptime_seconds", .nat uptime),
      ("account", .string desk.signer.address.toHex),
      ("chain_id", .nat desk.chainId.toNat),
      ("next_nonce", .ofOption (fun w => .nat w.toNat) next),
      ("send_in_progress", .bool leased),
      ("num_confirmations", .nat desk.policy.confirmations.toNat),
      ("queue_capacity", .nat q.capacity),
      ("queue_available", .nat q.available) ]

/-- The body that reports a failure. -/
def failureBody (f : Failure) : Json :=
  .object
    [ ("error", .string f.message),
      ("kind", .string f.kind),
      ("retryable", .bool f.mayResend),
      ("requires_intervention", .bool f.needsIntervention) ]

/-- The status that reports a failure. -/
def statusOf : Failure → Nat
  | .queueFull => 429
  | .queueClosed | .cancelled => 503
  | .timedOut | .notInMempool _ => 504
  | .gasEstimation _ => 422
  | .nonceStale _ _ | .underfunded | .priceTooLow _ => 409
  | .transientRpc _ => 502
  | _ => 500

/-- The response to a call whose send has ended. -/
def sent : Except Failure Receipt → Response
  | .ok receipt => ⟨200, some receipt.toJson⟩
  | .error f => ⟨statusOf f, some (failureBody f)⟩

/-- The call in a body, or the status that refuses it.  Whatever follows the call is left unread. -/
def callOf (r : Request) : Except Nat Call :=
  if (r.contentType.map MediaType.isJson).getD false then
    match Call.read r.body.toList with
    | .ok (call, _) => .ok call
    | .error .mismatch => .error 422
    | .error _ => .error 400
  else .error 415

end Gateway

/-! ### Visits -/

/-- One request on its way. -/
inductive Visit where
  /-- Waiting for the lock of the account, to peek at its next nonce; `isBare` if the body is not
      asked for. -/
  | peeking (ticket : Ticket) (isBare : Bool)
  /-- Waiting for the outcome of a queued call. -/
  | submitted (ticket : Ticket)
  | answered (r : Response)

namespace Visit

variable {σ : Type}

/-- A request arrives.  A peek at the next nonce waits for the lock like every lease. -/
def start (desk : Desk σ) (r : Request) (l : Leases) (q : Queue) : Visit × Leases × Queue :=
  match Gateway.route? r.path with
  | none => (.answered ⟨404, none⟩, l, q)
  | some route =>
    if !Gateway.allows route r.method then (.answered ⟨405, none⟩, l, q)
    else
      let isBare := r.method == "HEAD"
      match route with
      | .health => (.answered (.fetched isBare Gateway.healthBody), l, q)
      | .status =>
        let (ticket, l) := l.ask desk.signer.address
        (.peeking ticket isBare, l, q)
      | .send =>
        match Gateway.callOf r with
        | .error status => (.answered ⟨status, none⟩, l, q)
        | .ok call =>
          let (ticket, q) := q.offer call
          (.submitted ticket, l, q)

/-- One step of a visit, where one is possible.  The peek holds the lock before it is asked whether
    a lease is held. -/
def step (desk : Desk σ) (uptime : Nat) (l : Leases) (q : Queue) :
    Visit → Option (Visit × Leases)
  | .peeking ticket isBare =>
    let account := desk.signer.address
    if l.holds account ticket then
      let next := (l.slot account).next
      let l := l.leave account ticket
      let body := Gateway.statusBody desk uptime next (l.isLeased account) q
      some (.answered (.fetched isBare body), l)
    else none
  | .submitted ticket => (q.answer? ticket).map fun a => (.answered (Gateway.sent a), l)
  | .answered _ => none

/-- The visitor goes away. -/
def abandon (account : Address) (l : Leases) (q : Queue) : Visit → Leases × Queue
  | .peeking ticket _ => (l.leave account ticket, q)
  | .submitted ticket => (l, q.leave ticket)
  | .answered _ => (l, q)

end Visit

end Relayer
