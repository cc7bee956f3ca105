import Relayer.Amount
import Relayer.Text.Shortest

namespace Relayer

/-!
# Metrics — what the service counts

* `Histogram` — how many observations lie at or below each of some bounds;
* `Metrics` — all counters, and `Metrics.Event` — what is counted;
* `Metrics.record` — one more event;
* `Metrics.families` — all counters as named families with samples.

The service registers a family where it first counts something in it.  Here all families are
registered from the start, with nothing counted in them: `Metrics.zero` stands for a service whose
families are all registered, and its families read zero where they would not be there yet.
-/

/-! ### Histograms -/

/-- Observations in milliseconds, counted by bounds. -/
structure Histogram where
  /-- Each bound, and how many observations exceed all bounds before it but not this one. -/
  buckets : List (Nat × Nat)
  count : Nat
  sum : Nat
  deriving DecidableEq, Repr

namespace Histogram

/-- No observation yet. -/
def empty (bounds : List Nat) : Histogram := ⟨bounds.map (·, 0), 0, 0⟩

/-- One more in the first bucket that takes an observation; beyond all bounds there is none. -/
def place (ms : Nat) : List (Nat × Nat) → List (Nat × Nat)
  | [] => []
  | (bound, n) :: rest =>
    if ms ≤ bound then (bound, n + 1) :: rest else (bound, n) :: place ms rest

/-- One more observation. -/
def observe (h : Histogram) (ms : Nat) : Histogram :=
  ⟨place ms h.buckets, h.count + 1, h.sum + ms⟩

/-- Buckets that hold what is in the buckets before them as well; `below` is already there. -/
def gathered (below : Nat) : List (Nat × Nat) → List (Nat × Nat)
  | [] => []
  | (bound, n) :: rest => (bound, below + n) :: gathered (below + n) rest

/-- Each bound, and how many observations do not exceed it. -/
def within (h : Histogram) : List (Nat × Nat) := gathered 0 h.buckets

/-- The counts by bound, and behind them that without any bound. -/
def cumulative (h : Histogram) : List Nat := h.within.map Prod.snd ++ [h.count]

end Histogram

/-! ### Counters -/

/-- All counters. -/
structure Metrics where
  started : Nat
  confirmed : Nat
  /-- Failed sends by the label of the failure, in the order of the labels. -/
  failed : List (String × Nat)
  /-- How long confirmed sends took. -/
  latency : Histogram
  candidates : Nat
  bumps : Nat
  /-- The bid of the newest candidate. -/
  bid : Amount
  tooLow : Nat
  /-- How long sends waited for their nonce. -/
  leaseWait : Histogram
  deriving Repr

namespace Metrics

/-- All families are registered and nothing is counted in them. -/
def zero : Metrics where
  started := 0
  confirmed := 0
  failed := []
  latency := .empty [1000, 5000, 15000, 30000, 60000, 120000, 300000, 600000, 1800000]
  candidates := 0
  bumps := 0
  bid := .zero
  tooLow := 0
  leaseWait := .empty [1, 10, 100, 1000, 10000, 60000, 300000]

/-- What is counted. -/
inductive Event where
  | started
  | confirmed (ms : Nat)
  | failed (kind : String)
  | candidate (bid : Amount)
  | bump
  | tooLow
  | leaseWait (ms : Nat)
  deriving DecidableEq, Repr

/-- One more under a label, in a list that is ordered by labels. -/
def tally (label : String) : List (String × Nat) → List (String × Nat)
  | [] => [(label, 1)]
  | (l, n) :: rest =>
    if label = l then (l, n + 1) :: rest
    else if label < l then (label, 1) :: (l, n) :: rest
    else (l, n) :: tally label rest

/-- One more event. -/
def record (m : Metrics) : Event → Metrics
  | .started => { m with started := m.started + 1 }
  | .confirmed ms => { m with confirmed := m.confirmed + 1, latency := m.latency.observe ms }
  | .failed kind => { m with failed := tally kind m.failed }
  | .candidate bid => { m with candidates := m.candidates + 1, bid }
  | .bump => { m with bumps := m.bumps + 1 }
  | .tooLow => { m with tooLow := m.tooLow + 1 }
  | .leaseWait ms => { m with leaseWait := m.leaseWait.observe ms }

/-! ### Families -/

/-- The samples of a family. -/
inductive Samples where
  | counter (n : Nat)
  /-- A value that is already written out. -/
  | gauge (text : String)
  /-- Counters by the value of one label. -/
  | labelled (label : String) (counts : List (String × Nat))
  | histogram (h : Histogram)

/-- Samples under a name, with a line of explanation. -/
structure Family where
  name : String
  help : String
  samples : Samples

/-- The largest amount that a gauge can show. -/
def gaugeLimit : Nat := Nat.pow 2 128 - 1

/-- A quotient as the fewest digits that read back after rounding; zero is one digit. -/
def quotientText (q : Nat × Nat) : String :=
  if q.1 = 0 then "0" else String.ofList (Binary.nearest q).shortest.positional

/-- A price in units of 10⁹ wei.  The amount is rounded before the division and after it. -/
def gweiText (bid : Amount) : String :=
  let wei := min bid.toNat gaugeLimit
  if wei = 0 then "0"
  else
    let rounded := (Binary.nearest (wei, 1)).toQuotient
    quotientText (rounded.1, rounded.2 * 1000000000)

/-- All families in the order of their names, whether or not something has been counted in them. -/
def families (m : Metrics) : List Family :=
  [ ⟨"txmgr_candidates_broadcast_total", "Total signed candidates broadcast",
      .counter m.candidates⟩,
    ⟨"txmgr_current_bid_gwei", "Gas price of the most recent candidate in gwei",
      .gauge (gweiText m.bid)⟩,
    ⟨"txmgr_fee_bumps_total", "Total fee escalations", .counter m.bumps⟩,
    ⟨"txmgr_nonce_lease_wait_seconds", "Time spent waiting for the account nonce lease",
      .histogram m.leaseWait⟩,
    ⟨"txmgr_nonce_too_low_total", "Total nonce too low rejections", .counter m.tooLow⟩,
    ⟨"txmgr_send_latency_seconds", "Time from send start to confirmation",
      .histogram m.latency⟩,
    ⟨"txmgr_sends_confirmed_total", "Total sends confirmed at the required depth",
      .counter m.confirmed⟩,
    ⟨"txmgr_sends_failed_total", "Total sends failed by error kind",
      .labelled "kind" m.failed⟩,
    ⟨"txmgr_sends_started_total", "Total sends started", .counter m.started⟩ ]

end Metrics

end Relayer
