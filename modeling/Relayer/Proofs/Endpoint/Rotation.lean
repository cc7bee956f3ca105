import Mathlib.Data.List.Nodup
import Mathlib.Data.Nat.ModEq
import Relayer.Endpoint.Calls
import Relayer.Proofs.Endpoint.Failover

namespace Relayer

/-!
# Rotation — the calls of a pool one after the other

A call that starts once the one before it is over finds the pool as that one has left it.  A read
fails over from node to node until one of them answers; a call that makes one attempt moves the
index on where that fails.

* `Pool.attempt` — one attempt of any kind;
* `Pool.GoesRound` — how a read goes, and `Pool.read_goesRound`;
* `Pool.TriesOnce` — how a call goes that makes one attempt, and `Pool.once_triesOnce`;
* `Pool.Request` — the calls there are, and `Pool.serve` any number of them;
* `Pool.serve_lawful` — whatever calls came before, the next one goes as calls of its kind do.
-/

namespace Traffic

/-- On one way round no index comes twice. -/
theorem circle_nodup {size n : Nat} (first : Nat) (most : n ≤ size) :
    (circle size first n).Nodup := by
  refine List.Nodup.map_on ?_ List.nodup_range
  intro i hi j hj same
  have apart : i ≡ j [MOD size] := Nat.ModEq.add_left_cancel' first same
  have hi' : i < size := Nat.lt_of_lt_of_le (List.mem_range.mp hi) most
  have hj' : j < size := Nat.lt_of_lt_of_le (List.mem_range.mp hj) most
  exact apart.eq_of_lt_of_lt hi' hj'

/-- The next index is none of those before it. -/
theorem not_mem_circle {size n : Nat} (first : Nat) (fewer : n < size) :
    (first + n) % size ∉ circle size first n := by
  have apart := circle_nodup first (Nat.succ_le_of_lt fewer)
  rw [circle_succ, List.nodup_append] at apart
  intro listed
  exact apart.2.2 _ listed _ (List.mem_singleton.mpr rfl) rfl

end Traffic

namespace Pool

open Traffic (circle)

variable {σ α : Type} {p : Pool} {s s' s'' : σ}

/-! ### Attempts -/

/-- One attempt at the node of an index, and its result. -/
def attempt (wire : Wire σ) (query : Query) (reader : Json.Reader α)
    (judge : String → Nat → Attempt α → Except Failure α) (p : Pool) (place : Nat) (outside : σ) :
    Except Failure α × σ :=
  let (a, outside) := p.ask wire query reader place outside
  (judge query.method p.timeout a, outside)

/-- Attempts one after the other, each with its index and its result. -/
inductive Tries (attempt : Nat → σ → Except Failure α × σ) :
    List (Nat × Except Failure α) → σ → σ → Prop where
  | none (s : σ) : Tries attempt [] s s
  | more {tries place result s s' s''} (before : Tries attempt tries s s')
      (tried : attempt place s' = (result, s'')) : Tries attempt (tries ++ [(place, result)]) s s''

/-- The result of an attempt that failed in transit. -/
def Stray (result : Except Failure α) : Prop := ∃ text, result = .error (.transientRpc text)

/-- Every error of an attempt to read is `transientRpc`. -/
theorem stray_of_read {wire : Wire σ} {query : Query} {reader : Json.Reader α} {place : Nat}
    {f : Failure} (h : p.attempt wire query reader Attempt.read place s = (.error f, s')) :
    ∃ text, f = .transientRpc text := by
  cases asked : p.ask wire query reader place s with
  | mk a t =>
    simp only [attempt, asked] at h
    cases a with
    | got a => cases h
    | failed e | late =>
      cases h
      exact ⟨_, rfl⟩

/-- The pool with its index so many nodes further on. -/
def moved (p : Pool) (n : Nat) : Pool := { p with active := (p.active + n) % p.size }

/-- All the way round is back again. -/
theorem moved_size (inside : p.active < p.size) : p.moved p.size = p := by
  have same : (p.active + p.size) % p.size = p.active := by
    rw [Nat.add_mod_right, Nat.mod_eq_of_lt inside]
  rw [moved, same]

/-- `advance` goes one node further. -/
theorem advance_eq_moved (inside : p.active < p.size) : p.advance = p.moved 1 := by
  have active := advance_active inside
  unfold advance at active ⊢
  split
  next single =>
    rw [if_pos single] at active
    rw [moved, ← active]
  next => rfl

/-- So it is on the way. -/
theorem advance_moved (some : 0 < p.size) (n : Nat) : (p.moved n).advance = p.moved (n + 1) := by
  have inside : (p.moved n).active < (p.moved n).size := Nat.mod_lt _ some
  rw [advance_eq_moved inside]
  show ({ p with active := ((p.active + n) % p.size + 1) % p.size } : Pool) = _
  rw [Nat.mod_add_mod, Nat.add_assoc]
  rfl

/-! ### Reads -/

/-- The nodes from the active one on fail a read one after the other, none of them twice. -/
structure FailedBy (attempt : Nat → σ → Except Failure α × σ) (p : Pool) (s : σ)
    (failures : List (Nat × Except Failure α)) (s' : σ) : Prop where
  tries : Tries attempt failures s s'
  places : failures.map Prod.fst = circle p.size p.active failures.length
  apart : (failures.map Prod.fst).Nodup
  strays : ∀ t ∈ failures, Stray t.2

/-- One more node fails it. -/
theorem FailedBy.more {attempt : Nat → σ → Except Failure α × σ}
    {failures : List (Nat × Except Failure α)} {text : String}
    (failed : FailedBy attempt p s failures s') (fewer : failures.length < p.size)
    (tried : attempt ((p.active + failures.length) % p.size) s' =
      (.error (.transientRpc text), s'')) :
    FailedBy attempt p s
      (failures ++ [((p.active + failures.length) % p.size, .error (.transientRpc text))]) s'' := by
  have places : (failures ++ [((p.active + failures.length) % p.size,
      (.error (.transientRpc text) : Except Failure α))]).map Prod.fst =
      circle p.size p.active (failures.length + 1) := by
    rw [Traffic.circle_succ, ← failed.places, List.map_append]
    rfl
  refine ⟨failed.tries.more tried, ?_, ?_, ?_⟩
  · rw [places, List.length_append]
    rfl
  · rw [places]
    exact Traffic.circle_nodup _ fewer
  · intro t listed
    rcases List.mem_append.mp listed with before | last
    · exact failed.strays t before
    · cases List.mem_singleton.mp last
      exact ⟨text, rfl⟩

/-- How a read goes.  The first node that answers ends it and is active from then on; once all nodes
    have failed it, the last failure ends it, and the node that was active at first is so again. -/
inductive GoesRound (attempt : Nat → σ → Except Failure α × σ) (p : Pool) (s : σ) :
    Except Failure α × Pool × σ → Prop where
  | answered {failures place a s' s''} (failed : FailedBy attempt p s failures s')
      (due : place = (p.active + failures.length) % p.size)
      (fresh : place ∉ failures.map Prod.fst) (tried : attempt place s' = (.ok a, s'')) :
      GoesRound attempt p s (.ok a, { p with active := place }, s'')
  | exhausted {failures place text s'} (failed : FailedBy attempt p s failures s')
      (all : failures.length = p.size)
      (last : failures.getLast? = some (place, .error (.transientRpc text))) :
      GoesRound attempt p s (.error (.transientRpc text), p, s')

section

variable {attempt : Nat → σ → Except Failure α × σ} {failures : List (Nat × Except Failure α)}

/-- A read ends where a node answers it. -/
theorem readFrom_answered {a : α} (tried : attempt p.active s = (.ok a, s')) (left : Nat) :
    p.readFrom attempt left s = (.ok a, p, s') := by
  unfold readFrom
  rw [tried]

/-- It ends as well where the last node fails it. -/
theorem readFrom_last {f : Failure} (tried : attempt p.active s = (.error f, s')) :
    p.readFrom attempt 0 s = (.error f, p.advance, s') := by
  unfold readFrom
  rw [tried]

/-- Where another node fails it, it fails over to the next one. -/
theorem readFrom_failsOver {f : Failure} (tried : attempt p.active s = (.error f, s'))
    (left : Nat) :
    p.readFrom attempt (left + 1) s = p.advance.readFrom attempt left s' := by
  conv_lhs => unfold readFrom
  rw [tried]

/-- A read that comes to a node that answers it has gone round so far. -/
theorem FailedBy.goesRound_of_answered {a : α} (failed : FailedBy attempt p s failures s')
    (fewer : failures.length < p.size)
    (tried : attempt (p.moved failures.length).active s' = (.ok a, s'')) (left : Nat) :
    GoesRound attempt p s ((p.moved failures.length).readFrom attempt left s') := by
  have fresh := failed.places ▸ Traffic.not_mem_circle p.active fewer
  rw [readFrom_answered tried]
  exact .answered failed rfl fresh tried

/-- **A read goes round** from where some nodes have failed it. -/
theorem readFrom_goesRound
    (passing : ∀ place s f s', attempt place s = (.error f, s') → ∃ text, f = .transientRpc text)
    (inside : p.active < p.size) {left : Nat} (failed : FailedBy attempt p s failures s')
    (tries : failures.length + 1 + left = p.size) :
    GoesRound attempt p s ((p.moved failures.length).readFrom attempt left s') := by
  have some : 0 < p.size := Nat.zero_lt_of_lt inside
  induction left generalizing failures s' with
  | zero =>
    have fewer : failures.length < p.size := by omega
    cases tried : attempt (p.moved failures.length).active s' with
    | mk result s'' =>
      cases result with
      | ok a =>
        exact failed.goesRound_of_answered fewer tried _
      | error f =>
        obtain ⟨text, rfl⟩ := passing _ _ _ _ tried
        -- That was the last node, and behind it comes the first one.
        have round : (p.moved failures.length).advance = p := by
          rw [advance_moved some, show failures.length + 1 = p.size from tries, moved_size inside]
        rw [readFrom_last tried, round]
        refine .exhausted (failed.more fewer tried) ?_ List.getLast?_concat
        rw [List.length_append]
        exact tries
  | succ left ih =>
    have fewer : failures.length < p.size := by omega
    cases tried : attempt (p.moved failures.length).active s' with
    | mk result s'' =>
      cases result with
      | ok a =>
        exact failed.goesRound_of_answered fewer tried _
      | error f =>
        obtain ⟨text, rfl⟩ := passing _ _ _ _ tried
        have more := failed.more fewer tried
        have length : (failures ++ [((p.active + failures.length) % p.size,
            (.error (.transientRpc text) : Except Failure α))]).length = failures.length + 1 :=
          List.length_append
        rw [readFrom_failsOver tried, advance_moved some, ← length]
        exact ih more (by omega)

end

/-- **A read goes round** the nodes from the active one. -/
theorem read_goesRound (wire : Wire σ) (query : Query) (reader : Json.Reader α)
    (inside : p.active < p.size) (s : σ) :
    GoesRound (p.attempt wire query reader Attempt.read) p s (p.read wire query reader s) := by
  have passing : ∀ place s f s', p.attempt wire query reader Attempt.read place s =
      (.error f, s') → ∃ text, f = .transientRpc text := fun _ _ _ _ => stray_of_read
  have untried : FailedBy (p.attempt wire query reader Attempt.read) p s [] s :=
    ⟨.none s, rfl, List.nodup_nil, by simp⟩
  have tries : ([] : List (Nat × Except Failure α)).length + 1 + (p.size - 1) = p.size := by
    rw [List.length_nil]
    omega
  have round := readFrom_goesRound passing inside untried tries
  have start : p.moved 0 = p := by
    rw [moved, Nat.add_zero, Nat.mod_eq_of_lt inside]
  rw [List.length_nil, start] at round
  exact round

/-! ### Calls that are tried once -/

/-- How a call goes that makes one attempt: at the active node, with the index moved on where the
    attempt fails in transit. -/
inductive TriesOnce (attempt : Nat → σ → Except Failure α × σ) (p : Pool) (s : σ) :
    Except Failure α × Pool × σ → Prop where
  | strays {text s'} (tried : attempt p.active s = (.error (.transientRpc text), s')) :
      TriesOnce attempt p s
        (.error (.transientRpc text), p.moved 1, s')
  | settles {result s'} (tried : attempt p.active s = (result, s'))
      (settled : ¬ Stray result) : TriesOnce attempt p s (result, p, s')

/-- The index stays behind any other result. -/
theorem after_of_settled {result : Except Failure α} (settled : ¬ Stray result) :
    p.after result = p := by
  unfold after
  split
  next text => exact absurd ⟨text, rfl⟩ settled
  next => rfl

/-- **A call that makes one attempt** moves the index on exactly where that fails in transit. -/
theorem once_triesOnce (wire : Wire σ) (query : Query) (reader : Json.Reader α)
    (judge : String → Nat → Attempt α → Except Failure α) (inside : p.active < p.size) (s : σ) :
    TriesOnce (p.attempt wire query reader judge) p s (p.once wire query reader judge s) := by
  have same : p.once wire query reader judge s =
      ((p.attempt wire query reader judge p.active s).1,
        p.after (p.attempt wire query reader judge p.active s).1,
        (p.attempt wire query reader judge p.active s).2) := rfl
  rw [same]
  cases tried : p.attempt wire query reader judge p.active s with
  | mk result s' =>
    by_cases stray : Stray result
    · obtain ⟨text, rfl⟩ := stray
      have moves : p.after (.error (.transientRpc text) : Except Failure α) = p.moved 1 :=
        advance_eq_moved inside
      rw [moves]
      exact .strays tried
    · rw [after_of_settled stray]
      exact .settles tried stray

/-- A node that refuses to estimate a call gives a permanent failure. -/
theorem not_stray_of_refusal (message : String) :
    ¬ Stray (.error (Attempt.estimateRefusal message) : Except Failure α) := by
  rintro ⟨text, same⟩
  have refusal : Attempt.estimateRefusal message = .transientRpc text := Except.error.inj same
  unfold Attempt.estimateRefusal at refusal
  split at refusal <;> cases refusal

/-! ### Calls -/

/-- A call that a pool can be asked to make. -/
inductive Request where
  | chainId
  | gasPrice
  | nonce (account : Address)
  | estimate (t : Transaction)
  | broadcast (raw : List UInt8)
  | receipt (hash : Digest)
  | transaction (hash : Digest)
  | head

/-- The pool behind a call. -/
def Request.serve (wire : Wire σ) (p : Pool) (s : σ) : Request → Pool × σ
  | .chainId => (p.chainId wire s).2
  | .gasPrice => (p.gasPrice wire s).2
  | .nonce account => (p.nonce wire account s).2
  | .estimate t => (p.estimate wire t s).2
  | .broadcast raw => (p.broadcast wire raw s).2
  | .receipt hash => (p.receipt wire hash s).2
  | .transaction hash => (p.transaction wire hash s).2
  | .head => (p.head wire s).2

/-- The pool behind calls one after the other. -/
def serve (wire : Wire σ) : List Request → Pool → σ → Pool × σ
  | [], p, s => (p, s)
  | r :: rest, p, s => serve wire rest (r.serve wire p s).1 (r.serve wire p s).2

/-- How a call goes, by its kind. -/
def Request.Lawful (wire : Wire σ) (p : Pool) (s : σ) : Request → Prop
  | .chainId => ∃ out, GoesRound (p.attempt wire .chainId Result.amount Attempt.read) p s out ∧
      p.chainId wire s = out.map asWord id
  | .gasPrice =>
      GoesRound (p.attempt wire .gasPrice Result.amount Attempt.read) p s (p.gasPrice wire s)
  | .nonce account =>
      ∃ out, GoesRound (p.attempt wire (.nonce account) Result.amount Attempt.read) p s out ∧
      p.nonce wire account s = out.map asWord id
  | .estimate t => TriesOnce (p.attempt wire (.estimate t) Result.amount Attempt.estimate) p s
      (p.estimate wire t s)
  | .broadcast raw =>
    TriesOnce (p.attempt wire (.broadcast raw) Result.digest Attempt.broadcast) p s
      (p.broadcast wire raw s)
  | .receipt hash => GoesRound (p.attempt wire (.receipt hash) Result.receipt Attempt.read) p s
      (p.receipt wire hash s)
  | .transaction hash =>
      GoesRound (p.attempt wire (.transaction hash) Result.transaction Attempt.read) p s
      (p.transaction wire hash s)
  | .head => GoesRound (p.attempt wire .head Result.word Attempt.read) p s (p.head wire s)

/-- The active node rejects a call. -/
def Request.Refused (wire : Wire σ) (p : Pool) (s : σ) : Request → Prop
  | .estimate t => ∃ e s', p.ask wire (.estimate t) Result.amount p.active s =
      (.failed (.refused e), s')
  | .broadcast raw => ∃ e s', p.ask wire (.broadcast raw) Result.digest p.active s =
      (.failed e, s') ∧ Failure.ofNodeMessage e.text ∈
        [.nonceTooLow, .underpriced, .insufficientFunds, .alreadyKnown]
  | _ => False

variable {wire : Wire σ}

/-- Every call goes as calls of its kind do. -/
theorem lawful (wire : Wire σ) (inside : p.active < p.size) (s : σ) (r : Request) :
    r.Lawful wire p s := by
  cases r with
  | chainId => exact ⟨_, read_goesRound wire .chainId Result.amount inside s, rfl⟩
  | nonce account => exact ⟨_, read_goesRound wire (.nonce account) Result.amount inside s, rfl⟩
  | estimate _ | broadcast _ => exact once_triesOnce wire _ _ _ inside s
  | _ => exact read_goesRound wire _ _ inside s

/-- A read leaves the pool with the index of one of its nodes. -/
theorem GoesRound.pool {attempt : Nat → σ → Except Failure α × σ}
    {out : Except Failure α × Pool × σ} (h : GoesRound attempt p s out)
    (inside : p.active < p.size) : ∃ place < p.size, out.2.1 = { p with active := place } := by
  cases h with
  | answered _ due _ _ => exact ⟨_, due ▸ Nat.mod_lt _ (Nat.zero_lt_of_lt inside), rfl⟩
  | exhausted _ _ _ => exact ⟨p.active, inside, rfl⟩

/-- So does a call that makes one attempt. -/
theorem TriesOnce.pool {attempt : Nat → σ → Except Failure α × σ}
    {out : Except Failure α × Pool × σ} (h : TriesOnce attempt p s out)
    (inside : p.active < p.size) : ∃ place < p.size, out.2.1 = { p with active := place } := by
  cases h with
  | strays _ => exact ⟨_, Nat.mod_lt _ (Nat.zero_lt_of_lt inside), rfl⟩
  | settles _ _ => exact ⟨p.active, inside, rfl⟩

/-- So does every call. -/
theorem serve_pool (inside : p.active < p.size) (s : σ) (r : Request) :
    ∃ place < p.size, (r.serve wire p s).1 = { p with active := place } := by
  have law := lawful wire inside s r
  cases r with
  | chainId | nonce _ =>
    obtain ⟨out, round, same⟩ := law
    obtain ⟨place, within, pool⟩ := round.pool inside
    exact ⟨place, within, by rw [Request.serve, same, ← pool]; rfl⟩
  | estimate _ | broadcast _ => exact TriesOnce.pool law inside
  | _ => exact GoesRound.pool law inside

/-- The rejection of a call does not move the index on. -/
theorem serve_refused {r : Request} (refused : r.Refused wire p s) : (r.serve wire p s).1 = p := by
  cases r with
  | estimate t =>
    obtain ⟨e, s', asked⟩ := refused
    show p.after (Attempt.estimate _ _ (p.ask wire (.estimate t) Result.amount p.active s).1) = p
    rw [asked]
    exact after_of_settled (not_stray_of_refusal e.message)
  | broadcast raw =>
    obtain ⟨e, s', asked, said⟩ := refused
    show
      p.after (Attempt.broadcast _ _ (p.ask wire (.broadcast raw) Result.digest p.active s).1) = p
    rw [asked]
    refine after_of_settled ?_
    rintro ⟨text, same⟩
    rw [Except.error.inj same] at said
    simp at said
  | _ => exact refused.elim

/-- **Calls that do not overlap** keep to the circle.  Whatever calls came before and whatever the
    nodes did, the active index is that of a node, the next call goes as calls of its kind do, and
    the rejection of a call does not move the index on. -/
theorem serve_lawful (wire : Wire σ) (inside : p.active < p.size) (s : σ)
    (earlier : List Request) (r : Request) :
    (serve wire earlier p s).1.active < p.size ∧
      (serve wire earlier p s).1 = { p with active := (serve wire earlier p s).1.active } ∧
      r.Lawful wire (serve wire earlier p s).1 (serve wire earlier p s).2 ∧
      (r.Refused wire (serve wire earlier p s).1 (serve wire earlier p s).2 →
        (r.serve wire (serve wire earlier p s).1 (serve wire earlier p s).2).1 =
          (serve wire earlier p s).1) := by
  induction earlier generalizing p s with
  | nil => exact ⟨inside, rfl, lawful wire inside s r, serve_refused⟩
  | cons first rest ih =>
    obtain ⟨place, within, pool⟩ : ∃ place < p.size, (first.serve wire p s).1 = _ :=
      serve_pool inside s first
    have inside' : (first.serve wire p s).1.active < (first.serve wire p s).1.size := by
      rw [pool]
      exact within
    obtain ⟨due, same, law, refused⟩ := ih inside' (first.serve wire p s).2
    have endpoints : (first.serve wire p s).1.endpoints = p.endpoints := by rw [pool]
    have timeout : (first.serve wire p s).1.timeout = p.timeout := by rw [pool]
    refine ⟨?_, ?_, law, refused⟩
    · rw [size, ← endpoints]
      exact due
    · rw [← endpoints, ← timeout]
      exact same

/-- A transport through which nothing comes in time, except that a broadcast is answered with `nonce
    too low`. -/
def curt : Wire Unit := fun _ query s =>
  if query.method = "eth_sendRawTransaction" then (.body "nonce too low", s) else (.late, s)

/-- A read that both nodes have failed leaves the second one active, and its `nonceTooLow` for a
    broadcast does not move the index on. -/
theorem serve_lawful_refused :
    (⟨["http://a", "http://b"], 1, 5000⟩ : Pool).active < 2 ∧
      (serve curt [.head] ⟨["http://a", "http://b"], 1, 5000⟩ ()).1.active < 2 ∧
      (Request.broadcast []).Refused curt
        (serve curt [.head] ⟨["http://a", "http://b"], 1, 5000⟩ ()).1 () ∧
      ((Request.broadcast []).serve curt
        (serve curt [.head] ⟨["http://a", "http://b"], 1, 5000⟩ ()).1 ()).1 =
          (serve curt [.head] ⟨["http://a", "http://b"], 1, 5000⟩ ()).1 := by
  have inside : (⟨["http://a", "http://b"], 1, 5000⟩ : Pool).active < 2 := by decide
  obtain ⟨due, -, -, stays⟩ := serve_lawful curt inside () [.head] (.broadcast [])
  have refused : (Request.broadcast []).Refused curt
      (serve curt [.head] ⟨["http://a", "http://b"], 1, 5000⟩ ()).1 () := by
    refine ⟨.unreadable "nonce too low", (), rfl, ?_⟩
    have said :
        Failure.ofNodeMessage (CallError.unreadable "nonce too low").text = .nonceTooLow := by
      decide +kernel
    rw [said]
    exact List.mem_cons_self
  exact ⟨inside, due, refused, stays refused⟩

end Pool

end Relayer
