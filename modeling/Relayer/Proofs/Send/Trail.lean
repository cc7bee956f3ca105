import Mathlib.Data.List.Basic
import Relayer.Send.Basic

namespace Relayer

/-!
# Trail — what a send shows: calls, its lease, published candidates, its end

A send is judged by its trail: the calls it makes to node and signer with their replies, the lease
it is granted, the candidates it publishes, and its end.

* `Inquiry` — a call to the node or the signer, with its reply;
* `Desk.noted` — the same desk with every call appended to a log;
* `Send.Event` — one event of a trail;
* `Send.Run` — a send under way with its trail.  Between two of its steps the slots, the outside,
  the clock and the scheduler may do anything;
* `Send.Ends` — a send that has ended with a result.
-/

variable {σ : Type}

/-! ### Calls -/

/-- The reply that arrives is the one that was under way. -/
theorem Pending.answer_of_ready {α : Type} {p : Pending α} {now : Nat} {a : α}
    (h : p.ready? now = some a) : p.answer = a := by
  unfold ready? at h
  split at h
  · split at h
    · exact Option.some.inj h
    · cases h
  · cases h

/-- A call to the node or the signer, with its reply. -/
inductive Inquiry where
  | chainId (reply : Pending (Except Failure UInt64))
  | gasPrice (reply : Pending (Except Failure Amount))
  | nonce (account : Address) (reply : Pending (Except Failure UInt64))
  | estimate (t : Transaction) (reply : Pending (Except Failure Amount))
  | broadcast (c : Candidate) (reply : Pending Verdict)
  | receipt (hash : Digest) (reply : Pending (Except Failure (Option ChainReceipt)))
  | knows (hash : Digest) (reply : Pending (Except Failure Bool))
  | head (reply : Pending (Except Failure Nat))
  | sign (chainId : UInt64) (t : Transaction) (reply : Pending (Except Stop (List UInt8)))

/-- The reply is one that `desk` gives to that call, at some moment and in some state of the
    outside. -/
def Inquiry.Genuine (desk : Desk σ) : Inquiry → Prop
  | .chainId reply => ∃ now outside, reply = (desk.chain.chainId now outside).1
  | .gasPrice reply => ∃ now outside, reply = (desk.chain.gasPrice now outside).1
  | .nonce account reply => ∃ now outside, reply = (desk.chain.nonce account now outside).1
  | .estimate t reply => ∃ now outside, reply = (desk.chain.estimate t now outside).1
  | .broadcast c reply => ∃ now outside, reply = (desk.chain.broadcast c now outside).1
  | .receipt hash reply => ∃ now outside, reply = (desk.chain.receipt hash now outside).1
  | .knows hash reply => ∃ now outside, reply = (desk.chain.knows hash now outside).1
  | .head reply => ∃ now outside, reply = (desk.chain.head now outside).1
  | .sign id t reply => ∃ now outside, reply = (desk.signer.sign id t now outside).1

/-- A call that is appended to a log. -/
def Call.Effect.noted {α : Type} (note : Pending α → Inquiry) (ask : Call.Effect σ α) :
    Call.Effect (σ × List Inquiry) α :=
  fun now world =>
    ((ask now world.1).1, (ask now world.1).2, world.2 ++ [note (ask now world.1).1])

/-- The same node, with every call appended to a log. -/
def Chain.noted (chain : Chain σ) : Chain (σ × List Inquiry) where
  chainId := Call.Effect.noted .chainId chain.chainId
  gasPrice := Call.Effect.noted .gasPrice chain.gasPrice
  nonce account := Call.Effect.noted (.nonce account) (chain.nonce account)
  estimate t := Call.Effect.noted (.estimate t) (chain.estimate t)
  broadcast c := Call.Effect.noted (.broadcast c) (chain.broadcast c)
  receipt hash := Call.Effect.noted (.receipt hash) (chain.receipt hash)
  knows hash := Call.Effect.noted (.knows hash) (chain.knows hash)
  head := Call.Effect.noted .head chain.head

/-- The same signer, with every call appended to a log. -/
def Signer.noted (signer : Signer σ) : Signer (σ × List Inquiry) where
  address := signer.address
  sign id t := Call.Effect.noted (.sign id t) (signer.sign id t)

/-- The same desk, with every call to its node or its signer appended to a log. -/
def Desk.noted (desk : Desk σ) : Desk (σ × List Inquiry) where
  policy := desk.policy
  chain := desk.chain.noted
  signer := desk.signer.noted
  chainId := desk.chainId

@[simp] theorem Desk.noted_policy (desk : Desk σ) : desk.noted.policy = desk.policy := rfl

@[simp] theorem Desk.noted_chain (desk : Desk σ) : desk.noted.chain = desk.chain.noted := rfl

@[simp] theorem Desk.noted_address (desk : Desk σ) :
    desk.noted.signer.address = desk.signer.address := rfl

/-! ### What a step shows -/

/-- The party whose turn it is steps first. -/
theorem Escalation.step_of_turn {desk : Desk σ} {limits : Limits} {now : Nat} {e : Escalation}
    {outside : σ} {x : Outcome × σ} (h : e.stepOf desk limits now outside e.turn = some x) :
    e.step desk limits now outside = some x := by
  unfold step
  cases turn : e.turn <;> simp [Party.order, ← turn, h]

/-- The candidate of a broadcast task that has not sent it yet. -/
def Broadcast.queued? : Broadcast → Option Candidate
  | .queued c => some c
  | .sent .. => none

/-- The candidates that a step hands out for broadcast. -/
def Escalation.handedOut (before after : Escalation) : List Candidate :=
  (after.outstanding.drop before.outstanding.length).filterMap (·.queued?)

/-- No candidate is handed out where `outstanding` has not grown. -/
theorem Escalation.handedOut_of_length_le {e e' : Escalation}
    (short : e'.outstanding.length ≤ e.outstanding.length) : e.handedOut e' = [] := by
  rw [handedOut, List.drop_eq_nil_of_le short, List.filterMap_nil]

namespace Send

/-- The lease of a send, once it has one. -/
def lease? (s : Send) : Option Lease :=
  match s.phase with
  | .leasing _ => none
  | .estimating lease _ => some lease
  | .pricing lease _ _ => some lease
  | .escalating lease _ => some lease

/-- The phase behind the acquisition has the lease. -/
@[simp] theorem lease?_afterLease (s : Send) (lease : Lease) :
    ({ s with phase := s.afterLease lease } : Send).lease? = some lease := by
  unfold afterLease
  split <;> rfl

/-- The lease that a step acquires. -/
def gained (before after : Send) : List Lease :=
  if before.lease?.isSome then [] else after.lease?.toList

/-- The candidates that a step publishes. -/
def handedOut (before after : Send) : List Candidate :=
  match before.phase, after.phase with
  | .escalating _ e, .escalating _ e' => e.handedOut e'
  | _, _ => []

/-- One event of a trail. -/
inductive Event where
  /-- It makes a call to the node or the signer. -/
  | asked (i : Inquiry)
  /-- It is granted a lease. -/
  | granted (lease : Lease)
  /-- It has signed a candidate, watches its hash and hands it out for broadcast. -/
  | published (c : Candidate)
  | ended (result : Except Stop Receipt)
  /-- Its caller has dropped it. -/
  | dropped

namespace Event

/-- Whether the event is an end, `ended` or `dropped`. -/
def isOver : Event → Bool
  | .ended _ | .dropped => true
  | _ => false

/-- Whether the event is an end with `nonceStale`. -/
def isStale : Event → Bool
  | .ended (.error (.failure (.nonceStale _ _))) => true
  | _ => false

/-- An end with `nonceStale` is an end. -/
theorem not_stale_of_not_over {e : Event} (h : e.isOver = false) : e.isStale = false := by
  cases e with
  | ended _ => cases h
  | _ => rfl

/-- The candidate that is published. -/
def published? : Event → Option Candidate
  | .published c => some c
  | _ => none

/-- The lease that is granted. -/
def granted? : Event → Option Lease
  | .granted lease => some lease
  | _ => none

end Event

/-- The events of a step: its calls, then `granted`, `published` and `ended` as they apply. -/
def shown (before : Send) (calls : List Inquiry) : Outcome → List Event
  | .running after =>
    calls.map .asked ++ (before.gained after).map .granted ++
      (before.handedOut after).map .published
  | .ended result => calls.map .asked ++ [.ended result]

/-- The candidates that a trail publishes, the oldest first. -/
def published (trail : List Event) : List Candidate := trail.filterMap (·.published?)

/-- The leases that a trail is granted, the oldest first. -/
def granted (trail : List Event) : List Lease := trail.filterMap (·.granted?)

@[simp] theorem published_append (trail later : List Event) :
    published (trail ++ later) = published trail ++ published later := List.filterMap_append

@[simp] theorem granted_append (trail later : List Event) :
    granted (trail ++ later) = granted trail ++ granted later := List.filterMap_append

@[simp] theorem published_shown (before after : Send) (calls : List Inquiry) :
    published (before.shown calls (.running after)) = before.handedOut after := by
  simp [published, shown, Event.published?, List.filterMap_none]

@[simp] theorem granted_shown (before after : Send) (calls : List Inquiry) :
    granted (before.shown calls (.running after)) = before.gained after := by
  simp [granted, shown, Event.granted?, List.filterMap_none]

@[simp] theorem asked_mem_shown {before : Send} {calls : List Inquiry} {out : Outcome}
    {i : Inquiry} : .asked i ∈ before.shown calls out ↔ i ∈ calls := by
  cases out <;> simp [shown]

/-- A step that leaves the send running shows no end. -/
theorem not_over_of_running {before after : Send} {calls : List Inquiry} {e : Event}
    (h : e ∈ before.shown calls (.running after)) : e.isOver = false := by
  simp only [shown, List.mem_append, List.mem_map] at h
  rcases h with (⟨_, _, rfl⟩ | ⟨_, _, rfl⟩) | ⟨_, _, rfl⟩ <;> rfl

/-- Nothing is shown behind an end. -/
theorem shown_pairwise (before : Send) (calls : List Inquiry) (out : Outcome) :
    (before.shown calls out).Pairwise fun e _ => e.isOver = false := by
  cases out with
  | running after =>
    exact List.pairwise_of_forall_mem_list fun _ listed _ _ => not_over_of_running listed
  | ended result =>
    have asked : ∀ e ∈ calls.map Event.asked, e.isOver = false := by simp [Event.isOver]
    rw [shown, List.pairwise_append]
    refine ⟨?_, List.pairwise_singleton _ _, fun e listed _ _ => asked e listed⟩
    exact List.pairwise_of_forall_mem_list fun e listed _ _ => asked e listed

/-! ### Runs -/

/-- The scheduler may give the turn to any party, and permute the broadcast tasks. -/
def Rescheduled (s s' : Send) : Prop :=
  ∃ lease e turn outstanding, s.phase = .escalating lease e ∧
    outstanding.Perm e.outstanding ∧
    s' = { s with phase := .escalating lease { e with turn, outstanding } }

/-- A send of `call` under way, with its trail.  Every step may meet other slots, another outside,
    another moment and other limits than the step before: what other parties do in between is not
    restricted, nor is the order in which a limit and a reply are noticed. -/
inductive Run (desk : Desk σ) (call : Call) : List Event → Send → Prop where
  | start (now : Nat) : Run desk call [] (.start desk.policy call now)
  | reschedule {trail s s'} (run : Run desk call trail s) (order : s.Rescheduled s') :
      Run desk call trail s'
  | step {trail s s' limits now leases leases' outside outside' calls}
      (run : Run desk call trail s)
      (step : s.stepWithin desk.noted limits now leases (outside, []) =
        some (.running s', leases', outside', calls)) :
      Run desk call (trail ++ s.shown calls (.running s')) s'

/-- A send of `call` has ended with `result`, and has shown all of `trail`. -/
def Ends (desk : Desk σ) (call : Call) (trail : List Event) (result : Except Stop Receipt) :
    Prop :=
  ∃ trail' s limits now leases leases' outside outside' calls, Run desk call trail' s ∧
    s.stepWithin desk.noted limits now leases (outside, []) =
      some (.ended result, leases', outside', calls) ∧
    trail = trail' ++ s.shown calls (.ended result)

end Send

end Relayer
