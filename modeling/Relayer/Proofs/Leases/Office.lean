import Mathlib.Data.List.Basic
import Relayer.Proofs.Leases.Stakes
import Relayer.Proofs.Send.Noted
import Relayer.Proofs.Send.Prompt

namespace Relayer

/-!
# Office — any number of sends and other clients of one nonce manager

Sends are started at any moment, in any number, and any of them may make the next step.  Besides
them there may be other clients, which acquire leases and release, commit or resync them at will.

* `Client` — a send, an acquisition, or a lease that is held;
* `Office` — the slots and the clients;
* `Office.SendStep` / `Office.HandStep` — one step of a send, and one of another client;
* `Office.Run` — the histories of an office, in any interleaving;
* `Office.Run.sound` — slots and clients always fit together.
-/

/-- A client of the nonce manager. -/
inductive Client where
  | absent
  | sending (s : Send)
  /-- One that acquires a lease by itself. -/
  | asking (account : Address) (a : Acquire)
  /-- One that holds a lease by itself. -/
  | holding (lease : Lease)
  | gone

/-- What a client has to do with the slots, where `account` is that of the sends. -/
def Client.stake (account : Address) : Client → Stake
  | .sending s => s.stake account
  | .asking account a => a.stake account
  | .holding lease => .leased lease
  | .absent | .gone => .idle

/-- The slots of a nonce manager and its clients. -/
structure Office where
  leases : Leases
  client : Nat → Client

namespace Office

variable {σ : Type}

/-- No client has come yet. -/
def opened : Office := ⟨.empty, fun _ => .absent⟩

/-- One client has made a step, after which the slots are these. -/
def put (w : Office) (id : Nat) (c : Client) (leases : Leases) : Office :=
  ⟨leases, Function.update w.client id c⟩

@[simp] theorem client_put_self (w : Office) (id : Nat) (c : Client) (leases : Leases) :
    (w.put id c leases).client id = c := Function.update_self ..

theorem client_put_other (w : Office) {id k : Nat} (other : k ≠ id) (c : Client)
    (leases : Leases) : (w.put id c leases).client k = w.client k :=
  Function.update_of_ne other ..

/-- What all clients have to do with the slots. -/
def stake (w : Office) (account : Address) (id : Nat) : Stake := (w.client id).stake account

/-! ### Steps -/

/-- One step of a send, with what it shows. -/
inductive SendStep (desk : Desk σ) (w : Office) (id : Nat) : List Send.Event → Office → Prop where
  | starts {call now} (absent : w.client id = .absent) :
      SendStep desk w id [] (w.put id (.sending (.start desk.policy call now)) w.leases)
  | reschedules {s s'} (here : w.client id = .sending s) (order : s.Rescheduled s') :
      SendStep desk w id [] (w.put id (.sending s') w.leases)
  | advances {s s' limits now leases outside outside' calls} (here : w.client id = .sending s)
      (step : s.stepWithin desk.noted limits now w.leases (outside, []) =
        some (.running s', leases, outside', calls)) :
      SendStep desk w id (s.shown calls (.running s')) (w.put id (.sending s') leases)
  | ends {s result limits now leases outside outside' calls} (here : w.client id = .sending s)
      (step : s.stepWithin desk.noted limits now w.leases (outside, []) =
        some (.ended result, leases, outside', calls)) :
      SendStep desk w id (s.shown calls (.ended result)) (w.put id .gone leases)
  /-- Its caller drops it, in whatever phase. -/
  | drops {s} (here : w.client id = .sending s) :
      SendStep desk w id [.dropped] (w.put id .gone (s.abandon desk.signer.address w.leases))

/-- **Every step of a send is one of its office.** -/
theorem SendStep.of_step {desk : Desk σ} {w : Office} {id : Nat} {s : Send} {cancelled : Bool}
    {now : Nat} {out : Send.Outcome} {leases : Leases} {outside outside' : σ}
    (here : w.client id = .sending s)
    (step : s.step desk cancelled now w.leases outside = some (out, leases, outside')) :
    ∃ calls c, SendStep desk w id (s.shown calls out) (w.put id c leases) := by
  obtain ⟨calls, noted⟩ := Send.exists_calls step
  cases out with
  | running s' => exact ⟨calls, _, .advances here noted⟩
  | ended result => exact ⟨calls, _, .ends here noted⟩

/-- One step of another client, at a node of its own. -/
inductive HandStep (chain : Chain σ) (w : Office) (id : Nat) : Office → Prop where
  | comes {account} (absent : w.client id = .absent) :
      HandStep chain w id (w.put id (.asking account .start) w.leases)
  | waits {account a a' now leases outside outside'} (here : w.client id = .asking account a)
      (step : a.step chain account now w.leases outside = some (.waiting a', leases, outside')) :
      HandStep chain w id (w.put id (.asking account a') leases)
  | obtains {account a lease now leases outside outside'}
      (here : w.client id = .asking account a)
      (step : a.step chain account now w.leases outside =
        some (.granted lease, leases, outside')) :
      HandStep chain w id (w.put id (.holding lease) leases)
  | misses {account a f now leases outside outside'} (here : w.client id = .asking account a)
      (step : a.step chain account now w.leases outside = some (.failed f, leases, outside')) :
      HandStep chain w id (w.put id .gone leases)
  | leaves {account a} (here : w.client id = .asking account a) :
      HandStep chain w id (w.put id .gone (a.abandon account w.leases))
  | releases {lease} (here : w.client id = .holding lease) :
      HandStep chain w id (w.put id .gone (lease.release w.leases))
  | commits {lease leases} (here : w.client id = .holding lease)
      (committed : lease.commit w.leases = .ok leases) :
      HandStep chain w id (w.put id .gone leases)
  | resyncs {lease} (here : w.client id = .holding lease) :
      HandStep chain w id (w.put id .gone (lease.resync w.leases))

/-- What the sends have shown so far, and the office as it is now.  Where it is not `shared`, all
    clients are sends. -/
inductive Run (desk : Desk σ) (shared : Bool) : List (Nat × Send.Event) → Office → Prop where
  | opened : Run desk shared [] .opened
  | send {history w id shown w'} (run : Run desk shared history w)
      (step : SendStep desk w id shown w') :
      Run desk shared (history ++ shown.map (id, ·)) w'
  | hand {history w id w'} {chain : Chain σ} (run : Run desk shared history w)
      (allowed : shared = true) (step : HandStep chain w id w') : Run desk shared history w'

/-! ### Stakes -/

variable {desk : Desk σ} {shared : Bool} {history : List (Nat × Send.Event)} {w w' : Office}
  {id : Nat} {shown : List Send.Event} {account : Address}

@[simp] theorem stake_put (w : Office) (account : Address) (id : Nat) (c : Client)
    (leases : Leases) :
    (w.put id c leases).stake account = Function.update (w.stake account) id (c.stake account) := by
  funext k
  by_cases own : k = id
  · subst own
    simp [stake, put]
  · simp [stake, put, own]

/-- A step of a send moves its stake and leaves the other clients alone. -/
theorem SendStep.stake (step : SendStep desk w id shown w') :
    ∃ c, w' = w.put id c w'.leases ∧
      Stake.Move w.leases (w.stake desk.signer.address id) w'.leases
        (c.stake desk.signer.address) := by
  have before {c : Client} (here : w.client id = c) :
      w.stake desk.signer.address id = c.stake desk.signer.address := by
    rw [Office.stake, here]
  cases step with
  | starts absent =>
    refine ⟨_, rfl, ?_⟩
    rw [before absent]
    exact .stays .idle
  | reschedules here order =>
    refine ⟨_, rfl, ?_⟩
    rw [before here, Client.stake, Client.stake, order.stake]
    exact .stays _
  | advances here step =>
    refine ⟨_, rfl, ?_⟩
    rw [before here]
    exact (Send.move_of_noted step).stake
  | ends here step =>
    refine ⟨_, rfl, ?_⟩
    rw [before here]
    exact (Send.move_of_noted step).stake
  | drops here =>
    refine ⟨_, rfl, ?_⟩
    rw [before here]
    exact Send.stake_of_abandon ..

/-- So does a step of another client. -/
theorem HandStep.stake {chain : Chain σ} (step : HandStep chain w id w') (account : Address) :
    ∃ c, w' = w.put id c w'.leases ∧
      Stake.Move w.leases (w.stake account id) w'.leases (c.stake account) := by
  have before {c : Client} (here : w.client id = c) :
      w.stake account id = c.stake account := by
    rw [Office.stake, here]
  cases step with
  | comes absent =>
    refine ⟨_, rfl, ?_⟩
    rw [before absent]
    exact .stays .idle
  | waits here step | obtains here step | misses here step =>
    refine ⟨_, rfl, ?_⟩
    rw [before here]
    exact Acquire.stake_of_step step
  | leaves here =>
    refine ⟨_, rfl, ?_⟩
    rw [before here]
    exact Acquire.stake_of_abandon ..
  | releases here =>
    refine ⟨_, rfl, ?_⟩
    rw [before here]
    exact .leaves rfl
  | commits here committed =>
    refine ⟨_, rfl, ?_⟩
    rw [before here]
    exact .commits committed
  | resyncs here =>
    refine ⟨_, rfl, ?_⟩
    rw [before here]
    exact .resyncs

/-- **Slots and clients fit together** in every office. -/
theorem Run.sound (run : Run desk shared history w) :
    Stakes.Sound w.leases (w.stake desk.signer.address) := by
  induction run with
  | opened => exact .empty
  | send _ step ih =>
    obtain ⟨c, put, move⟩ := step.stake
    rw [put, stake_put]
    exact ih.move move
  | hand _ _ step ih =>
    obtain ⟨c, put, move⟩ := step.stake desk.signer.address
    rw [put, stake_put]
    exact ih.move move

/-! ### Histories -/

/-- The trail of one send. -/
def trailOf (history : List (Nat × Send.Event)) (id : Nat) : List Send.Event :=
  history.filterMap fun x => if x.1 = id then some x.2 else none

theorem mem_trailOf {e : Send.Event} : e ∈ trailOf history id ↔ (id, e) ∈ history := by
  simp only [trailOf, List.mem_filterMap]
  constructor
  · rintro ⟨⟨k, e'⟩, listed, own⟩
    split at own
    next same =>
      cases same
      cases own
      exact listed
    next => cases own
  · intro listed
    exact ⟨(id, e), listed, by simp⟩

@[simp] theorem trailOf_nil : trailOf [] id = [] := rfl

theorem trailOf_append_self (history : List (Nat × Send.Event)) (id : Nat)
    (shown : List Send.Event) :
    trailOf (history ++ shown.map (id, ·)) id = trailOf history id ++ shown := by
  simp [trailOf, List.filterMap_append, List.filterMap_map]

theorem trailOf_append_other (history : List (Nat × Send.Event)) {id k : Nat} (other : k ≠ id)
    (shown : List Send.Event) :
    trailOf (history ++ shown.map (id, ·)) k = trailOf history k := by
  simp [trailOf, List.filterMap_append, List.filterMap_map, Ne.symm other]

/-- The trail of a client fits what it is.  A send under way has it by a run of its own. -/
def Client.HasTrail (desk : Desk σ) (trail : List Send.Event) : Client → Prop
  | .sending s => ∃ call, Send.Run desk call trail s
  | .absent | .asking _ _ | .holding _ => trail = []
  | .gone => trail = [] ∨ ∃ e ∈ trail, e.isOver = true

/-- A step of a send adds to its trail. -/
theorem SendStep.hasTrail (step : SendStep desk w id shown w') {trail : List Send.Event}
    (h : Client.HasTrail desk trail (w.client id)) :
    Client.HasTrail desk (trail ++ shown) (w'.client id) := by
  cases step with
  | @starts call now absent =>
    rw [absent] at h
    obtain rfl : trail = [] := h
    rw [client_put_self]
    exact ⟨call, .start now⟩
  | reschedules here order =>
    rw [here] at h
    obtain ⟨call, run⟩ := h
    -- The scheduler shows nothing.
    rw [client_put_self, List.append_nil]
    exact ⟨call, .reschedule run order⟩
  | advances here step =>
    rw [here] at h
    obtain ⟨call, run⟩ := h
    rw [client_put_self]
    exact ⟨call, .step run step⟩
  | @ends s result _ _ _ _ _ _ here step =>
    rw [client_put_self]
    exact .inr ⟨.ended result, by simp [Send.shown], rfl⟩
  | drops here =>
    rw [client_put_self]
    exact .inr ⟨.dropped, by simp, rfl⟩

/-- A step of a client leaves the others alone. -/
theorem SendStep.other (step : SendStep desk w id shown w') {k : Nat} (other : k ≠ id) :
    w'.client k = w.client k := by
  obtain ⟨c, put, -⟩ := step.stake
  rw [put, client_put_other w other]

/-- **Every send in an office has a run of its own**, whatever the others do. -/
theorem Run.hasTrail (run : Run desk shared history w) (k : Nat) :
    Client.HasTrail desk (trailOf history k) (w.client k) := by
  induction run with
  | opened => rfl
  | @send history w id shown w' _ step ih =>
    by_cases own : k = id
    · subst own
      rw [trailOf_append_self]
      exact step.hasTrail ih
    · rw [trailOf_append_other _ own, step.other own]
      exact ih
  | @hand history w id w' chain _ _ step ih =>
    by_cases own : k = id
    · subst own
      -- A client that is no send has shown nothing, and shows nothing now.
      cases step with
      | comes here | waits here _ | obtains here _ =>
        rw [here] at ih
        rw [client_put_self]
        exact ih
      | misses here _ | leaves here | releases here | commits here _ | resyncs here =>
        rw [here] at ih
        rw [client_put_self]
        exact .inl ih
    · obtain ⟨c, put, -⟩ := step.stake desk.signer.address
      rw [put, client_put_other w own]
      exact ih

/-- A send that makes a step has not ended before. -/
theorem SendStep.not_over (step : SendStep desk w id shown w') (run : Run desk shared history w)
    {e : Send.Event} (listed : (id, e) ∈ history) : e.isOver = false := by
  have shows := run.hasTrail id
  have mem := mem_trailOf.mpr listed
  cases step with
  | starts absent =>
    rw [absent] at shows
    rw [show trailOf history id = [] from shows] at mem
    cases mem
  | reschedules here _ | advances here _ | ends here _ | drops here =>
    rw [here] at shows
    obtain ⟨call, own⟩ := shows
    exact own.not_over e mem

/-- Nothing is shown behind an end, within one step. -/
theorem SendStep.shown_pairwise (step : SendStep desk w id shown w') :
    shown.Pairwise fun e _ => e.isOver = false := by
  cases step with
  | starts _ | reschedules _ _ => exact .nil
  | advances _ _ | ends _ _ => exact Send.shown_pairwise ..
  | drops _ => exact List.pairwise_singleton _ _

/-- **No send shows anything behind its end.** -/
theorem Run.over_last (run : Run desk shared history w) :
    history.Pairwise fun x y => x.1 = y.1 → x.2.isOver = false := by
  induction run with
  | opened => exact .nil
  | @send history w id shown w' run step ih =>
    rw [List.pairwise_append]
    refine ⟨ih, ?_, ?_⟩
    · rw [List.pairwise_map]
      refine step.shown_pairwise.imp ?_
      intro e e' not_over _
      exact not_over
    · rintro ⟨k, e⟩ listed y shown same
      obtain ⟨e', -, rfl⟩ := List.mem_map.mp shown
      subst same
      exact step.not_over run listed
  | hand _ _ _ ih => exact ih

/-- Behind the end of a send there is nothing of it. -/
theorem Run.le_of_over (run : Run desk shared history w) {m k : Nat} {e e' : Send.Event}
    (at_m : history[m]? = some (id, e)) (isOver : e.isOver = true)
    (at_k : history[k]? = some (id, e')) : k ≤ m := by
  by_contra later
  obtain ⟨hm, eq_m⟩ := List.getElem?_eq_some_iff.mp at_m
  obtain ⟨hk, eq_k⟩ := List.getElem?_eq_some_iff.mp at_k
  have none := List.pairwise_iff_getElem.mp run.over_last m k hm hk (Nat.lt_of_not_le later)
  rw [eq_m, eq_k] at none
  rw [none rfl] at isOver
  cases isOver

/-- What is shown is shown by some step, with the office as it was left by the steps before. -/
theorem Run.step_at (run : Run desk shared history w) {j : Nat} {e : Send.Event}
    (shown_at : history[j]? = some (id, e)) :
    ∃ before v shown v' later, Run desk shared before v ∧ SendStep desk v id shown v' ∧
      history = before ++ shown.map (id, ·) ++ later ∧ before.length ≤ j ∧
      shown[j - before.length]? = some e := by
  induction run with
  | opened => cases shown_at
  | @send history w id' shown w' run step ih =>
    by_cases old : j < history.length
    · rw [List.getElem?_append_left old] at shown_at
      obtain ⟨before, v, shown', v', later, run', step', rfl, rest⟩ := ih shown_at
      exact ⟨before, v, shown', v', later ++ shown.map (id', ·), run', step', by simp, rest⟩
    · have behind := Nat.le_of_not_lt old
      rw [List.getElem?_append_right behind, List.getElem?_map, Option.map_eq_some_iff]
        at shown_at
      obtain ⟨e', here, same⟩ := shown_at
      obtain ⟨rfl, rfl⟩ := Prod.mk.inj same
      exact ⟨history, w, shown, w', [], run, step, by simp, behind, here⟩
  | hand _ _ _ ih => exact ih shown_at

/-! ### Prompt offices -/

theorem put_put (w : Office) (id : Nat) (c c' : Client) (l l' : Leases) :
    (w.put id c l).put id c' l' = w.put id c' l' := by
  simp [put]

theorem put_self {c : Client} (here : w.client id = c) : w.put id c w.leases = w := by
  simp [put, ← here]

/-- A stretch of one send prolongs the history of an office. -/
theorem Run.stretch {desk : Desk Unit} {now : Nat} {s s' : Send} {l' : Leases}
    {later : List Send.Event} (run : Run desk shared history w)
    (here : w.client id = .sending s) (h : Send.Stretch desk now s w.leases later s' l') :
    Run desk shared (history ++ later.map (id, ·)) (w.put id (.sending s') l') := by
  induction h with
  | here =>
    rw [put_self here, List.map_nil, List.append_nil]
    exact run
  | step _ _ step shown ih =>
    have next := ih.send (.advances (client_put_self ..) step)
    rw [shown, put_put] at next
    rw [List.map_append, ← List.append_assoc]
    exact next

/-- **Where everybody answers at once, a call at a free slot is carried out**, whatever there was
    before it.  It leaves the slot free again, with `next` one nonce further on. -/
theorem Run.prompt {x : Send.Errand} (run : Run x.desk shared history w)
    (absent : w.client id = .absent) (fits : x.Fits w.leases)
    (room : x.lease.nonce.toNat + 1 < UInt64.size) :
    ∃ (calls : List Inquiry) (v w' : Office),
      Run x.desk shared (history ++ (x.trail calls).map (id, ·)) v ∧
      SendStep x.desk v id [.ended (.ok x.receipt)] w' ∧
      (∀ k, k ≠ id → w'.client k = w.client k) ∧
      w'.leases.slot x.lease.account = ⟨some (x.lease.nonce + 1), none, []⟩ := by
  obtain ⟨calls, l, stretch, slot⟩ := fits.stretch
  have started : Run x.desk shared (history ++ [].map (id, ·))
      (w.put id (.sending (.start .brisk x.call 0)) w.leases) := run.send (.starts absent)
  rw [List.map_nil, List.append_nil] at started
  have shows := started.stretch (client_put_self ..) stretch
  rw [put_put] at shows
  refine ⟨calls, _, _, shows, .ends (client_put_self ..) (x.returns l room), ?_, ?_⟩
  · intro k other
    rw [put_put, client_put_other w other]
  · rw [put, Lease.slot_release_note, if_pos rfl, slot]
    simp [Slot.drop]

end Office

end Relayer
