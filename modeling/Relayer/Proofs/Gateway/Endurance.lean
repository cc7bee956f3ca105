import Mathlib.Data.Finset.Card
import Relayer.Proofs.Gateway.House
import Relayer.Proofs.Leases.Settlement
import Relayer.Proofs.Send.Breakdown
import Relayer.Settings.Basic

namespace Relayer

/-!
# Endurance — a house whose worker outlives all its sends

A send counts its attempts, multiplies its bids and commits its nonces, all in words that have an
end.  In a house whose settings were accepted none of them gets there: the ceiling bounds the bids,
the resubmission ticks bound the counters, and the number of sends bounds the nonces.

* `Send.Turn` — what a step can do to one send, and to `next` of the slots;
* `House.Step.turn` — every step in a house is that of one send, or of none;
* `House.Course` — a house with its sends and the ticks of their resubmission tickers counted;
* `House.Course.metered` — the counters of every send are within its ticks;
* `House.Course.reserved` — `next` is never further ahead of the chain than there were sends;
* `House.Course.endures` — no send breaks down, and the worker outlives every one of them.
-/

variable {σ : Type}

/-! ### Accepted settings -/

/-- A price in gwei is far from the end of its range. -/
theorem gwei_lt (n : UInt64) : (gwei n).toNat < 2 ^ 94 := by
  have word : n.toNat < 2 ^ 64 := n.toNat_lt
  show n.toNat * 1000000000 < 2 ^ 94
  omega

/-- Settings are accepted for a policy that is valid. -/
theorem PolicySettings.toPolicy_ok {settings : PolicySettings} {p : Policy}
    (accepted : settings.toPolicy = .ok p) : p = settings.meaning ∧ p.validate = .ok () := by
  simp only [toPolicy, bind, Except.bind] at accepted
  split at accepted
  next => cases accepted
  next valid =>
    cases accepted
    exact ⟨rfl, valid⟩

/-- So its ceiling leaves room for any increase. -/
theorem PolicySettings.ceiling_lt {settings : PolicySettings} {p : Policy}
    (accepted : settings.toPolicy = .ok p) : p.maxGasPrice.toNat < 2 ^ 94 := by
  rw [(toPolicy_ok accepted).1]
  exact gwei_lt _

/-! ### Nonces -/

/-- The node gives this as the pending nonce of the account. -/
def Desk.Counts (desk : Desk σ) (nonce : UInt64) : Prop :=
  ∃ now outside, (desk.chain.nonce desk.signer.address now outside).1.answer = .ok nonce

/-! ### Turns -/

namespace Send

/-- What a step can do to the send in a place, where there is one, and to the slots. -/
inductive Turn (desk : Desk σ) (l : Leases) : Option Send → Leases → Option Send → Prop where
  /-- The step is that of a client without a lease. -/
  | rests {s? l'} (next : ∀ a, (l'.slot a).next = (l.slot a).next) : Turn desk l s? l' s?
  | begins (call now) : Turn desk l none l (some (.start desk.policy call now))
  | reschedules {s s'} (order : s.Rescheduled s') : Turn desk l (some s) l (some s')
  | advances {s s' cancelled now l' outside outside'}
      (step : s.step desk cancelled now l outside = some (.running s', l', outside')) :
      Turn desk l (some s) l' (some s')
  | ends {s result cancelled now l' outside outside'}
      (step : s.step desk cancelled now l outside = some (.ended result, l', outside')) :
      Turn desk l (some s) l' none
  | drops {s} : Turn desk l (some s) (s.abandon desk.signer.address l) none

/-- The resubmission ticks of the send in a place: none so far where it has just begun, or where
    there is none. -/
def metBy (rounds : Nat) : Option Send → Option Send → Nat
  | some s, some s' => rounds + (s.ticks s').toNat
  | _, _ => 0

variable {desk : Desk σ} {limits : Limits} {now : Nat} {s s' : Send} {l l' : Leases}
  {calls : List Inquiry} {result : Except Stop Receipt}

/-- A send that is running behind its step changes no `next`, unless it has read the pending
    nonce. -/
theorem Move.next_of_running (move : Move desk limits now s l calls (.running s') l')
    (served : s.Served desk) (a : Address) :
    (l'.slot a).next = (l.slot a).next ∨
      ∃ nonce, desk.Counts nonce ∧ (l'.slot a).next = some nonce := by
  cases move with
  | joins _ =>
    left
    rw [Leases.slot_ask]
    split
    next same => rw [Slot.join_next, same]
    next => rfl
  | @learns t reply nonce phase ready =>
    rw [Served, phase] at served
    obtain ⟨now, outside, rfl⟩ := served
    rw [Leases.slot_note]
    split
    next => exact .inr ⟨nonce, ⟨now, outside, Pending.answer_of_ready ready⟩, rfl⟩
    next => exact .inl rfl
  | @retries t _ _ _ _ _ _ =>
    exact .inl (Lease.next_release ⟨desk.signer.address, t, 0⟩ l a)
  | _ => exact .inl rfl

/-- A send that ends leaves `next`, forgets it, or has committed its nonce. -/
theorem Move.next_of_ended (move : Move desk limits now s l calls (.ended result) l')
    {a : Address} (known : ∀ lease, s.lease? = some lease →
      lease.account = a ∧ (l.slot a).next = some lease.nonce) :
    (l'.slot a).next = (l.slot a).next ∨ (l'.slot a).next = none ∨
      ∃ lease, s.lease? = some lease ∧ lease.nonce.toNat + 1 < UInt64.size ∧
        (l'.slot a).next = some (lease.nonce + 1) := by
  cases leased : s.lease? with
  | none =>
    refine .inl (move.stake.next_of_unleased ?_ (fun _ idle => by cases idle) a)
    intro lease held
    cases leased.symm.trans (stake_eq_leased.mp held)
  | some lease =>
    obtain ⟨rfl, next⟩ := known lease leased
    -- A send that never escalated gives its lease back; one that did settles it.
    rcases move.ended_cases leased with ⟨rfl, -⟩ | ⟨r, rfl, rfl⟩
    · exact .inl (lease.next_release l _)
    · have settled := nextAfter_of_settle r next
      unfold Lease.NextAfter at settled
      split at settled
      next => exact .inr (.inr ⟨lease, rfl, settled.1, settled.2⟩)
      next => exact .inr (.inl settled)
      next => exact .inl (settled.trans next.symm)

/-- A send that is dropped changes no `next`. -/
theorem next_abandon (account : Address) (s : Send) (l : Leases) (a : Address) :
    ((s.abandon account l).slot a).next = (l.slot a).next := by
  cases leased : s.lease? with
  | none =>
    refine (stake_of_abandon account s l).next_of_unleased ?_ nofun a
    intro lease held
    cases leased.symm.trans (stake_eq_leased.mp held)
  | some lease =>
    rw [abandon_of_lease leased]
    exact lease.next_release l a

/-- **A turn keeps the counters within the ticks.** -/
theorem Turn.metered {s? : Option Send} {rounds : Nat} (valid : desk.policy.validate = .ok ())
    (turn : Turn desk l s? l' (some s')) (lively : ∀ s ∈ s?, ∃ call trail, Run desk call trail s)
    (before : ∀ s ∈ s?, s.Metered rounds) : s'.Metered (metBy rounds s? (some s')) := by
  generalize after : some s' = s?' at turn ⊢
  cases turn with
  | rests _ =>
    obtain rfl := after
    exact (before s' rfl).mono (Nat.le_add_right _ _)
  | begins call now =>
    cases after
    exact metered_start _ call now _
  | reschedules order =>
    cases after
    exact ((before _ rfl).reschedule order).mono (Nat.le_add_right _ _)
  | advances step =>
    cases after
    obtain ⟨call, trail, run⟩ := lively _ rfl
    obtain ⟨calls, noted⟩ := exists_calls step
    exact (before _ rfl).move valid run (move_of_noted noted)
  | ends _ | drops => cases after

end Send

/-! ### Places -/

namespace Queue

variable {desk : Desk σ} {q q' : Queue} {shown : List Event}

/-- A move keeps the capacity of the queue. -/
theorem Move.capacity_eq (move : Move desk q shown q') : q'.capacity = q.capacity := by
  cases move <;> rfl

/-- So does a call that comes. -/
theorem capacity_entered {full : Queue} (call : Call) (same : full.capacity = q.capacity) :
    (q.entered call full).capacity = q.capacity := by
  unfold entered
  split
  · rfl
  · split
    · exact same
    · rfl

/-- So does whatever is done to the queue from outside. -/
theorem Handling.capacity_eq (h : q.Handling q') : q'.capacity = q.capacity := by
  cases h with
  | offers call =>
    rw [offer_snd]
    exact capacity_entered call rfl
  | tries call =>
    rw [tryOffer_snd]
    exact capacity_entered call rfl
  | _ => rfl

end Queue

/-- A request that arrives leaves the queue alone, or offers a call. -/
theorem Visit.queue_of_start (desk : Desk σ) (r : Request) (l : Leases) (q : Queue) :
    (start desk r l q).2.2 = q ∨ q.Handling (start desk r l q).2.2 := by
  unfold start
  split
  next => exact .inl rfl
  next route _ =>
    split
    next => exact .inl rfl
    next =>
      cases route with
      | health | status => exact .inl rfl
      | send =>
        dsimp only
        split
        next => exact .inl rfl
        next call _ => exact .inr (.offers call)

/-- The send of the worker. -/
def Queue.send? (q : Queue) : Option Send :=
  match q.worker with
  | .sending _ s => some s
  | _ => none

/-- The send of a guest. -/
def Guest.send? : Guest → Option Send
  | .sending s => some s
  | _ => none

namespace House

/-- The send in a place: the worker's comes first, then those of the guests. -/
def send? (w : House) : Nat → Option Send
  | 0 => w.queue.send?
  | k + 1 => (w.guest k).send?

variable {desk : Desk σ} {w w' : House} {k : Nat} {s : Send} {lease : Lease}

/-- The send in a place is one of the house. -/
theorem sends_of_send? (here : w.send? k = some s) : w.Sends s := by
  cases k with
  | zero =>
    simp only [send?, Queue.send?] at here
    split at here
    next t _ sending =>
      cases here
      exact .inl ⟨t, sending⟩
    next => cases here
  | succ k =>
    simp only [send?, Guest.send?] at here
    split at here
    next guest =>
      cases here
      exact .inr ⟨k, guest⟩
    next => cases here

/-- A step of the worker leaves the guests alone. -/
theorem exists_turn_queue {q : Queue} {leases : Leases}
    (turn : Send.Turn desk w.leases w.queue.send? leases q.send?) :
    ∃ k, (∀ k', k' ≠ k → send? { w with queue := q, leases } k' = w.send? k') ∧
      Send.Turn desk w.leases (w.send? k) leases (send? { w with queue := q, leases } k) := by
  refine ⟨0, fun k' other => ?_, turn⟩
  cases k' with
  | zero => exact absurd rfl other
  | succ k' => rfl

/-- A step of a guest leaves the worker and the others alone. -/
theorem exists_turn_put {g g' : Guest} {leases : Leases} {queue : Queue}
    (here : w.guest k = g) (same : queue.worker = w.queue.worker)
    (turn : Send.Turn desk w.leases g.send? leases g'.send?) :
    ∃ k₀, (∀ k', k' ≠ k₀ → (w.put k g' leases queue).send? k' = w.send? k') ∧
      Send.Turn desk w.leases (w.send? k₀) leases ((w.put k g' leases queue).send? k₀) := by
  refine ⟨k + 1, fun k' other => ?_, ?_⟩
  · cases k' with
    | zero => simp [send?, Queue.send?, put, same]
    | succ k' =>
      have apart : k' ≠ k := fun same => other (congrArg (· + 1) same)
      rw [send?, send?, guest_put_other w apart]
  · rw [send?, send?, guest_put_self, here]
    exact turn

/-- A visit changes no `next`. -/
theorem next_of_visit {st st' : Stake} {l l' : Leases} (move : Stake.Move l st l' st')
    (unleased : ∀ lease, st ≠ .leased lease) (unleased' : ∀ lease, st' ≠ .leased lease)
    {s? : Option Send} : Send.Turn desk l s? l' s? :=
  .rests fun a => move.next_of_unleased unleased unleased' a

/-- A visit has no lease. -/
theorem Visit.stake_ne_leased (account : Address) (v : Visit) (lease : Lease) :
    v.stake account ≠ .leased lease := by
  cases v <;> exact nofun

/-- **Every step in a house** is that of the send in one place, or of no send at all. -/
theorem Step.turn (step : Step desk w w') :
    ∃ k, (∀ k', k' ≠ k → w'.send? k' = w.send? k') ∧
      Send.Turn desk w.leases (w.send? k) w'.leases (w'.send? k) := by
  cases step with
  | @handles q handling =>
    have same : q.send? = w.queue.send? := by rw [Queue.send?, handling.worker, Queue.send?]
    refine exists_turn_queue ?_
    rw [same]
    exact .rests fun _ => rfl
  | works step =>
    refine exists_turn_queue ?_
    -- The worker stops, takes a call out of the buffer, or makes a step of its send.
    rcases Queue.step_cases step with ⟨idle, -, rfl, rfl⟩ | ⟨job, rest, idle, -, -, rfl, rfl⟩ |
      ⟨t, s, out, sending, inner, rfl⟩
    · rw [show w.queue.send? = none by simp [Queue.send?, idle]]
      exact .rests fun _ => rfl
    · rw [show w.queue.send? = none by simp [Queue.send?, idle]]
      exact .begins job.call _
    · rw [show w.queue.send? = some s by simp [Queue.send?, sending]]
      match out with
      | .running s' => exact .advances inner
      | .ended (.ok _) | .ended (.error (.failure _)) | .ended (.error (.fault _)) =>
        exact .ends inner
  | @arranges t s s' sending order =>
    refine exists_turn_queue ?_
    rw [show w.queue.send? = some s by simp [Queue.send?, sending]]
    exact .reschedules order
  | begins absent => exact exists_turn_put absent rfl (.begins _ _)
  | reschedules here order => exact exists_turn_put here rfl (.reschedules order)
  | advances here step => exact exists_turn_put here rfl (.advances step)
  | ends here step => exact exists_turn_put here rfl (.ends step)
  | drops here => exact exists_turn_put here rfl .drops
  | visits r absent =>
    obtain ⟨move, same⟩ := Visit.stake_of_start desk r w.leases w.queue
    exact exists_turn_put absent same
      (next_of_visit move nofun (Visit.stake_ne_leased _ _))
  | proceeds here step =>
    exact exists_turn_put here rfl (next_of_visit (Visit.stake_of_step step)
      (Visit.stake_ne_leased _ _) (Visit.stake_ne_leased _ _))
  | @abandons k v here =>
    obtain ⟨move, same⟩ := Visit.stake_of_abandon desk.signer.address w.leases w.queue v
    exact exists_turn_put here same (next_of_visit move (Visit.stake_ne_leased _ _) nofun)

/-- The nonce of a lease is `next` of the account. -/
theorem Run.next_of_lease (run : Run desk w) (here : w.send? k = some s)
    (leased : s.lease? = some lease) :
    lease.account = desk.signer.address ∧
      (w.leases.slot desk.signer.address).next = some lease.nonce := by
  obtain ⟨account, -, id, stake⟩ := run.holder ⟨s, sends_of_send? here, leased⟩
  refine ⟨account, ?_⟩
  rw [← account]
  exact (run.sound.holds id lease.account lease.ticket (some lease.nonce) (by rw [stake]; rfl)).2

/-! ### Sends and rounds -/

/-- A send begins. -/
def Begun (w w' : House) : Prop := ∃ k, w.send? k = none ∧ (w'.send? k).isSome = true

/-- A house whose queue is as large as the policy says, with the number of sends that have begun so
    far, and the resubmission ticks of the send in each place. -/
inductive Course (desk : Desk σ) : Nat → (Nat → Nat) → House → Prop where
  | opened : Course desk 0 (fun _ => 0) (.opened desk.policy.bufferSize.toNat)
  | begins {sends rounds w w'} (course : Course desk sends rounds w) (step : Step desk w w')
      (begun : Begun w w') :
      Course desk (sends + 1) (fun k => Send.metBy (rounds k) (w.send? k) (w'.send? k)) w'
  | advances {sends rounds w w'} (course : Course desk sends rounds w) (step : Step desk w w')
      (same : ¬ Begun w w') :
      Course desk sends (fun k => Send.metBy (rounds k) (w.send? k) (w'.send? k)) w'

variable {sends : Nat} {rounds : Nat → Nat}

/-- A course is a run. -/
theorem Course.run (course : Course desk sends rounds w) : Run desk w := by
  induction course with
  | opened => exact .opened _
  | begins _ step _ ih | advances _ step _ ih => exact .step ih step

/-- **Sends and ticks can be counted in every run**: any step prolongs a course. -/
theorem Course.step (course : Course desk sends rounds w) (step : Step desk w w') :
    ∃ sends' rounds', Course desk sends' rounds' w' := by
  by_cases begun : Begun w w'
  · exact ⟨_, _, course.begins step begun⟩
  · exact ⟨_, _, course.advances step begun⟩

/-! ### Counters -/

/-- **A step keeps the counters of every send within its ticks.** -/
theorem Step.metered (valid : desk.policy.validate = .ok ()) (run : Run desk w)
    (step : Step desk w w') (before : ∀ k s, w.send? k = some s → s.Metered (rounds k))
    (here : w'.send? k = some s) :
    s.Metered (Send.metBy (rounds k) (w.send? k) (w'.send? k)) := by
  obtain ⟨k₀, others, turn⟩ := step.turn
  by_cases own : k = k₀
  · subst own
    rw [here] at turn ⊢
    exact turn.metered valid (fun s here => run.sends (sends_of_send? here)) (before k)
  · rw [others k own] at here ⊢
    rw [here]
    exact (before k s here).mono (Nat.le_add_right _ _)

/-- **The counters of every send are within its ticks.** -/
theorem Course.metered (valid : desk.policy.validate = .ok ())
    (course : Course desk sends rounds w) : ∀ k s, w.send? k = some s → s.Metered (rounds k) := by
  induction course with
  | opened =>
    intro k s here
    cases k <;> cases here
  | begins course step _ ih | advances course step _ ih =>
    intro k s here
    exact step.metered valid course.run ih here

/-! ### Nonces and places -/

/-- `next` is a pending nonce of the node, or further ahead by what the sends that have ended may
    have committed: every send so far, but for those in these places. -/
structure Reserved (desk : Desk σ) (sends : Nat) (w : House) (live : Finset Nat) : Prop where
  under : ∀ k, (w.send? k).isSome = true → k ∈ live
  few : live.card ≤ sends
  next : ∀ n, (w.leases.slot desk.signer.address).next = some n →
    ∃ c, desk.Counts c ∧ n.toNat + live.card ≤ c.toNat + sends

variable {live live' : Finset Nat}

/-- Where `next` stays, and fewer sends are under way, it is no further ahead. -/
theorem Reserved.of_next (h : Reserved desk sends w live)
    (kept : ∀ k, (w'.send? k).isSome = true → k ∈ live') (fewer : live'.card ≤ live.card)
    (next : (w'.leases.slot desk.signer.address).next =
      (w.leases.slot desk.signer.address).next) : Reserved desk sends w' live' where
  under := kept
  few := Nat.le_trans fewer h.few
  next n known := by
    obtain ⟨c, counts, ahead⟩ := h.next n (next ▸ known)
    exact ⟨c, counts, by omega⟩

/-- More sends leave more room. -/
theorem Reserved.succ (h : Reserved desk sends w live) : Reserved desk (sends + 1) w live where
  under := h.under
  few := Nat.le_succ_of_le h.few
  next n known := by
    obtain ⟨c, counts, ahead⟩ := h.next n known
    exact ⟨c, counts, Nat.le_succ_of_le ahead⟩

/-- A send begins: one more is counted, and one more is under way. -/
theorem Reserved.begins (h : Reserved desk sends w live)
    (others : ∀ k', k' ≠ k → w'.send? k' = w.send? k') (same : w'.leases = w.leases) :
    Reserved desk (sends + 1) w' (insert k live) where
  under k' here := by
    by_cases own : k' = k
    · exact own ▸ Finset.mem_insert_self k live
    · rw [others k' own] at here
      exact Finset.mem_insert_of_mem (h.under k' here)
  few := Nat.le_trans (Finset.card_insert_le k live) (Nat.add_le_add_right h.few 1)
  next n known := by
    obtain ⟨c, counts, ahead⟩ := h.next n (same ▸ known)
    have more := Finset.card_insert_le k live
    exact ⟨c, counts, by omega⟩

/-- A send ends: one less is under way, and one nonce may have been committed. -/
theorem Reserved.ends (h : Reserved desk sends w live)
    (others : ∀ k', k' ≠ k → w'.send? k' = w.send? k') (under : (w.send? k).isSome = true)
    (gone : w'.send? k = none)
    (next : (w'.leases.slot desk.signer.address).next =
        (w.leases.slot desk.signer.address).next ∨
      (w'.leases.slot desk.signer.address).next = none ∨
      ∃ n : UInt64, (w.leases.slot desk.signer.address).next = some n ∧
        n.toNat + 1 < UInt64.size ∧
        (w'.leases.slot desk.signer.address).next = some (n + 1)) :
    Reserved desk sends w' (live.erase k) := by
  -- The place falls free, and that makes room for the nonce that may have been used up.
  have kept (k' : Nat) (here : (w'.send? k').isSome = true) : k' ∈ live.erase k := by
    have other : k' ≠ k := by
      rintro rfl
      rw [gone] at here
      cases here
    rw [others k' other] at here
    exact Finset.mem_erase_of_ne_of_mem other (h.under k' here)
  have fewer : (live.erase k).card + 1 = live.card := Finset.card_erase_add_one (h.under k under)
  rcases next with same | none | ⟨n, before, room, after⟩
  · exact h.of_next kept (by omega) same
  · have few := h.few
    refine ⟨kept, by omega, fun n known => ?_⟩
    cases none.symm.trans known
  · have few := h.few
    refine ⟨kept, by omega, fun n' known => ?_⟩
    obtain rfl := Option.some.inj (after.symm.trans known)
    obtain ⟨c, counts, ahead⟩ := h.next n before
    have value : (n + 1).toNat = n.toNat + 1 := by
      rw [UInt64.toNat_add]
      exact Nat.mod_eq_of_lt room
    exact ⟨c, counts, by omega⟩

/-- **A step keeps `next` in reach of the chain.** -/
theorem Reserved.step (h : Reserved desk sends w live) (run : Run desk w)
    (step : Step desk w w') :
    (∃ live', Reserved desk sends w' live') ∨
      Begun w w' ∧ ∃ live', Reserved desk (sends + 1) w' live' := by
  obtain ⟨k, others, turn⟩ := step.turn
  -- A step changes the send of one task only, `k`; the others are as they were.
  have kept (still : (w'.send? k).isSome = true → (w.send? k).isSome = true) (k' : Nat)
      (here : (w'.send? k').isSome = true) : k' ∈ live := by
    by_cases own : k' = k
    · subst own
      exact h.under k' (still here)
    · rw [others k' own] at here
      exact h.under k' here
  generalize before : w.send? k = s?, after : w'.send? k = s?', slots : w'.leases = l' at turn
  cases turn with
  | rests next =>
    refine .inl ⟨live, h.of_next (kept fun here => ?_) (Nat.le_refl _) ?_⟩
    · rw [before]
      rwa [after] at here
    · rw [slots]
      exact next _
  | begins call now =>
    exact .inr ⟨⟨k, before, by rw [after]; rfl⟩, _, h.begins others slots⟩
  | reschedules order =>
    refine .inl ⟨live, h.of_next (kept fun _ => ?_) (Nat.le_refl _) (by rw [slots])⟩
    rw [before]
    rfl
  | advances step =>
    obtain ⟨call, trail, own⟩ := run.sends (sends_of_send? before)
    obtain ⟨calls, noted⟩ := Send.exists_calls step
    have under := kept fun _ => by rw [before]; rfl
    refine .inl ⟨live, ?_⟩
    rcases (Send.move_of_noted noted).next_of_running own.served desk.signer.address with
      same | ⟨c, counts, read⟩
    · exact h.of_next under (Nat.le_refl _) (by rw [slots]; exact same)
    · -- A nonce just read from the chain is the chain's own count.
      refine ⟨under, h.few, fun n known => ⟨c, counts, ?_⟩⟩
      rw [slots] at known
      obtain rfl := Option.some.inj (known.symm.trans read)
      exact Nat.add_le_add_left h.few _
  | @ends s _ _ _ _ _ _ step =>
    obtain ⟨calls, noted⟩ := Send.exists_calls step
    refine .inl ⟨_, h.ends others (by rw [before]; rfl) after ?_⟩
    rw [slots]
    have known (lease : Lease) (leased : s.lease? = some lease) :=
      run.next_of_lease before leased
    rcases (Send.move_of_noted noted).next_of_ended known with same | none | ⟨lease, leased, used⟩
    · exact .inl same
    · exact .inr (.inl none)
    · exact .inr (.inr ⟨lease.nonce, (known lease leased).2, used⟩)
  | drops =>
    refine .inl ⟨_, h.ends others (by rw [before]; rfl) after (.inl ?_)⟩
    rw [slots]
    exact Send.next_abandon ..

/-- **`next` is never further ahead of the chain than there were sends.** -/
theorem Course.reserved (course : Course desk sends rounds w) :
    ∃ live, Reserved desk sends w live := by
  induction course with
  | opened =>
    refine ⟨∅, fun k here => ?_, Nat.le_refl _, fun n known => by cases known⟩
    cases k <;> cases here
  | begins course step _ ih =>
    obtain ⟨live, reserved⟩ := ih
    rcases reserved.step course.run step with ⟨live', same⟩ | ⟨-, more⟩
    · exact ⟨live', same.succ⟩
    · exact more
  | advances course step none ih =>
    obtain ⟨live, reserved⟩ := ih
    rcases reserved.step course.run step with same | ⟨begun, -⟩
    · exact same
    · exact absurd begun none

/-- **The nonce of a send is not the last one**, where the chain leaves room for as many as there
    were sends. -/
theorem Course.room (course : Course desk sends rounds w)
    (counts : ∀ c, desk.Counts c → c.toNat + sends < UInt64.size - 1)
    (here : w.send? k = some s) (leased : s.lease? = some lease) :
    lease.nonce.toNat + 1 < UInt64.size := by
  obtain ⟨live, reserved⟩ := course.reserved
  -- The send itself is under way, so the nonces of all sends have not been used up yet.
  have under : 0 < live.card :=
    Finset.card_pos.mpr ⟨k, reserved.under k (by rw [here]; rfl)⟩
  obtain ⟨c, given, ahead⟩ := reserved.next _ (course.run.next_of_lease here leased).2
  have room := counts c given
  omega

/-! ### Places in the queue -/

/-- A step in a house keeps the capacity of the queue. -/
theorem Step.capacity_eq (step : Step desk w w') : w'.queue.capacity = w.queue.capacity := by
  cases step with
  | handles handling => exact handling.capacity_eq
  | works step => exact (Queue.move_of_step step).capacity_eq
  | @visits k r _ =>
    show (Visit.start desk r w.leases w.queue).2.2.capacity = _
    rcases Visit.queue_of_start desk r w.leases w.queue with same | handling
    · rw [same]
    · exact handling.capacity_eq
  | @abandons k v _ => cases v <;> rfl
  | _ => rfl

/-- It is the one of the policy. -/
theorem Course.capacity_eq (valid : desk.policy.validate = .ok ())
    (course : Course desk sends rounds w) :
    w.queue.capacity = desk.policy.bufferSize.toNat := by
  induction course with
  | opened => exact Nat.max_eq_left (Policy.bufferSize_pos valid)
  | begins _ step _ ih | advances _ step _ ih => exact step.capacity_eq.trans ih

/-! ### All together -/

/-- The tickers of an escalation have periods, its tracker has not stopped unless `confirmed` is in
    the inbox, and all that it computes next is in range. -/
structure Healthy (desk : Desk σ) (lease : Lease) (e : Escalation) : Prop where
  period : 0 < e.ticker.period
  rounds : 0 < e.tracker.ticker.period
  unbroken : e.tracker.stage ≠ .broken
  closed : e.tracker.isClosed = true → ∃ receipt, .confirmed receipt ∈ e.inbox
  bid : e.book.bid.toNat * desk.policy.bumpPercent.toNat < Amount.size
  attempt : e.book.attempt + 1 < UInt32.size
  published : e.book.published + 1 < UInt64.size
  tooLow : e.book.tooLow + 1 < UInt32.size
  nonce : lease.nonce.toNat + 1 < UInt64.size

/-- **No send of a house breaks down**, where nobody outside does and there is room to count. -/
theorem Course.sound (valid : desk.policy.validate = .ok ())
    (ceiling : desk.policy.maxGasPrice.toNat < 2 ^ 94) (steady : desk.Steady)
    (course : Course desk sends rounds w)
    (counts : ∀ c, desk.Counts c → c.toNat + sends < UInt64.size - 1)
    (few : ∀ k, rounds k < UInt32.size - 1) (here : w.send? k = some s) {cancelled : Bool}
    {now : Nat} {outside outside' : σ} {why : Stop} {l : Leases}
    (step : s.step desk cancelled now w.leases outside =
      some (.ended (.error why), l, outside')) : why.isBreakdown = false := by
  obtain ⟨call, trail, run⟩ := course.run.sends (sends_of_send? here)
  obtain ⟨calls, noted⟩ := Send.exists_calls step
  refine Bool.eq_false_iff.mpr fun bad => ?_
  refine run.unbroken valid steady ceiling (course.metered valid k s here) ?_ ?_
    (Send.breakdown_of_step bad noted)
  · exact Nat.lt_of_lt_of_le (few k) (Nat.sub_le _ 1)
  · intro lease leased
    exact course.room counts here leased

/-- **The worker steps its send or answers its caller**, and is there for the next one. -/
theorem serves_of_step {q : Queue} {t : Ticket} {now : Nat} {outside outside' : σ} {l : Leases}
    (sound : ∀ {why l outside'},
      s.step desk w.queue.shutdown now w.leases outside = some (.ended (.error why), l, outside') →
        why.isBreakdown = false)
    (sending : w.queue.worker = .sending t s)
    (step : w.queue.step desk now w.leases outside = some (q, l, outside')) :
    (∃ s', q.worker = .sending t s') ∨
      q.worker = .idle ∧ ∃ answer : Except Failure Receipt,
        q.answers = w.queue.answers ++ [(t, answer)] ∧
        ∀ text, answer ≠ .error (.internal text) := by
  rcases Queue.step_cases step with ⟨idle, -⟩ | ⟨_, _, idle, -⟩ | ⟨t', s', out, same, inner, rfl⟩
  · cases idle.symm.trans sending
  · cases idle.symm.trans sending
  · cases same.symm.trans sending
    match out with
    | .running s' => exact .inl ⟨s', rfl⟩
    | .ended (.ok receipt) => exact .inr ⟨rfl, .ok receipt, rfl, by simp⟩
    | .ended (.error (.failure f)) =>
      refine .inr ⟨rfl, .error f, rfl, ?_⟩
      rintro text ⟨⟩
      cases sound inner
    | .ended (.error (.fault f)) => cases sound inner

/-- **Every escalation of a house is healthy**, where there is room to count. -/
theorem Course.healthy (valid : desk.policy.validate = .ok ())
    (ceiling : desk.policy.maxGasPrice.toNat < 2 ^ 94)
    (tolerance : desk.policy.nonceTolerance < UInt32.size) (course : Course desk sends rounds w)
    (counts : ∀ c, desk.Counts c → c.toNat + sends < UInt64.size - 1)
    (few : ∀ k, rounds k < UInt32.size - 1) (here : w.send? k = some s) {e : Escalation}
    (phase : s.phase = .escalating lease e) : Healthy desk lease e := by
  obtain ⟨call, trail, run⟩ := course.run.sends (sends_of_send? here)
  have sturdy := (run.escalation phase).sturdy valid
  obtain ⟨attempt, published⟩ := course.metered valid k s here lease e phase
  have within := few k
  -- `tooLow` never exceeds the tolerance.
  obtain ⟨log, tally⟩ := Send.Tally.of_run run
  have low := (tally.counted valid).below
  rw [← (tally.counted valid).tooLow lease e phase] at low
  exact
    { period := by
        rw [sturdy.period]
        exact Policy.resubmitAfter_pos valid
      rounds := by
        rw [sturdy.rounds]
        exact Policy.receiptInterval_pos valid
      unbroken := sturdy.unbroken
      closed := sturdy.closed
      bid := run.raise_lt valid ceiling phase
      attempt := by omega
      published := by
        have smaller : UInt32.size < UInt64.size := by decide
        omega
      tooLow := Nat.lt_of_le_of_lt low tolerance
      nonce := course.room counts here (by rw [Send.lease?, phase]) }

/-- **A house endures, whatever its sends meet.**  Take settings that are accepted, with a buffer
    that can be allocated, and any node and signer that do not break down themselves, whatever else
    they answer.  Let the node leave room for as many nonces as there were sends, and let no
    resubmission ticker have ticked as often as attempts can be counted.  Then:
    * the capacity of the queue is in range;
    * a step of the worker steps its send or answers its caller, and leaves the worker there for the
      next;
    * no send ends in a fault or with `internal`;
    * every escalation is healthy. -/
theorem Course.endures {settings : PolicySettings}
    (accepted : settings.toPolicy = .ok desk.policy) (buffer : settings.bufferSize.toNat < 2 ^ 61)
    (steady : desk.Steady) (course : Course desk sends rounds w)
    (counts : ∀ c, desk.Counts c → c.toNat + sends < 2 ^ 64 - 1)
    (few : ∀ k, rounds k < 2 ^ 32 - 1) :
    (0 < w.queue.capacity ∧ w.queue.capacity < 2 ^ 61) ∧
    (∀ now outside q l outside',
      w.queue.step desk now w.leases outside = some (q, l, outside') →
      ∀ t s, w.queue.worker = .sending t s →
        (∃ s', q.worker = .sending t s') ∨
        q.worker = .idle ∧ ∃ answer : Except Failure Receipt,
          q.answers = w.queue.answers ++ [(t, answer)] ∧
          ∀ text, answer ≠ .error (.internal text)) ∧
    ∀ k s, w.send? k = some s →
      (∀ cancelled now outside why l outside',
        s.step desk cancelled now w.leases outside = some (.ended (.error why), l, outside') →
        why.isBreakdown = false) ∧
      ∀ lease e, s.phase = .escalating lease e → Healthy desk lease e := by
  obtain ⟨meant, valid⟩ := settings.toPolicy_ok accepted
  have ceiling := settings.ceiling_lt accepted
  refine ⟨?_, ?_, fun k s here => ⟨?_, fun lease e phase => ?_⟩⟩
  · rw [course.capacity_eq valid, meant]
    refine ⟨?_, buffer⟩
    have place := Policy.bufferSize_pos valid
    rwa [meant] at place
  · intro now outside q l outside' step t s sending
    have here : w.send? 0 = some s := by simp [send?, Queue.send?, sending]
    exact serves_of_step (course.sound valid ceiling steady counts few here) sending step
  · intro cancelled now outside why l outside' step
    exact course.sound valid ceiling steady counts few here step
  · have tolerance : desk.policy.nonceTolerance < UInt32.size := by
      rw [meant]
      exact settings.nonceTolerance.toNat_lt
    exact course.healthy valid ceiling tolerance counts few here phase

/-! ### A call in the queue -/

end House

/-- The desk of an errand in a service with default settings. -/
def Send.Errand.plain (x : Errand) : Desk Unit :=
  { x.desk with policy := PolicySettings.standard.meaning }

/-- It is steady. -/
theorem Send.Errand.steady_plain (x : Errand) : x.plain.Steady where
  nonce _ _ _ _ := nofun
  estimate _ _ _ _ := nofun
  gasPrice _ _ _ := nofun
  sign _ _ _ _ _ := nofun
  gas _ _ _ _ answer := by
    cases answer
    decide

namespace House

/-- A house where one call waits in the queue. -/
def awaited : House :=
  { opened 10 with queue := ((Queue.ofBuffer 10).offer Send.Errand.bare.call).2 }

/-- The worker has taken it. -/
def employed : House :=
  { awaited with
    queue :=
      { awaited.queue with
        buffer := []
        worker := .sending 0 (.start PolicySettings.standard.meaning Send.Errand.bare.call 0) } }

/-- **The worker outlives the first call** that is queued in a service with default settings,
    whatever moment it is, and whatever comes of the send. -/
theorem Course.endures_first : ∃ rounds,
    Course Send.Errand.bare.plain 1 rounds employed ∧
    employed.queue.worker =
      .sending 0 (.start PolicySettings.standard.meaning Send.Errand.bare.call 0) ∧
    ∀ now outside q l outside',
      employed.queue.step Send.Errand.bare.plain now employed.leases outside =
        some (q, l, outside') → q.worker ≠ .stopped := by
  have idle (k : Nat) : awaited.send? k = none := by cases k <;> rfl
  have accepted : PolicySettings.standard.toPolicy = .ok Send.Errand.bare.plain.policy := rfl
  obtain ⟨rounds, came⟩ : ∃ rounds, Course Send.Errand.bare.plain 0 rounds awaited := by
    refine ⟨_, Course.opened.advances (.handles (.offers Send.Errand.bare.call)) ?_⟩
    rintro ⟨k, -, begun⟩
    cases k <;> cases begun
  have taken : Course Send.Errand.bare.plain 1
      (fun k => Send.metBy (rounds k) (awaited.send? k) (employed.send? k)) employed :=
    came.begins (.works (rfl : Queue.step _ 0 awaited.queue _ () = some (employed.queue, _, ())))
      ⟨0, rfl, rfl⟩
  have counts (c : UInt64) (given : Send.Errand.bare.plain.Counts c) :
      c.toNat + 1 < 2 ^ 64 - 1 := by
    obtain ⟨now, outside, ⟨⟩⟩ := given
    decide
  have few (k : Nat) :
      Send.metBy (rounds k) (awaited.send? k) (employed.send? k) < 2 ^ 32 - 1 := by
    rw [idle]
    exact Nat.zero_lt_succ _
  obtain ⟨-, worker, -⟩ :=
    Course.endures accepted (by decide) Send.Errand.bare.steady_plain taken counts few
  refine ⟨_, taken, rfl, fun now outside q l outside' step stopped => ?_⟩
  rcases worker now outside q l outside' step _ _ rfl with ⟨s', healthy⟩ | ⟨done, -⟩
  · cases stopped.symm.trans healthy
  · cases stopped.symm.trans done

end House

end Relayer
