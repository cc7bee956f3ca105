import Relayer.Proofs.Leases.Office

namespace Relayer

/-!
# Settlement — what a send leaves behind

A send has many ways to end, in every phase and by every hand.  Whichever it is, its ticket is gone
from the slots afterwards, and `next` is what its end makes of the leased nonce: `n + 1` behind a
receipt, unknown behind `nonceStale`, `n` otherwise.

* `Lease.NextAfter` — `next` behind the end of a send;
* `Send.Move.ended_cases` — the ends of a send that has a lease;
* `Office.SendStep.next_kept` — a send that was granted no lease changes no `next`;
* `Office.SendStep.aftermath` — what a send leaves behind, however it ends.
-/

variable {σ : Type}

/-! ### Notes of the next nonce -/

/-- `next` behind the end of a send: a receipt commits the leased nonce, `nonceStale` resyncs it,
    and every other end releases it. -/
def Lease.NextAfter (lease : Lease) (next : Option UInt64) : Send.Event → Prop
  | .ended (.ok _) => lease.nonce.toNat + 1 < UInt64.size ∧ next = some (lease.nonce + 1)
  | .ended (.error (.failure (.nonceStale _ _))) => next = none
  | _ => next = some lease.nonce

/-- The estimates and suggestions of a node never fail with `nonceStale`. -/
structure Chain.NeverStale (chain : Chain σ) : Prop where
  estimate : ∀ t now outside n k, (chain.estimate t now outside).1.answer ≠
    .error (.nonceStale n k)
  gasPrice : ∀ now outside n k, (chain.gasPrice now outside).1.answer ≠ .error (.nonceStale n k)

/-- A prompt node always has an estimate and a suggestion. -/
theorem Chain.neverStale_prompt (account : Address) (write : Transaction → List UInt8) :
    (Desk.prompt account write).chain.NeverStale where
  estimate _ _ _ _ _ stale := by cases stale
  gasPrice _ _ _ _ stale := by cases stale

/-- `release` changes no `next`. -/
theorem Lease.next_release (lease : Lease) (l : Leases) (a : Address) :
    ((lease.release l).slot a).next = (l.slot a).next := by
  rw [release, Leases.slot_leave]
  split
  next same => rw [Slot.drop_next, same]
  next => rfl

/-- An end without a receipt that is not `nonceStale` leaves the leased nonce in `next`. -/
theorem Lease.nextAfter_release {lease : Lease} {l : Leases}
    (known : (l.slot lease.account).next = some lease.nonce) {why : Stop}
    (not_stale : ∀ n k, why ≠ .failure (.nonceStale n k)) :
    lease.NextAfter ((lease.release l).slot lease.account).next (.ended (.error why)) := by
  have released := (lease.next_release l lease.account).trans known
  match why with
  | .fault f => exact released
  | .failure f =>
    cases f
    case nonceStale n k => exact absurd rfl (not_stale n k)
    all_goals exact released

/-- A release behind a `note` leaves what was noted. -/
theorem Lease.next_release_note (lease : Lease) (l : Leases) (next : Option UInt64) :
    ((lease.release (l.note lease.account next)).slot lease.account).next = next := by
  rw [slot_release_note, if_pos rfl]

/-- A move that neither has nor gets a lease changes no `next`. -/
theorem Stake.Move.next_of_unleased {l l' : Leases} {st st' : Stake} (move : Move l st l' st')
    (unleased : ∀ lease, st ≠ .leased lease) (unleased' : ∀ lease, st' ≠ .leased lease)
    (a : Address) : (l'.slot a).next = (l.slot a).next := by
  cases move with
  | stays | reads _ _ => rfl
  | joins b =>
    rw [Leases.slot_ask]
    split
    next same => rw [Slot.join_next, same]
    next => rfl
  | inherits _ _ => rfl
  | learns => exact absurd rfl (unleased' _)
  | @leaves _ b t _ => exact Lease.next_release ⟨b, t, 0⟩ l a
  | commits _ | resyncs => exact absurd rfl (unleased _)

/-- A move that keeps its lease changes no `next`. -/
theorem Stake.Move.next_of_staying {l l' : Leases} {st st' : Stake} {a : Address}
    (move : Move l st l' st') (kept : ∀ lease, st = .leased lease → st' ≠ .idle)
    (waits : ∀ t, st ≠ .reading a t) : (l'.slot a).next = (l.slot a).next := by
  cases move with
  | stays | reads _ _ | inherits _ _ => rfl
  | joins b =>
    rw [Leases.slot_ask]
    split
    next same => rw [Slot.join_next, same]
    next => rfl
  | @learns b t nonce =>
    rw [Leases.slot_note, if_neg]
    rintro rfl
    exact waits t rfl
  | @leaves _ b t _ => exact Lease.next_release ⟨b, t, 0⟩ l a
  | commits _ | resyncs => exact absurd rfl (kept _ rfl)

/-- A nonce that has room behind it is followed by the next number. -/
theorem Lease.toNat_next {lease : Lease} (room : lease.nonce.toNat + 1 < UInt64.size) :
    (lease.nonce + 1).toNat = lease.nonce.toNat + 1 := by
  rw [UInt64.toNat_add]
  exact Nat.mod_eq_of_lt room

/-- Only `nonceStale` forgets `next` or lowers it. -/
theorem Lease.NextAfter.mono {lease : Lease} {next : Option UInt64} {e : Send.Event}
    (h : lease.NextAfter next e) (not_stale : e.isStale = false) :
    ∃ n, next = some n ∧ lease.nonce.toNat ≤ n.toNat := by
  unfold NextAfter at h
  split at h
  next => exact ⟨lease.nonce + 1, h.2, by rw [Lease.toNat_next h.1]; omega⟩
  next => cases not_stale
  next => exact ⟨lease.nonce, h, Nat.le_refl _⟩

/-! ### The ends of one send -/

/-- `cancelled` and `timedOut` are not `nonceStale`. -/
theorem Limits.verdict_ne_stale {limits : Limits} {now : Nat} {f : Failure}
    (h : limits.verdict now = some f) (n : UInt64) (k : Nat) : f ≠ .nonceStale n k := by
  rcases Limits.verdict_cases h with rfl | rfl <;> exact nofun

/-- A retried call fails with `nonceStale` only where the node does. -/
theorem Retry.Move.not_stale {α : Type} {note : Pending (Except Failure α) → Inquiry}
    {ask : Call.Effect σ (Except Failure α)} {limits : Limits} {now : Nat} {r : Retry α}
    {calls : List Inquiry} {f : Failure} (move : Move note ask limits now r calls (.failed f))
    (never : ∀ now outside n k, (ask now outside).1.answer ≠ .error (.nonceStale n k))
    (asked : ∀ reply, r = .asking reply → ∃ now outside, reply = (ask now outside).1)
    (n : UInt64) (k : Nat) : f ≠ .nonceStale n k := by
  cases move with
  | stops verdict => exact Limits.verdict_ne_stale verdict n k
  | fails ready _ =>
    rintro rfl
    obtain ⟨now, outside, rfl⟩ := asked _ rfl
    exact never now outside n k (Pending.answer_of_ready ready)

namespace Send

variable {desk : Desk σ} {limits : Limits} {now : Nat} {s s' : Send} {l l' : Leases}
  {calls : List Inquiry} {call : Call} {trail : List Event} {lease : Lease}
  {result : Except Stop Receipt}

/-- The reply that a retried call waits for is one that the node gives. -/
def Asked (desk : Desk σ) (s : Send) : Prop :=
  match s.phase with
  | .estimating _ (.asking reply) =>
    ∃ now outside, reply = (desk.chain.estimate (s.call.toEstimate desk.signer.address) now
      outside).1
  | .pricing _ _ (.asking reply) => ∃ now outside, reply = (desk.chain.gasPrice now outside).1
  | _ => True

/-- Every reply that a send waits for is one that the node gives. -/
theorem Run.asked (run : Run desk call trail s) : s.Asked desk := by
  refine run.induction (P := fun _ s => s.Asked desk) (fun _ => trivial) ?_ ?_
  · rintro _ s s' _ ⟨lease, e, turn, outstanding, phase, -, rfl⟩
    trivial
  · intro _ s s' limits now l l' calls _ move
    cases move with
    | joins _ | reads _ _ _ _ | retries _ _ _ | resumes _ _ | pads _ _ _ | bids _ _ _
    | escalates _ _ => trivial
    | inherits _ _ _ | learns _ _ =>
      cases own : s.call.gasLimit <;> simp [Asked, afterLease, own]
    | estimates _ move =>
      rcases move.calls_eq with rfl | ⟨reply, -, genuine, same⟩
      · cases move <;> trivial
      · cases same
        exact genuine
    | prices _ move =>
      rcases move.calls_eq with rfl | ⟨reply, -, genuine, same⟩
      · cases move <;> trivial
      · cases same
        exact genuine

/-- **The ends of a send that has a lease.**  It releases it before the escalation, or `settle`
    decides at the end of the escalation. -/
theorem Move.ended_cases (move : Move desk limits now s l calls (.ended result) l')
    (leased : s.lease? = some lease) :
    (l' = lease.release l ∧ ∃ why, result = .error why ∧
      (desk.chain.NeverStale → s.Asked desk → ∀ n k, why ≠ .failure (.nonceStale n k))) ∨
    ∃ r, result = (settle lease r l).1 ∧ l' = (settle lease r l).2 := by
  cases move with
  | fails phase _ _ | leaves phase _ | stops phase _ =>
    rw [lease?, phase] at leased
    cases leased
  | unestimated phase move =>
    obtain rfl : _ = lease := by simpa [lease?, phase] using leased
    refine .inl ⟨rfl, _, rfl, fun never asked n k => ?_⟩
    -- The failure is one of the node's, or of a limit, and neither is about a nonce.
    rw [Asked, phase] at asked
    rw [ne_eq, Stop.failure.injEq]
    refine move.not_stale (never.estimate _) ?_ n k
    rintro reply rfl
    exact asked
  | unpriced phase move =>
    obtain rfl : _ = lease := by simpa [lease?, phase] using leased
    refine .inl ⟨rfl, _, rfl, fun never asked n k => ?_⟩
    rw [Asked, phase] at asked
    rw [ne_eq, Stop.failure.injEq]
    refine move.not_stale never.gasPrice ?_ n k
    rintro reply rfl
    exact asked
  | overflows leased' =>
    obtain rfl := Option.some.inj (leased'.symm.trans leased)
    exact .inl ⟨rfl, _, rfl, fun _ _ n k => by simp⟩
  | settles phase _ =>
    obtain rfl : _ = lease := by simpa [lease?, phase] using leased
    exact .inr ⟨_, rfl, rfl⟩

/-- `settle` leaves the `next` that its result calls for. -/
theorem nextAfter_of_settle (r : Except Stop Receipt)
    (known : (l.slot lease.account).next = some lease.nonce) :
    lease.NextAfter (((settle lease r l).2).slot lease.account).next
      (.ended (settle lease r l).1) := by
  unfold settle
  split
  next receipt =>
    cases committed : lease.commit l with
    | ok l' =>
      obtain ⟨room, rfl⟩ := Lease.commit_ok committed
      exact ⟨room, lease.next_release_note l _⟩
    | error f => exact Lease.nextAfter_release known (by simp)
  next => exact lease.next_release_note l _
  next why other =>
    refine Lease.nextAfter_release known ?_
    rintro n k rfl
    exact other n k rfl

/-- **However a send ends, `next` is `NextAfter` its end.** -/
theorem Move.nextAfter (move : Move desk limits now s l calls (.ended result) l')
    (never : desk.chain.NeverStale) (asked : s.Asked desk) (leased : s.lease? = some lease)
    (known : (l.slot lease.account).next = some lease.nonce) :
    lease.NextAfter (l'.slot lease.account).next (.ended result) := by
  rcases move.ended_cases leased with ⟨rfl, why, rfl, not_stale⟩ | ⟨r, rfl, rfl⟩
  · exact Lease.nextAfter_release known (not_stale never asked)
  · exact nextAfter_of_settle r known

/-- A send that is dropped releases its lease. -/
theorem abandon_of_lease {account : Address} (leased : s.lease? = some lease) :
    s.abandon account l = lease.release l := by
  unfold lease? at leased
  unfold abandon
  split at leased
  next => cases leased
  all_goals
    next phase =>
      obtain rfl := Option.some.inj leased
      simp only [phase]

end Send

/-! ### Sends in an office -/

namespace Office

variable {desk : Desk σ} {shared : Bool} {history : List (Nat × Send.Event)} {w w' : Office}
  {id : Nat} {shown : List Send.Event} {lease : Lease}

/-- A send that has a lease was granted it. -/
theorem Run.granted_of_lease (run : Run desk shared history w) {s : Send}
    (here : w.client id = .sending s) (leased : s.lease? = some lease) :
    (id, .granted lease) ∈ history := by
  have shows := run.hasTrail id
  rw [here] at shows
  obtain ⟨call, own⟩ := shows
  have granted := own.granted_eq
  rw [leased] at granted
  have mem : lease ∈ Send.granted (trailOf history id) := by simp [granted]
  obtain ⟨e, listed, same⟩ := List.mem_filterMap.mp mem
  cases e <;> cases same
  exact mem_trailOf.mp listed

/-- A send that was granted a lease has it until its end. -/
theorem Run.lease_of_granted (run : Run desk shared history w) {s : Send}
    (here : w.client id = .sending s) (listed : (id, .granted lease) ∈ history) :
    s.lease? = some lease ∧ lease.account = desk.signer.address := by
  have shows := run.hasTrail id
  rw [here] at shows
  obtain ⟨call, own⟩ := shows
  have mem : lease ∈ Send.granted (trailOf history id) :=
    List.mem_filterMap.mpr ⟨.granted lease, mem_trailOf.mpr listed, rfl⟩
  rw [own.granted_eq, Option.mem_toList] at mem
  exact ⟨mem, own.lease_account mem⟩

/-- The nonce of a lease that a send has is `next` of the account. -/
theorem Run.known (run : Run desk shared history w) {s : Send} (here : w.client id = .sending s)
    (leased : s.lease? = some lease) :
    (w.leases.slot lease.account).next = some lease.nonce := by
  refine (run.sound.holds id lease.account lease.ticket (some lease.nonce) ?_).2
  rw [Office.stake, here, Client.stake, Send.stake_eq_leased.mpr leased]
  rfl

/-- A send that was granted no lease changes no `next`. -/
theorem SendStep.next_kept (step : SendStep desk w id shown w') (run : Run desk shared history w)
    (none : ∀ lease, (id, .granted lease) ∉ history ++ shown.map (id, ·)) (a : Address) :
    (w'.leases.slot a).next = (w.leases.slot a).next := by
  have unleased {s : Send} (here : w.client id = .sending s) (lease : Lease) :
      s.stake desk.signer.address ≠ .leased lease := fun leased =>
    none lease (List.mem_append_left _
      (run.granted_of_lease here (Send.stake_eq_leased.mp leased)))
  cases step with
  | starts _ | reschedules _ _ => rfl
  | @advances s s' _ _ _ _ _ _ here step =>
    have next : Run desk shared _ _ := run.send (.advances here step)
    refine (Send.move_of_noted step).stake.next_of_unleased (unleased here) ?_ a
    intro lease leased
    exact none lease (next.granted_of_lease (client_put_self ..) (Send.stake_eq_leased.mp leased))
  | ends here step =>
    exact (Send.move_of_noted step).stake.next_of_unleased (unleased here)
      (fun _ idle => by cases idle) a
  | drops here =>
    exact (Send.stake_of_abandon _ _ _).next_of_unleased (unleased here) (by simp) a

/-- A send that ends is gone. -/
theorem SendStep.gone (step : SendStep desk w id shown w') {e : Send.Event} (listed : e ∈ shown)
    (isOver : e.isOver = true) : w'.client id = .gone := by
  cases step with
  | starts _ | reschedules _ _ => cases listed
  | advances _ _ =>
    rw [Send.not_over_of_running listed] at isOver
    cases isOver
  | ends _ _ | drops _ => exact client_put_self ..

/-- Every ticket is that of a client that is still there. -/
theorem Run.others_ticket (run : Run desk shared history w) (gone : w.client id = .gone)
    {a : Address} {t : Ticket} (listed : t ∈ (w.leases.slot a).tickets) :
    ∃ other, other ≠ id ∧ (w.stake desk.signer.address other).ticket? = some (a, t) := by
  obtain ⟨other, claim⟩ := (run.sound.claimed a t).mp listed
  refine ⟨other, ?_, claim⟩
  rintro rfl
  rw [Office.stake, gone] at claim
  cases claim

/-- The end of a send leaves the `next` that it calls for. -/
theorem SendStep.lease_nextAfter (step : SendStep desk w id shown w')
    (never : desk.chain.NeverStale) (run : Run desk shared history w)
    (listed : (id, .granted lease) ∈ history) {e : Send.Event} (shows : e ∈ shown)
    (isOver : e.isOver = true) :
    lease.account = desk.signer.address ∧
      lease.NextAfter (w'.leases.slot lease.account).next e := by
  cases step with
  | starts _ | reschedules _ _ => cases shows
  | advances _ _ =>
    rw [Send.not_over_of_running shows] at isOver
    cases isOver
  | @ends s result _ _ _ _ _ calls here step =>
    obtain ⟨leased, account⟩ := run.lease_of_granted here listed
    have asked : s.Asked desk := by
      have own := run.hasTrail id
      rw [here] at own
      obtain ⟨call, own⟩ := own
      exact own.asked
    -- The end is the last thing that is shown, behind the calls.
    obtain rfl : e = .ended result := by
      rcases List.mem_append.mp shows with call | last
      · obtain ⟨i, -, rfl⟩ := List.mem_map.mp call
        cases isOver
      · exact List.mem_singleton.mp last
    exact ⟨account, (Send.move_of_noted step).nextAfter never asked leased (run.known here leased)⟩
  | @drops s here =>
    obtain ⟨leased, account⟩ := run.lease_of_granted here listed
    obtain rfl := List.mem_singleton.mp shows
    refine ⟨account, ?_⟩
    show ((s.abandon desk.signer.address w.leases).slot lease.account).next = some lease.nonce
    rw [Send.abandon_of_lease leased, lease.next_release]
    exact run.known here leased

/-- **What a send leaves behind**, whoever else uses the slots.  While it has been granted no lease,
    no step of it changes any `next`.  When it ends or is dropped, no ticket in any slot is its own,
    and `next` is `NextAfter` its end: the leased nonce plus one behind a receipt, unknown behind
    `nonceStale`, the leased nonce itself otherwise. -/
theorem SendStep.aftermath (never : desk.chain.NeverStale) (run : Run desk true history w)
    (step : SendStep desk w id shown w') :
    ((∀ lease, (id, .granted lease) ∉ history ++ shown.map (id, ·)) →
      ∀ account, (w'.leases.slot account).next = (w.leases.slot account).next) ∧
    ∀ e ∈ shown, e.isOver = true →
      (∀ account, ∀ t ∈ (w'.leases.slot account).tickets, ∃ other, other ≠ id ∧
        (w'.stake desk.signer.address other).ticket? = some (account, t)) ∧
      ∀ lease, (id, .granted lease) ∈ history → lease.account = desk.signer.address ∧
        lease.NextAfter (w'.leases.slot lease.account).next e := by
  refine ⟨fun none account => step.next_kept run none account, ?_⟩
  intro e shows isOver
  refine ⟨fun account t listed => ?_, fun lease listed => ?_⟩
  · exact (run.send step).others_ticket (step.gone shows isOver) listed
  · exact step.lease_nextAfter never run listed shows isOver

/-- A send that leases 7 and returns a receipt leaves `next = 8`, and no ticket of its own. -/
theorem SendStep.next_eight : ∃ (history : List (Nat × Send.Event)) (w w' : Office),
    Run Send.Errand.bare.desk true history w ∧
    SendStep Send.Errand.bare.desk w 0 [.ended (.ok Send.Errand.bare.receipt)] w' ∧
    (∀ account, ∀ t ∈ (w'.leases.slot account).tickets, ∃ other, other ≠ 0 ∧
      (w'.stake Send.Errand.bare.desk.signer.address other).ticket? = some (account, t)) ∧
    (w'.leases.slot Send.Errand.bare.lease.account).next = some 8 := by
  have begun : Run Send.Errand.bare.desk true [] .opened := .opened
  have absent : Office.opened.client 0 = .absent := rfl
  obtain ⟨calls, v, w', run, step, -, -⟩ :=
    begun.prompt absent Send.Errand.bare_fits (by decide)
  have granted : (0, .granted Send.Errand.bare.lease) ∈
      [] ++ (Send.Errand.bare.trail calls).map ((0 : Nat), ·) :=
    List.mem_map_of_mem Send.Errand.granted_mem_trail
  obtain ⟨-, after⟩ := step.aftermath (Chain.neverStale_prompt _ _) run
  obtain ⟨gone, settled⟩ := after _ (List.mem_singleton_self _) rfl
  obtain ⟨-, -, next⟩ := settled _ granted
  exact ⟨_, v, w', run, step, gone, next⟩

end Office

end Relayer
