import Relayer.Proofs.Gateway.House
import Relayer.Proofs.Send.Prompt

namespace Relayer

/-!
# Status — what `/status` says of a send in progress, and when

The request first peeks at the next nonce, for which it waits for the lock like every lease, and
only then asks `isLeased`.  So it is not answered as long as a send has a lease, and what it then
reports as `send_in_progress` is not that send.

* `Leases.isLeased_leave` — whether the lock is held once the holder has left;
* `House.Run.unheld_of_peeking` — a request that holds the lock finds no lease;
* `House.Run.status` — when `/status` is answered, and what it says.
-/

variable {σ : Type}

/-! ### The right after a look -/

/-- Once the holder has left, the lock is held if a ticket was in line. -/
theorem Leases.isLeased_leave {l : Leases} {a : Address} {t : Ticket}
    (holder : (l.slot a).holder = some t) :
    (l.leave a t).isLeased a = !(l.slot a).line.isEmpty := by
  rw [isLeased, slot_leave, if_pos rfl, Slot.drop, if_pos holder]
  cases (l.slot a).line <;> rfl

/-- A client that has a ticket and makes no use of the lock waits for it. -/
theorem Stake.eq_waiting {st : Stake} {a : Address} {t : Ticket} (ticket : st.ticket? = some (a, t))
    (unheld : st.hold? = none) : st = .waiting a t := by
  cases st with
  | waiting _ _ =>
    cases ticket
    rfl
  | idle => cases ticket
  | reading _ _ | leased _ => cases unheld

namespace Visit

variable {desk : Desk σ} {l : Leases} {q : Queue} {uptime : Nat} {t : Ticket} {bare : Bool}

/-- A peek without the lock keeps waiting. -/
theorem step_peeking_of_not_holds (waits : (l.slot desk.signer.address).holder ≠ some t) :
    Visit.step desk uptime l q (.peeking t bare) = none := by
  have none : l.holds desk.signer.address t = false := by
    simpa [Leases.holds] using waits
  simp [Visit.step, none]

/-- With the lock it is answered, and says whether a ticket was in line behind it. -/
theorem step_peeking_of_holds (holder : (l.slot desk.signer.address).holder = some t) :
    Visit.step desk uptime l q (.peeking t bare) =
      some (.answered (.fetched bare (Gateway.statusBody desk uptime
          (l.slot desk.signer.address).next (!(l.slot desk.signer.address).line.isEmpty) q)),
        l.leave desk.signer.address t) := by
  simp [Visit.step, Leases.holds_iff.mpr holder, Leases.isLeased_leave holder]

/-- A request for the status gets in line. -/
theorem start_status {r : Request} (route : Gateway.route? r.path = some .status)
    (allowed : Gateway.allows .status r.method = true) :
    Visit.start desk r l q =
      (.peeking l.fresh (r.method == "HEAD"), (l.ask desk.signer.address).2, q) := by
  simp [Visit.start, route, allowed, Leases.ask]

end Visit

namespace House

variable {desk : Desk σ} {w : House} {k : Nat} {t : Ticket} {bare : Bool}

/-- A peek waits in line for the lock. -/
theorem stake_of_peeking (here : w.guest k = .visiting (.peeking t bare)) (account : Address) :
    w.stake account (k + 1) = .waiting account t := by
  rw [House.stake, here]
  rfl

/-- **A peek that holds the lock finds no lease**: while a send has one, the request waits. -/
theorem Run.unheld_of_peeking (run : Run desk w)
    (here : w.guest k = .visiting (.peeking t bare)) {lease : Lease} (held : w.Held lease) :
    (w.leases.slot desk.signer.address).holder ≠ some t := by
  obtain ⟨account, holder, id, leased⟩ := run.holder held
  have waits := stake_of_peeking here desk.signer.address
  intro same
  -- The ticket would be that of two who are not the same.
  obtain rfl : lease.ticket = t := Option.some.inj (holder.symm.trans same)
  have one : id = k + 1 := by
    refine run.sound.alone id (k + 1) desk.signer.address lease.ticket ?_ ?_
    · rw [leased, Stake.ticket?, account]
    · rw [waits]
      rfl
  rw [one, waits] at leased
  cases leased

/-- **A request that arrives while a send has a lease** does not hold the lock. -/
theorem Run.unheld_of_arriving (run : Run desk w) {lease : Lease} (held : w.Held lease) :
    ((w.leases.ask desk.signer.address).2.slot desk.signer.address).holder ≠
      some w.leases.fresh := by
  obtain ⟨-, holder, -⟩ := run.holder held
  have listed : lease.ticket ∈ (w.leases.slot desk.signer.address).tickets := by
    simp [Slot.tickets, holder]
  rw [Leases.slot_ask, if_pos rfl, Slot.holder_join holder]
  intro same
  have old := run.sound.issued desk.signer.address lease.ticket listed
  exact Nat.ne_of_lt old (Option.some.inj same)

/-- The line behind a peek that holds the lock is not empty exactly where another client waits. -/
theorem Run.line_iff (run : Run desk w) (here : w.guest k = .visiting (.peeking t bare))
    (holder : (w.leases.slot desk.signer.address).holder = some t) :
    (!(w.leases.slot desk.signer.address).line.isEmpty) = true ↔
      ∃ id t', id ≠ k + 1 ∧
        w.stake desk.signer.address id = .waiting desk.signer.address t' := by
  have sound := run.sound
  have own := stake_of_peeking here desk.signer.address
  have tickets : (w.leases.slot desk.signer.address).tickets =
      t :: (w.leases.slot desk.signer.address).line := by
    simp [Slot.tickets, holder]
  have nodup := (sound.orderly desk.signer.address).nodup
  rw [tickets, List.nodup_cons] at nodup
  constructor
  · intro some
    obtain ⟨t', behind⟩ := List.exists_mem_of_ne_nil _ (by simpa using some)
    obtain ⟨id, claim⟩ := (sound.claimed desk.signer.address t').mp (by simp [tickets, behind])
    refine ⟨id, t', ?_, Stake.eq_waiting claim ?_⟩
    · rintro rfl
      rw [own] at claim
      cases claim
      exact nodup.1 behind
    · -- A client past the queue is the holder, and the holder here is the peek itself.
      cases hold : (w.stake desk.signer.address id).hold? with
      | none => rfl
      | some x =>
        obtain ⟨a, t'', n⟩ := x
        have same := (Stake.ticket_of_hold hold).symm.trans claim
        cases same
        obtain rfl := Option.some.inj ((sound.holds id _ _ _ hold).1.symm.trans holder)
        exact absurd behind nodup.1
  · rintro ⟨id, t', other, waits⟩
    have listed := (sound.claimed desk.signer.address t').mpr ⟨id, by rw [waits]; rfl⟩
    rw [tickets, List.mem_cons] at listed
    rcases listed with rfl | behind
    · exact absurd (sound.alone id (k + 1) _ _ (by rw [waits]; rfl) (by rw [own]; rfl)) other
    · simpa using List.ne_nil_of_mem behind

/-- **What `/status` says, and when.**  A request that arrives while a send has the lease is not
    answered, nor is one that is there already; and the `send_in_progress` of one that is answered
    does not report a lease, but whether another client waits for one, or for a peek. -/
theorem Run.status (run : Run desk w) (uptime : Nat) :
    (∀ lease, w.Held lease → ∀ r : Request, Gateway.route? r.path = some .status →
      Gateway.allows .status r.method = true → ∀ v l q,
      Visit.start desk r w.leases w.queue = (v, l, q) →
        (∃ t, v = .peeking t (r.method == "HEAD")) ∧ v.step desk uptime l q = none) ∧
    ∀ k t bare, w.guest k = .visiting (.peeking t bare) →
      (∀ lease, w.Held lease →
        Visit.step desk uptime w.leases w.queue (.peeking t bare) = none) ∧
      ∀ v l, Visit.step desk uptime w.leases w.queue (.peeking t bare) = some (v, l) →
        ∃ waits : Bool, v = .answered (.fetched bare (Gateway.statusBody desk uptime
            (w.leases.slot desk.signer.address).next waits w.queue)) ∧
          (waits = true ↔ ∃ id t', id ≠ k + 1 ∧
            w.stake desk.signer.address id = .waiting desk.signer.address t') := by
  refine ⟨?_, ?_⟩
  · intro lease held r route allowed v l q arrives
    rw [Visit.start_status route allowed] at arrives
    cases arrives
    exact ⟨⟨_, rfl⟩, Visit.step_peeking_of_not_holds (run.unheld_of_arriving held)⟩
  · intro k t bare here
    refine ⟨fun lease held => Visit.step_peeking_of_not_holds (run.unheld_of_peeking here held), ?_⟩
    intro v l step
    by_cases holder : (w.leases.slot desk.signer.address).holder = some t
    · rw [Visit.step_peeking_of_holds holder] at step
      cases step
      exact ⟨_, rfl, run.line_iff here holder⟩
    · rw [Visit.step_peeking_of_not_holds holder] at step
      cases step

/-! ### A request in vain -/

/-- A request for the status. -/
def asking : Request := ⟨"GET", "/status", "", none⟩

/-- A house where one send has its lease, and nothing else has happened. -/
def leased : House :=
  (opened 4).put 0 (.sending Send.Errand.bare.opening) (Send.Errand.slotted 0 [] 1) (.ofBuffer 4)

/-- The request has come. -/
def asked : House :=
  leased.put 1 (.visiting (.peeking 1 false)) (Send.Errand.slotted 0 [1] 2) (.ofBuffer 4)

/-- The send is gone. -/
def released : House := asked.put 0 .gone (Send.Errand.slotted 1 [] 2) (.ofBuffer 4)

theorem put_put (w : House) (k : Nat) (g g' : Guest) (l l' : Leases) (q q' : Queue) :
    (w.put k g l q).put k g' l' q' = w.put k g' l' q' := by
  simp [put]

/-- A send comes to its lease. -/
theorem run_leased : Run Send.Errand.bare.desk leased := by
  have begun : Run Send.Errand.bare.desk ((opened 4).put 0
      (.sending (.start .brisk Send.Errand.bare.call 0)) .empty (.ofBuffer 4)) :=
    .step (.opened 4) (.begins rfl)
  have joins := begun.step (.advances (guest_put_self ..)
    (rfl : Send.step _ false 0 _ _ () = some (.running
      ⟨Send.Errand.bare.call, none, .leasing (.asking (.queued 0))⟩, _, _)))
  have reads := joins.step (.advances (guest_put_self ..)
    (rfl : Send.step _ false 0 _ _ () = some (.running
      ⟨Send.Errand.bare.call, none,
        .leasing (.asking (.reading 0 (.immediate 0 (.ok 7))))⟩, _, _)))
  have learns := reads.step (.advances (guest_put_self ..)
    (rfl : Send.step _ false 0 _ _ () = some (.running Send.Errand.bare.opening,
      Send.Errand.slotted 0 [] 1, _)))
  rw [put_put, put_put, put_put] at learns
  exact learns

/-- It has the lease. -/
theorem held_leased : leased.Held Send.Errand.bare.lease :=
  ⟨Send.Errand.bare.opening, .inr ⟨0, rfl⟩, rfl⟩

/-- A request that arrives there is not answered. -/
theorem Run.status_unanswered : Run Send.Errand.bare.desk leased ∧
    leased.Held Send.Errand.bare.lease ∧
    Visit.step Send.Errand.bare.desk 0 asked.leases asked.queue (.peeking 1 false) = none :=
  ⟨run_leased, held_leased, ((run_leased.status 0).1 _ held_leased asking rfl rfl _ _ _ rfl).2⟩

/-- **A request finds no answer while a send has the lease, and then one with `send_in_progress`
    false**, as soon as the send is dropped. -/
theorem Run.status_too_late :
    Run Send.Errand.bare.desk leased ∧ leased.Held Send.Errand.bare.lease ∧
    Visit.start Send.Errand.bare.desk asking leased.leases leased.queue =
      (.peeking 1 false, asked.leases, asked.queue) ∧
    (∀ uptime, Visit.step Send.Errand.bare.desk uptime asked.leases asked.queue
      (.peeking 1 false) = none) ∧
    Step Send.Errand.bare.desk leased asked ∧ Step Send.Errand.bare.desk asked released ∧
    ∀ uptime, Visit.step Send.Errand.bare.desk uptime released.leases released.queue
      (.peeking 1 false) = some (.answered (.fetched false
        (Gateway.statusBody Send.Errand.bare.desk uptime (some 7) false released.queue)),
        released.leases.leave Send.Errand.bare.lease.account 1) :=
  ⟨run_leased, held_leased, rfl, fun _ => rfl, .visits asking rfl,
    .drops (rfl : asked.guest 0 = .sending Send.Errand.bare.opening), fun _ => rfl⟩

end House

end Relayer
