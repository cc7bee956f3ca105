import Relayer.Proofs.Leases.Office
import Relayer.Proofs.Leases.Window

namespace Relayer

/-!
# Deals — every account has a window of its own

Clients of many accounts lease nonces from one table of slots.  Here is why that is as good as a
window for every account, with no connection between them.

* `Office.Deal` — what one client does about its lease, as an act at the window of an account;
* `Window.Shows` — the window that the slot and the clients of one account amount to;
* `Office.Deal.step` / `Office.Deal.other` — a deal is an act at its own window and at no other;
* `Window.Step.deal` — every act of a window is a deal that is possible;
* `Office.Deals` — any number of deals.
-/

variable {σ : Type}

/-! ### Acquisitions -/

namespace Acquire

variable {account b : Address} {now : Nat} {a : Acquire} {l l' : Leases} {out : Outcome}

/-- An acquisition changes no slot of another account. -/
theorem Move.other (move : Move account now l a out l') (other : b ≠ account) :
    l'.slot b = l.slot b ∧ l.fresh ≤ l'.fresh := by
  cases move with
  | joins => exact ⟨by rw [Leases.slot_ask, if_neg other], Nat.le_succ _⟩
  | reads _ _ _ | inherits _ _ => exact ⟨rfl, Nat.le_refl _⟩
  | learns _ => exact ⟨by rw [Leases.slot_note, if_neg other], by simp⟩
  | fails _ => exact ⟨by rw [Leases.slot_leave, if_neg other], by simp⟩

end Acquire

/-! ### Deals -/

namespace Office

/-- What one client does about the lease of an account, at a node of its own. -/
inductive Deal (chain : Chain σ) (w : Office) (id : Nat) (a : Address) : Act → Office → Prop where
  | asks {acquire now leases outside outside'} (absent : w.client id = .absent)
      (step : Acquire.start.step chain a now w.leases outside =
        some (.waiting acquire, leases, outside')) :
      Deal chain w id a .asks (w.put id (.asking a acquire) leases)
  | reads {acquire t reply now leases outside outside'} (here : w.client id = .asking a acquire)
      (step : acquire.step chain a now w.leases outside =
        some (.waiting (.reading t reply), leases, outside')) :
      Deal chain w id a (.reads reply) (w.put id (.asking a (.reading t reply)) leases)
  | obtains {acquire lease now leases outside outside'} (here : w.client id = .asking a acquire)
      (step : acquire.step chain a now w.leases outside =
        some (.granted lease, leases, outside')) :
      Deal chain w id a (.obtains lease.nonce) (w.put id (.holding lease) leases)
  | misses {acquire f now leases outside outside'} (here : w.client id = .asking a acquire)
      (step : acquire.step chain a now w.leases outside = some (.failed f, leases, outside')) :
      Deal chain w id a .misses (w.put id .gone leases)
  /-- Its acquisition is dropped, whether it waits or reads. -/
  | leaves {acquire} (here : w.client id = .asking a acquire) (begun : acquire ≠ .start) :
      Deal chain w id a .leaves (w.put id .gone (acquire.abandon a w.leases))
  /-- Its lease is dropped. -/
  | releases {lease} (here : w.client id = .holding lease) (own : lease.account = a) :
      Deal chain w id a .releases (w.put id .gone (lease.release w.leases))
  | commits {lease leases} (here : w.client id = .holding lease) (own : lease.account = a)
      (committed : lease.commit w.leases = .ok leases) :
      Deal chain w id a .commits (w.put id .gone leases)
  | overflows {lease f} (here : w.client id = .holding lease) (own : lease.account = a)
      (failed : lease.commit w.leases = .error f) :
      Deal chain w id a .overflows (w.put id .gone (lease.release w.leases))
  | resyncs {lease} (here : w.client id = .holding lease) (own : lease.account = a) :
      Deal chain w id a .resyncs (w.put id .gone (lease.resync w.leases))

end Office

/-! ### The window of an account -/

/-- The slot with this queue of tickets, the first of which is the holder. -/
def Slot.lineUp (next : Option UInt64) (tickets : List Ticket) : Slot :=
  ⟨next, tickets.head?, tickets.tail⟩

/-- A new ticket comes in behind the others. -/
theorem Slot.join_lineUp (next : Option UInt64) (tickets : List Ticket) (t : Ticket) :
    (lineUp next tickets).join t = lineUp next (tickets ++ [t]) := by
  cases tickets <;> rfl

/-- A ticket that is gone leaves the others in their order. -/
theorem Slot.drop_lineUp {next : Option UInt64} {tickets : List Ticket} (t : Ticket)
    (nodup : tickets.Nodup) :
    (lineUp next tickets).drop t = lineUp next (tickets.filter (· != t)) := by
  cases tickets with
  | nil => rfl
  | cons first rest =>
    by_cases own : first = t
    · subst own
      rw [Window.filter_first nodup]
      cases rest <;> simp [lineUp, drop]
    · simp [lineUp, drop, own]

/-- The ticket that a client has for an account, and what it is doing with it. -/
def Client.at? (a : Address) : Client → Option (Ticket × Doing)
  | .asking account (.queued t) => if account = a then some (t, .waiting) else none
  | .asking account (.reading t reply) => if account = a then some (t, .reading reply) else none
  | .holding lease => if lease.account = a then some (lease.ticket, .leased lease.nonce) else none
  | .asking _ .start | .absent | .sending _ | .gone => none

namespace Client

variable {a : Address} {c : Client} {t : Ticket}

theorem at?_eq_waiting : c.at? a = some (t, .waiting) ↔ c = .asking a (.queued t) := by
  cases c with
  | asking account acquire => cases acquire <;> simp [at?]
  | holding lease => simp [at?]
  | _ => simp [at?]

theorem at?_eq_reading {reply : Pending (Except Failure UInt64)} :
    c.at? a = some (t, .reading reply) ↔ c = .asking a (.reading t reply) := by
  cases c with
  | asking account acquire => cases acquire <;> simp [at?]
  | holding lease => simp [at?]
  | _ => simp [at?]

theorem at?_eq_leased {nonce : UInt64} :
    c.at? a = some (t, .leased nonce) ↔ c = .holding ⟨a, t, nonce⟩ := by
  cases c with
  | asking account acquire => cases acquire <;> simp [at?]
  | holding lease =>
    cases lease
    simp [at?]
  | _ => simp [at?]

end Client

namespace Window

/-- What a client in line is doing: all but the first one wait. -/
def standing (v : Window) (id : Nat) : Doing :=
  if v.queue.head? = some id then v.doing else .waiting

/-- The window that the slot and the clients of an account amount to, by their tickets. -/
structure Shows (v : Window) (a : Address) (w : Office) (ticket : Nat → Ticket) : Prop where
  slot : w.leases.slot a = .lineUp v.next (v.queue.map ticket)
  distinct : (v.queue.map ticket).Nodup
  issued : ∀ id ∈ v.queue, ticket id < w.leases.fresh
  client : ∀ id, (w.client id).at? a =
    if id ∈ v.queue then some (ticket id, v.standing id) else none

variable {v v' : Window} {a b : Address} {w w' : Office} {ticket : Nat → Ticket} {id k : Nat}
  {c : Client} {leases : Leases} {t : Ticket} {doing : Doing}

/-- Before any client comes, every window is open. -/
theorem shows_opened (a : Address) (ticket : Nat → Ticket) : opened.Shows a .opened ticket where
  slot := rfl
  distinct := .nil
  issued _ listed := by cases listed
  client _ := rfl

/-! ### What a window says of a client -/

/-- A client of an account is in line, with its own ticket. -/
theorem Shows.listed (h : v.Shows a w ticket) (here : (w.client id).at? a = some (t, doing)) :
    id ∈ v.queue ∧ ticket id = t ∧ v.standing id = doing := by
  have client := h.client id
  rw [here] at client
  split at client
  next listed =>
    obtain ⟨rfl, rfl⟩ := Prod.mk.inj (Option.some.inj client)
    exact ⟨listed, rfl, rfl⟩
  next => cases client

/-- Clients in line have different tickets. -/
theorem Shows.eq_of_ticket (h : v.Shows a w ticket) (listed : id ∈ v.queue) (listed' : k ∈ v.queue)
    (same : ticket id = ticket k) : id = k :=
  List.inj_on_of_nodup_map h.distinct listed listed' same

/-- A client that does not wait is the first in line. -/
theorem Shows.first_of_busy (h : v.Shows a w ticket)
    (here : (w.client id).at? a = some (t, doing)) (busy : doing ≠ .waiting) :
    ∃ rest, v.queue = id :: rest ∧ v.doing = doing ∧ ticket id = t := by
  obtain ⟨listed, own, standing⟩ := h.listed here
  unfold Window.standing at standing
  split at standing
  next first =>
    obtain ⟨rest, queue⟩ := List.head?_eq_some_iff.mp first
    exact ⟨rest, queue, standing, own⟩
  next => exact absurd standing.symm busy

/-- A client that reads the pending nonce is the first in line, and `next` is unknown. -/
theorem Shows.first_of_reading {reply : Pending (Except Failure UInt64)} (h : v.Shows a w ticket)
    (orderly : v.Orderly) (here : w.client id = .asking a (.reading t reply)) :
    ∃ rest, v.queue = id :: rest ∧ v.doing = .reading reply ∧ v.next = none ∧ ticket id = t := by
  obtain ⟨rest, queue, reading, own⟩ :=
    h.first_of_busy (Client.at?_eq_reading.mpr here) nofun
  exact ⟨rest, queue, reading, orderly.unknown reply reading, own⟩

/-- A client with a lease is the first in line, and `next` is the leased nonce. -/
theorem Shows.first_of_holding {lease : Lease} (h : v.Shows a w ticket) (orderly : v.Orderly)
    (here : w.client id = .holding lease) (own : lease.account = a) :
    ∃ rest, v.queue = id :: rest ∧ v.doing = .leased lease.nonce ∧ v.next = some lease.nonce ∧
      ticket id = lease.ticket := by
  subst own
  obtain ⟨rest, queue, leased, own⟩ := h.first_of_busy (Client.at?_eq_leased.mpr here) nofun
  exact ⟨rest, queue, leased, orderly.leased _ leased, own⟩

/-- A client that waits and holds the lock is the first in line as well. -/
theorem Shows.first_of_holds (h : v.Shows a w ticket)
    (here : w.client id = .asking a (.queued t)) (holds : w.leases.holds a t = true) :
    ∃ rest, v.queue = id :: rest ∧ v.doing = .waiting ∧ ticket id = t := by
  obtain ⟨listed, own, standing⟩ := h.listed (Client.at?_eq_waiting.mpr here)
  rw [Leases.holds_iff, h.slot] at holds
  cases queue : v.queue with
  | nil => simp [queue] at listed
  | cons first rest =>
    have holder : ticket first = t := by simpa [Slot.lineUp, queue] using holds
    obtain rfl := h.eq_of_ticket (by simp [queue]) listed (holder.trans own.symm)
    refine ⟨rest, rfl, ?_, own⟩
    simpa [Window.standing, queue] using standing

/-! ### What a client changes at a window -/

/-- A newcomer comes in behind the others, with a new ticket. -/
theorem Shows.joins (h : v.Shows a w ticket) (orderly : v.Orderly) (new : id ∉ v.queue)
    (here : c.at? a = some (w.leases.fresh, .waiting)) :
    Shows ⟨v.next, v.queue ++ [id], v.doing⟩ a (w.put id c (w.leases.ask a).2)
      (Function.update ticket id w.leases.fresh) := by
  have same : ∀ k ∈ v.queue, Function.update ticket id w.leases.fresh k = ticket k := by
    rintro k listed
    refine Function.update_of_ne ?_ _ _
    rintro rfl
    exact new listed
  have tickets : (v.queue ++ [id]).map (Function.update ticket id w.leases.fresh) =
      v.queue.map ticket ++ [w.leases.fresh] := by
    rw [List.map_append, List.map_congr_left same]
    simp
  refine ⟨?_, ?_, ?_, ?_⟩
  · simp only [Office.put, Leases.slot_ask, if_true, h.slot, Slot.join_lineUp, tickets]
  · simp only [tickets]
    refine List.nodup_append.mpr ⟨h.distinct, List.nodup_singleton _, ?_⟩
    rintro t old t' fresh rfl
    obtain ⟨k, listed, rfl⟩ := List.mem_map.mp old
    exact absurd (List.mem_singleton.mp fresh) (Nat.ne_of_lt (h.issued k listed))
  · intro k listed
    rw [Office.put, Leases.fresh_ask]
    rcases List.mem_append.mp listed with old | own
    · rw [same k old]
      exact Nat.lt_succ_of_lt (h.issued k old)
    · rw [List.mem_singleton.mp own, Function.update_self]
      exact Nat.lt_succ_self _
  · intro k
    by_cases own : k = id
    · subst own
      have last : Window.standing ⟨v.next, v.queue ++ [k], v.doing⟩ k = .waiting := by
        unfold Window.standing
        split
        next first =>
          -- It is the first in line only where nobody else is there.
          cases queue : v.queue with
          | nil => exact orderly.idle queue
          | cons first' rest =>
            simp only [queue, List.cons_append, List.head?_cons, Option.some.injEq] at first
            exact absurd (by simp [queue, first]) new
        next => rfl
      simp [here, last]
    · have behind : Window.standing ⟨v.next, v.queue ++ [id], v.doing⟩ k = v.standing k := by
        unfold Window.standing
        cases queue : v.queue <;> simp [Ne.symm own]
      rw [Office.client_put_other w own, h.client k, behind, Function.update_of_ne own]
      simp [own]

/-- The first in line advances, and may set `next`. -/
theorem Shows.advances {next : Option UInt64} {rest : List Nat} (h : v.Shows a w ticket)
    (first : v.queue = id :: rest) (here : c.at? a = some (ticket id, doing))
    (slot : leases.slot a = { w.leases.slot a with next }) (fresh : leases.fresh = w.leases.fresh) :
    Shows ⟨next, id :: rest, doing⟩ a (w.put id c leases) ticket := by
  refine ⟨?_, first ▸ h.distinct, ?_, ?_⟩
  · simp only [Office.put, slot, h.slot, first]
    rfl
  · rw [Office.put, fresh]
    exact first ▸ h.issued
  · intro k
    by_cases own : k = id
    · subst own
      simp [here, Window.standing]
    · rw [Office.client_put_other w own, h.client k, first]
      simp [Window.standing, first, Ne.symm own]

/-- A client leaves the line, and the others stay as they are. -/
theorem Shows.departs {next : Option UInt64} (h : v.Shows a w ticket) (listed : id ∈ v.queue)
    (gone : c.at? a = none)
    (slot : leases.slot a = { (w.leases.slot a).drop (ticket id) with next })
    (fresh : leases.fresh = w.leases.fresh)
    (stands : ∀ k ∈ v.queue, k ≠ id →
      Window.standing ⟨next, v.queue.filter (· != id), doing⟩ k = v.standing k) :
    Shows ⟨next, v.queue.filter (· != id), doing⟩ a (w.put id c leases) ticket := by
  -- Dropping the ticket of `id` is the same as dropping `id`, as tickets are distinct.
  have tickets : (v.queue.map ticket).filter (· != ticket id) =
      (v.queue.filter (· != id)).map ticket := by
    rw [List.filter_map]
    congr 1
    refine List.filter_congr fun k other => ?_
    rw [Bool.eq_iff_iff, Function.comp_apply, bne_iff_ne, bne_iff_ne, not_iff_not]
    exact ⟨h.eq_of_ticket other listed, congrArg ticket⟩
  refine ⟨?_, ?_, ?_, ?_⟩
  · simp only [Office.put, slot, h.slot, Slot.drop_lineUp _ h.distinct, tickets]
    rfl
  · rw [← tickets]
    exact h.distinct.filter _
  · intro k stays
    rw [Office.put, fresh]
    exact h.issued k (List.mem_filter.mp stays).1
  · intro k
    by_cases own : k = id
    · subst own
      simp [gone]
    · rw [Office.client_put_other w own, h.client k]
      by_cases other : k ∈ v.queue
      · simp [other, own, stands k other own]
      · simp [other]

/-- The first in line leaves, and the one behind it waits with the lock. -/
theorem Shows.makesWay {next : Option UInt64} {rest : List Nat} (h : v.Shows a w ticket)
    (orderly : v.Orderly) (first : v.queue = id :: rest) (gone : c.at? a = none)
    (slot : leases.slot a = { (w.leases.slot a).drop (ticket id) with next })
    (fresh : leases.fresh = w.leases.fresh) :
    Shows ⟨next, rest, .waiting⟩ a (w.put id c leases) ticket := by
  have others : v.queue.filter (· != id) = rest := by
    rw [first]
    exact filter_first (first ▸ orderly.nodup)
  have shows : Shows ⟨next, v.queue.filter (· != id), .waiting⟩ a (w.put id c leases) ticket :=
    h.departs (by simp [first]) gone slot fresh
      fun k _ other => by simp [Window.standing, first, Ne.symm other]
  rwa [others] at shows

/-- A client behind the first in line leaves. -/
theorem Shows.stepsOut {first : Nat} {rest : List Nat} (h : v.Shows a w ticket)
    (queue : v.queue = first :: rest) (listed : id ∈ rest) (behind : id ≠ first)
    (gone : c.at? a = none) (slot : leases.slot a = (w.leases.slot a).drop (ticket id))
    (fresh : leases.fresh = w.leases.fresh) :
    Shows ⟨v.next, first :: rest.filter (· != id), v.doing⟩ a (w.put id c leases) ticket := by
  have others : v.queue.filter (· != id) = first :: rest.filter (· != id) := by
    rw [queue, List.filter_cons_of_pos (by simp [Ne.symm behind])]
  have unnoted : leases.slot a = { (w.leases.slot a).drop (ticket id) with next := v.next } := by
    have next : ((w.leases.slot a).drop (ticket id)).next = v.next := by
      rw [Slot.drop_next, h.slot]
      rfl
    rw [slot, ← next]
  have shows : Shows ⟨v.next, v.queue.filter (· != id), v.doing⟩ a (w.put id c leases) ticket :=
    h.departs (by simp [queue, listed]) gone unnoted fresh
      fun k _ other => by simp [Window.standing, queue, Ne.symm behind]
  rwa [others] at shows

end Window

/-! ### Deals are acts -/

/-- A ticket that is gone leaves `next` alone. -/
theorem Leases.slot_leave_self (l : Leases) (a : Address) (t : Ticket) :
    (l.leave a t).slot a = { (l.slot a).drop t with next := (l.slot a).next } := by
  rw [Leases.slot_leave, if_pos rfl, ← Slot.drop_next (l.slot a) t]

/-- A commit fails where there is no nonce behind. -/
theorem Lease.full_of_commit {lease : Lease} {l : Leases} {f : Fault}
    (h : lease.commit l = .error f) : ¬ lease.nonce.toNat + 1 < UInt64.size := by
  intro room
  rw [commit, if_pos room] at h
  cases h

/-- `next` of a window is that of its slot. -/
theorem Window.Shows.next_eq {v : Window} {a : Address} {w : Office} {ticket : Nat → Ticket}
    (h : v.Shows a w ticket) : (w.leases.slot a).next = v.next := by
  rw [h.slot]
  rfl

namespace Office

variable {chain : Chain σ} {v : Window} {a b : Address} {w w' : Office} {ticket : Nat → Ticket}
  {id : Nat} {act : Act}

/-- **A deal is an act at the window of its account.** -/
theorem Deal.step (deal : Deal chain w id a act w') (h : v.Shows a w ticket)
    (orderly : v.Orderly) :
    ∃ v' ticket', v.Step id act v' ∧ v'.Shows a w' ticket' := by
  have next := h.next_eq
  obtain ⟨known, queue, doing⟩ := v
  cases deal with
  -- `id` has no ticket yet, so it comes in behind the others.
  | asks absent step =>
    have new : id ∉ queue := by
      intro listed
      have client := h.client id
      rw [absent, if_pos listed] at client
      cases client
    cases Acquire.move_of_step step with
    | joins => exact ⟨_, _, .asks new, h.joins orderly new (by simp [Client.at?])⟩
  | @reads _ t reply _ _ _ _ here step =>
    cases Acquire.move_of_step step with
    | reads _ holder unknown =>
      -- It holds the lock, so it is the first in line.
      obtain ⟨rest, rfl, rfl, rfl⟩ := h.first_of_holds here holder
      obtain rfl : known = none := next.symm.trans unknown
      exact ⟨_, ticket, .reads reply,
        h.advances rfl (by simp [Client.at?]) (by rw [← unknown]) rfl⟩
  | obtains here step =>
    cases Acquire.move_of_step step with
    | @inherits t nonce holder unchanged =>
      obtain ⟨rest, rfl, rfl, rfl⟩ := h.first_of_holds here holder
      obtain rfl : known = some nonce := next.symm.trans unchanged
      exact ⟨_, ticket, .inherits,
        h.advances rfl (by simp [Client.at?]) (by rw [← unchanged]) rfl⟩
    | @learns t reply nonce ready =>
      obtain ⟨rest, rfl, rfl, rfl, rfl⟩ := h.first_of_reading orderly here
      exact ⟨_, ticket, .learns ready, h.advances rfl (by simp [Client.at?])
        (by rw [Leases.slot_note, if_pos rfl]) (by simp)⟩
  | misses here step =>
    cases Acquire.move_of_step step with
    | @fails t reply f ready =>
      obtain ⟨rest, rfl, rfl, rfl, rfl⟩ := h.first_of_reading orderly here
      refine ⟨_, ticket, .misses ready, h.makesWay orderly rfl rfl ?_ (by simp)⟩
      rw [Leases.slot_leave_self, next]
  | @leaves acquire here begun =>
    cases acquire with
    | start => exact absurd rfl begun
    | queued t =>
      obtain ⟨listed, rfl, standing⟩ := h.listed (Client.at?_eq_waiting.mpr here)
      cases queue with
      | nil => cases listed
      | cons first rest =>
        -- The first in line makes way for the next one; any other steps out of the line.
        by_cases own : id = first
        · subst own
          obtain rfl : doing = .waiting := by simpa [Window.standing] using standing
          refine ⟨_, ticket, .makesWay nofun,
            h.makesWay orderly rfl rfl ?_ (by simp [Acquire.abandon])⟩
          rw [Acquire.abandon, Leases.slot_leave_self, next]
        · have behind : id ∈ rest := (List.mem_cons.mp listed).resolve_left own
          refine ⟨_, ticket, .stepsOut behind own,
            h.stepsOut rfl behind own rfl ?_ (by simp [Acquire.abandon])⟩
          rw [Acquire.abandon, Leases.slot_leave, if_pos rfl]
    | reading t reply =>
      obtain ⟨rest, rfl, rfl, rfl, rfl⟩ := h.first_of_reading orderly here
      refine ⟨_, ticket, .makesWay nofun, h.makesWay orderly rfl rfl ?_ (by simp [Acquire.abandon])⟩
      rw [Acquire.abandon, Leases.slot_leave_self, next]
  | @releases lease here own =>
    obtain ⟨rest, rfl, rfl, rfl, mine⟩ := h.first_of_holding orderly here own
    refine ⟨_, ticket, .releases, h.makesWay orderly rfl rfl ?_ (by simp [Lease.release])⟩
    rw [Lease.release, own, mine, Leases.slot_leave_self, next]
  | @commits lease leases here own committed =>
    obtain ⟨rest, rfl, rfl, rfl, mine⟩ := h.first_of_holding orderly here own
    obtain ⟨room, rfl⟩ := Lease.commit_ok committed
    refine ⟨_, ticket, .commits room, h.makesWay orderly rfl rfl ?_ (by simp [Lease.release])⟩
    rw [Lease.slot_release_note, if_pos own.symm, own, mine]
  | @overflows lease f here own failed =>
    obtain ⟨rest, rfl, rfl, rfl, mine⟩ := h.first_of_holding orderly here own
    refine ⟨_, ticket, .overflows (Lease.full_of_commit failed),
      h.makesWay orderly rfl rfl ?_ (by simp [Lease.release])⟩
    rw [Lease.release, own, mine, Leases.slot_leave_self, next]
  | @resyncs lease here own =>
    obtain ⟨rest, rfl, rfl, rfl, mine⟩ := h.first_of_holding orderly here own
    refine ⟨_, ticket, .resyncs,
      h.makesWay orderly rfl rfl ?_ (by simp [Lease.resync, Lease.release])⟩
    rw [Lease.resync, Lease.slot_release_note, if_pos own.symm, own, mine]

/-- **A deal changes nothing at the windows of other accounts.** -/
theorem Deal.other (deal : Deal chain w id a act w') (h : v.Shows b w ticket) (other : b ≠ a) :
    v.Shows b w' ticket := by
  -- Wherever the client comes from and goes to, it is not at the other account.
  suffices frame : ∃ c, w' = w.put id c w'.leases ∧ (w.client id).at? b = none ∧ c.at? b = none ∧
      w'.leases.slot b = w.leases.slot b ∧ w.leases.fresh ≤ w'.leases.fresh by
    obtain ⟨c, put, before, after, slot, fresh⟩ := frame
    refine ⟨slot.trans h.slot, h.distinct, fun k listed => ?_, fun k => ?_⟩
    · exact Nat.lt_of_lt_of_le (h.issued k listed) fresh
    · rw [put]
      by_cases own : k = id
      · subst own
        rw [client_put_self, after]
        exact before.symm.trans (h.client k)
      · rw [client_put_other w own, h.client k]
  have asking (acquire : Acquire) : (Client.asking a acquire).at? b = none := by
    cases acquire <;> simp [Client.at?, Ne.symm other]
  have holding {lease : Lease} (own : lease.account = a) : (Client.holding lease).at? b = none := by
    simp [Client.at?, own, Ne.symm other]
  cases deal with
  | asks here step =>
    obtain ⟨slot, fresh⟩ := (Acquire.move_of_step step).other other
    exact ⟨_, rfl, by rw [here]; rfl, asking _, slot, fresh⟩
  | reads here step | misses here step =>
    obtain ⟨slot, fresh⟩ := (Acquire.move_of_step step).other other
    exact ⟨_, rfl, by rw [here, asking], by first | rfl | exact asking _, slot, fresh⟩
  | obtains here step =>
    have move := Acquire.move_of_step step
    obtain ⟨slot, fresh⟩ := move.other other
    refine ⟨_, rfl, by rw [here, asking], holding ?_, slot, fresh⟩
    cases move <;> rfl
  | @leaves acquire here _ =>
    refine ⟨_, rfl, by rw [here, asking], rfl, ?_, ?_⟩
    · cases acquire with
      | start => rfl
      | queued _ | reading _ _ => exact (Leases.slot_leave ..).trans (if_neg other)
    · cases acquire <;> simp [put, Acquire.abandon]
  | releases here own | overflows here own _ =>
    refine ⟨_, rfl, by rw [here, holding own], rfl, ?_, by simp [put, Lease.release]⟩
    exact (Leases.slot_leave ..).trans (if_neg (own ▸ other))
  | commits here own committed =>
    obtain ⟨-, rfl⟩ := Lease.commit_ok committed
    refine ⟨_, rfl, by rw [here, holding own], rfl, ?_, by simp [put, Lease.release]⟩
    exact (Lease.slot_release_note ..).trans (if_neg (own ▸ other))
  | resyncs here own =>
    refine ⟨_, rfl, by rw [here, holding own], rfl, ?_, by simp [put, Lease.resync, Lease.release]⟩
    exact (Lease.slot_release_note ..).trans (if_neg (own ▸ other))

end Office

/-! ### Acts are deals -/

/-- A node that gives this reply to every pending-nonce call. -/
def Chain.telling (reply : Pending (Except Failure UInt64)) : Chain Unit :=
  { (Desk.prompt (.repeated 1) Transaction.payload).chain with
    nonce := fun _ _ outside => (reply, outside) }

namespace Window

variable {v v' : Window} {a : Address} {w : Office} {ticket : Nat → Ticket} {id : Nat} {act : Act}

/-- The first in line does what is done at the window. -/
theorem Shows.at?_first {rest : List Nat} (h : v.Shows a w ticket) (first : v.queue = id :: rest) :
    (w.client id).at? a = some (ticket id, v.doing) := by
  rw [h.client id, if_pos (by simp [first])]
  simp [Window.standing, first]

/-- A client behind the first in line waits. -/
theorem Shows.at?_behind {first : Nat} {rest : List Nat} (h : v.Shows a w ticket)
    (queue : v.queue = first :: rest) (listed : id ∈ rest) (behind : id ≠ first) :
    (w.client id).at? a = some (ticket id, .waiting) := by
  rw [h.client id, if_pos (by simp [queue, listed])]
  simp [Window.standing, queue, Ne.symm behind]

/-- The first in line holds the lock. -/
theorem Shows.holds_of_first {rest : List Nat} (h : v.Shows a w ticket)
    (first : v.queue = id :: rest) : w.leases.holds a (ticket id) = true := by
  rw [Leases.holds_iff, h.slot, first]
  rfl

/-- **Every act of a window is a deal that is possible**, whatever happens at the others. -/
theorem Step.deal (step : v.Step id act v') (h : v.Shows a w ticket)
    (newcomer : act = .asks → w.client id = .absent) :
    ∃ (chain : Chain Unit) (w' : Office), Office.Deal chain w id a act w' := by
  have next := h.next_eq
  -- Only `reads` makes a call, so for all other acts any node will do.
  let silent := Chain.telling (.immediate 0 (.ok 0))
  cases step with
  | asks _ =>
    have step : Acquire.start.step silent a 0 w.leases () =
      some (.waiting (.queued w.leases.fresh), (w.leases.ask a).2, ()) := rfl
    exact ⟨silent, _, .asks (newcomer rfl) step⟩
  | reads reply =>
    have here := Client.at?_eq_waiting.mp (h.at?_first rfl)
    have step : (Acquire.queued (ticket id)).step (.telling reply) a 0 w.leases () =
        some (.waiting (.reading (ticket id) reply), w.leases, ()) := by
      simp only [Acquire.step, h.holds_of_first rfl, next, if_true]
      rfl
    exact ⟨.telling reply, _, .reads here step⟩
  | @inherits nonce =>
    have here := Client.at?_eq_waiting.mp (h.at?_first rfl)
    have step : (Acquire.queued (ticket id)).step silent a 0 w.leases () =
        some (.granted ⟨a, ticket id, nonce⟩, w.leases, ()) := by
      simp only [Acquire.step, h.holds_of_first rfl, next, if_true]
    exact ⟨silent, _, .obtains here step⟩
  | @learns _ _ reply nonce now ready =>
    have here := Client.at?_eq_reading.mp (h.at?_first rfl)
    have step : (Acquire.reading (ticket id) reply).step silent a now w.leases () =
        some (.granted ⟨a, ticket id, nonce⟩, w.leases.note a (some nonce), ()) := by
      simp only [Acquire.step, ready]
    exact ⟨silent, _, .obtains here step⟩
  | @misses _ _ reply f now ready =>
    have here := Client.at?_eq_reading.mp (h.at?_first rfl)
    have step : (Acquire.reading (ticket id) reply).step silent a now w.leases () =
        some (.failed f, w.leases.leave a (ticket id), ()) := by
      simp only [Acquire.step, ready]
    exact ⟨silent, _, .misses here step⟩
  | @makesWay _ _ _ doing unleased =>
    cases doing with
    | waiting =>
      exact ⟨silent, _, .leaves (Client.at?_eq_waiting.mp (h.at?_first rfl)) (by simp)⟩
    | reading reply =>
      exact ⟨silent, _, .leaves (Client.at?_eq_reading.mp (h.at?_first rfl)) (by simp)⟩
    | leased nonce => exact absurd rfl (unleased nonce)
  | stepsOut listed behind =>
    have waits := Client.at?_eq_waiting.mp (h.at?_behind rfl listed behind)
    exact ⟨silent, _, .leaves waits (by simp)⟩
  | releases => exact ⟨silent, _, .releases (Client.at?_eq_leased.mp (h.at?_first rfl)) rfl⟩
  | commits room =>
    exact ⟨silent, _, .commits (Client.at?_eq_leased.mp (h.at?_first rfl)) rfl (if_pos room)⟩
  | overflows full =>
    exact ⟨silent, _, .overflows (Client.at?_eq_leased.mp (h.at?_first rfl)) rfl (if_neg full)⟩
  | resyncs => exact ⟨silent, _, .resyncs (Client.at?_eq_leased.mp (h.at?_first rfl)) rfl⟩

end Window

/-! ### Any number of deals -/

/-- What a client did about the lease of an account. -/
structure Deed where
  id : Nat
  account : Address
  act : Act

/-- The acts at one account. -/
def Deed.actsAt (a : Address) (history : List Deed) : List (Nat × Act) :=
  history.filterMap fun deed => if deed.account = a then some (deed.id, deed.act) else none

namespace Office

/-- Any number of deals, one after the other, at any accounts. -/
inductive Deals : List Deed → Office → Prop where
  | opened : Deals [] .opened
  | deal {τ : Type} {chain : Chain τ} {history w id a act w'} (deals : Deals history w)
      (deal : Deal chain w id a act w') : Deals (history ++ [⟨id, a, act⟩]) w'

variable {history : List Deed} {w w' : Office} {id : Nat} {a b : Address} {act : Act}

/-- A deed at an account is one more act there. -/
theorem actsAt_self (history : List Deed) (id : Nat) (a : Address) (act : Act) :
    Deed.actsAt a (history ++ [⟨id, a, act⟩]) = Deed.actsAt a history ++ [(id, act)] := by
  simp [Deed.actsAt]

/-- A deed at another account is none. -/
theorem actsAt_other (history : List Deed) (id : Nat) (act : Act) (other : b ≠ a) :
    Deed.actsAt b (history ++ [⟨id, a, act⟩]) = Deed.actsAt b history := by
  simp [Deed.actsAt, Ne.symm other]

/-- **Every account has a window of its own**, whose acts are the deeds at that account. -/
theorem Deals.shows (deals : Deals history w) (a : Address) :
    ∃ v ticket, Window.opened.Way (Deed.actsAt a history) v ∧ v.Orderly ∧ v.Shows a w ticket := by
  induction deals with
  | opened =>
    exact ⟨_, fun _ => 0, .here, Window.orderly_opened, Window.shows_opened a _⟩
  | @deal _ _ history w id b act w' _ deal ih =>
    obtain ⟨v, ticket, way, orderly, shows⟩ := ih
    by_cases same : a = b
    · subst same
      obtain ⟨v', ticket', step, shows'⟩ := deal.step shows orderly
      exact ⟨v', ticket', actsAt_self .. ▸ way.step step, step.orderly orderly, shows'⟩
    · exact ⟨v, ticket, actsAt_other history id act same ▸ way, orderly, deal.other shows same⟩

end Office

end Relayer
