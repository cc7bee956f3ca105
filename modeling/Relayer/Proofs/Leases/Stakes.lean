import Mathlib.Logic.Function.Basic
import Relayer.Proofs.Leases.Slots
import Relayer.Proofs.Send.Phases

namespace Relayer

/-!
# Stakes — what a client has to do with the slots

A send, an acquisition and a lease that is held look the same from the slots: each is at most
one ticket, waiting, reading the pending nonce or leased.

* `Stake` — what one client has to do with the slots, and `Stake.Move`, what it can do to them;
* `Stakes.Sound` — the slots and the stakes of all clients fit together;
* `Stakes.Sound.move` — every move of any client keeps that;
* `Acquire.Move` / `Acquire.move_of_step` — the steps of one acquisition;
* `Send.Move.stake` / `Send.stake_of_abandon` — a send moves its stake and no other.
-/

/-! ### One client -/

/-- What a client has to do with the slots. -/
inductive Stake where
  | idle
  /-- In line, or holding the lock without having noticed. -/
  | waiting (account : Address) (t : Ticket)
  /-- Holding the lock, with the pending nonce being read. -/
  | reading (account : Address) (t : Ticket)
  | leased (lease : Lease)

namespace Stake

/-- The ticket of a client, and the account it is for. -/
def ticket? : Stake → Option (Address × Ticket)
  | .idle => none
  | .waiting account t | .reading account t => some (account, t)
  | .leased lease => some (lease.account, lease.ticket)

/-- The account whose lock a client makes use of, with the ticket, and the nonce that is known. -/
def hold? : Stake → Option (Address × Ticket × Option UInt64)
  | .idle | .waiting _ _ => none
  | .reading account t => some (account, t, none)
  | .leased lease => some (lease.account, lease.ticket, some lease.nonce)

/-- What a client can do to the slots. -/
inductive Move (l : Leases) : Stake → Leases → Stake → Prop where
  | stays (st : Stake) : Move l st l st
  | joins (a : Address) : Move l .idle (l.ask a).2 (.waiting a l.fresh)
  | reads {a t} (holder : l.holds a t = true) (unknown : (l.slot a).next = none) :
      Move l (.waiting a t) l (.reading a t)
  | inherits {a t nonce} (holder : l.holds a t = true) (known : (l.slot a).next = some nonce) :
      Move l (.waiting a t) l (.leased ⟨a, t, nonce⟩)
  | learns {a t nonce} : Move l (.reading a t) (l.note a (some nonce)) (.leased ⟨a, t, nonce⟩)
  /-- It gives its place in line up, or releases the lock with `next` unchanged. -/
  | leaves {st a t} (ticket : st.ticket? = some (a, t)) : Move l st (l.leave a t) .idle
  | commits {lease l'} (committed : lease.commit l = .ok l') : Move l (.leased lease) l' .idle
  | resyncs {lease} : Move l (.leased lease) (lease.resync l) .idle

/-- A client that makes use of the lock has its ticket. -/
theorem ticket_of_hold {st : Stake} {a : Address} {t : Ticket} {n : Option UInt64}
    (h : st.hold? = some (a, t, n)) : st.ticket? = some (a, t) := by
  cases st with
  | idle | waiting _ _ => cases h
  | reading _ _ | leased _ =>
    cases h
    rfl

end Stake

/-! ### All clients -/

namespace Stakes

/-- The slots and the stakes of all clients fit together: the tickets in the slots are those of the
    clients, each that of one, and a client that makes use of a lock is its holder. -/
structure Sound (l : Leases) (stake : Nat → Stake) : Prop where
  orderly : ∀ a, (l.slot a).Orderly
  issued : ∀ a, ∀ t ∈ (l.slot a).tickets, t < l.fresh
  claimed : ∀ a t, t ∈ (l.slot a).tickets ↔ ∃ id, (stake id).ticket? = some (a, t)
  alone : ∀ id id' a t, (stake id).ticket? = some (a, t) → (stake id').ticket? = some (a, t) →
    id = id'
  holds : ∀ id a t n, (stake id).hold? = some (a, t, n) →
    (l.slot a).holder = some t ∧ (l.slot a).next = n

variable {l l' : Leases} {stake : Nat → Stake} {id id' : Nat} {st' : Stake} {a : Address}
  {t t' : Ticket} {n n' : Option UInt64}

/-- No lease was asked for yet. -/
theorem Sound.empty : Sound .empty fun _ => .idle where
  orderly _ := Slot.orderly_vacant
  issued _ _ listed := by cases listed
  claimed a t := by simp [Slot.tickets, Slot.vacant, Stake.ticket?]
  alone _ _ _ _ none := by cases none
  holds _ _ _ _ none := by cases none

/-- **The lock of an account is used by one client at a time.** -/
theorem Sound.hold_alone (h : Sound l stake) (hold : (stake id).hold? = some (a, t, n))
    (hold' : (stake id').hold? = some (a, t', n')) : id = id' := by
  have held := (h.holds id a t n hold).1
  have held' := (h.holds id' a t' n' hold').1
  obtain rfl : t = t' := Option.some.inj (held.symm.trans held')
  exact h.alone id id' a t (Stake.ticket_of_hold hold) (Stake.ticket_of_hold hold')

/-- What is true of a stake after a move is true of the new one, or of that of another client. -/
theorem update_eq {α : Type} (f : Stake → α) (x : α) (k : Nat) :
    f (Function.update stake id st' k) = x ↔ (k = id ∧ f st' = x) ∨ (k ≠ id ∧ f (stake k) = x) := by
  by_cases own : k = id
  · simp [own]
  · simp [own]

/-- A client gets in line. -/
theorem Sound.join (h : Sound l stake) (idle : stake id = .idle) (a : Address) :
    Sound (l.ask a).2 (Function.update stake id (.waiting a l.fresh)) := by
  -- The ticket is a new one: it is in no slot, and nobody has it.
  have unissued : ∀ b, l.fresh ∉ (l.slot b).tickets := fun b listed =>
    Nat.lt_irrefl _ (h.issued b _ listed)
  have unclaimed : ∀ k b, (stake k).ticket? ≠ some (b, l.fresh) := fun k b claim =>
    unissued b ((h.claimed b l.fresh).mpr ⟨k, claim⟩)
  have tickets : ∀ b t, t ∈ ((l.ask a).2.slot b).tickets ↔
      t ∈ (l.slot b).tickets ∨ (b = a ∧ t = l.fresh) := by
    intro b t
    rw [Leases.slot_ask]
    split
    next same => simp [same, (h.orderly a).tickets_join]
    next other => simp [other]
  have claims : ∀ k b t, (Function.update stake id (.waiting a l.fresh) k).ticket? = some (b, t) ↔
      (k = id ∧ b = a ∧ t = l.fresh) ∨ (k ≠ id ∧ (stake k).ticket? = some (b, t)) := by
    intro k b t
    rw [update_eq]
    simp [Stake.ticket?, eq_comm]
  refine ⟨?_, ?_, ?_, ?_, ?_⟩
  · intro b
    rw [Leases.slot_ask]
    split
    · exact (h.orderly a).join (unissued a)
    · exact h.orderly b
  · intro b t listed
    rw [Leases.fresh_ask]
    rcases (tickets b t).mp listed with old | ⟨-, rfl⟩
    · exact Nat.lt_succ_of_lt (h.issued b t old)
    · exact Nat.lt_succ_self _
  · intro b t
    rw [tickets, h.claimed b t]
    constructor
    · rintro (⟨k, claim⟩ | new)
      · have other : k ≠ id := by
          rintro rfl
          rw [idle] at claim
          cases claim
        exact ⟨k, (claims k b t).mpr (.inr ⟨other, claim⟩)⟩
      · exact ⟨id, (claims id b t).mpr (.inl ⟨rfl, new⟩)⟩
    · rintro ⟨k, claim⟩
      rcases (claims k b t).mp claim with ⟨-, new⟩ | ⟨-, old⟩
      · exact .inr new
      · exact .inl ⟨k, old⟩
  · intro k k' b t claim claim'
    rcases (claims k b t).mp claim with ⟨own, -, fresh⟩ | ⟨-, old⟩ <;>
      rcases (claims k' b t).mp claim' with ⟨own', -, fresh'⟩ | ⟨-, old'⟩
    · exact own.trans own'.symm
    · exact absurd (fresh ▸ old') (unclaimed k' b)
    · exact absurd (fresh' ▸ old) (unclaimed k b)
    · exact h.alone k k' b t old old'
  · intro k b t n hold
    rcases (update_eq Stake.hold? _ k).mp hold with ⟨-, none⟩ | ⟨-, hold⟩
    · cases none
    obtain ⟨held, noted⟩ := h.holds k b t n hold
    rw [Leases.slot_ask]
    split
    next same =>
      subst same
      exact ⟨Slot.holder_join held, by rw [Slot.join_next, noted]⟩
    next => exact ⟨held, noted⟩

/-- A client keeps its ticket, and may set `next` where it has the lock. -/
theorem Sound.advance (h : Sound l stake) (fresh : l'.fresh = l.fresh)
    (holder : ∀ b, (l'.slot b).holder = (l.slot b).holder)
    (line : ∀ b, (l'.slot b).line = (l.slot b).line)
    (next : ∀ b, (l'.slot b).next = (l.slot b).next ∨ ∃ t n, (stake id).hold? = some (b, t, n))
    (ticket : st'.ticket? = (stake id).ticket?)
    (holds : ∀ a t n, st'.hold? = some (a, t, n) →
      (l.slot a).holder = some t ∧ (l'.slot a).next = n) :
    Sound l' (Function.update stake id st') := by
  have claims : ∀ k, (Function.update stake id st' k).ticket? = (stake k).ticket? := by
    intro k
    rw [update_eq, ticket]
    by_cases own : k = id
    · exact .inl ⟨own, by rw [own]⟩
    · exact .inr ⟨own, rfl⟩
  have tickets : ∀ b, (l'.slot b).tickets = (l.slot b).tickets := by
    intro b
    rw [Slot.tickets, Slot.tickets, holder, line]
  refine ⟨?_, ?_, ?_, ?_, ?_⟩
  · intro b
    refine ⟨?_, tickets b ▸ (h.orderly b).nodup⟩
    rw [holder, line]
    exact (h.orderly b).idle
  · intro b
    rw [tickets, fresh]
    exact h.issued b
  · intro b t
    simp only [tickets, claims]
    exact h.claimed b t
  · intro k k' b t
    simp only [claims]
    exact h.alone k k' b t
  · intro k b t n hold
    rw [holder]
    rcases (update_eq Stake.hold? _ k).mp hold with ⟨-, hold⟩ | ⟨other, hold⟩
    · exact holds b t n hold
    obtain ⟨held, noted⟩ := h.holds k b t n hold
    refine ⟨held, ?_⟩
    -- Where another client has the lock, this one has not, and sets no `next`.
    rcases next b with unchanged | ⟨t', n', hold'⟩
    · exact unchanged.trans noted
    · exact absurd (h.hold_alone hold hold') other

/-- A client goes away, and may set `next` where it had the lock. -/
theorem Sound.depart (h : Sound l stake) (fresh : l'.fresh = l.fresh)
    (ticket : (stake id).ticket? = some (a, t)) {next : Option UInt64}
    (slots : ∀ b, l'.slot b = if b = a then { (l.slot a).drop t with next } else l.slot b)
    (noted : next = (l.slot a).next ∨ ∃ n, (stake id).hold? = some (a, t, n)) :
    Sound l' (Function.update stake id .idle) := by
  -- The tickets left in the slots: all but `t` in the slot of `a`.
  have tickets : ∀ b t', t' ∈ (l'.slot b).tickets ↔
      t' ∈ (l.slot b).tickets ∧ (b = a → t' ≠ t) := by
    intro b t'
    rw [slots]
    split
    next same =>
      rw [Slot.tickets_withNext, (h.orderly a).tickets_drop, List.mem_filter, bne_iff_ne, same]
      simp
    next other => simp [other]
  have others : ∀ k, k ≠ id → (stake k).ticket? ≠ some (a, t) := fun k other claim =>
    other (h.alone k id a t claim ticket)
  -- The tickets that are still claimed: those of all clients but `id`.
  have claims : ∀ k b t', (Function.update stake id .idle k).ticket? = some (b, t') ↔
      k ≠ id ∧ (stake k).ticket? = some (b, t') := by
    intro k b t'
    rw [update_eq]
    simp [Stake.ticket?]
  refine ⟨?_, ?_, ?_, ?_, ?_⟩
  · intro b
    rw [slots]
    split
    · exact ((h.orderly a).drop t).withNext next
    · exact h.orderly b
  · intro b t' listed
    rw [fresh]
    exact h.issued b t' ((tickets b t').mp listed).1
  · intro b t'
    rw [tickets, h.claimed b t']
    constructor
    · rintro ⟨⟨k, claim⟩, left⟩
      have other : k ≠ id := by
        rintro rfl
        rw [ticket, Option.some.injEq, Prod.mk.injEq] at claim
        exact left claim.1.symm claim.2.symm
      exact ⟨k, (claims k b t').mpr ⟨other, claim⟩⟩
    · rintro ⟨k, claim⟩
      obtain ⟨other, claim⟩ := (claims k b t').mp claim
      refine ⟨⟨k, claim⟩, ?_⟩
      rintro rfl rfl
      exact others k other claim
  · intro k k' b t' claim claim'
    exact h.alone k k' b t' ((claims k b t').mp claim).2 ((claims k' b t').mp claim').2
  · intro k b t' n hold
    rcases (update_eq Stake.hold? _ k).mp hold with ⟨-, none⟩ | ⟨other, hold⟩
    · cases none
    obtain ⟨held, known⟩ := h.holds k b t' n hold
    rw [slots]
    split
    next same =>
      subst same
      refine ⟨Slot.holder_drop held ?_, ?_⟩
      · rintro rfl
        exact others k other (Stake.ticket_of_hold hold)
      · -- Only who has the right notes anything, and that is not another client.
        rcases noted with unchanged | ⟨n', hold'⟩
        · exact unchanged.trans known
        · exact absurd (h.hold_alone hold hold') other
    next => exact ⟨held, known⟩

/-- **Every move of a client keeps slots and stakes together.** -/
theorem Sound.move (h : Sound l stake) (move : Stake.Move l (stake id) l' st') :
    Sound l' (Function.update stake id st') := by
  generalize own : stake id = st at move
  cases move with
  | stays => rwa [← own, Function.update_eq_self]
  | joins a => exact h.join own a
  | @reads a t holder unknown =>
    refine h.advance rfl (fun _ => rfl) (fun _ => rfl) (fun _ => .inl rfl) (by rw [own]; rfl) ?_
    rintro a t n hold
    cases hold
    exact ⟨Leases.holds_iff.mp holder, unknown⟩
  | @inherits a t nonce holder known =>
    refine h.advance rfl (fun _ => rfl) (fun _ => rfl) (fun _ => .inl rfl) (by rw [own]; rfl) ?_
    rintro a t n hold
    cases hold
    exact ⟨Leases.holds_iff.mp holder, known⟩
  | @learns a t nonce =>
    -- It was reading with the lock of its account, the only slot whose `next` may be set.
    have reading : (stake id).hold? = some (a, t, none) := by
      rw [own]
      rfl
    refine h.advance (by simp) (by simp) (by simp) ?_ (by rw [own]; rfl) ?_
    · intro b
      rw [Leases.slot_note]
      split
      next same => exact .inr ⟨t, none, same ▸ reading⟩
      next => exact .inl rfl
    · rintro a t n hold
      cases hold
      exact ⟨(h.holds id _ _ _ reading).1, by rw [Leases.slot_note, if_pos rfl]⟩
  | @leaves _ a t ticket =>
    -- `next` stays as it is.
    have unnoted : ({ (l.slot a).drop t with next := (l.slot a).next } : Slot) =
        (l.slot a).drop t := by
      rw [← Slot.drop_next (l.slot a) t]
    refine h.depart (by simp) (by rw [own, ticket]) (fun b => ?_) (.inl rfl)
    rw [unnoted]
    exact Leases.slot_leave l a b t
  | @commits lease l' committed =>
    obtain ⟨-, rfl⟩ := Lease.commit_ok committed
    exact h.depart (by simp [Lease.release]) (by rw [own]; rfl) (lease.slot_release_note l _)
      (.inr ⟨some lease.nonce, by rw [own]; rfl⟩)
  | @resyncs lease =>
    exact h.depart (by simp [Lease.resync, Lease.release]) (by rw [own]; rfl)
      (lease.slot_release_note l _) (.inr ⟨some lease.nonce, by rw [own]; rfl⟩)

end Stakes

/-! ### Acquisitions -/

namespace Acquire

/-- What one step of an acquisition can be, and how it leaves the slots. -/
inductive Move (account : Address) (now : Nat) (l : Leases) :
    Acquire → Outcome → Leases → Prop where
  | joins : Move account now l .start (.waiting (.queued l.fresh)) (l.ask account).2
  | reads {t} (reply) (holder : l.holds account t = true)
      (unknown : (l.slot account).next = none) :
      Move account now l (.queued t) (.waiting (.reading t reply)) l
  | inherits {t nonce} (holder : l.holds account t = true)
      (known : (l.slot account).next = some nonce) :
      Move account now l (.queued t) (.granted ⟨account, t, nonce⟩) l
  | learns {t reply nonce} (ready : reply.ready? now = some (.ok nonce)) :
      Move account now l (.reading t reply) (.granted ⟨account, t, nonce⟩)
        (l.note account (some nonce))
  | fails {t reply f} (ready : reply.ready? now = some (.error f)) :
      Move account now l (.reading t reply) (.failed f) (l.leave account t)

variable {σ : Type} {chain : Chain σ} {account : Address} {now : Nat} {a : Acquire} {l l' : Leases}
  {outside outside' : σ} {out : Outcome}

/-- **Every step of an acquisition is a move.** -/
theorem move_of_step (h : a.step chain account now l outside = some (out, l', outside')) :
    Move account now l a out l' := by
  cases a with
  | start =>
    obtain ⟨rfl, rfl, rfl⟩ := by simpa [step] using h
    exact .joins
  | queued t =>
    simp only [step] at h
    by_cases holder : l.holds account t = true
    · rw [if_pos holder] at h
      cases known : (l.slot account).next with
      | some nonce =>
        obtain ⟨rfl, rfl, rfl⟩ := by simpa [known] using h
        exact .inherits holder known
      | none =>
        obtain ⟨rfl, rfl, rfl⟩ := by simpa [known] using h
        exact .reads _ holder known
    · rw [if_neg holder] at h
      cases h
  | reading t reply =>
    simp only [step] at h
    split at h
    next => cases h
    next nonce ready =>
      obtain ⟨rfl, rfl, rfl⟩ := by simpa using h
      exact .learns ready
    next f ready =>
      obtain ⟨rfl, rfl, rfl⟩ := by simpa using h
      exact .fails ready

/-- The stake of an acquisition for an account. -/
def stake (account : Address) : Acquire → Stake
  | start => .idle
  | queued t => .waiting account t
  | reading t _ => .reading account t

/-- The stake that a step of an acquisition leads to. -/
def Outcome.stake (account : Address) : Outcome → Stake
  | .waiting a => a.stake account
  | .granted lease => .leased lease
  | .failed _ => .idle

/-- A step of an acquisition moves its stake. -/
theorem stake_of_step (h : a.step chain account now l outside = some (out, l', outside')) :
    Stake.Move l (a.stake account) l' (out.stake account) := by
  cases move_of_step h with
  | joins => exact .joins account
  | reads _ holder unknown => exact .reads holder unknown
  | inherits holder known => exact .inherits holder known
  | learns _ => exact .learns
  | fails _ => exact .leaves rfl

/-- An acquisition that is dropped gives its ticket back. -/
theorem stake_of_abandon (account : Address) (l : Leases) (a : Acquire) :
    Stake.Move l (a.stake account) (a.abandon account l) .idle := by
  cases a with
  | start => exact .stays .idle
  | queued _ | reading _ _ => exact .leaves rfl

end Acquire

/-! ### Sends -/

namespace Send

variable {σ : Type} {desk : Desk σ} {limits : Limits} {now : Nat} {s : Send} {l l' : Leases}
  {calls : List Inquiry} {out : Outcome}

/-- The stake of a send from an account. -/
def stake (account : Address) (s : Send) : Stake :=
  match s.phase with
  | .leasing (.asking a) => a.stake account
  | .leasing (.pausing _) => .idle
  | .estimating lease _ | .pricing lease _ _ | .escalating lease _ => .leased lease

/-- The stake that a step of a send leads to. -/
def Outcome.stake (account : Address) : Outcome → Stake
  | .running s => s.stake account
  | .ended _ => .idle

/-- A send that has a lease has it at stake. -/
theorem stake_eq_leased {account : Address} {lease : Lease} :
    s.stake account = .leased lease ↔ s.lease? = some lease := by
  obtain ⟨call, deadline, phase⟩ := s
  cases phase with
  | leasing l =>
    cases l with
    | asking a => cases a <;> simp [stake, Acquire.stake, lease?]
    | pausing resume => simp [stake, lease?]
  | estimating _ _ | pricing _ _ _ | escalating _ _ => simp [stake, lease?]

/-- The end of an escalation gives the lease back. -/
theorem stake_of_settle (lease : Lease) (result : Except Stop Receipt) (l : Leases) :
    Stake.Move l (.leased lease) (settle lease result l).2 .idle := by
  unfold settle
  split
  next =>
    cases committed : lease.commit l with
    | ok l' => exact .commits committed
    | error f => exact .leaves rfl
  next => exact .resyncs
  next => exact .leaves rfl

/-- **A move of a send moves its stake**, and at its end it has none. -/
theorem Move.stake (move : Move desk limits now s l calls out l') :
    Stake.Move l (s.stake desk.signer.address) l' (out.stake desk.signer.address) := by
  -- A send that has just been granted a lease has it at stake, whether it estimates or prices.
  have begins (lease : Lease) : Outcome.stake desk.signer.address
      (.running { s with phase := s.afterLease lease }) = .leased lease :=
    stake_eq_leased.mpr (lease?_afterLease s lease)
  have before {phase : Phase} (here : s.phase = phase) :
      s.stake desk.signer.address = ({ s with phase } : Send).stake desk.signer.address := by
    rw [← here]
  cases move with
  | joins phase =>
    rw [before phase]
    exact .joins _
  | reads phase holder unknown _ =>
    rw [before phase]
    exact .reads holder unknown
  | inherits phase holder known =>
    rw [before phase, begins]
    exact .inherits holder known
  | learns phase _ =>
    rw [before phase, begins]
    exact .learns
  | retries phase _ _ | fails phase _ _ =>
    rw [before phase]
    exact .leaves rfl
  | resumes phase _ =>
    rw [before phase]
    exact .stays .idle
  | leaves phase _ =>
    rw [before phase]
    exact Acquire.stake_of_abandon ..
  | stops phase _ =>
    rw [before phase]
    exact .stays .idle
  | estimates phase _ | pads phase _ _ | prices phase _ | bids phase _ _ | escalates phase _ =>
    rw [before phase]
    exact .stays _
  | unestimated phase _ | unpriced phase _ =>
    rw [before phase]
    exact .leaves rfl
  | overflows leased =>
    rw [stake_eq_leased.mpr leased]
    exact .leaves rfl
  | settles phase _ =>
    rw [before phase]
    exact stake_of_settle ..

/-- A send that is dropped gives its ticket back. -/
theorem stake_of_abandon (account : Address) (s : Send) (l : Leases) :
    Stake.Move l (s.stake account) (s.abandon account l) .idle := by
  obtain ⟨call, deadline, phase⟩ := s
  cases phase with
  | leasing waiting =>
    cases waiting with
    | asking a => exact Acquire.stake_of_abandon account l a
    | pausing resume => exact .stays .idle
  | estimating _ _ | pricing _ _ _ | escalating _ _ => exact .leaves rfl

/-- Rescheduling leaves the stake alone. -/
theorem Rescheduled.stake {s' : Send} (order : s.Rescheduled s') (account : Address) :
    s'.stake account = s.stake account := by
  obtain ⟨lease, e, turn, outstanding, phase, -, rfl⟩ := order
  simp [Send.stake, phase]

end Send

end Relayer
