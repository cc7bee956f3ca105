import Relayer.Send.Lease

namespace Relayer

/-!
# Slots — what a change to one account's slot does, and what it leaves alone

The table of slots is a list of entries.  This file replaces it by what can be seen of it, the slot
of every account, so that no later proof opens the list.

* `Slot.tickets` — the holder and the line, as one queue;
* `Slot.Orderly` — a free lock has no line, and no ticket is there twice;
* `Leases.slot_modify` — the slot of every account after a change;
* `Lease.commit_ok` — what a commit needs, and what it does.
-/

namespace Slot

variable {s : Slot} {t t' : Ticket}

/-! ### One slot -/

/-- The tickets of a slot, the holder's first. -/
def tickets (s : Slot) : List Ticket := s.holder.toList ++ s.line

/-- No ticket waits for a lock that is free, and none is there twice. -/
structure Orderly (s : Slot) : Prop where
  idle : s.holder = none → s.line = []
  nodup : s.tickets.Nodup

/-- The vacant slot is orderly. -/
theorem orderly_vacant : vacant.Orderly := ⟨fun _ => rfl, .nil⟩

/-- A change of `next` keeps the order. -/
theorem Orderly.withNext (h : s.Orderly) (next : Option UInt64) :
    ({ s with next } : Slot).Orderly := ⟨h.idle, h.nodup⟩

@[simp] theorem tickets_withNext (s : Slot) (next : Option UInt64) :
    ({ s with next } : Slot).tickets = s.tickets := rfl

@[simp] theorem join_next (s : Slot) (t : Ticket) : (s.join t).next = s.next := by
  unfold join
  split <;> rfl

@[simp] theorem drop_next (s : Slot) (t : Ticket) : (s.drop t).next = s.next := by
  unfold drop
  split
  · split <;> rfl
  · rfl

/-- `drop` and a change of `next` commute. -/
theorem drop_withNext (s : Slot) (next : Option UInt64) (t : Ticket) :
    ({ s with next } : Slot).drop t = { s.drop t with next } := by
  obtain ⟨_, holder, line⟩ := s
  by_cases held : holder = some t
  · cases line <;> simp [drop, held]
  · simp [drop, held]

/-- A new ticket is the last one. -/
theorem Orderly.tickets_join (h : s.Orderly) (t : Ticket) :
    (s.join t).tickets = s.tickets ++ [t] := by
  unfold join
  split
  next free => simp [tickets, free, h.idle free]
  next holder held => simp [tickets, held]

/-- A ticket that is gone leaves the others in their order. -/
theorem Orderly.tickets_drop (h : s.Orderly) (t : Ticket) :
    (s.drop t).tickets = s.tickets.filter (· != t) := by
  have nodup := h.nodup
  unfold drop
  split
  next held =>
    -- The holder is the first of the tickets, and nodup keeps it out of the line.
    rw [tickets, held, Option.toList_some, List.singleton_append, List.nodup_cons] at nodup
    have line : s.line.filter (· != t) = s.line := by
      rw [List.filter_eq_self]
      intro t' listed
      rw [bne_iff_ne]
      rintro rfl
      exact nodup.1 listed
    have others : s.tickets.filter (· != t) = s.line := by
      rw [tickets, held, Option.toList_some, List.singleton_append, List.filter_cons]
      simpa using line
    split
    next empty => simpa [tickets, empty] using others.symm
    next first rest cons => simpa [tickets, cons] using others.symm
  next other =>
    cases holder : s.holder with
    | none => simp [tickets, holder]
    | some t' =>
      have ne : t' ≠ t := by simpa [holder] using other
      simp [tickets, holder, ne]

/-- `join` of a new ticket keeps the order. -/
theorem Orderly.join (h : s.Orderly) (fresh : t ∉ s.tickets) : (s.join t).Orderly where
  idle free := by
    unfold Slot.join at free ⊢
    split at free
    · cases free
    · next held => simp [held] at free
  nodup := by
    rw [h.tickets_join]
    exact List.nodup_append.mpr
      ⟨h.nodup, by simp, fun a listed b only => by rintro rfl; simp_all⟩

/-- `drop` keeps the order. -/
theorem Orderly.drop (h : s.Orderly) (t : Ticket) : (s.drop t).Orderly where
  idle free := by
    unfold Slot.drop at free ⊢
    by_cases held : s.holder = some t
    · rw [if_pos held] at free ⊢
      split at free
      next empty => simp [empty]
      next => cases free
    · rw [if_neg held] at free ⊢
      simp [h.idle free]
  nodup := by
    rw [h.tickets_drop]
    exact h.nodup.filter _

/-- The holder keeps the lock when others join. -/
theorem holder_join (held : s.holder = some t) : (s.join t').holder = some t := by
  simp [join, held]

/-- The holder keeps the lock when others leave. -/
theorem holder_drop (held : s.holder = some t) (other : t ≠ t') :
    (s.drop t').holder = some t := by
  simp [drop, held, other]

end Slot

/-! ### All slots -/

namespace Leases

variable {l : Leases} {a : Address}

@[simp] theorem slot_empty (a : Address) : empty.slot a = .vacant := rfl

/-- The entry that replaces another one is found in its place. -/
theorem find?_replaced {slots : List (Address × Slot)} {a : Address} (s : Slot)
    (listed : slots.any (·.1 == a) = true) :
    (slots.map fun entry => if entry.1 == a then (a, s) else entry).find? (·.1 == a) =
      some (a, s) := by
  induction slots with
  | nil => cases listed
  | cons entry rest ih =>
    by_cases here : entry.1 = a
    · simp [here]
    · simpa [here] using ih (by simpa [here] using listed)

/-- The other entries are found as before. -/
theorem find?_others (slots : List (Address × Slot)) {a b : Address} (other : b ≠ a) (s : Slot) :
    (slots.map fun entry => if entry.1 == a then (a, s) else entry).find? (·.1 == b) =
      slots.find? (·.1 == b) := by
  induction slots with
  | nil => rfl
  | cons entry rest ih =>
    by_cases here : entry.1 = a
    · simpa [here, Ne.symm other] using ih
    · by_cases found : entry.1 = b
      · simp [found, other]
      · simpa [here, found] using ih

/-- Only the slot that is put changes. -/
theorem slot_put (l : Leases) (a b : Address) (s : Slot) :
    (l.put a s).slot b = if b = a then s else l.slot b := by
  unfold put slot slot?
  by_cases listed : l.slots.any (·.1 == a) = true
  · rw [if_pos listed]
    by_cases same : b = a
    · subst same
      simp only [find?_replaced s listed, Option.map_some, Option.getD_some, if_true]
    · simp only [find?_others l.slots same s, if_neg same]
  · rw [if_neg listed]
    by_cases same : b = a
    · subst same
      have absent : l.slots.find? (·.1 == b) = none := by
        rw [List.find?_eq_none]
        intro entry found here
        exact listed (List.any_eq_true.mpr ⟨entry, found, here⟩)
      simp [absent]
    · simp [same, Ne.symm same]

/-- Only the slot that is modified changes. -/
theorem slot_modify (l : Leases) (a b : Address) (f : Slot → Slot) :
    (l.modify a f).slot b = if b = a then f (l.slot a) else l.slot b := slot_put ..

@[simp] theorem fresh_modify (l : Leases) (a : Address) (f : Slot → Slot) :
    (l.modify a f).fresh = l.fresh := by
  unfold modify put
  split <;> rfl

@[simp] theorem fresh_ask (l : Leases) (a : Address) : (l.ask a).2.fresh = l.fresh + 1 := rfl

@[simp] theorem fresh_leave (l : Leases) (a : Address) (t : Ticket) :
    (l.leave a t).fresh = l.fresh := fresh_modify ..

@[simp] theorem fresh_note (l : Leases) (a : Address) (next : Option UInt64) :
    (l.note a next).fresh = l.fresh := fresh_modify ..

/-- `ask` puts the next ticket in line. -/
theorem slot_ask (l : Leases) (a b : Address) :
    (l.ask a).2.slot b = if b = a then (l.slot a).join l.fresh else l.slot b := slot_modify ..

theorem slot_leave (l : Leases) (a b : Address) (t : Ticket) :
    (l.leave a t).slot b = if b = a then (l.slot a).drop t else l.slot b := slot_modify ..

theorem slot_note (l : Leases) (a b : Address) (next : Option UInt64) :
    (l.note a next).slot b = if b = a then { l.slot a with next } else l.slot b := slot_modify ..

/-- `note` changes neither the holder nor the line. -/
@[simp] theorem holder_note (l : Leases) (a b : Address) (next : Option UInt64) :
    ((l.note a next).slot b).holder = (l.slot b).holder := by
  rw [slot_note]
  split
  next same => rw [same]
  next => rfl

@[simp] theorem line_note (l : Leases) (a b : Address) (next : Option UInt64) :
    ((l.note a next).slot b).line = (l.slot b).line := by
  rw [slot_note]
  split
  next same => rw [same]
  next => rfl

/-- The ticket that `holds` the lock is the holder of the slot. -/
theorem holds_iff {t : Ticket} : l.holds a t = true ↔ (l.slot a).holder = some t := by
  simp [holds]

end Leases

/-! ### The ends of a lease -/

namespace Lease

variable {lease : Lease} {l l' : Leases}

/-- A commit needs a nonce behind the leased one, and leaves that in `next`. -/
theorem commit_ok (h : lease.commit l = .ok l') :
    lease.nonce.toNat + 1 < UInt64.size ∧
      l' = lease.release (l.note lease.account (some (lease.nonce + 1))) := by
  unfold commit at h
  split at h
  next room => exact ⟨room, (Except.ok.inj h).symm⟩
  next => cases h

/-- Behind `note` and `release` the lock passes on and `next` stays. -/
theorem slot_release_note (lease : Lease) (l : Leases) (next : Option UInt64) (b : Address) :
    (lease.release (l.note lease.account next)).slot b =
      if b = lease.account then { (l.slot lease.account).drop lease.ticket with next }
      else l.slot b := by
  unfold release
  rw [Leases.slot_leave]
  by_cases same : b = lease.account
  · rw [if_pos same, if_pos same, Leases.slot_note, if_pos rfl, Slot.drop_withNext]
  · rw [if_neg same, if_neg same, Leases.slot_note, if_neg same]

end Lease

end Relayer
