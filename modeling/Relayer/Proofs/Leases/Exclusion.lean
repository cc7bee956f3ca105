import Relayer.Proofs.Leases.Settlement

namespace Relayer

/-!
# Exclusion — sends take turns, and their nonces ascend

From its grant to its end a send has the lease of its account for itself.  So the broadcasts of a
history come in blocks, one for every send; and a nonce that a send has committed is leased to no
later one, as long as no `nonceStale` resyncs the account.

* `Office.Run.over_of_broadcast` — a send has ended before another one broadcasts;
* `Office.Run.used_up` — a committed nonce stays below `next`;
* `Office.Run.exclusive` — both, and what follows for whole histories.
-/

variable {σ : Type}

namespace Office

variable {desk : Desk σ} {shared : Bool} {history : List (Nat × Send.Event)} {w w' : Office}
  {id id' : Nat} {shown : List Send.Event} {lease lease' : Lease} {i j k : Nat}

/-! ### Turns -/

/-- Two sends do not have leases at the same time. -/
theorem Run.lease_alone (run : Run desk shared history w) {s s' : Send}
    (here : w.client id = .sending s) (here' : w.client id' = .sending s')
    (leased : s.lease? = some lease) (leased' : s'.lease? = some lease') : id = id' := by
  have account : lease.account = desk.signer.address :=
    (run.lease_of_granted here (run.granted_of_lease here leased)).2
  have account' : lease'.account = desk.signer.address :=
    (run.lease_of_granted here' (run.granted_of_lease here' leased')).2
  have hold {k : Nat} {s : Send} {lease : Lease} (here : w.client k = .sending s)
      (leased : s.lease? = some lease) (account : lease.account = desk.signer.address) :
      (w.stake desk.signer.address k).hold? =
        some (desk.signer.address, lease.ticket, some lease.nonce) := by
    rw [Office.stake, here, Client.stake, Send.stake_eq_leased.mpr leased, ← account]
    rfl
  exact run.sound.hold_alone (hold here leased account) (hold here' leased' account')

/-- A send that was granted a lease has it still, or has ended. -/
theorem Run.leased_or_over (run : Run desk shared history w)
    (listed : (id, .granted lease) ∈ history) :
    (∃ s, w.client id = .sending s ∧ s.lease? = some lease) ∨
      ∃ e, (id, e) ∈ history ∧ e.isOver = true := by
  have shows := run.hasTrail id
  have mem := mem_trailOf.mpr listed
  cases here : w.client id with
  | sending s => exact .inl ⟨s, rfl, (run.lease_of_granted here listed).1⟩
  | absent | asking _ _ | holding _ =>
    rw [here] at shows
    rw [show trailOf history id = [] from shows] at mem
    cases mem
  | gone =>
    rw [here] at shows
    rcases shows with none | ⟨e, ended, isOver⟩
    · rw [none] at mem
      cases mem
    · exact .inr ⟨e, mem_trailOf.mp ended, isOver⟩

/-- A send that broadcasts has a lease. -/
theorem SendStep.lease_of_broadcast (step : SendStep desk w id shown w') {c : Candidate}
    {reply : Pending Verdict} (shows : .asked (.broadcast c reply) ∈ shown) :
    ∃ s lease, w.client id = .sending s ∧ s.lease? = some lease := by
  cases step with
  | starts _ | reschedules _ _ | drops _ => simp at shows
  | advances here step | ends here step =>
    obtain ⟨lease, e, phase, -⟩ :=
      (Send.move_of_noted step).queued_of_broadcast (Send.asked_mem_shown.mp shows)
    exact ⟨_, lease, here, by simp [Send.lease?, phase]⟩

/-- What one client shows at `j` comes in one step, so what another shows before it was shown before
    that step. -/
theorem shown_before {before later : List (Nat × Send.Event)} {x : Send.Event} {e : Send.Event}
    (other : id ≠ id') (split : history = before ++ shown.map (id', ·) ++ later)
    (at_i : history[i]? = some (id, x)) (earlier : i < j)
    (at_j : shown[j - before.length]? = some e) :
    i < before.length ∧ (id, x) ∈ before := by
  subst split
  obtain ⟨bound, -⟩ := List.getElem?_eq_some_iff.mp at_j
  have within : i < before.length + shown.length := by omega
  by_cases old : i < before.length
  · rw [List.append_assoc, List.getElem?_append_left old] at at_i
    exact ⟨old, List.mem_of_getElem? at_i⟩
  · have behind := Nat.le_of_not_lt old
    rw [List.append_assoc, List.getElem?_append_right behind,
      List.getElem?_append_left (by simpa using by omega), List.getElem?_map,
      Option.map_eq_some_iff] at at_i
    obtain ⟨_, -, same⟩ := at_i
    exact absurd (congrArg Prod.fst same).symm other

/-- A send that was granted a lease and has it no more has ended since. -/
theorem Run.over_since (run : Run desk shared history w) {before rest : List (Nat × Send.Event)}
    {v : Office} (run' : Run desk shared before v) (split : history = before ++ rest)
    (granted : history[i]? = some (id, .granted lease))
    (listed : (id, .granted lease) ∈ before)
    (lost : ∀ s, v.client id = .sending s → s.lease? ≠ some lease) :
    ∃ k e, i < k ∧ k < before.length ∧ history[k]? = some (id, e) ∧ e.isOver = true := by
  rcases run'.leased_or_over listed with ⟨s, here, leased⟩ | ⟨e, ended, isOver⟩
  · exact absurd leased (lost s here)
  · obtain ⟨k, at_k⟩ := List.getElem?_of_mem ended
    have within : k < before.length := (List.getElem?_eq_some_iff.mp at_k).1
    have at_k' : history[k]? = some (id, e) := by
      rw [split, List.getElem?_append_left within]
      exact at_k
    refine ⟨k, e, ?_, within, at_k', isOver⟩
    have order := run.le_of_over at_k' isOver granted
    refine Nat.lt_of_le_of_ne order ?_
    -- A grant is not an end.
    rintro rfl
    rw [granted] at at_k'
    cases at_k'
    cases isOver

/-- **A send that was granted a lease has ended before another one broadcasts.** -/
theorem Run.over_of_broadcast (run : Run desk shared history w) (other : id ≠ id')
    {c : Candidate} {reply : Pending Verdict} (granted : history[i]? = some (id, .granted lease))
    (earlier : i < j) (sent : history[j]? = some (id', .asked (.broadcast c reply))) :
    ∃ k e, i < k ∧ k < j ∧ history[k]? = some (id, e) ∧ e.isOver = true := by
  obtain ⟨before, v, shown, v', later, run', step, split, behind, at_j⟩ := run.step_at sent
  obtain ⟨-, listed⟩ := shown_before other split granted earlier at_j
  obtain ⟨s', lease', here', leased'⟩ := step.lease_of_broadcast (List.mem_of_getElem? at_j)
  rw [List.append_assoc] at split
  obtain ⟨k, e, ik, within, at_k, isOver⟩ :=
    run.over_since run' split granted listed fun s here leased =>
      other (run'.lease_alone here here' leased leased')
  exact ⟨k, e, ik, by omega, at_k, isOver⟩

/-- A send that broadcasts was granted a lease before. -/
theorem Run.granted_before (run : Run desk shared history w) {c : Candidate}
    {reply : Pending Verdict} (sent : history[i]? = some (id, .asked (.broadcast c reply))) :
    ∃ g lease, g < i ∧ history[g]? = some (id, .granted lease) := by
  obtain ⟨before, v, shown, v', later, run', step, rfl, behind, at_i⟩ := run.step_at sent
  obtain ⟨s, lease, here, leased⟩ := step.lease_of_broadcast (List.mem_of_getElem? at_i)
  obtain ⟨g, at_g⟩ := List.getElem?_of_mem (run'.granted_of_lease here leased)
  have within : g < before.length := (List.getElem?_eq_some_iff.mp at_g).1
  refine ⟨g, lease, by omega, ?_⟩
  rw [List.append_assoc, List.getElem?_append_left within]
  exact at_g

/-- **Broadcasts come in blocks**: between two of one send there is none of another. -/
theorem Run.blocks (run : Run desk shared history w) {c c' c'' : Candidate}
    {reply reply' reply'' : Pending Verdict} (ij : i < j) (jk : j < k)
    (at_i : history[i]? = some (id, .asked (.broadcast c reply)))
    (at_j : history[j]? = some (id', .asked (.broadcast c' reply')))
    (at_k : history[k]? = some (id, .asked (.broadcast c'' reply''))) : id = id' := by
  by_contra other
  obtain ⟨g, lease, gi, at_g⟩ := run.granted_before at_i
  obtain ⟨m, e, -, mj, at_m, isOver⟩ :=
    run.over_of_broadcast other at_g (Nat.lt_trans gi ij) at_j
  have last := run.le_of_over at_m isOver at_k
  omega

/-! ### Nonces -/

/-- A step that does not end with `nonceStale` neither forgets nor lowers a known `next`. -/
theorem SendStep.next_mono (step : SendStep desk w id shown w') (run : Run desk shared history w)
    {n : UInt64} (known : (w.leases.slot desk.signer.address).next = some n)
    (not_stale : ∀ e ∈ shown, e.isStale = false) :
    ∃ n', (w'.leases.slot desk.signer.address).next = some n' ∧ n.toNat ≤ n'.toNat := by
  have same {l : Leases} (kept : (l.slot desk.signer.address).next =
      (w.leases.slot desk.signer.address).next) :
      ∃ n', (l.slot desk.signer.address).next = some n' ∧ n.toNat ≤ n'.toNat :=
    ⟨n, kept.trans known, Nat.le_refl _⟩
  have unleased {s : Send} (none : s.lease? = none) (lease : Lease) :
      s.stake desk.signer.address ≠ .leased lease := fun leased => by
    rw [Send.stake_eq_leased.mp leased] at none
    cases none
  cases step with
  | starts _ | reschedules _ _ => exact same rfl
  | @advances s s' _ _ _ _ _ _ here step =>
    have move := Send.move_of_noted step
    refine same (move.stake.next_of_staying ?_ ?_)
    · -- Whoever has a lease keeps it while going on.
      intro lease leased idle
      have kept : s'.stake desk.signer.address = .leased lease :=
        Send.stake_eq_leased.mpr (move.lease_kept (Send.stake_eq_leased.mp leased))
      rw [Send.Outcome.stake, kept] at idle
      cases idle
    · -- A nonce is only read where none is known, and here one is.
      intro t reading
      have unknown := (run.sound.holds id desk.signer.address t none (by
        rw [Office.stake, here, Client.stake, reading]
        rfl)).2
      rw [known] at unknown
      cases unknown
  | @ends s result _ _ _ _ _ _ here step =>
    have move := Send.move_of_noted step
    cases leased : s.lease? with
    | none =>
      exact same (move.stake.next_of_unleased (unleased leased) (fun _ idle => by cases idle) _)
    | some lease =>
      have account := (run.lease_of_granted here (run.granted_of_lease here leased)).2
      have own := run.known here leased
      -- Before the escalation the lease is just given back; behind it the end decides.
      rcases move.ended_cases leased with ⟨rfl, -⟩ | ⟨r, rfl, rfl⟩
      · exact same (lease.next_release w.leases _)
      · have settled := Send.nextAfter_of_settle r own
        rw [account] at own settled
        obtain rfl := Option.some.inj (own.symm.trans known)
        exact settled.mono (not_stale _ (by simp [Send.shown]))
  | @drops s here =>
    cases leased : s.lease? with
    | none =>
      exact same ((Send.stake_of_abandon _ _ _).next_of_unleased (unleased leased)
        (fun _ idle => by cases idle) _)
    | some lease =>
      rw [put, Send.abandon_of_lease leased]
      exact same (lease.next_release w.leases _)

/-- A receipt commits the leased nonce: `next` is above it. -/
theorem SendStep.used_up (step : SendStep desk w id shown w') (run : Run desk shared history w)
    {receipt : Receipt} (shows : .ended (.ok receipt) ∈ shown)
    (granted : (id, .granted lease) ∈ history ++ shown.map (id, ·)) :
    ∃ n, (w'.leases.slot desk.signer.address).next = some n ∧ lease.nonce.toNat < n.toNat := by
  cases step with
  | starts _ | reschedules _ _ | drops _ => simp at shows
  | advances _ _ => cases Send.not_over_of_running shows
  | @ends s result _ _ _ _ _ _ here step =>
    obtain rfl : result = .ok receipt := by simpa [Send.shown, eq_comm] using shows
    have listed : (id, .granted lease) ∈ history := by simpa [Send.shown] using granted
    obtain ⟨leased, account⟩ := run.lease_of_granted here listed
    obtain ⟨lease', e, turn, phase, committed, -⟩ := (Send.move_of_noted step).ended_ok
    obtain rfl : lease' = lease := by simpa [Send.lease?, phase] using leased
    obtain ⟨room, rfl⟩ := Lease.commit_ok committed
    refine ⟨lease'.nonce + 1, ?_, by rw [Lease.toNat_next room]; omega⟩
    rw [← account]
    exact lease'.next_release_note w.leases _

/-- **A committed nonce stays below `next`**, as long as no `nonceStale` resyncs the account. -/
theorem Run.used_up (run : Run desk false history w) {before later : List (Nat × Send.Event)}
    {receipt : Receipt} (split : history = before ++ (id, .ended (.ok receipt)) :: later)
    (not_stale : ∀ x ∈ later, x.2.isStale = false)
    (granted : (id, .granted lease) ∈ history) :
    ∃ n, (w.leases.slot desk.signer.address).next = some n ∧ lease.nonce.toNat < n.toNat := by
  induction run generalizing before later with
  | opened => simp at split
  | hand _ allowed _ _ => cases allowed
  | @send history w id' shown w' run step ih =>
    have now (ended : (id, .ended (.ok receipt)) ∈ shown.map (id', ·)) :
        ∃ n, (w'.leases.slot desk.signer.address).next = some n ∧
          lease.nonce.toNat < n.toNat := by
      obtain ⟨e, shows, same⟩ := List.mem_map.mp ended
      obtain ⟨rfl, rfl⟩ := Prod.mk.inj same
      exact step.used_up run shows granted
    -- The end is shown by this step, or it was shown before it.
    rcases List.append_eq_append_iff.mp split with ⟨front, -, here⟩ | ⟨back, old, here⟩
    · exact now (by simp [here])
    · cases back with
      | nil =>
        rw [List.nil_append] at here
        exact now (here ▸ List.mem_cons_self)
      | cons x back =>
        obtain ⟨rfl, rfl⟩ := List.cons.inj here
        have ended : (id, .ended (.ok receipt)) ∈ history := by simp [old]
        have listed : (id, .granted lease) ∈ history := by
          rcases List.mem_append.mp granted with listed | new
          · exact listed
          · -- Who makes this step is not over, but this send is.
            obtain ⟨e, -, same⟩ := List.mem_map.mp new
            obtain rfl := congrArg Prod.fst same
            cases step.not_over run ended
        obtain ⟨n, known, below⟩ := ih old
          (fun x listed => not_stale x (List.mem_append_left _ listed)) listed
        obtain ⟨n', known', order⟩ := step.next_mono run known
          (fun e shows => not_stale (id', e)
            (List.mem_append_right _ (List.mem_map_of_mem shows)))
        exact ⟨n', known', by omega⟩

/-- A send that is granted a lease is running behind that step. -/
theorem SendStep.sending_of_granted (step : SendStep desk w id shown w')
    (shows : .granted lease ∈ shown) :
    (∃ s, w'.client id = .sending s) ∧ ∀ e ∈ shown, e.isOver = false := by
  cases step with
  | starts _ | reschedules _ _ | drops _ => simp at shows
  | advances _ _ =>
    exact ⟨⟨_, client_put_self ..⟩, fun _ listed => Send.not_over_of_running listed⟩
  | ends _ _ => simp [Send.shown] at shows

/-- **Nonces ascend**: a nonce that one send has committed is below that of every later lease,
    unless an end with `nonceStale` comes in between. -/
theorem Run.nonce_lt (run : Run desk false history w) (other : id ≠ id') (ij : i < j)
    {receipt : Receipt} (at_i : history[i]? = some (id, .granted lease))
    (at_j : history[j]? = some (id', .granted lease'))
    (at_k : history[k]? = some (id, .ended (.ok receipt)))
    (not_stale : ∀ m x, k < m → m < j → history[m]? = some x → x.2.isStale = false) :
    lease.nonce.toNat < lease'.nonce.toNat := by
  obtain ⟨before, v, shown, v', later, run', step, split, behind, shows⟩ := run.step_at at_j
  obtain ⟨-, listed⟩ := shown_before other split at_i ij shows
  replace shows := List.mem_of_getElem? shows
  obtain ⟨⟨s', here'⟩, going⟩ := step.sending_of_granted shows
  have next : Run desk false (before ++ shown.map (id', ·)) v' := run'.send step
  obtain ⟨leased', account'⟩ := next.lease_of_granted here'
    (List.mem_append_right _ (List.mem_map_of_mem shows))
  have inside {m : Nat} (within : m < before.length) : history[m]? = before[m]? := by
    rw [split, List.append_assoc, List.getElem?_append_left within]
  -- The first send is over before the second one is granted anything.
  have within : k < before.length := by
    obtain ⟨m, e, -, bound, at_m, isOver⟩ :=
      run.over_since run' (split.trans (List.append_assoc ..)) at_i listed fun s here leased =>
        other (next.lease_alone ((step.other other).trans here) here' leased leased')
    exact Nat.lt_of_le_of_lt (run.le_of_over at_m isOver at_k) bound
  rw [inside within] at at_k
  have cut : before = before.take k ++ (id, .ended (.ok receipt)) :: before.drop (k + 1) := by
    obtain ⟨_, same⟩ := List.getElem?_eq_some_iff.mp at_k
    rw [← same, ← List.drop_eq_getElem_cons, List.take_append_drop]
  obtain ⟨n, known, below⟩ := run'.used_up cut (fun x after => by
    obtain ⟨m, at_m⟩ := List.getElem?_of_mem after
    rw [List.getElem?_drop] at at_m
    have bound : k + 1 + m < before.length := (List.getElem?_eq_some_iff.mp at_m).1
    exact not_stale (k + 1 + m) x (by omega) (by omega) ((inside bound).trans at_m)) listed
  obtain ⟨n', known', order⟩ := step.next_mono run' known
    (fun e shown => Send.Event.not_stale_of_not_over (going e shown))
  have granted := next.known here' leased'
  rw [account', known', Option.some.injEq] at granted
  rw [← granted]
  exact Nat.lt_of_lt_of_le below order

/-- **Sends take turns.**  Where only sends use the slots:
    * between the grant of a send and its end no other one broadcasts;
    * the broadcasts come in blocks, one for every send;
    * the nonce that a send has committed for a receipt is below that of every send granted later,
      unless an end with `nonceStale` comes in between. -/
theorem Run.exclusive (run : Run desk false history w) :
    (∀ (id id' i j : Nat) (lease : Lease) (c : Candidate) (reply : Pending Verdict),
      id ≠ id' → i < j →
      history[i]? = some (id, .granted lease) →
      history[j]? = some (id', .asked (.broadcast c reply)) →
      ∃ (k : Nat) (e : Send.Event),
        i < k ∧ k < j ∧ history[k]? = some (id, e) ∧ e.isOver = true) ∧
    (∀ (id id' i j k : Nat) (c c' c'' : Candidate) (reply reply' reply'' : Pending Verdict),
      i < j → j < k →
      history[i]? = some (id, .asked (.broadcast c reply)) →
      history[j]? = some (id', .asked (.broadcast c' reply')) →
      history[k]? = some (id, .asked (.broadcast c'' reply'')) → id = id') ∧
    (∀ (id id' i j k : Nat) (lease lease' : Lease) (receipt : Receipt), id ≠ id' → i < j →
      history[i]? = some (id, .granted lease) → history[j]? = some (id', .granted lease') →
      history[k]? = some (id, .ended (.ok receipt)) →
      (∀ (m : Nat) (x : Nat × Send.Event), k < m → m < j → history[m]? = some x →
        x.2.isStale = false) →
      lease.nonce.toNat < lease'.nonce.toNat) := by
  refine ⟨?_, ?_, ?_⟩
  · intro id id' i j lease c reply other ij granted sent
    exact run.over_of_broadcast other granted ij sent
  · intro id id' i j k c c' c'' reply reply' reply'' ij jk at_i at_j at_k
    exact run.blocks ij jk at_i at_j at_k
  · intro id id' i j k lease lease' receipt other ij at_i at_j at_k not_stale
    exact run.nonce_lt other ij at_i at_j at_k not_stale

/-- What is in the front of a history is there before all that is in the back. -/
theorem exists_before {front back : List (Nat × Send.Event)} {x y : Nat × Send.Event}
    (mem : x ∈ front) (mem' : y ∈ back) :
    ∃ i j : Nat, i < j ∧ (front ++ back)[i]? = some x ∧ (front ++ back)[j]? = some y := by
  obtain ⟨i, at_i⟩ := List.getElem?_of_mem mem
  obtain ⟨j, at_j⟩ := List.getElem?_of_mem mem'
  have inside : i < front.length := (List.getElem?_eq_some_iff.mp at_i).1
  refine ⟨i, front.length + j, by omega, ?_, ?_⟩
  · rw [List.getElem?_append_left inside, at_i]
  · rw [List.getElem?_append_right (Nat.le_add_right ..), Nat.add_sub_cancel_left, at_j]

/-- Two sends, one after the other: the first one has ended before the second one broadcasts, and
    the second one has the higher nonce. -/
theorem Run.two_turns : ∃ (history : List (Nat × Send.Event)) (w : Office) (lease : Lease)
    (i j : Nat) (c : Candidate) (reply : Pending Verdict),
    Run Send.Errand.bare.desk false history w ∧
    history[i]? = some (0, .granted Send.Errand.bare.lease) ∧
    history[j]? = some (1, .asked (.broadcast c reply)) ∧
    (∃ (k : Nat) (e : Send.Event),
      i < k ∧ k < j ∧ history[k]? = some (0, e) ∧ e.isOver = true) ∧
    (1, .granted lease) ∈ history ∧
    Send.Errand.bare.lease.nonce.toNat < lease.nonce.toNat := by
  have begun : Run Send.Errand.bare.desk false [] .opened := .opened
  have absent : Office.opened.client 0 = .absent := rfl
  obtain ⟨calls, v, w, run, step, others, slot⟩ :=
    begun.prompt absent Send.Errand.bare_fits (by decide)
  -- The second send takes the place of the first one, with the next nonce.
  have next : Run (Send.Errand.bare.again w.leases.fresh).desk false _ w := run.send step
  have absent' : w.client 1 = .absent := others 1 (by decide)
  have room : (8 : UInt64).toNat + 1 < UInt64.size := by decide
  obtain ⟨calls', v', -, run', -⟩ :=
    next.prompt absent' (Send.Errand.again_fits rfl slot) room
  have granted : (0, .granted Send.Errand.bare.lease) ∈
      [] ++ (Send.Errand.bare.trail calls).map ((0 : Nat), ·) ++
        [.ended (.ok Send.Errand.bare.receipt)].map ((0 : Nat), ·) := by
    simp [Send.Errand.granted_mem_trail]
  have granted' : (1, .granted (Send.Errand.bare.again w.leases.fresh).lease) ∈
      ((Send.Errand.bare.again w.leases.fresh).trail calls').map ((1 : Nat), ·) := by
    simp [Send.Errand.granted_mem_trail]
  have sent : (1, .asked (.broadcast ((Send.Errand.bare.again w.leases.fresh).candidate .suggested)
        (.immediate 0 .accepted))) ∈
      ((Send.Errand.bare.again w.leases.fresh).trail calls').map ((1 : Nat), ·) := by
    simp [Send.Errand.broadcast_mem_trail]
  have ended : (0, .ended (.ok Send.Errand.bare.receipt)) ∈
      [] ++ (Send.Errand.bare.trail calls).map ((0 : Nat), ·) ++
        [.ended (.ok Send.Errand.bare.receipt)].map ((0 : Nat), ·) ++
      ((Send.Errand.bare.again w.leases.fresh).trail calls').map ((1 : Nat), ·) := by
    simp
  obtain ⟨i, j, ij, at_i, at_j⟩ := exists_before granted sent
  obtain ⟨i', j', ij', at_i', at_j'⟩ := exists_before granted granted'
  obtain ⟨k, at_k⟩ := List.getElem?_of_mem ended
  obtain ⟨turns, -, rise⟩ := run'.exclusive
  refine ⟨_, v', _, i, j, _, _, run', at_i, at_j, turns 0 1 i j _ _ _ (by decide) ij at_i at_j,
    List.mem_append_right _ granted', ?_⟩
  -- Neither of them meets a stale nonce.
  refine rise 0 1 i' j' k _ _ _ (by decide) ij' at_i' at_j' at_k ?_
  intro m x _ _ at_m
  have listed := List.mem_of_getElem? at_m
  simp only [List.nil_append, List.mem_append, List.mem_map, List.mem_singleton] at listed
  rcases listed with (⟨e, shows, rfl⟩ | ⟨_, rfl, rfl⟩) | ⟨e, shows, rfl⟩
  · exact Send.Event.not_stale_of_not_over (Send.Errand.not_over_of_mem_trail shows)
  · rfl
  · exact Send.Event.not_stale_of_not_over (Send.Errand.not_over_of_mem_trail shows)

end Office

end Relayer
