import Mathlib.Algebra.GroupWithZero.Nat
import Relayer.Proofs.Pricing
import Relayer.Proofs.Send.Course

namespace Relayer

/-!
# Moment — how many steps are possible at one moment

Steps take no time, so a send that ends at a moment has to end after finitely many of them.  The
tracker and the broadcasts can make only so many steps before they have to wait, and then the loop
gets its turn, whoever stepped first.

* `Tracker.steps` — a bound on the steps of a tracker at one moment;
* `Escalation.work` — what the tracker, the broadcasts and the loop have before them;
* `Send.EndsAt` — a send that ends at this moment, under any scheduling, slots and outside;
* `Send.endsAt_of_loop` — an escalation ends at the moment at which its loop ends it.
-/

variable {σ : Type}

/-! ### The tracker -/

/-- How often a ticker may tick at one moment, which is more than once where it is late. -/
def Ticker.rounds (t : Ticker) (now : Nat) : Nat := if t.next ≤ now then now - t.next + 1 else 0

/-- A tick keeps the period. -/
theorem Ticker.period_of_tick? {t t' : Ticker} {now : Nat} (due : t.tick? now = some t') :
    t'.period = t.period := by
  simp only [tick?] at due
  split at due
  next =>
    obtain rfl := Option.some.inj due
    rfl
  next => cases due

/-- A tick leaves fewer ticks at this moment. -/
theorem Ticker.rounds_lt {t t' : Ticker} {now : Nat} (due : t.tick? now = some t')
    (period : 0 < t.period) : t'.rounds now < t.rounds now := by
  simp only [tick?] at due
  split at due
  next here =>
    obtain rfl := Option.some.inj due
    simp only [rounds, if_pos here]
    split <;> split <;> omega
  next => cases due

namespace Tracker

/-- A bound on the steps that are left of a poll.  Every receipt takes up to five, and another two
    where the node is asked for its hash. -/
def left (t : Tracker) : Nat :=
  match t.stage with
  | .resting | .done | .broken => 0
  | .readingHead hashes _ => 5 * hashes.length + 3
  | .next _ unseen rest => 5 * rest.length + 2 * unseen.length + 2
  | .asking _ unseen _ rest _ => 5 * rest.length + 2 * unseen.length + 6
  | .found _ unseen hash receipt rest =>
    5 * rest.length + 2 * unseen.length + 3 + (if t.visible then 0 else 1) +
      (if t.minedIn? hash = some receipt.block then 0 else 1)
  | .absent _ unseen _ rest => 5 * rest.length + 2 * unseen.length + 5
  | .looking hashes => 2 * hashes.length + 1
  | .lookingAt _ rest _ => 2 * rest.length + 2
  | .sighted _ => 1

/-- A bound on the steps that a tracker can make at one moment. -/
def steps (now : Nat) (t : Tracker) : Nat :=
  t.left + t.ticker.rounds now * (5 * t.watched.length + 4)

variable {desk : Desk σ} {now : Nat} {room : Bool} {t t' : Tracker} {calls : List Inquiry}
  {event : Option TrackerEvent}

/-- A move within a poll leaves less of it. -/
theorem Move.left_lt_within (move : Move desk now room t calls t' event)
    (within : t.stage ≠ .resting) :
    t'.ticker = t.ticker ∧ t'.watched = t.watched ∧ t'.left < t.left := by
  cases move with
  | breaks stage _ | idles stage _ _ | begins stage _ _ => exact absurd stage within
  | @comesRound head unseen stage =>
    refine ⟨rfl, rfl, ?_⟩
    cases visible : t.visible <;> simp [left, stage]
  | @sights head unseen hash receipt rest stage _ unknown =>
    refine ⟨rfl, rfl, ?_⟩
    by_cases old : t.minedIn? hash = some receipt.block
    all_goals
      simp only [minedIn?] at old
      simp [left, stage, unknown, minedIn?, old]
  | mines stage _ known news =>
    refine ⟨rfl, rfl, ?_⟩
    simp only [minedIn?] at news
    simp [left, stage, minedIn?, news, noteMined]
  | finds stage _ _ =>
    refine ⟨rfl, rfl, ?_⟩
    simp only [left, stage]
    split <;> split <;> omega
  | heads stage _ | loses stage _ | asks stage _ | skips stage _ | misses stage _ _
  | confirms stage _ _ _ _ | passes stage _ _ _ | forgets stage _ _ | lacks stage _
  | despairs stage | looks stage _ | spots stage _ | overlooks stage _ _ | announces stage _ =>
    refine ⟨rfl, rfl, ?_⟩
    simp only [left, stage, List.length_append, List.length_cons, List.length_nil]
    omega

/-- Any other move begins a poll, or stops the tracker. -/
theorem Move.left_lt (move : Move desk now room t calls t' event) (period : 0 < t.ticker.period) :
    (t'.ticker = t.ticker ∧ t'.watched = t.watched ∧ t'.left < t.left) ∨
      (t.ticker.tick? now = some t'.ticker ∧ t'.watched = t.watched ∧
        t'.left < 5 * t.watched.length + 4) := by
  by_cases resting : t.stage = .resting
  · cases move with
    | breaks _ still => omega
    | idles stage due watched => exact .inr ⟨due, rfl, by simp [left, stage]⟩
    | begins stage due _ => exact .inr ⟨due, rfl, by simp [left]⟩
    | heads stage _ | loses stage _ | asks stage _ | comesRound stage | skips stage _
    | finds stage _ _ | misses stage _ _ | sights stage _ _ | mines stage _ _ _
    | confirms stage _ _ _ _ | passes stage _ _ _ | forgets stage _ _ | lacks stage _
    | despairs stage | looks stage _ | spots stage _ | overlooks stage _ _ | announces stage _ =>
      cases resting.symm.trans stage
  · exact .inl (move.left_lt_within resting)

/-- No move changes the period of the polls. -/
theorem Move.period_eq (move : Move desk now room t calls t' event) :
    t'.ticker.period = t.ticker.period := by
  cases move with
  | idles _ due _ | begins _ due _ => exact Ticker.period_of_tick? due
  | _ => rfl

/-- **Every move leaves fewer steps** at this moment, as long as the ticker has a period. -/
theorem Move.steps_lt (move : Move desk now room t calls t' event) (period : 0 < t.ticker.period) :
    t'.steps now < t.steps now := by
  simp only [steps]
  rcases move.left_lt period with ⟨ticker, watched, less⟩ | ⟨due, watched, less⟩
  · rw [ticker, watched]
    omega
  · have fewer := Ticker.rounds_lt due period
    -- A new poll takes the place of a tick that was still to come.
    rw [watched]
    calc t'.left + t'.ticker.rounds now * (5 * t.watched.length + 4)
        < (5 * t.watched.length + 4) + t'.ticker.rounds now * (5 * t.watched.length + 4) := by omega
      _ = (t'.ticker.rounds now + 1) * (5 * t.watched.length + 4) :=
        (Nat.add_comm _ _).trans (Nat.succ_mul _ _).symm
      _ ≤ t.ticker.rounds now * (5 * t.watched.length + 4) := Nat.mul_le_mul_right _ fewer
      _ ≤ t.left + t.ticker.rounds now * (5 * t.watched.length + 4) := Nat.le_add_left _ _

end Tracker

/-! ### The three parties -/

/-- The steps that are left of a broadcast task, and the one of the loop that joins it. -/
def Broadcast.steps : Broadcast → Nat
  | .queued _ => 3
  | .sent _ _ _ => 2

namespace Escalation

/-- The steps besides pricing and signing: those of the tracker and of the broadcasts, and those of
    the loop for what they send it, at most one a step. -/
def work (now : Nat) (e : Escalation) : Nat :=
  2 * e.tracker.steps now + e.inbox.length + (e.outstanding.map Broadcast.steps).sum +
    e.answered.length

/-- A step of the tracker or of a broadcast: the loop is where it was, and there is less work. -/
structure Aside (now : Nat) (e e' : Escalation) : Prop where
  phase : e'.phase = e.phase
  period : e'.tracker.ticker.period = e.tracker.ticker.period
  work : e'.work now < e.work now

variable {desk : Desk σ} {limits : Limits} {now : Nat} {e : Escalation} {out : Outcome}
  {outside outside' : σ}

/-- A step of the tracker leaves less work. -/
theorem aside_of_trackerStep (h : e.trackerStep desk now outside = some (out, outside'))
    (period : 0 < e.tracker.ticker.period) : ∃ e', out = .running e' ∧ e.Aside now e' := by
  have noted := trackerStep_noted desk now outside [] e
  rw [h, Option.map_eq_some_iff] at noted
  obtain ⟨⟨out', outside'', calls⟩, step, same⟩ := noted
  obtain ⟨rfl, rfl⟩ := Prod.mk.inj same
  unfold trackerStep at step
  split at step
  next => cases step
  next tracker event world step' =>
    obtain ⟨rfl, rfl⟩ := by simpa using step
    obtain ⟨calls', -, move⟩ := Tracker.move_of_step step'
    have fewer := move.steps_lt period
    refine ⟨_, rfl, rfl, move.period_eq, ?_⟩
    have one : event.toList.length ≤ 1 := by cases event <;> simp
    simp only [work, List.length_append]
    omega

/-- A step of the broadcasts leaves fewer of them. -/
theorem sendFirst_steps {chain : Chain σ} {broadcasts broadcasts' : List Broadcast}
    {answer : Option Answer}
    (h : sendFirst chain now outside broadcasts = some (broadcasts', answer, outside')) :
    (broadcasts'.map Broadcast.steps).sum + answer.toList.length <
      (broadcasts.map Broadcast.steps).sum := by
  induction broadcasts generalizing broadcasts' with
  | nil => cases h
  | cons b rest ih =>
    cases b with
    | queued c =>
      obtain ⟨rfl, rfl, rfl⟩ := by simpa [sendFirst] using h
      simp [Broadcast.steps]
    | sent bid hash reply =>
      simp only [sendFirst] at h
      split at h
      next verdict ready =>
        obtain ⟨rfl, rfl, rfl⟩ := by simpa using h
        simp only [List.map_cons, List.sum_cons, Broadcast.steps, Option.toList_some,
          List.length_singleton]
        omega
      next =>
        split at h
        next rest' answer' outside'' step =>
          obtain ⟨rfl, rfl, rfl⟩ := by simpa using h
          simpa [Nat.add_assoc] using ih step
        next => cases h

/-- A step of the broadcasts leaves less work. -/
theorem aside_of_broadcastStep (h : e.broadcastStep desk now outside = some (out, outside')) :
    ∃ e', out = .running e' ∧ e.Aside now e' := by
  unfold broadcastStep at h
  split at h
  next => cases h
  next outstanding answer outside'' step =>
    obtain ⟨rfl, rfl⟩ := by simpa using h
    have fewer := sendFirst_steps step
    refine ⟨_, rfl, rfl, rfl, ?_⟩
    simp only [work, List.length_append]
    omega

/-- **A step is one of the loop's, or leaves the loop where it is** with less work. -/
theorem step_cases (h : e.step desk limits now outside = some (out, outside'))
    (period : 0 < e.tracker.ticker.period) :
    ({ e with turn := .loop } : Escalation).loopStep desk limits now outside =
        some (out, outside') ∨
      ∃ e', out = .running e' ∧ e.Aside now e' := by
  obtain ⟨party, -, h⟩ := List.exists_of_findSome?_eq_some h
  -- Whose turn it is makes no difference to what there is to do.
  cases party with
  | loop => exact .inl h
  | tracker =>
    obtain ⟨e', rfl, aside⟩ := aside_of_trackerStep h period
    exact .inr ⟨e', rfl, aside.phase, aside.period, aside.work⟩
  | broadcasts =>
    obtain ⟨e', rfl, aside⟩ := aside_of_broadcastStep h
    exact .inr ⟨e', rfl, aside.phase, aside.period, aside.work⟩

/-- A signature that has come is taken, unless the token is cancelled. -/
theorem loopStep_signed {first : Bool} {reply : Pending (Except Stop (List UInt8))}
    {signed : Except Stop (List UInt8)} (phase : e.phase = .signing first reply)
    (ready : reply.ready? now = some signed) (going : limits.cancelled = true → first = true) :
    e.loopStep desk limits now outside = some (e.afterSigning signed, outside) := by
  simp only [loopStep, phase, ready]
  rw [if_neg]
  intro cancelled
  simp only [Bool.and_eq_true, Bool.not_eq_true'] at cancelled
  rw [going cancelled.1] at cancelled
  cases cancelled.2

/-- A signature leads back to listening, whether there is one or it fails with a retryable failure;
    else the send ends as the signer says. -/
theorem afterSigning_cases (e : Escalation) (signed : Except Stop (List UInt8)) :
    (∃ e', e.afterSigning signed = .running e' ∧ e'.phase = .listening ∧
        e'.tracker.ticker.period = e.tracker.ticker.period) ∨
      ∃ stop, signed = .error stop ∧ (∀ f, stop = .failure f → f.isRetryable = false) ∧
        e.afterSigning signed = .ended (.error stop) := by
  match signed with
  | .ok raw =>
    refine .inl ⟨_, rfl, rfl, ?_⟩
    simp only [Tracker.watch]
    split <;> rfl
  | .error (.fault f) => exact .inr ⟨_, rfl, by simp, rfl⟩
  | .error (.failure f) =>
    by_cases passing : f.isRetryable = true
    · exact .inl ⟨{ e with phase := .listening }, by simp [afterSigning, passing], rfl, rfl⟩
    · refine .inr ⟨_, rfl, ?_, by simp [afterSigning, passing, fails]⟩
      intro f' same
      cases same
      simpa using passing

/-- Rescheduling makes no work. -/
theorem work_rescheduled (now : Nat) (e : Escalation) (turn : Party)
    {outstanding : List Broadcast} (order : outstanding.Perm e.outstanding) :
    ({ e with turn, outstanding } : Escalation).work now = e.work now := by
  simp only [work, (order.map Broadcast.steps).sum_nat]

end Escalation

/-! ### Ends at a moment -/

namespace Send

/-- The send as it is, or with its parties in another order. -/
def Reordered (s s' : Send) : Prop := s' = s ∨ s.Rescheduled s'

/-- The send ends at this moment, whatever the scheduler, the slots and the outside do: it can make
    a step as long as it has not ended, no sequence of steps goes on forever, and `P` says of every
    last step where it was made, with which slots before and after it, and what the result is. -/
inductive EndsAt (desk : Desk σ) (limits : Limits) (now : Nat)
    (P : Send → Leases → Except Stop Receipt → Leases → Prop) : Send → Prop where
  | intro {s}
      (goes : ∀ s' l outside, s.Reordered s' →
        s'.stepWithin desk limits now l outside ≠ none)
      (ends : ∀ s' l outside result l' outside', s.Reordered s' →
        s'.stepWithin desk limits now l outside = some (.ended result, l', outside') →
        P s' l result l')
      (next : ∀ s' l outside s'' l' outside', s.Reordered s' →
        s'.stepWithin desk limits now l outside = some (.running s'', l', outside') →
        EndsAt desk limits now P s'') :
      EndsAt desk limits now P s

variable {desk : Desk σ} {limits : Limits} {now : Nat}
  {P : Send → Leases → Except Stop Receipt → Leases → Prop} {call : Call} {deadline : Option Nat}
  {lease : Lease} {e : Escalation} {s s' : Send} {l l' : Leases} {outside outside' : σ}
  {out : Outcome}

/-- The parties of an escalation in another order are in the same place, with as much work. -/
theorem Reordered.escalating (now : Nat)
    (order : Reordered ⟨call, deadline, .escalating lease e⟩ s') :
    ∃ e', s' = ⟨call, deadline, .escalating lease e'⟩ ∧ e'.phase = e.phase ∧
      e'.tracker = e.tracker ∧ e'.work now = e.work now := by
  rcases order with rfl | ⟨lease', e', turn, outstanding, phase, order, rfl⟩
  · exact ⟨e, rfl, rfl, rfl, rfl⟩
  · cases phase
    exact ⟨_, rfl, rfl, rfl, e.work_rescheduled now turn order⟩

/-- A step of an escalating send is one of its escalation. -/
theorem step_escalating (h : stepWithin desk limits now ⟨call, deadline, .escalating lease e⟩ l
      outside = some (out, l', outside')) :
    (∃ e', e.step desk limits now outside = some (.running e', outside') ∧
        out = .running ⟨call, deadline, .escalating lease e'⟩) ∨
      ∃ result, e.step desk limits now outside = some (.ended result, outside') ∧
        out = .ended (settle lease result l).1 ∧ l' = (settle lease result l).2 := by
  simp only [stepWithin] at h
  split at h
  next => cases h
  next e' outside'' step =>
    obtain ⟨rfl, -, rfl⟩ := by simpa [enter] using h
    exact .inl ⟨e', step, rfl⟩
  next result outside'' step =>
    obtain ⟨rfl, rfl, rfl⟩ := by simpa using h
    exact .inr ⟨result, step, rfl, rfl⟩

/-- While the loop waits, a step of the send leaves it where it is. -/
theorem step_aside
    (waits : ({ e with turn := .loop } : Escalation).loopStep desk limits now outside = none)
    (period : 0 < e.tracker.ticker.period)
    (step : stepWithin desk limits now ⟨call, deadline, .escalating lease e⟩ l outside =
      some (out, l', outside')) :
    ∃ e', out = .running ⟨call, deadline, .escalating lease e'⟩ ∧ e.Aside now e' := by
  rcases step_escalating step with ⟨e', inner, rfl⟩ | ⟨result, inner, -, -⟩
  · rcases Escalation.step_cases inner period with own | ⟨_, same, aside⟩
    · cases waits.symm.trans own
    · cases same
      exact ⟨e', rfl, aside⟩
  · rcases Escalation.step_cases inner period with own | ⟨_, same, -⟩
    · cases waits.symm.trans own
    · cases same

/-- **A send does not end at a moment while every step keeps it** in some kind of state. -/
theorem EndsAt.not_kept [Nonempty σ] (h : s.EndsAt desk limits now P) (kept : Send → Prop)
    (keeps : ∀ s l outside out l' outside', kept s →
      s.stepWithin desk limits now l outside = some (out, l', outside') →
      ∃ s', out = .running s' ∧ kept s') : ¬ kept s := by
  induction h with
  | @intro s goes _ _ ih =>
    intro here
    obtain ⟨outside⟩ := ‹Nonempty σ›
    obtain ⟨⟨out, l', outside'⟩, step⟩ :=
      Option.ne_none_iff_exists'.mp (goes s .empty outside (.inl rfl))
    obtain ⟨s', rfl, there⟩ := keeps s .empty outside out l' outside' here step
    exact ih s .empty outside s' l' outside' (.inl rfl) step there

/-- Before its escalation, a limit ends a send at once. -/
theorem endsAt_of_verdict {f : Failure} (early : ∀ lease e, s.phase ≠ .escalating lease e)
    (verdict : limits.verdict now = some f)
    (allowed : ∀ l, P s l (.error (.failure f)) (s.abandon desk.signer.address l)) :
    s.EndsAt desk limits now P := by
  have only {s'} (order : s.Reordered s') : s' = s := by
    rcases order with rfl | ⟨lease, e, _, _, phase, -, -⟩
    · rfl
    · exact absurd phase (early lease e)
  refine .intro ?_ ?_ ?_
  · intro s' l outside order
    rw [only order, stepWithin_of_verdict early verdict]
    exact Option.some_ne_none _
  · intro s' l outside result l' outside' order step
    obtain rfl := only order
    rw [stepWithin_of_verdict early verdict] at step
    cases step
    exact allowed l
  · intro s' l outside s'' l' outside' order step
    rw [only order, stepWithin_of_verdict early verdict] at step
    cases step

/-- **An escalation ends at the moment at which its loop ends it.**  `K` says where the loop is:
    there it always makes a step, and that ends the send, leads to where the send ends, or leads to
    `K` again with less work. -/
theorem endsAt_of_loop (K : Escalation.Phase → Prop)
    (loop : ∀ (e : Escalation) l outside, K e.phase → 0 < e.tracker.ticker.period →
      ∃ out outside', ({ e with turn := .loop } : Escalation).loopStep desk limits now outside =
          some (out, outside') ∧
        (∀ result, out = .ended result → P ⟨call, deadline, .escalating lease e⟩ l
          (settle lease result l).1 (settle lease result l).2) ∧
        (∀ e', out = .running e' → EndsAt desk limits now P ⟨call, deadline, .escalating lease e'⟩ ∨
          (K e'.phase ∧ e'.tracker.ticker.period = e.tracker.ticker.period ∧
            e'.work now < e.work now)))
    (here : K e.phase) (period : 0 < e.tracker.ticker.period) :
    EndsAt desk limits now P ⟨call, deadline, .escalating lease e⟩ := by
  -- The induction is on `work`, and every step aside leaves less of it.
  induction left : e.work now using Nat.strongRecOn generalizing e with
  | ind n ih =>
    subst left
    refine .intro ?_ ?_ ?_
    · intro s' l outside order stuck
      obtain ⟨e', rfl, phase, tracker, -⟩ := order.escalating now
      obtain ⟨out, outside', step, -⟩ := loop e' l outside (phase ▸ here) (tracker ▸ period)
      have waits := stepOf_of_idle rfl stuck .loop
      cases step.symm.trans waits
    · intro s' l outside result l' outside' order step
      obtain ⟨e', rfl, phase, tracker, -⟩ := order.escalating now
      obtain ⟨_, -, running⟩ | ⟨result', inner, ended, rfl⟩ := step_escalating step
      · cases running
      cases ended
      obtain own | ⟨_, running, -⟩ := Escalation.step_cases inner (tracker ▸ period)
      · obtain ⟨out, outside'', same, ended, -⟩ :=
          loop e' l outside (phase ▸ here) (tracker ▸ period)
        rw [same] at own
        cases own
        exact ended result' rfl
      · cases running
    · intro s' l outside s'' l' outside' order step
      obtain ⟨e', rfl, phase, tracker, work⟩ := order.escalating now
      obtain ⟨e'', inner, running⟩ | ⟨_, -, ended, -⟩ := step_escalating step
      · cases running
        obtain own | ⟨_, same, aside⟩ := Escalation.step_cases inner (tracker ▸ period)
        · obtain ⟨out, outside'', same, -, next⟩ :=
            loop e' l outside (phase ▸ here) (tracker ▸ period)
          rw [same] at own
          cases own
          rcases next e'' rfl with ends | ⟨here', period', less⟩
          · exact ends
          · exact ih _ (work ▸ less) here' (by rw [period', tracker]; exact period) rfl
        · cases same
          refine ih _ (work ▸ aside.work) ?_ ?_ rfl
          · rw [aside.phase, phase]
            exact here
          · rw [aside.period, tracker]
            exact period
      · cases ended

/-! ### Rounds -/

variable {trail : List Event}

/-- The tracker of a send polls every `policy.receiptInterval`. -/
theorem Run.period_eq (run : Run desk call trail s) (phase : s.phase = .escalating lease e) :
    e.tracker.ticker.period = desk.policy.receiptInterval := by
  refine run.induction (P := fun _ s => ∀ lease e, s.phase = .escalating lease e →
    e.tracker.ticker.period = desk.policy.receiptInterval) (fun _ _ _ phase => by cases phase)
    ?_ ?_ lease e phase
  · rintro _ s s' ih ⟨lease, e, turn, outstanding, phase, -, rfl⟩ lease' e' phase'
    cases phase'
    exact ih lease e phase
  · intro _ s s' limits now l l' calls ih move lease' e' phase'
    cases move with
    | inherits _ _ _ | learns _ _ =>
      simp only [afterLease] at phase'
      split at phase' <;> cases phase'
    | bids _ _ first =>
      cases phase'
      obtain ⟨bid, -, rfl⟩ := firstBid_ok first
      rfl
    | escalates phase move =>
      cases phase'
      have before := ih _ _ phase
      cases move with
      | tracks move => exact move.period_eq.trans before
      | publishes _ _ =>
        rw [← before]
        simp only [Escalation.handOut, Tracker.watch]
        split <;> rfl
      | _ => exact before
    | _ => cases phase'

/-- The interval of the polls is positive in a valid policy. -/
theorem Run.period_pos (valid : desk.policy.validate = .ok ()) (run : Run desk call trail s)
    (phase : s.phase = .escalating lease e) : 0 < e.tracker.ticker.period := by
  rw [run.period_eq phase]
  exact Policy.receiptInterval_pos valid

end Send

end Relayer
