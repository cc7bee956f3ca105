import Relayer.Proofs.Send.Course
import Relayer.Proofs.Send.Mirror

namespace Relayer

/-!
# Sightings — `notInMempool` ends no send whose candidate was seen

A send ends with `notInMempool` where no candidate is seen in the mempool in time.  The tracker sees
it, emits `inMempool` into the inbox, and there the event competes with the mempool deadline: here
is why it always wins.

* `Desk.NeverFailsWith` — a failure that no outside party gives;
* `Tracker.Stage.sighting?` — the hash that the tracker has just seen;
* `Escalation.NoEmission` — a tracker that is not `visible` has emitted nothing;
* `Send.Lookout` — a send by the clock with the sightings of its tracker;
* `Send.Lookout.of_course` — every course is one;
* `Send.Lookout.never_seen` — what is known of a send that ends with `notInMempool`.
-/

variable {σ : Type}

/-! ### Failures of the send's own -/

/-- No outside party fails with `f`. -/
structure Desk.NeverFailsWith (desk : Desk σ) (f : Failure) : Prop where
  estimate : ∀ t now outside, (desk.chain.estimate t now outside).1.answer ≠ .error f
  gasPrice : ∀ now outside, (desk.chain.gasPrice now outside).1.answer ≠ .error f
  nonce : ∀ account now outside, (desk.chain.nonce account now outside).1.answer ≠ .error f
  sign : ∀ id t now outside, (desk.signer.sign id t now outside).1.answer ≠ .error (.failure f)

namespace Send

variable {desk : Desk σ} {limits : Limits} {now : Nat} {s : Send} {l l' : Leases}
  {calls : List Inquiry} {f : Failure}

/-- **A failure that no outside party gives is one of the escalation's own**, or of the limits. -/
theorem Move.ended_own (move : Move desk limits now s l calls (.ended (.error (.failure f))) l')
    (never : desk.NeverFailsWith f) (unlimited : limits.verdict now ≠ some f) (asked : s.Asked desk)
    (served : s.Served desk) :
    ∃ lease e turn, s.phase = .escalating lease e ∧
      Escalation.Move desk limits now { e with turn } calls (.ended (.error (.failure f))) ∧
      ∀ first reply, e.phase = .signing first reply → reply.answer ≠ .error (.failure f) := by
  generalize out : Outcome.ended _ = outcome at move
  cases move
  -- An escalation's own end, whose signer does not answer with the failure.
  case settles lease e turn result phase move =>
    simp only [Outcome.ended.injEq] at out
    obtain rfl := eq_failure_of_settle out.symm
    rw [Served, phase] at served
    refine ⟨lease, e, turn, phase, move, fun first reply signing => ?_⟩
    obtain ⟨t, now, outside, rfl⟩ := served first reply signing
    exact never.sign _ _ _ _
  case fails phase ready _ =>
    cases out
    rw [Served, phase] at served
    obtain ⟨now, outside, rfl⟩ := served
    exact absurd (Pending.answer_of_ready ready) (never.nonce _ _ _)
  case leaves phase verdict | stops phase verdict =>
    cases out
    exact absurd verdict unlimited
  case unestimated phase move =>
    cases out
    rw [Asked, phase] at asked
    rcases move.failed_cases with verdict | ⟨reply, rfl, answer⟩
    · exact absurd verdict unlimited
    · obtain ⟨now, outside, rfl⟩ := asked
      exact absurd answer (never.estimate _ _ _)
  case unpriced phase move =>
    cases out
    rw [Asked, phase] at asked
    rcases move.failed_cases with verdict | ⟨reply, rfl, answer⟩
    · exact absurd verdict unlimited
    · obtain ⟨now, outside, rfl⟩ := asked
      exact absurd answer (never.gasPrice _ _)
  all_goals cases out

end Send

/-- An escalation ends with `notInMempool` by its mempool deadline, or by its signer. -/
theorem Escalation.Move.ended_unseen {desk : Desk σ} {limits : Limits} {now waited : Nat}
    {e : Escalation} {calls : List Inquiry}
    (move : e.Move desk limits now calls (.ended (.error (.failure (.notInMempool waited)))))
    (sign : ∀ first reply, e.phase = .signing first reply →
      reply.answer ≠ .error (.failure (.notInMempool waited))) :
    e.inbox = [] ∧ e.book.seen = false ∧ e.mempoolDeadline desk.policy ≤ now ∧
      waited = now - e.started := by
  generalize out : Escalation.Outcome.ended _ = outcome at move
  cases move
  case vanishes _ inbox _ unseen late =>
    cases out
    exact ⟨inbox, unseen, late, rfl⟩
  case condemns folded =>
    cases out
    rcases Book.fold_error folded with ⟨-, other⟩ | ⟨-, -, other⟩ | ⟨-, -, -, other⟩ <;>
      cases other
  case refuses phase ready _ =>
    cases out
    exact absurd (Pending.answer_of_ready ready) (sign _ _ phase)
  all_goals cases out

/-! ### What the tracker comes upon -/

namespace Tracker

/-- The hash that the tracker has just seen, by a receipt in a block or because the node knows
    it. -/
def Stage.sighting? : Stage → Option Digest
  | .found _ _ hash _ _ | .sighted hash => some hash
  | _ => none

variable {desk : Desk σ} {now : Nat} {room : Bool} {t t' : Tracker} {calls : List Inquiry}
  {event : Option TrackerEvent}

/-- `visible` stays set, whatever becomes of the hash. -/
theorem Move.visible (move : Move desk now room t calls t' event) (seen : t.visible = true) :
    t'.visible = true := by
  cases move <;> first | rfl | exact seen

/-- **A tracker that is not `visible` yet emits nothing**, notes no block, and had seen no hash
    before. -/
theorem Move.unseen (move : Move desk now room t calls t' event) (unmined : t.mined = [])
    (unseen : t'.visible = false) :
    t.stage.sighting? = none ∧ t'.mined = [] ∧ event = none := by
  cases move with
  | sights _ _ _ | announces _ _ => cases unseen
  | mines _ _ known _ | confirms _ _ known _ _ | passes _ known _ _ => cases known.symm.trans unseen
  | forgets _ _ old => simp [minedIn?, unmined] at old
  | breaks stage _ | idles stage _ _ | begins stage _ _ | heads stage _ | loses stage _
  | asks stage _ | comesRound stage | skips stage _ | finds stage _ _ | misses stage _ _
  | lacks stage _ | despairs stage | looks stage _ | spots stage _ | overlooks stage _ _ =>
    exact ⟨by rw [stage]; rfl, unmined, rfl⟩

/-- **The tracker sees a hash** by a receipt in a block, or because the node says that it knows
    it. -/
theorem Move.sighting_iff (move : Move desk now room t calls t' event)
    (nowhere : t.stage.sighting? = none) {hash : Digest} :
    t'.stage.sighting? = some hash ↔
      (∃ head unseen rest reply answer receipt, t.stage = .asking head unseen hash rest reply ∧
        reply.ready? now = some (.ok answer) ∧
        answer.bind (Receipt.ofChain? · head) = some receipt) ∨
      ∃ rest reply, t.stage = .lookingAt hash rest reply ∧ reply.ready? now = some (.ok true) := by
  cases move with
  | finds stage ready found =>
    simp only [Stage.sighting?, stage, Option.some.injEq, Stage.asking.injEq]
    constructor
    · rintro rfl
      exact .inl ⟨_, _, _, _, _, _, ⟨rfl, rfl, rfl, rfl, rfl⟩, ready, found⟩
    · rintro (⟨_, _, _, _, _, _, ⟨-, -, rfl, -, -⟩, -⟩ | ⟨_, _, ⟨⟩, -⟩)
      rfl
  | spots stage ready =>
    simp only [Stage.sighting?, stage, Option.some.injEq, Stage.lookingAt.injEq]
    constructor
    · rintro rfl
      exact .inr ⟨_, _, ⟨rfl, rfl, rfl⟩, ready⟩
    · rintro (⟨_, _, _, _, _, _, ⟨⟩, -⟩ | ⟨_, _, ⟨rfl, -, -⟩, -⟩)
      rfl
  | sights stage _ _ | mines stage _ _ _ | confirms stage _ _ _ _ | passes stage _ _ _
  | announces stage _ =>
    rw [stage] at nowhere
    cases nowhere
  -- The answer that has come is another one.
  | skips stage ready => simp [Stage.sighting?, stage, ready]
  | @misses _ _ _ _ _ answer stage ready missing =>
    simp [Stage.sighting?, stage, ready, missing]
  | overlooks stage ready unknown =>
    simp [Stage.sighting?, stage, ready, unknown]
  | comesRound stage =>
    cases t.visible <;> simp [Stage.sighting?, stage]
  | idles stage _ _ => simp [Stage.sighting?, stage]
  | breaks stage _ | begins stage _ _ | heads stage _ | loses stage _ | asks stage _
  | forgets stage _ _ | lacks stage _ | despairs stage | looks stage _ =>
    simp [Stage.sighting?, stage]

/-- Watching one more hash changes neither `visible` nor `mined`. -/
theorem visible_watch (t : Tracker) (hash : Digest) :
    (t.watch hash).visible = t.visible ∧ (t.watch hash).mined = t.mined := by
  unfold watch
  split <;> exact ⟨rfl, rfl⟩

/-- A tracker that has just seen a hash steps at once where the channel has room. -/
theorem step_of_sighting {chain : Chain σ} {outside : σ} {hash : Digest}
    (sighting : t.stage.sighting? = some hash) : t.step chain now true outside ≠ none := by
  unfold Stage.sighting? at sighting
  split at sighting
  next stage =>
    simp only [step, stage, atReceipt, emit, if_true]
    split
    · simp [inside]
    · split
      · simp [inside]
      · split <;> simp [inside, silent]
  next stage => simp [step, stage, emit, inside]
  next => cases sighting

end Tracker

/-- The send state that has received all emissions matches the tracker as it is now. -/
theorem Tracker.Leads.matches {t : Tracker} {b : Book} {emitted : List Emission}
    (h : t.Leads b emitted) :
    t.Matches ((emitted.map (·.event)).foldl Book.received b) := by
  induction emitted generalizing b with
  | nil => exact h
  | cons x rest ih => exact ih h.2

/-- A hash that the tracker has seen, and when it did. -/
structure Sighting where
  moment : Nat
  hash : Digest

namespace Escalation

variable {desk : Desk σ} {limits : Limits} {now : Nat} {e e' : Escalation} {calls : List Inquiry}
  {sightings : List Sighting}

/-- The sightings of a step. -/
def sights (now : Nat) (before after : Escalation) : List Sighting :=
  if before.tracker.stage.sighting?.isSome then []
  else after.tracker.stage.sighting?.toList.map (⟨now, ·⟩)

/-- A step that leaves the tracker alone has no sighting. -/
theorem sights_of_same (same : e'.tracker.stage = e.tracker.stage) : e.sights now e' = [] := by
  unfold sights
  rw [same]
  cases e.tracker.stage.sighting? <;> rfl

/-- A tracker that is not `visible` has noted no block and emitted nothing, and all its sightings
    are of this very moment. -/
def NoEmission (now : Nat) (sightings : List Sighting) (e : Escalation) : Prop :=
  e.tracker.visible = false → e.tracker.mined = [] ∧ e.inbox = [] ∧
    ∀ x ∈ sightings, x.moment = now ∧ e.tracker.stage.sighting? = some x.hash

/-- A step that leaves tracker and inbox alone keeps `NoEmission`. -/
theorem NoEmission.of_quiet (h : e.NoEmission now sightings)
    (visible : e'.tracker.visible = e.tracker.visible)
    (mined : e'.tracker.mined = e.tracker.mined) (stage : e'.tracker.stage = e.tracker.stage)
    (inbox : e.inbox = [] → e'.inbox = []) : e'.NoEmission now (sightings ++ e.sights now e') := by
  rw [sights_of_same stage, List.append_nil]
  intro unseen
  obtain ⟨unmined, unread, sighted⟩ := h (visible.symm.trans unseen)
  exact ⟨mined.trans unmined, inbox unread, fun x listed => stage ▸ sighted x listed⟩

/-- **Every move keeps `NoEmission`.** -/
theorem Move.noEmission (h : e.NoEmission now sightings)
    (move : Move desk limits now e calls (.running e')) :
    e'.NoEmission now (sightings ++ e.sights now e') := by
  cases move with
  | @tracks _ tracker event move =>
    intro unseen
    -- What is still unseen was so before, when the tracker was at each of the earlier sightings.
    have before : e.tracker.visible = false :=
      Bool.eq_false_iff.mpr fun seen => by simp [move.visible seen] at unseen
    obtain ⟨unmined, unread, sighted⟩ := h before
    obtain ⟨nowhere, unmined', rfl⟩ := move.unseen unmined unseen
    have none : sightings = [] := by
      rw [List.eq_nil_iff_forall_not_mem]
      intro x listed
      cases nowhere.symm.trans (sighted x listed).2
    refine ⟨unmined', by simp [unread], ?_⟩
    rw [none, List.nil_append, sights, nowhere]
    intro x listed
    obtain ⟨hash, here, rfl⟩ := by simpa using listed
    exact ⟨rfl, here⟩
  | receives _ _ inbox _ =>
    exact h.of_quiet rfl rfl rfl fun unread => by cases inbox.symm.trans unread
  | publishes _ _ =>
    obtain ⟨visible, mined⟩ := e.tracker.visible_watch _
    exact h.of_quiet visible mined (Tracker.stage_watch ..) id
  | _ => exact h.of_quiet rfl rfl rfl id

end Escalation

/-! ### Sends with their sightings -/

namespace Send

/-- The sightings of a step of a send. -/
def sights (now : Nat) (before after : Send) : List Sighting :=
  match before.phase, after.phase with
  | .escalating _ e, .escalating _ e' => e.sights now e'
  | _, _ => []

/-- A send of `call` by the clock, with its trail and with all sightings of its tracker.  Time
    passes as it likes, and any step may be late; only between a sighting and the emission of its
    `inMempool` there is nothing that takes time, as long as the channel has room. -/
inductive Lookout (desk : Desk σ) (call : Call) :
    List Event → List Sighting → Nat → Send → Prop where
  | start (now : Nat) : Lookout desk call [] [] now (.start desk.policy call now)
  | pass {trail sightings now later s} (lookout : Lookout desk call trail sightings now s)
      (passes : now ≤ later)
      (emitted : ∀ lease e, s.phase = .escalating lease e → e.inbox.length < Escalation.inboxSize →
        e.tracker.stage.sighting? = none) :
      Lookout desk call trail sightings later s
  | reschedule {trail sightings now s s'} (lookout : Lookout desk call trail sightings now s)
      (order : s.Rescheduled s') : Lookout desk call trail sightings now s'
  | step {trail sightings now s s' limits leases leases' outside outside' calls}
      (lookout : Lookout desk call trail sightings now s)
      (step : s.stepWithin desk.noted limits now leases (outside, []) =
        some (.running s', leases', outside', calls)) :
      Lookout desk call (trail ++ s.shown calls (.running s')) (sightings ++ s.sights now s') now s'

namespace Lookout

variable {desk : Desk σ} {call : Call} {trail : List Event} {sightings : List Sighting}
  {now : Nat} {s : Send}

/-- Without the clock, a lookout is a run. -/
theorem run (lookout : Lookout desk call trail sightings now s) : Run desk call trail s := by
  induction lookout with
  | start now => exact .start now
  | pass _ _ _ ih => exact ih
  | reschedule _ order ih => exact .reschedule ih order
  | step _ step ih => exact .step ih step

/-- **Every course is a lookout**: time does not pass while the tracker has an event to emit that
    there is room for. -/
theorem of_course {begun : Nat} {cancelAt : Option Nat}
    (course : Course desk call begun cancelAt trail now s) :
    ∃ sightings, Lookout desk call trail sightings now s := by
  induction course with
  | start => exact ⟨[], .start begun⟩
  | reschedule _ order ih =>
    obtain ⟨sightings, lookout⟩ := ih
    exact ⟨sightings, .reschedule lookout order⟩
  | step _ step ih =>
    obtain ⟨sightings, lookout⟩ := ih
    exact ⟨_, .step lookout step⟩
  | wait _ idle later passes _ ih =>
    obtain ⟨sightings, lookout⟩ := ih
    refine ⟨sightings, .pass lookout passes.le fun lease e phase room => ?_⟩
    have waits := stepOf_of_idle phase idle .tracker
    cases sighting : e.tracker.stage.sighting? with
    | none => rfl
    | some hash =>
      simp only [Escalation.stepOf, Escalation.trackerStep, room, decide_true] at waits
      split at waits
      next none => exact absurd none (Tracker.step_of_sighting sighting)
      next => cases waits

/-- Before its escalation a send has no sightings; then `NoEmission` holds of it. -/
def NoEmission (now : Nat) (sightings : List Sighting) (s : Send) : Prop :=
  match s.phase with
  | .escalating _ e => e.NoEmission now sightings
  | _ => sightings = []

/-- **`NoEmission` holds** all along a lookout. -/
theorem noEmission (lookout : Lookout desk call trail sightings now s) :
    NoEmission now sightings s := by
  induction lookout with
  | start now => rfl
  | @pass trail sightings now later s _ _ emitted ih =>
    cases phase : s.phase with
    | escalating lease e =>
      rw [NoEmission, phase] at ih ⊢
      intro unseen
      obtain ⟨unmined, unread, sighted⟩ := ih unseen
      refine ⟨unmined, unread, fun x listed => ?_⟩
      -- The inbox is empty, so the sighting would have been emitted.
      have room : e.inbox.length < Escalation.inboxSize := by simp [unread, Escalation.inboxSize]
      cases (emitted lease e phase room).symm.trans (sighted x listed).2
    | leasing _ | estimating _ _ | pricing _ _ _ =>
      rw [NoEmission, phase] at ih ⊢
      exact ih
  | reschedule _ order ih =>
    obtain ⟨lease, e, turn, outstanding, phase, -, rfl⟩ := order
    rw [NoEmission, phase] at ih
    exact ih
  | @step trail sightings now s s' limits l l' outside outside' calls _ step ih =>
    cases move_of_noted step with
    | @escalates lease e e' turn _ phase move =>
      rw [NoEmission, phase] at ih
      simp only [NoEmission, sights, phase]
      exact Escalation.Move.noEmission (e := { e with turn }) ih move
    | bids phase _ first =>
      rw [NoEmission, phase] at ih
      obtain ⟨bid, -, rfl⟩ := firstBid_ok first
      intro _
      simp [ih, sights, phase, Tracker.start]
    | inherits phase _ _ | learns phase _ =>
      rw [NoEmission, phase] at ih
      cases own : s.call.gasLimit <;> simp [NoEmission, sights, phase, afterLease, own, ih]
    | joins phase | reads phase _ _ _ | retries phase _ _ | resumes phase _ | estimates phase _
    | pads phase _ _ | prices phase _ =>
      rw [NoEmission, phase] at ih
      simp [NoEmission, sights, phase, ih]

variable {limits : Limits} {l l' : Leases} {outside outside' : σ} {calls : List Inquiry}
  {waited : Nat}

/-- Once the loop has received its inbox, `book.seen` is the tracker's `visible`. -/
theorem visible_eq {lease : Lease} {e : Escalation} (run : Run desk call trail s)
    (phase : s.phase = .escalating lease e) (read : e.inbox = []) :
    e.tracker.visible = e.book.seen := by
  obtain ⟨emitted, received, chronicle⟩ := Chronicle.of_run run
  have mirrored := chronicle.mirrored
  rw [Chronicle.Mirrored, phase] at mirrored
  have matched := mirrored.leads.matches
  rw [mirrored.order, read, List.append_nil] at matched
  exact matched.2.symm.trans mirrored.seen.symm

/-- **`notInMempool` ends a send only where no candidate was seen.**  It has waited for
    `policy.mempoolTimeout`, its tracker has emitted nothing, and all its sightings are of this very
    moment, with their `inMempool` still to be emitted.  So a hash that was seen at any earlier
    moment rules this end out, whatever became of it, and however long the loop was busy pricing or
    signing. -/
theorem never_seen (never : ∀ waited, desk.NeverFailsWith (.notInMempool waited))
    (lookout : Lookout desk call trail sightings now s)
    (step : s.stepWithin desk.noted limits now l (outside, []) =
      some (.ended (.error (.failure (.notInMempool waited))), l', outside', calls)) :
    desk.policy.mempoolTimeout ≤ waited ∧ ∃ lease e, s.phase = .escalating lease e ∧
      waited = now - e.started ∧ e.tracker.visible = false ∧
      ∀ x ∈ sightings, x.moment = now ∧ e.tracker.stage.sighting? = some x.hash := by
  have run := lookout.run
  have unlimited : limits.verdict now ≠ some (.notInMempool waited) := by
    intro verdict
    rcases Limits.verdict_cases verdict with other | other <;> cases other
  obtain ⟨lease, e, turn, phase, move, sign⟩ :=
    (move_of_noted step).ended_own (never waited) unlimited run.asked run.served
  obtain ⟨read, unseen, late, rfl⟩ := move.ended_unseen sign
  have invisible : e.tracker.visible = false := (visible_eq run phase read).trans unseen
  have noEmission := lookout.noEmission
  rw [NoEmission, phase] at noEmission
  obtain ⟨-, -, sighted⟩ := noEmission invisible
  have waited : desk.policy.mempoolTimeout ≤ now - e.started := by
    change e.started + desk.policy.mempoolTimeout ≤ now at late
    omega
  exact ⟨waited, lease, e, phase, rfl, invisible, sighted⟩

/-- No outside party of the tardy desk fails with `notInMempool`. -/
theorem neverFailsWith_tardy (x : Errand) (d : Delays) (timeout : Option Nat) (waited : Nat) :
    (x.tardy d timeout).NeverFailsWith (.notInMempool waited) where
  estimate _ _ _ answer := by cases answer
  gasPrice _ _ answer := by cases answer
  nonce _ _ _ answer := by cases answer
  sign _ _ _ _ answer := by cases answer

/-- The escalation that publishes its first candidate when its mempool deadline has expired. -/
def overdue (x : Errand) : Escalation :=
  { x.opened with
    book := { Book.opening .suggested with published := 1 }
    phase := .listening
    tracker := ⟨10, ⟨20, 10⟩, [x.hash], [], false, .resting⟩
    outstanding := [.queued (x.candidate .suggested)] }

/-- A signature that takes until 20 ms leaves no time for the candidate to be seen. -/
theorem never_seen_at_signature : ∃ trail sightings l',
    Lookout (Errand.bare.tardy ⟨20, .immediate 0 .accepted, 0⟩ none) Errand.bare.call trail
      sightings 20 (Errand.bare.underWay none (.escalating Errand.bare.lease (overdue .bare))) ∧
    (published trail).length = 1 ∧
    (Errand.bare.underWay none (.escalating Errand.bare.lease (overdue .bare))).stepWithin
      (Errand.bare.tardy ⟨20, .immediate 0 .accepted, 0⟩ none).noted ⟨false, none⟩ 20
      .empty ((), []) = some (.ended (.error (.failure (.notInMempool 20))), l', (), []) ∧
    (Policy.steady none).mempoolTimeout ≤ 20 ∧ ∀ x ∈ sightings, x.moment = 20 := by
  have asked := Errand.signs ⟨20, .immediate 0 .accepted, 0⟩ none none Errand.bare_fits rfl
    (by simp)
  have slept := Errand.sleeps _ _ 10 asked (by decide) (by decide) (by decide) (by simp)
  have idled := slept.step .empty .empty [] rfl rfl
  have signed : Reached (Errand.bare.tardy ⟨20, .immediate 0 .accepted, 0⟩ none) Errand.bare.call
      none 20 _ _ := idled.wait (l := .empty) rfl (by decide) (by
    show ∀ alarm ∈ [20, 20], 10 < alarm → 20 ≤ alarm
    decide)
  have out : Reached (Errand.bare.tardy ⟨20, .immediate 0 .accepted, 0⟩ none) Errand.bare.call
      none 20 [Errand.bare.candidate .suggested]
      (Errand.bare.underWay none (.escalating Errand.bare.lease (overdue .bare))) :=
    (signed.turn .loop).step .empty .empty [] rfl rfl
  obtain ⟨trail, course, one⟩ := out
  obtain ⟨sightings, lookout⟩ := of_course course
  have ends : (Errand.bare.underWay none (.escalating Errand.bare.lease (overdue .bare))).stepWithin
      (Errand.bare.tardy ⟨20, .immediate 0 .accepted, 0⟩ none).noted ⟨false, none⟩ 20
      .empty ((), []) =
        some (.ended (.error (.failure (.notInMempool 20))), Errand.bare.lease.release .empty, (),
          []) := rfl
  obtain ⟨waited, _, _, _, -, -, sighted⟩ := never_seen (neverFailsWith_tardy _ _ _) lookout ends
  exact ⟨trail, sightings, _, lookout, by rw [one]; rfl, ends, waited,
    fun x listed => (sighted x listed).1⟩

end Lookout

end Send

end Relayer
