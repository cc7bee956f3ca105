import Relayer.Proofs.Send.Moment
import Relayer.Proofs.Send.Staleness

namespace Relayer

/-!
# Tally — the `nonceTooLow` answers that a send counts

A send counts the `nonceTooLow` answers that it folds while no candidate is mined, and ends with
`nonceStale` when there are `policy.nonceTolerance` of them.

* `FoldedAnswer` — an answer as the loop folds it, and whether it is counted;
* `Escalation.heeds` — the answer that the loop joins next;
* `Send.Tally` — a run with all answers that it has folded;
* `Send.Tally.counted` — `book.tooLow` is the count of the tally, below the tolerance;
* `Send.Tally.gives_up` — a send ends with `nonceStale` exactly where the count comes to the
  tolerance.
-/

variable {σ : Type}

/-! ### Weighings -/

/-- An answer as the loop folds it, with the candidates that are mined then. -/
structure FoldedAnswer where
  answer : Answer
  mined : List Digest
  deriving DecidableEq

/-- Whether the answer is counted: it is `nonceTooLow`, and no candidate is mined. -/
def FoldedAnswer.isLow (w : FoldedAnswer) : Bool :=
  w.answer.verdict = .rejected .nonceTooLow && w.mined.isEmpty

/-- How many answers are counted. -/
def FoldedAnswer.lows (log : List FoldedAnswer) : Nat := log.countP isLow

@[simp] theorem FoldedAnswer.lows_nil : lows [] = 0 := rfl

@[simp] theorem FoldedAnswer.lows_append (log later : List FoldedAnswer) :
    lows (log ++ later) = lows log + lows later := List.countP_append

theorem FoldedAnswer.isLow_iff {w : FoldedAnswer} :
    w.isLow = true ↔ w.answer.verdict = .rejected .nonceTooLow ∧ w.mined = [] := by
  simp [isLow]

/-- **A counted answer** adds one to `tooLow`, or ends the send. -/
theorem Book.fold_low {policy : Policy} {b : Book} {a : Answer} (nonce : UInt64)
    (low : (⟨a, b.mined⟩ : FoldedAnswer).isLow = true) :
    b.fold policy nonce a.bid a.verdict =
      if policy.nonceTolerance ≤ b.tooLow + 1 then .error (.nonceStale nonce (b.tooLow + 1))
      else .ok { b with tooLow := b.tooLow + 1 } := by
  obtain ⟨tooLow, unmined⟩ := FoldedAnswer.isLow_iff.mp low
  rw [show a.verdict = .rejected .nonceTooLow from tooLow]
  simp [fold, show b.mined = [] from unmined]

/-- Any other answer leaves `tooLow` alone. -/
theorem Book.fold_other {policy : Policy} {b b' : Book} {a : Answer} {nonce : UInt64}
    (other : (⟨a, b.mined⟩ : FoldedAnswer).isLow = false)
    (h : b.fold policy nonce a.bid a.verdict = .ok b') : b'.tooLow = b.tooLow := by
  unfold fold at h
  split at h
  next =>
    cases h
    rfl
  next =>
    cases h
    rfl
  next f emits =>
    cases f
    case nonceTooLow =>
      have mined : b.mined.isEmpty = false := by simpa [FoldedAnswer.isLow, emits] using other
      simp only [mined] at h
      cases h
      rfl
    case underpriced =>
      simp only at h
      split at h
      next => cases h
      next =>
        cases h
        rfl
    case insufficientFunds => cases h
    all_goals
      cases h
      rfl

/-! ### Steps of an escalation -/

namespace Escalation

/-- The answer that the loop joins next.  The token and the tracker's events come before it in the
    select. -/
def heeds (limits : Limits) (e : Escalation) : Option Answer :=
  match e.phase with
  | .listening =>
    if limits.cancelled || !e.inbox.isEmpty || e.tracker.isClosed then none
    else e.answered.head?
  | _ => none

/-- The answers that a step folds: the one that the loop heeds, where the step is the loop's. -/
def foldedAnswers (limits : Limits) (e : Escalation) : Outcome → List FoldedAnswer
  | .running e' =>
    if e'.turn = .loop then (e.heeds limits).toList.map (⟨·, e.book.mined⟩) else []
  | .ended _ => (e.heeds limits).toList.map (⟨·, e.book.mined⟩)

variable {desk : Desk σ} {limits : Limits} {now : Nat} {e e' : Escalation} {out : Outcome}
  {outside outside' : σ} {a : Answer}

/-- The loop heeds the first of the answers while it is listening. -/
theorem heeds_eq_some : e.heeds limits = some a ↔
    e.phase = .listening ∧ limits.cancelled = false ∧ e.inbox = [] ∧
      e.tracker.isClosed = false ∧ ∃ rest, e.answered = a :: rest := by
  unfold heeds
  cases e.phase <;> simp [List.head?_eq_some_iff, and_assoc]

/-- **The loop folds the answer that it heeds.** -/
theorem loopStep_of_heeds (desk : Desk σ) (now : Nat) (outside : σ)
    (heeded : e.heeds limits = some a) : ∃ rest, e.answered = a :: rest ∧
    e.loopStep desk limits now outside =
      some (({ e with answered := rest } : Escalation).onBroadcast desk.policy a, outside) := by
  obtain ⟨phase, going, inbox, opened, rest, answered⟩ := heeds_eq_some.mp heeded
  exact ⟨rest, answered, by simp [loopStep, phase, listen, going, inbox, opened, answered]⟩

/-- So its send state is the one with the answer folded in, or it ends with the error of that. -/
theorem folded_of_heeds (heeded : e.heeds limits = some a)
    (own : e.loopStep desk limits now outside = some (out, outside')) :
    (∃ e' book, out = .running e' ∧ e'.book = book ∧
      e.book.fold desk.policy e.nonce a.bid a.verdict = .ok book) ∨
    ∃ f, out = .ended (.error (.failure f)) ∧
      e.book.fold desk.policy e.nonce a.bid a.verdict = .error f := by
  obtain ⟨rest, -, folds⟩ := loopStep_of_heeds desk now outside heeded
  rw [own, Option.some.injEq, Prod.mk.injEq] at folds
  obtain ⟨rfl, -⟩ := folds
  unfold onBroadcast
  split
  next book folded => exact .inl ⟨_, book, rfl, rfl, folded⟩
  next f folded => exact .inr ⟨f, rfl, folded⟩

/-- A move leaves the turn with the party that has it. -/
theorem Move.turn_eq {calls : List Inquiry} (move : Move desk limits now e calls (.running e')) :
    e'.turn = e.turn := by
  cases move <;> rfl

/-- A step of the loop is a move. -/
theorem exists_loopMove (h : e.loopStep desk limits now outside = some (out, outside')) :
    ∃ calls, Move desk limits now e calls out := by
  rw [← e.loopStep_noted desk limits now outside [], Option.map_eq_some_iff] at h
  obtain ⟨⟨out, outside', calls⟩, noted, same⟩ := h
  cases same
  obtain ⟨calls, -, move⟩ := move_of_loopStep noted
  exact ⟨calls, move⟩

/-- **A step is the loop's, or leaves the send state alone.** -/
theorem step_sides (h : e.step desk limits now outside = some (out, outside')) :
    ({ e with turn := .loop } : Escalation).loopStep desk limits now outside =
        some (out, outside') ∨
      ∃ e', out = .running e' ∧ e'.turn ≠ .loop ∧ e'.book = e.book := by
  obtain ⟨party, -, h⟩ := List.exists_of_findSome?_eq_some h
  cases party with
  | loop => exact .inl h
  | tracker =>
    simp only [stepOf, trackerStep] at h
    split at h
    next => cases h
    next =>
      cases h
      exact .inr ⟨_, rfl, by simp, rfl⟩
  | broadcasts =>
    simp only [stepOf, broadcastStep] at h
    split at h
    next => cases h
    next =>
      cases h
      exact .inr ⟨_, rfl, by simp, rfl⟩

/-- A tracker that has stopped ends the send before any answer is joined. -/
theorem loopStep_of_closed (phase : e.phase = .listening) (going : limits.cancelled = false)
    (inbox : e.inbox = []) (closed : e.tracker.isClosed = true) :
    e.loopStep desk limits now outside =
      some (fails (.internal "receipt tracker stopped"), outside) := by
  simp [loopStep, phase, listen, going, inbox, closed]

/-- Where the loop heeds none of the answers while listening, the tracker has stopped. -/
theorem closed_of_unheeded {rest : List Answer} (unheeded : e.heeds limits = none)
    (phase : e.phase = .listening) (going : limits.cancelled = false) (inbox : e.inbox = [])
    (answered : e.answered = a :: rest) : e.tracker.isClosed = true := by
  by_contra opened
  have heeded := heeds_eq_some.mpr
    ⟨phase, going, inbox, by simpa using opened, rest, answered⟩
  rw [unheeded] at heeded
  cases heeded

/-- **What a step does to `tooLow`**: a counted answer adds one to it, and nothing else changes it.
    It stays below the tolerance. -/
theorem tooLow_of_step (h : e.step desk limits now outside = some (.running e', outside')) :
    e'.book.tooLow = e.book.tooLow + FoldedAnswer.lows (e.foldedAnswers limits (.running e')) ∧
      (e.book.tooLow < desk.policy.nonceTolerance →
        e'.book.tooLow < desk.policy.nonceTolerance) := by
  rcases step_sides h with own | ⟨_, same, aside, book⟩
  · obtain ⟨calls, move⟩ := exists_loopMove own
    have turn : e'.turn = .loop := move.turn_eq
    cases heeded : e.heeds limits with
    | none =>
      rw [foldedAnswers, if_pos turn, heeded]
      -- Of the loop's moves that heed no answer none touches the count: events change what is known
      -- to be mined, and bids the candidates.
      have kept : e'.book.tooLow = e.book.tooLow := by
        cases move with
        | folds phase going inbox answered _ =>
          rw [loopStep_of_closed phase going inbox
            (closed_of_unheeded heeded phase going inbox answered)] at own
          cases own
        | @receives event _ _ _ _ _ => cases event <;> rfl
        | _ => rfl
      exact ⟨kept, fun below => kept ▸ below⟩
    | some a =>
      rw [foldedAnswers, if_pos turn, heeded]
      rcases folded_of_heeds (e := { e with turn := .loop }) heeded own with
        ⟨_, book, same, rfl, folded⟩ | ⟨f, same, -⟩
      · cases same
        cases low : (⟨a, e.book.mined⟩ : FoldedAnswer).isLow with
        | false =>
          have kept := Book.fold_other low folded
          exact ⟨by simp [FoldedAnswer.lows, low, kept], fun below => by simpa [kept] using below⟩
        | true =>
          rw [Book.fold_low _ low] at folded
          split at folded
          next => cases folded
          next room =>
            have raised := Except.ok.inj folded
            rw [← raised]
            exact ⟨by simp [FoldedAnswer.lows, low], fun _ => Nat.lt_of_not_le room⟩
      · cases same
  · cases same
    rw [foldedAnswers, if_neg aside, book]
    exact ⟨rfl, id⟩

/-- The loop ends with `nonceStale` only by an answer that it heeds. -/
theorem heeded_of_stale {nonce : UInt64} {count : Nat}
    (h : e.loopStep desk limits now outside =
      some (.ended (.error (.failure (.nonceStale nonce count))), outside'))
    (sign : ∀ first reply, e.phase = .signing first reply →
      reply.answer ≠ .error (.failure (.nonceStale nonce count))) :
    ∃ a, e.heeds limits = some a := by
  rw [← Option.isSome_iff_exists, Option.isSome_iff_ne_none]
  intro unheeded
  obtain ⟨calls, move⟩ := exists_loopMove h
  generalize out : Outcome.ended _ = outcome at move
  cases move
  -- Two moves end with a failure of this form: an answer is folded, or signing fails.
  case condemns phase going inbox answered _ =>
    rw [loopStep_of_closed phase going inbox
      (closed_of_unheeded unheeded phase going inbox answered)] at h
    cases h
  case refuses phase ready _ =>
    cases out
    exact sign _ _ phase (Pending.answer_of_ready ready)
  all_goals cases out

/-- **A send ends with `nonceStale` by a counted answer**, which brings `tooLow` to the
    tolerance. -/
theorem low_of_stale {nonce : UInt64} {count : Nat}
    (h : e.step desk limits now outside =
      some (.ended (.error (.failure (.nonceStale nonce count))), outside'))
    (sign : ∀ first reply, e.phase = .signing first reply →
      reply.answer ≠ .error (.failure (.nonceStale nonce count))) (result : Except Stop Receipt) :
    FoldedAnswer.lows (e.foldedAnswers limits (.ended result)) = 1 ∧ nonce = e.nonce ∧
      count = e.book.tooLow + 1 ∧ desk.policy.nonceTolerance ≤ count := by
  rcases step_sides h with own | ⟨_, same, -, -⟩
  · obtain ⟨a, heeded⟩ := heeded_of_stale own sign
    rcases folded_of_heeds heeded own with ⟨_, _, same, -, -⟩ | ⟨f, same, folded⟩
    · cases same
    · cases same
      obtain ⟨emits, unmined, rfl, rfl, enough⟩ := Book.fold_stale folded
      have low : (⟨a, e.book.mined⟩ : FoldedAnswer).isLow = true :=
        FoldedAnswer.isLow_iff.mpr ⟨emits, unmined⟩
      rw [foldedAnswers, show e.heeds limits = some a from heeded]
      exact ⟨by simp [FoldedAnswer.lows, low], rfl, rfl, enough⟩
  · cases same

/-- **A counted answer ends a send with `nonceStale` alone**, and only at the tolerance. -/
theorem stale_of_low {result result' : Except Stop Receipt}
    (h : e.step desk limits now outside = some (.ended result, outside'))
    (low : FoldedAnswer.lows (e.foldedAnswers limits (.ended result')) ≠ 0) :
    result = .error (.failure (.nonceStale e.nonce (e.book.tooLow + 1))) := by
  rcases step_sides h with own | ⟨_, same, -, -⟩
  · rw [foldedAnswers] at low
    cases heeded : e.heeds limits with
    | none => simp [heeded] at low
    | some a =>
      have counts : (⟨a, e.book.mined⟩ : FoldedAnswer).isLow = true := by
        by_contra other
        simp [heeded, FoldedAnswer.lows, other] at low
      rcases folded_of_heeds (e := { e with turn := .loop }) heeded own with
        ⟨_, _, same, -, -⟩ | ⟨f, same, folded⟩
      · cases same
      · cases same
        rw [Book.fold_low _ counts] at folded
        split at folded
        next => cases folded; rfl
        next => cases folded
  · cases same

end Escalation

/-! ### Runs with a tally -/

namespace Send

/-- The answers that a step of a send folds. -/
def foldedAnswers (limits : Limits) (s : Send) : Outcome → List FoldedAnswer
  | .running s' =>
    match s.phase, s'.phase with
    | .escalating _ e, .escalating _ e' => e.foldedAnswers limits (.running e')
    | _, _ => []
  | .ended result =>
    match s.phase with
    | .escalating _ e => e.foldedAnswers limits (.ended result)
    | _ => []

/-- A send of `call` under way, with its trail and with the answers that it has folded. -/
inductive Tally (desk : Desk σ) (call : Call) : List Event → List FoldedAnswer → Send → Prop where
  | start (now : Nat) : Tally desk call [] [] (.start desk.policy call now)
  | reschedule {trail log s s'} (tally : Tally desk call trail log s) (order : s.Rescheduled s') :
      Tally desk call trail log s'
  | step {trail log s s' limits now leases leases' outside outside' calls}
      (tally : Tally desk call trail log s)
      (step : s.stepWithin desk.noted limits now leases (outside, []) =
        some (.running s', leases', outside', calls)) :
      Tally desk call (trail ++ s.shown calls (.running s'))
        (log ++ s.foldedAnswers limits (.running s'))
        s'

namespace Tally

/-- A send of `call` has ended with `result`, and has folded all these answers. -/
def Over (desk : Desk σ) (call : Call) (trail : List Event) (log : List FoldedAnswer)
    (result : Except Stop Receipt) : Prop :=
  ∃ trail' log' s limits now leases leases' outside outside' calls,
    Tally desk call trail' log' s ∧
    s.stepWithin desk.noted limits now leases (outside, []) =
      some (.ended result, leases', outside', calls) ∧
    trail = trail' ++ s.shown calls (.ended result) ∧
    log = log' ++ s.foldedAnswers limits (.ended result)

variable {desk : Desk σ} {call : Call} {trail : List Event} {log : List FoldedAnswer} {s s' : Send}
  {lease : Lease} {e : Escalation} {limits : Limits} {now : Nat} {l l' : Leases}
  {outside outside' : σ} {calls : List Inquiry} {result : Except Stop Receipt}

/-- A tally is one of a run. -/
theorem run (tally : Tally desk call trail log s) : Run desk call trail s := by
  induction tally with
  | start now => exact .start now
  | reschedule _ order ih => exact .reschedule ih order
  | step _ step ih => exact .step ih step

/-- **Every run has its tally.** -/
theorem of_run (run : Run desk call trail s) : ∃ log, Tally desk call trail log s := by
  induction run with
  | start now => exact ⟨[], .start now⟩
  | reschedule _ order ih =>
    obtain ⟨log, tally⟩ := ih
    exact ⟨log, .reschedule tally order⟩
  | step _ step ih =>
    obtain ⟨log, tally⟩ := ih
    exact ⟨_, .step tally step⟩

/-- `tooLow` is the count of the tally, which is below the tolerance. -/
structure Counted (policy : Policy) (log : List FoldedAnswer) (s : Send) : Prop where
  early : (∀ lease e, s.phase ≠ .escalating lease e) → log = []
  nonce : ∀ lease e, s.phase = .escalating lease e → e.nonce = lease.nonce
  tooLow : ∀ lease e, s.phase = .escalating lease e → e.book.tooLow = FoldedAnswer.lows log
  below : FoldedAnswer.lows log < policy.nonceTolerance

/-- Before its escalation a send folds no answer. -/
theorem foldedAnswers_of_early (early : ∀ lease e, s.phase ≠ .escalating lease e) (limits : Limits)
    (out : Outcome) : s.foldedAnswers limits out = [] := by
  cases phase : s.phase with
  | escalating lease e => exact absurd phase (early lease e)
  | _ => cases out <;> simp [foldedAnswers, phase]

/-- So it begins its escalation with `tooLow = 0`. -/
theorem Counted.begins {policy : Policy} (h : Counted policy log s)
    (early : ∀ lease e, s.phase ≠ .escalating lease e)
    (move : Move desk limits now s l calls (.running s') l') :
    Counted policy (log ++ s.foldedAnswers limits (.running s')) s' := by
  have nothing : log ++ s.foldedAnswers limits (.running s') = [] := by
    rw [h.early early, foldedAnswers_of_early early, List.nil_append]
  rw [nothing]
  refine ⟨fun _ => rfl, ?_, ?_, Nat.lt_of_le_of_lt (Nat.zero_le _) h.below⟩
  all_goals
    intro lease e phase
    cases move with
    | bids _ _ first =>
      cases phase
      obtain ⟨bid, -, rfl⟩ := firstBid_ok first
      rfl
    | inherits _ _ _ | learns _ _ =>
      simp only [afterLease] at phase
      split at phase <;> cases phase
    | escalates here _ => exact absurd here (early _ _)
    | _ => cases phase

/-- **A step of the escalation adds the answers it folds** to the tally. -/
theorem Counted.escalates {deadline : Option Nat} {e' : Escalation} {log' : List Inquiry}
    (h : Counted desk.policy log ⟨call, deadline, .escalating lease e⟩)
    (step : e.step desk.noted limits now (outside, log') = some (.running e', outside', calls)) :
    Counted desk.policy (log ++ e.foldedAnswers limits (.running e'))
      ⟨call, deadline, .escalating lease e'⟩ := by
  obtain ⟨counts, below⟩ := Escalation.tooLow_of_step step
  obtain ⟨turn, calls, -, move⟩ := Escalation.move_of_step step
  have before := h.tooLow lease e rfl
  have after :
      e'.book.tooLow = FoldedAnswer.lows (log ++ e.foldedAnswers limits (.running e')) := by
    rw [counts, before, FoldedAnswer.lows_append]
  refine ⟨fun early => absurd rfl (early lease e'), ?_, ?_, ?_⟩
  · rintro _ _ ⟨⟩
    exact move.fixed.2.1.trans (h.nonce lease e rfl)
  · rintro _ _ ⟨⟩
    exact after
  · rw [← after]
    exact below (before ▸ h.below)

/-- **`tooLow` of a send under way is the count of its tally**, below the tolerance. -/
theorem counted (valid : desk.policy.validate = .ok ()) (tally : Tally desk call trail log s) :
    Counted desk.policy log s := by
  induction tally with
  | start now =>
    exact ⟨fun _ => rfl, fun _ _ => nofun, fun _ _ => nofun, Policy.nonceTolerance_pos valid⟩
  | reschedule _ order ih =>
    obtain ⟨lease, e, turn, outstanding, phase, -, rfl⟩ := order
    refine ⟨fun early => absurd rfl (early _ _), ?_, ?_, ih.below⟩
    · rintro _ _ ⟨⟩
      exact ih.nonce lease e phase
    · rintro _ _ ⟨⟩
      exact ih.tooLow lease e phase
  | @step trail log s s' limits now l l' outside outside' calls _ step ih =>
    rcases s.early_or_escalating with early | ⟨lease, e, phase⟩
    · exact ih.begins early (move_of_noted step)
    · obtain ⟨call, deadline, _⟩ := s
      obtain rfl : _ = Phase.escalating lease e := phase
      rcases step_escalating step with ⟨e', inner, same⟩ | ⟨_, _, ended, _⟩
      · cases same
        exact ih.escalates inner
      · cases ended

/-! ### Ends -/

/-- Where no outside party fails with `nonceStale`, the signer does not. -/
theorem sign_ne_stale (tally : Tally desk call trail log s) (never : desk.NeverStale)
    (phase : s.phase = .escalating lease e) (nonce : UInt64) (count : Nat) (first : Bool)
    (reply : Pending (Except Stop (List UInt8))) (signing : e.phase = .signing first reply) :
    reply.answer ≠ .error (.failure (.nonceStale nonce count)) := by
  have served := tally.run.served
  rw [Served, phase] at served
  obtain ⟨t, now, outside, rfl⟩ := served first reply signing
  exact never.sign _ _ _ _ _ _

/-- A send that ends with `nonceStale` ends its escalation so, at the tolerance. -/
theorem Over.low_of_stale (valid : desk.policy.validate = .ok ()) (never : desk.NeverStale)
    (ended : Over desk call trail log result) {nonce : UInt64} {count : Nat}
    (stale : result = .error (.failure (.nonceStale nonce count))) :
    FoldedAnswer.lows log = count ∧ count = desk.policy.nonceTolerance ∧
      ∃ lease, granted trail = [lease] ∧ nonce = lease.nonce := by
  obtain ⟨trail, log, s, limits, now, l, l', outside, outside', calls, tally, step, rfl, rfl⟩ :=
    ended
  have counted := tally.counted valid
  subst stale
  obtain ⟨lease, e, -, -, phase, -, rfl, -⟩ :=
    (move_of_noted step).ended_stale never tally.run.asked tally.run.served
  have granted_eq := tally.run.granted_eq
  obtain ⟨call', deadline, _⟩ := s
  obtain rfl : _ = Phase.escalating lease e := phase
  rcases step_escalating step with ⟨_, _, running⟩ | ⟨result, inner, settled, -⟩
  · cases running
  simp only [Outcome.ended.injEq] at settled
  obtain rfl := eq_failure_of_settle settled.symm
  obtain ⟨one, own, rfl, enough⟩ := Escalation.low_of_stale inner
    (tally.sign_ne_stale never rfl nonce count) (.error (.failure (.nonceStale nonce count)))
  rw [Desk.noted_policy] at enough
  have before := counted.tooLow lease e rfl
  have below := counted.below
  have after : FoldedAnswer.lows (log ++ e.foldedAnswers limits
      (.ended (.error (.failure (.nonceStale nonce (e.book.tooLow + 1)))))) =
      e.book.tooLow + 1 := by
    rw [FoldedAnswer.lows_append, one, before]
  -- The count was below the tolerance before this answer, and is not so any more.
  refine ⟨after, by omega, lease, ?_, own.trans (counted.nonce lease e rfl)⟩
  rw [granted_append, granted_eq]
  simp [granted, shown, Event.granted?, lease?]

/-- A send whose tally comes to the tolerance ends with `nonceStale`. -/
theorem Over.stale_of_lows (valid : desk.policy.validate = .ok ())
    (ended : Over desk call trail log result)
    (enough : FoldedAnswer.lows log = desk.policy.nonceTolerance) :
    ∃ nonce count, result = .error (.failure (.nonceStale nonce count)) := by
  obtain ⟨trail, log, s, limits, now, l, l', outside, outside', calls, tally, step, rfl, rfl⟩ :=
    ended
  have counted := tally.counted valid
  have below := counted.below
  rw [FoldedAnswer.lows_append] at enough
  rcases s.early_or_escalating with early | ⟨lease, e, phase⟩
  · rw [foldedAnswers_of_early early, FoldedAnswer.lows_nil] at enough
    omega
  · obtain ⟨call', deadline, _⟩ := s
    obtain rfl : _ = Phase.escalating lease e := phase
    rcases step_escalating step with ⟨_, _, running⟩ | ⟨result', inner, settled, -⟩
    · cases running
    simp only [Outcome.ended.injEq] at settled
    -- The last answer counts, as those before it did not come to the tolerance.
    have low : FoldedAnswer.lows (e.foldedAnswers limits (.ended result)) ≠ 0 := by
      intro none
      rw [show FoldedAnswer.lows (foldedAnswers limits ⟨call', deadline, .escalating lease e⟩
        (.ended result)) = 0 from none] at enough
      omega
    obtain rfl := Escalation.stale_of_low inner low
    exact ⟨_, _, settled⟩

/-- **When a send ends with `nonceStale`.**  No outside party fails so, and the policy is valid.
    Then `tooLow` of a send under way is how many `nonceTooLow` answers it has folded while no
    candidate was mined; it is below the tolerance, and every step adds to it the answers that it
    folds and that count, and nothing else.  A send ends with `nonceStale` exactly where these
    answers come to the tolerance; its `nonce` is the leased one, and its `observations` are the
    tolerance. -/
theorem gives_up (valid : desk.policy.validate = .ok ()) (never : desk.NeverStale) :
    (∀ trail log s lease e, Tally desk call trail log s → s.phase = .escalating lease e →
      e.book.tooLow = FoldedAnswer.lows log ∧ FoldedAnswer.lows log < desk.policy.nonceTolerance) ∧
    (∀ trail log s limits now l s' l' outside outside' calls lease lease' e e',
      Tally desk call trail log s → s.phase = .escalating lease e →
      s.stepWithin desk.noted limits now l (outside, []) =
        some (.running s', l', outside', calls) → s'.phase = .escalating lease' e' →
      e'.book.tooLow = e.book.tooLow + FoldedAnswer.lows (s.foldedAnswers limits (.running s'))) ∧
    ∀ trail log result, Over desk call trail log result →
      ((∃ nonce count, result = .error (.failure (.nonceStale nonce count))) ↔
        FoldedAnswer.lows log = desk.policy.nonceTolerance) ∧
      ∀ nonce count, result = .error (.failure (.nonceStale nonce count)) →
        count = desk.policy.nonceTolerance ∧
          ∃ lease, granted trail = [lease] ∧ nonce = lease.nonce := by
  refine ⟨?_, ?_, ?_⟩
  · intro trail log s lease e tally phase
    exact ⟨(tally.counted valid).tooLow lease e phase, (tally.counted valid).below⟩
  · intro trail log s limits now l s' l' outside outside' calls lease lease' e e' tally phase step
      phase'
    have before := (tally.counted valid).tooLow lease e phase
    have after := ((Tally.step tally step).counted valid).tooLow lease' e' phase'
    rw [after, before, FoldedAnswer.lows_append]
  · intro trail log result ended
    refine ⟨⟨?_, ended.stale_of_lows valid⟩, ?_⟩
    · rintro ⟨nonce, count, stale⟩
      obtain ⟨all, tolerance, -⟩ := ended.low_of_stale valid never stale
      exact all.trans tolerance
    · intro nonce count stale
      exact (ended.low_of_stale valid never stale).2

/-- With a tolerance of one the first counted answer is enough: a send with the lease on nonce 7
    ends with `nonceStale` behind it. -/
theorem gives_up_at_first : ∃ trail log,
    Over (Errand.bare.tardy ⟨1, ⟨.rejected .nonceTooLow, some 7⟩, 1⟩ none) Errand.bare.call trail
      log (.error (.failure (.nonceStale 7 1))) ∧
    FoldedAnswer.lows log = 1 ∧ ∃ lease, granted trail = [lease] ∧ lease.nonce = 7 := by
  obtain ⟨others, ⟨trail, course, -⟩, ends⟩ := Errand.goesStale 1 Errand.bare_fits .empty
  obtain ⟨log, tally⟩ := of_run course.run
  have ended : Over _ _ _ _ _ :=
    ⟨trail, log, _, _, _, _, _, _, _, _, tally, ends, rfl, rfl⟩
  obtain ⟨stale, own⟩ := (gives_up (Policy.validate_steady (by simp))
    (Errand.neverStale_tardy _ _)).2.2 _ _ _ ended
  obtain ⟨-, lease, granted, nonce⟩ := own 7 1 rfl
  exact ⟨_, _, ended, stale.mp ⟨7, 1, rfl⟩, lease, granted, nonce.symm⟩

end Tally

end Send

end Relayer
