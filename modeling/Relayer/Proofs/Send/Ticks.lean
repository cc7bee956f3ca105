import Relayer.Proofs.Send.Tally
import Relayer.Proofs.Send.Verdicts

namespace Relayer

/-!
# Ticks — what a resubmission tick leads to

The resubmission ticker of the loop ticks every `policy.resubmitAfter`, and at each tick the loop
escalates: it asks for a suggestion and publishes the next bid, unless a candidate is mined.

* `Escalation.ticks` — whether a step consumes a tick;
* `Escalation.due` — the tick that the loop consumes next, where its select has nothing before it;
* `Escalation.ticked_of_step` — a tick asks for a suggestion exactly where `book.mined` is empty;
* `Escalation.Bids` — what the suggestion leads to, case by case;
* `Escalation.Elsewhere` — what a step of the tracker or the broadcasts leaves alone;
* `Send.Onward` — the steps of a send from one state to another.
-/

variable {σ : Type}

/-- A tick keeps the period, and the next one is due later. -/
theorem Ticker.of_tick {t t' : Ticker} {now : Nat} (h : t.tick? now = some t') :
    t'.period = t.period ∧ (0 < t.period → t' ≠ t) := by
  unfold tick? at h
  split at h
  next come =>
    cases h
    refine ⟨rfl, fun period same => ?_⟩
    have next : (if t.next + slack < now then now + t.period else t.next + t.period) = t.next :=
      congrArg Ticker.next same
    split at next <;> omega
  next => cases h

namespace Escalation

/-! ### Rounds of the timer -/

/-- Whether a step of a send consumes a resubmission tick. -/
def ticks (before after : Escalation) : Bool := after.ticker ≠ before.ticker

/-- The ticker behind the tick that the loop consumes next: the token, the tracker's events, the
    broadcasts and the deadlines come before it in the select. -/
def due (policy : Policy) (limits : Limits) (now : Nat) (e : Escalation) : Option Ticker :=
  match e.phase with
  | .listening =>
    if limits.cancelled || !e.inbox.isEmpty || e.tracker.isClosed || !e.answered.isEmpty ||
        isPast limits.deadline now || (!e.book.seen && e.mempoolDeadline policy ≤ now) then none
    else e.ticker.tick? now
  | _ => none

variable {desk : Desk σ} {limits : Limits} {now : Nat} {e e' : Escalation} {out : Outcome}
  {outside outside' : σ} {log log' calls : List Inquiry} {ticker : Ticker}

theorem ticks_iff : e.ticks e' = true ↔ e'.ticker ≠ e.ticker := decide_eq_true_iff

/-- A tick is due where the loop is listening, nothing comes before it and `ticker.tick?` is due. -/
theorem due_eq_some {policy : Policy} : e.due policy limits now = some ticker ↔
    e.phase = .listening ∧ limits.cancelled = false ∧ e.inbox = [] ∧
      e.tracker.isClosed = false ∧ e.answered = [] ∧ isPast limits.deadline now = false ∧
      (e.book.seen = true ∨ now < e.mempoolDeadline policy) ∧
      e.ticker.tick? now = some ticker := by
  unfold due
  cases e.phase <;> simp [and_assoc, or_iff_not_imp_left]

/-- **The loop consumes the tick that is due.** -/
theorem loopStep_of_due (h : e.due desk.policy limits now = some ticker) :
    e.loopStep desk limits now outside =
      some (({ e with ticker } : Escalation).escalate desk now outside) := by
  obtain ⟨phase, going, inbox, opened, answered, early, seen, round⟩ := due_eq_some.mp h
  have patient : (!e.book.seen && e.mempoolDeadline desk.policy ≤ now : Bool) = false := by
    rcases seen with seen | soon
    · simp [seen]
    · simp [Nat.not_le.mpr soon]
  simp [loopStep, phase, listen, going, inbox, opened, answered, early, patient, round]

/-- **It consumes no other tick.** -/
theorem due_of_loopStep
    (h : e.loopStep desk limits now outside = some (.running e', outside'))
    (ticks : e.ticks e' = true) : ∃ ticker, e.due desk.policy limits now = some ticker := by
  rw [ticks_iff] at ticks
  obtain ⟨calls, move⟩ := exists_loopMove h
  -- Only a tick changes the ticker, and then the loop was listening.
  have listening : e.phase = .listening := by
    cases move with
    | holds phase _ _ | prices phase _ _ _ => exact phase
    | _ => exact absurd rfl ticks
  simp only [loopStep, listening] at h
  -- Whatever is attended to before the timer would have left that alone.
  have going : limits.cancelled = false := by
    refine Bool.eq_false_iff.mpr fun cancelled => ?_
    simp [listen, cancelled, fails] at h
  have inbox : e.inbox = [] := by
    cases inbox : e.inbox with
    | nil => rfl
    | cons event rest =>
      simp only [listen, going, inbox, Bool.false_eq_true, if_false] at h
      cases event <;> cases h <;> exact absurd rfl ticks
  have opened : e.tracker.isClosed = false := by
    refine Bool.eq_false_iff.mpr fun closed => ?_
    simp [listen, going, inbox, closed, fails] at h
  have answered : e.answered = [] := by
    cases answered : e.answered with
    | nil => rfl
    | cons a rest =>
      simp only [listen, going, inbox, opened, answered, onBroadcast, Bool.false_eq_true,
        if_false] at h
      split at h
      next =>
        cases h
        exact absurd rfl ticks
      next => cases h
  have early : isPast limits.deadline now = false := by
    refine Bool.eq_false_iff.mpr fun late => ?_
    simp [listen, going, inbox, opened, answered, late, fails] at h
  have seen : e.book.seen = true ∨ now < e.mempoolDeadline desk.policy := by
    by_contra unseen
    rw [not_or, Bool.not_eq_true, Nat.not_lt] at unseen
    simp [listen, going, inbox, opened, answered, early, unseen, fails] at h
  cases round : e.ticker.tick? now with
  | none =>
    have patient : (!e.book.seen && e.mempoolDeadline desk.policy ≤ now : Bool) = false := by
      simpa [or_iff_not_imp_left] using seen
    simp [listen, going, inbox, opened, answered, early, patient, round] at h
  | some ticker =>
    exact ⟨ticker, due_eq_some.mpr
      ⟨listening, going, inbox, opened, answered, early, seen, round⟩⟩

/-! ### Whose step it is -/

/-- What a step of the tracker or the broadcasts leaves alone: the send state, the phase of the loop
    and its ticker.  It signs nothing and hands nothing out. -/
structure Elsewhere (e : Escalation) (calls : List Inquiry) (e' : Escalation) : Prop where
  book : e'.book = e.book
  phase : e'.phase = e.phase
  ticker : e'.ticker = e.ticker
  unsigned : ∀ id t reply, .sign id t reply ∉ calls
  unhandled : ∀ about ∈ e'.unhandled, about ∈ e.unhandled
  handedOut : e.handedOut e' = []

/-- A move of the tracker is `Elsewhere`. -/
theorem elsewhere_of_tracks {room : Bool} {tracker : Tracker} {event : Option TrackerEvent}
    (move : e.tracker.Move desk now room calls tracker event) (turn : Party) :
    e.Elsewhere calls { e with tracker, inbox := e.inbox ++ event.toList, turn } where
  book := rfl
  phase := rfl
  ticker := rfl
  unsigned := by
    intro id t reply asked
    cases move <;> simp at asked
  unhandled _ waits := waits
  handedOut := by simp [handedOut]

/-- So is a broadcast task that sends its candidate. -/
theorem elsewhere_of_sends {earlier later : List Broadcast} {c : Candidate}
    (outstanding : e.outstanding = earlier ++ .queued c :: later) (reply : Pending Verdict)
    (turn : Party) :
    e.Elsewhere [.broadcast c reply]
      { e with outstanding := earlier ++ .sent c.gasPrice c.hash reply :: later, turn } where
  book := rfl
  phase := rfl
  ticker := rfl
  unsigned := by simp
  unhandled about waits := by simpa [unhandled, outstanding, Broadcast.about] using waits
  handedOut := by simp [handedOut, outstanding]

/-- So is a broadcast task that returns its answer. -/
theorem elsewhere_of_answers {earlier later : List Broadcast} {bid : Amount} {hash : Digest}
    {reply : Pending Verdict}
    (outstanding : e.outstanding = earlier ++ .sent bid hash reply :: later)
    (verdict : Verdict) (turn : Party) :
    e.Elsewhere []
      { e with
        outstanding := earlier ++ later
        answered := e.answered ++ [⟨bid, hash, verdict⟩]
        turn } where
  book := rfl
  phase := rfl
  ticker := rfl
  unsigned := by simp
  unhandled about waits := by
    simp only [unhandled, outstanding, List.map_append, List.map_cons, Broadcast.about,
      List.mem_append, List.mem_cons, List.map_nil] at waits ⊢
    tauto
  handedOut := by
    have shorter : (earlier ++ later).length ≤ e.outstanding.length := by simp [outstanding]
    simp only [handedOut, List.drop_eq_nil_of_le shorter, List.filterMap_nil]

/-- **A step is the loop's own, or `Elsewhere`.** -/
theorem loop_or_elsewhere
    (h : e.step desk.noted limits now (outside, log) = some (out, outside', log')) :
    ({ e with turn := .loop } : Escalation).loopStep desk.noted limits now (outside, log) =
        some (out, outside', log') ∨
      ∃ e' calls, out = .running e' ∧ log' = log ++ calls ∧ e'.turn ≠ .loop ∧
        e.Elsewhere calls e' := by
  -- The parties are asked in turn, and the first that can make a step makes it.
  obtain ⟨party, -, h⟩ := List.exists_of_findSome?_eq_some h
  cases party with
  | loop => exact .inl h
  | tracker =>
    right
    simp only [stepOf, trackerStep] at h
    split at h
    next => cases h
    next tracker event world step =>
      cases h
      obtain ⟨calls, rfl, move⟩ := Tracker.move_of_step step
      exact ⟨_, calls, rfl, rfl, by simp, elsewhere_of_tracks move .tracker⟩
  | broadcasts =>
    right
    simp only [stepOf, broadcastStep] at h
    split at h
    next => cases h
    next outstanding answer world step =>
      cases h
      rcases sendFirst_cases step with ⟨earlier, c, later, reply, -, before, rfl, rfl, rfl⟩ |
        ⟨earlier, bid, hash, reply, later, verdict, -, before, rfl, rfl, rfl⟩
      · have sent := elsewhere_of_sends before reply .broadcasts
        exact ⟨_, _, rfl, rfl, by simp, by simpa using sent⟩
      · exact ⟨_, [], rfl, by simp, by simp, elsewhere_of_answers before verdict .broadcasts⟩

/-! ### What a round begins -/

/-- **A resubmission tick** is consumed by the loop alone.  Where `book.mined` is not empty the
    state stays but for the ticker; where it is empty a suggestion is asked for. -/
theorem ticked_of_step
    (h : e.step desk.noted limits now (outside, []) = some (.running e', outside', calls))
    (ticks : e.ticks e' = true) :
    e.due desk.policy limits now = some e'.ticker ∧
    ((e.book.mined ≠ [] ∧ calls = [] ∧ e' = { e with turn := .loop, ticker := e'.ticker }) ∨
      (e.book.mined = [] ∧ ∃ reply, calls = [.gasPrice reply] ∧
        (Inquiry.gasPrice reply).Genuine desk ∧
        e' = { e with turn := .loop, ticker := e'.ticker, phase := .pricing reply })) := by
  rcases loop_or_elsewhere h with own | ⟨e', calls, same, -, -, elsewhere⟩
  · obtain ⟨ticker, due⟩ := due_of_loopStep own ticks
    rw [loopStep_of_due due, Option.some.injEq] at own
    have due' : e.due desk.policy limits now = some ticker := due
    unfold escalate at own
    split at own
    next unmined =>
      cases own
      refine ⟨due', .inr ⟨by simpa using unmined, _, rfl, ⟨now, outside, rfl⟩, rfl⟩⟩
    next mined =>
      cases own
      exact ⟨due', .inl ⟨by simpa using mined, rfl, rfl⟩⟩
  · cases same
    exact absurd elsewhere.ticker (ticks_iff.mp ticks)

/-! ### What a price leads to -/

/-- What a suggestion can lead to, with the calls that are made. -/
inductive Bids (desk : Desk σ) (e : Escalation) (suggested : Except Failure Amount) :
    List Inquiry → Outcome → Prop where
  /-- The attempts leave their range. -/
  | exhausts (full : ¬ e.book.attempt + 1 < UInt32.size) :
      Bids desk e suggested [] (breaks .integerOverflow)
  /-- The least increase of the bid leaves its range. -/
  | overflows {f} (room : e.book.attempt + 1 < UInt32.size)
      (next : desk.policy.pricing.nextBid e.book.bid (e.book.attempt + 1)
        (e.priceOr suggested) = .error f) :
      Bids desk e suggested [] (breaks f)
  /-- The next bid is the current one, and it was accepted already. -/
  | rests (room : e.book.attempt + 1 < UInt32.size)
      (next : desk.policy.pricing.nextBid e.book.bid (e.book.attempt + 1)
        (e.priceOr suggested) = .ok e.book.bid)
      (accepted : e.book.accepted = some e.book.bid) :
      Bids desk e suggested [] (.running { e with phase := .listening })
  /-- The next bid is the current one, not accepted yet: it is signed once more. -/
  | repeats {reply} (room : e.book.attempt + 1 < UInt32.size)
      (next : desk.policy.pricing.nextBid e.book.bid (e.book.attempt + 1)
        (e.priceOr suggested) = .ok e.book.bid)
      (unaccepted : e.book.accepted ≠ some e.book.bid) :
      Bids desk e suggested [.sign desk.chainId (e.transaction desk) reply]
        (.running { e with phase := .signing false reply })
  /-- The next bid is higher: the attempt is counted, and the bid goes to the signer. -/
  | raises {bid reply} (room : e.book.attempt + 1 < UInt32.size)
      (next : desk.policy.pricing.nextBid e.book.bid (e.book.attempt + 1)
        (e.priceOr suggested) = .ok bid)
      (higher : bid ≠ e.book.bid) :
      Bids desk e suggested
        [.sign desk.chainId ((e.raised bid (e.book.attempt + 1)).transaction desk) reply]
        (.running { e.raised bid (e.book.attempt + 1) with phase := .signing false reply })

/-- What `afterPricing` leads to. -/
theorem bids_of_afterPricing {suggested : Except Failure Amount}
    (h : e.afterPricing desk.noted now suggested (outside, log) = (out, outside', log')) :
    ∃ calls, log' = log ++ calls ∧ Bids desk e suggested calls out := by
  rw [afterPricing_eq] at h
  simp only [afterPricing, Desk.noted_policy, countUp] at h
  by_cases room : e.book.attempt + 1 < UInt32.size
  · simp only [if_pos room, bind, Except.bind, pure, Except.pure] at h
    cases next : desk.policy.pricing.nextBid e.book.bid (e.book.attempt + 1)
        (e.priceOr suggested) with
    | error f =>
      simp only [next, Prod.mk.injEq] at h
      obtain ⟨rfl, rfl, rfl⟩ := h
      exact ⟨[], by simp, .overflows room next⟩
    | ok bid =>
      simp only [next] at h
      by_cases same : bid = e.book.bid
      · -- What was taken counts only for a bid that stays.
        subst same
        rw [if_pos rfl] at h
        by_cases accepted : e.book.accepted = some e.book.bid
        · rw [if_pos accepted] at h
          cases h
          exact ⟨[], by simp, .rests room next accepted⟩
        · rw [if_neg accepted] at h
          cases h
          exact ⟨_, rfl, .repeats room next accepted⟩
      · rw [if_neg same] at h
        cases h
        exact ⟨_, rfl, .raises room next same⟩
  · simp only [if_neg room, bind, Except.bind, Prod.mk.injEq] at h
    obtain ⟨rfl, rfl, rfl⟩ := h
    exact ⟨[], by simp, .exhausts room⟩

/-- **A loop that waits for a suggestion** is cancelled, or follows `Bids` once it arrives. -/
theorem bids_of_loopStep {reply : Pending (Except Failure Amount)}
    (phase : e.phase = .pricing reply)
    (h : e.loopStep desk.noted limits now (outside, log) = some (out, outside', log')) :
    (limits.cancelled = true ∧ out = fails .cancelled ∧ log' = log) ∨
      ∃ suggested calls, limits.cancelled = false ∧ reply.ready? now = some suggested ∧
        log' = log ++ calls ∧ Bids desk e suggested calls out := by
  simp only [loopStep, phase] at h
  split at h
  next cancelled =>
    cases h
    exact .inl ⟨cancelled, rfl, rfl⟩
  next going =>
    split at h
    next suggested ready =>
      obtain ⟨calls, noted, bids⟩ := bids_of_afterPricing (Option.some.inj h)
      exact .inr ⟨suggested, calls, by simpa using going, ready, noted, bids⟩
    next => cases h

end Escalation

/-! ### The way of a send -/

namespace Send

variable {desk : Desk σ} {s s' : Send} {lease : Lease} {e : Escalation} {limits : Limits}
  {now : Nat} {l l' : Leases} {outside outside' : σ} {calls : List Inquiry}

/-- A send that keeps escalating makes a step of its escalation, and shows what that hands out. -/
theorem running_of_escalating (phase : s.phase = .escalating lease e)
    (step : s.stepWithin desk.noted limits now l (outside, []) =
      some (.running s', l', outside', calls)) :
    ∃ e', s' = { s with phase := .escalating lease e' } ∧ s.handedOut s' = e.handedOut e' ∧
      e.step desk.noted limits now (outside, []) = some (.running e', outside', calls) := by
  obtain ⟨call, deadline, _⟩ := s
  obtain rfl : _ = Phase.escalating lease e := phase
  rcases step_escalating step with ⟨e', inner, same⟩ | ⟨_, _, ended, _⟩
  · cases same
    exact ⟨e', rfl, rfl, inner⟩
  · cases ended

/-- Whether a step of a send consumes a resubmission tick. -/
def ticks (before after : Send) : Bool :=
  match before.phase, after.phase with
  | .escalating _ e, .escalating _ e' => e.ticks e'
  | _, _ => false

/-- **A resubmission tick of a send** is one of its escalation. -/
theorem ticked_of_step (phase : s.phase = .escalating lease e)
    (step : s.stepWithin desk.noted limits now l (outside, []) =
      some (.running s', l', outside', calls)) (ticks : s.ticks s' = true) :
    ∃ e', s' = { s with phase := .escalating lease e' } ∧
      e.due desk.policy limits now = some e'.ticker ∧
      ((e.book.mined ≠ [] ∧ calls = [] ∧
          e' = { e with turn := .loop, ticker := e'.ticker }) ∨
        (e.book.mined = [] ∧ ∃ reply, calls = [.gasPrice reply] ∧
          (Inquiry.gasPrice reply).Genuine desk ∧
          e' = { e with turn := .loop, ticker := e'.ticker, phase := .pricing reply })) := by
  obtain ⟨e', rfl, -, inner⟩ := running_of_escalating phase step
  simp only [Send.ticks, phase] at ticks
  exact ⟨e', rfl, Escalation.ticked_of_step inner ticks⟩

/-- The way of a send from one state to another, with what it shows: any steps, under any
    scheduling, but none of its own where it is not `going`. -/
inductive Onward (desk : Desk σ) (going : Send → Prop) (s : Send) : List Event → Send → Prop where
  | here : Onward desk going s [] s
  | reschedule {shown s' s''} (before : Onward desk going s shown s')
      (order : s'.Rescheduled s'') : Onward desk going s shown s''
  | step {shown s' s'' limits now l l' outside outside' calls}
      (before : Onward desk going s shown s') (goes : going s')
      (step : s'.stepWithin desk.noted limits now l (outside, []) =
        some (.running s'', l', outside', calls)) :
      Onward desk going s (shown ++ s'.shown calls (.running s'')) s''

end Send

end Relayer
