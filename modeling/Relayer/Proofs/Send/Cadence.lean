import Relayer.Proofs.Send.Tardy
import Relayer.Proofs.Send.Ticks

namespace Relayer

/-!
# Cadence — how fast a send publishes its candidates

Every candidate but the first takes a resubmission tick, and a missed tick is not made up for.  So
the candidates are counted by the ticks, and the ticks by the clock.

* `Ticker.Rounds` — the ticks of a ticker between two moments;
* `Escalation.owed` — the candidate that needs no further tick;
* `Send.Passage` — a send from one moment to another, where time passes as it likes;
* `Send.Course.passage` — a course is one;
* `Send.Passage.published_le` — at most `1 + elapsed / period` candidates.
-/

variable {σ : Type}

/-! ### Rounds of a timer -/

namespace Ticker

/-- How many ticks of a ticker were consumed between two moments, and the ticker behind them. -/
inductive Rounds (t : Ticker) (since : Nat) : Nat → Nat → Ticker → Prop where
  | fresh : Rounds t since 0 since t
  | pass {n now later t'} (rounds : Rounds t since n now t') (passes : now ≤ later) :
      Rounds t since n later t'
  | round {n now t' t''} (rounds : Rounds t since n now t') (due : t'.tick? now = some t'') :
      Rounds t since (n + 1) now t''

variable {t t' : Ticker} {since now n : Nat}

/-- A tick is never consumed before it is due; the next one is due a period after this one was due
    at least, and a period less `Ticker.slack` after it was consumed. -/
theorem next_of_tick (h : t.tick? now = some t') :
    t.next ≤ now ∧ t.next + t.period ≤ t'.next ∧ now + t.period ≤ t'.next + slack := by
  simp only [tick?] at h
  split at h
  next due =>
    obtain rfl := Option.some.inj h
    simp only
    split <;> omega
  next => cases h

namespace Rounds

/-- The period stays. -/
theorem period_eq (rounds : t.Rounds since n now t') : t'.period = t.period := by
  induction rounds with
  | fresh => rfl
  | pass _ _ ih => exact ih
  | round _ due ih => exact (of_tick due).1.trans ih

theorem since_le (rounds : t.Rounds since n now t') : since ≤ now := by
  induction rounds with
  | fresh => exact Nat.le_refl _
  | pass _ passes ih => exact Nat.le_trans ih passes
  | round _ _ ih => exact ih

/-- Each tick puts the next one off by a period. -/
theorem le_next (rounds : t.Rounds since n now t') : t.next + n * t.period ≤ t'.next := by
  induction rounds with
  | fresh => simp
  | pass _ _ ih => exact ih
  | @round n _ t' _ before due ih =>
    have later := (next_of_tick due).2.1
    rw [before.period_eq] at later
    rw [Nat.succ_mul]
    omega

/-- **The ticks from the first one that was due**: each takes a period. -/
theorem le_now (rounds : t.Rounds since n now t') (some_round : n ≠ 0) :
    t.next + n * t.period ≤ now + t.period := by
  induction rounds with
  | fresh => exact absurd rfl some_round
  | pass _ passes ih => exact Nat.le_trans (ih some_round) (Nat.add_le_add_right passes _)
  | round before due =>
    have earlier := before.le_next
    have noticed := (next_of_tick due).1
    rw [Nat.succ_mul]
    omega

/-- Since any moment the next tick is as many periods away as there were ticks, but for the slack of
    the first of them. -/
theorem spread_next (rounds : t.Rounds since n now t') (some_round : n ≠ 0) :
    since + n * t.period ≤ t'.next + slack := by
  induction rounds with
  | fresh => exact absurd rfl some_round
  | pass _ _ ih => exact ih some_round
  | @round n _ t' _ before due ih =>
    obtain ⟨-, later, fresh⟩ := next_of_tick due
    rw [before.period_eq] at later fresh
    rw [Nat.succ_mul]
    rcases Nat.eq_zero_or_pos n with rfl | again
    · -- The first round may have been due for long.
      have := before.since_le
      omega
    · have := ih (Nat.ne_of_gt again)
      omega

/-- **The ticks from any moment on**: each but the first takes a period, whatever was due before. -/
theorem spread_now (rounds : t.Rounds since n now t') (some_round : n ≠ 0) :
    since + n * t.period ≤ now + slack + t.period := by
  induction rounds with
  | fresh => exact absurd rfl some_round
  | pass _ passes ih =>
    have := ih some_round
    omega
  | @round n _ _ _ before due =>
    have noticed := (next_of_tick due).1
    rw [Nat.succ_mul]
    rcases Nat.eq_zero_or_pos n with rfl | again
    · have := before.since_le
      omega
    · have := before.spread_next (Nat.ne_of_gt again)
      omega

end Rounds

end Ticker

/-! ### What a round brings -/

namespace Escalation

variable {desk : Desk σ} {limits : Limits} {now : Nat} {e e' : Escalation} {calls : List Inquiry}

/-- The candidates that may still follow without another tick. -/
def owed (e : Escalation) : Nat :=
  match e.phase with
  | .listening => 0
  | .opening | .pricing _ | .signing _ _ => 1

/-- At most one candidate is owed. -/
theorem owed_le (e : Escalation) : e.owed ≤ 1 := by
  unfold owed
  split <;> omega

/-- A loop that keeps listening owes none. -/
theorem owed_of_listening (phase : e.phase = .listening) : e.owed = 0 := by rw [owed, phase]

/-- A loop in any other phase owes one. -/
theorem owed_of_busy (phase : e.phase ≠ .listening) : e.owed = 1 := by
  unfold owed
  split
  next here => exact absurd here phase
  all_goals rfl

/-- **A candidate was owed, or a tick was due.** -/
theorem Move.owed (move : Move desk limits now e calls (.running e')) :
    (e'.ticker = e.ticker ∧ (e.handedOut e').length + e'.owed ≤ e.owed) ∨
    (e.ticker.tick? now = some e'.ticker ∧
      (e.handedOut e').length + e'.owed ≤ e.owed + 1) := by
  rcases move.handedOut with quiet | ⟨first, reply, raw, signing, -, -, rfl, shown⟩
  · rw [quiet, List.length_nil, Nat.zero_add]
    cases move with
    | holds _ due _ => exact .inr ⟨due, Nat.le_succ _⟩
    | prices _ due _ _ => exact .inr ⟨due, Nat.le_add_left 1 _⟩
    | opens phase _ => exact .inl ⟨rfl, by simp [owed_of_busy, phase]⟩
    | repeats phase _ _ _ | raises phase _ _ _ _ =>
      exact .inl ⟨rfl, by simp [owed_of_busy, phase]⟩
    | rests _ _ _ | publishes _ _ | defers _ _ _ => exact .inl ⟨rfl, Nat.zero_le _⟩
    | receives _ _ _ _ | folds _ _ _ _ _ | tracks _ | sends _ _ | answers _ _ =>
      exact .inl ⟨rfl, Nat.le_refl _⟩
  · left
    refine ⟨rfl, ?_⟩
    rw [shown, owed_of_listening (e := e.handOut raw) rfl, owed_of_busy (by simp [signing])]
    exact Nat.le_refl _

/-- No move changes when the escalation began. -/
theorem Move.started (move : Move desk limits now e calls (.running e')) :
    e'.started = e.started := by
  cases move <;> rfl

end Escalation

/-! ### By any clock -/

namespace Send

variable {desk : Desk σ} {call : Call} {s₀ s : Send} {begun now : Nat} {shown : List Event}

/-- A send from one state and moment to another, with what it shows in between.  Time passes as it
    likes: every call may take as long as it will, and every step may be late. -/
inductive Passage (desk : Desk σ) (s₀ : Send) (begun : Nat) : List Event → Nat → Send → Prop where
  | here : Passage desk s₀ begun [] begun s₀
  | pass {shown now later s} (passage : Passage desk s₀ begun shown now s) (passes : now ≤ later) :
      Passage desk s₀ begun shown later s
  | reschedule {shown now s s'} (passage : Passage desk s₀ begun shown now s)
      (order : s.Rescheduled s') : Passage desk s₀ begun shown now s'
  | step {shown now s s' limits leases leases' outside outside' calls}
      (passage : Passage desk s₀ begun shown now s)
      (step : s.stepWithin desk.noted limits now leases (outside, []) =
        some (.running s', leases', outside', calls)) :
      Passage desk s₀ begun (shown ++ s.shown calls (.running s')) now s'

/-- **A course is a passage**, whatever it waits for. -/
theorem Course.passage {cancelAt : Option Nat}
    (course : Course desk call begun cancelAt shown now s) :
    Passage desk (.start desk.policy call begun) begun shown now s := by
  induction course with
  | start => exact .here
  | reschedule _ order ih => exact .reschedule ih order
  | step _ step ih => exact .step ih step
  | wait _ _ _ passes _ ih => exact .pass ih passes.le

/-- An escalation that has just begun. -/
structure Fresh (policy : Policy) (lease : Lease) (e : Escalation) (s : Send) : Prop where
  phase : s.phase = .escalating lease e
  ticker : e.ticker = ⟨e.started + policy.resubmitAfter, policy.resubmitAfter⟩
  period : 0 < policy.resubmitAfter

/-- The initial bid begins an escalation now. -/
theorem fresh_of_firstBid {lease : Lease} {gasLimit suggested : Amount} {e : Escalation}
    (first : firstBid desk now s lease gasLimit suggested = .ok e) :
    e.started = now ∧
      Fresh desk.policy lease e { s with phase := .escalating lease e } := by
  have period : desk.policy.resubmitAfter ≠ 0 := by
    intro still
    simp only [firstBid, Escalation.start, if_pos still, bind, Except.bind] at first
    split at first <;> cases first
  obtain ⟨bid, -, rfl⟩ := firstBid_ok first
  exact ⟨rfl, rfl, rfl, Nat.pos_of_ne_zero period⟩

namespace Passage

/-- **A send counts its candidates by its resubmission ticks.** -/
theorem rounds (passage : Passage desk s₀ begun shown now s) {lease : Lease} {e₀ : Escalation}
    (phase₀ : s₀.phase = .escalating lease e₀) :
    ∃ e n, s.phase = .escalating lease e ∧ e.started = e₀.started ∧
      e₀.ticker.Rounds begun n now e.ticker ∧ (published shown).length + e.owed ≤ e₀.owed + n := by
  induction passage with
  | here => exact ⟨e₀, 0, phase₀, rfl, .fresh, by simp [published]⟩
  | pass _ passes ih =>
    obtain ⟨e, n, phase, started, rounds, count⟩ := ih
    exact ⟨e, n, phase, started, .pass rounds passes, count⟩
  | reschedule _ order ih =>
    obtain ⟨e, n, phase, started, rounds, count⟩ := ih
    obtain ⟨lease', e', turn, outstanding, phase', -, rfl⟩ := order
    cases phase.symm.trans phase'
    exact ⟨_, n, rfl, started, rounds, count⟩
  | step _ step ih =>
    obtain ⟨e, n, phase, started, rounds, count⟩ := ih
    obtain ⟨e', rfl, shows, inner⟩ := running_of_escalating phase step
    obtain ⟨turn, calls', same, move⟩ := Escalation.move_of_step inner
    rw [published_append, published_shown, shows, List.length_append]
    have begun := move.started.trans started
    rcases move.owed with ⟨same, owes⟩ | ⟨due, owes⟩
    · refine ⟨e', n, rfl, begun, same ▸ rounds, ?_⟩
      change (e.handedOut e').length + e'.owed ≤ e.owed at owes
      omega
    · refine ⟨e', n + 1, rfl, begun, .round rounds due, ?_⟩
      change (e.handedOut e').length + e'.owed ≤ e.owed + 1 at owes
      omega

/-- **Nothing is published before the escalation**, and from its start on the candidates of a send
    are those of the escalation. -/
theorem since_fresh (passage : Passage desk (.start desk.policy call begun) begun shown now s) :
    ((∀ lease e, s.phase ≠ .escalating lease e) ∧ published shown = []) ∨
      ∃ s₁ lease e later, Fresh desk.policy lease e s₁ ∧ Passage desk s₁ e.started later now s ∧
        published shown = published later := by
  induction passage with
  | here => exact .inl ⟨by simp [start], rfl⟩
  | pass _ passes ih =>
    rcases ih with early | ⟨s₁, lease, e, later, fresh, onward, same⟩
    · exact .inl early
    · exact .inr ⟨s₁, lease, e, later, fresh, .pass onward passes, same⟩
  | reschedule _ order ih =>
    rcases ih with ⟨early, -⟩ | ⟨s₁, lease, e, later, fresh, onward, same⟩
    · obtain ⟨lease, e, turn, outstanding, phase, -, -⟩ := order
      exact absurd phase (early lease e)
    · exact .inr ⟨s₁, lease, e, later, fresh, .reschedule onward order, same⟩
  | @step _ now s s' _ _ _ _ _ calls _ step ih =>
    rw [published_append, published_shown]
    rcases ih with ⟨early, none⟩ | ⟨s₁, lease, e, later, fresh, onward, same⟩
    · have quiet : s.handedOut s' = [] := by
        unfold handedOut
        split
        next lease e _ _ phase _ => exact absurd phase (early lease e)
        next => rfl
      rw [none, quiet]
      rcases early_or_escalating s' with early' | ⟨lease, e, phase⟩
      · exact .inl ⟨early', rfl⟩
      · -- Only the first bid leads there.
        cases move_of_noted step with
        | bids _ _ first =>
          cases phase
          obtain ⟨rfl, fresh⟩ := fresh_of_firstBid first
          exact .inr ⟨_, _, _, [], fresh, .here, rfl⟩
        | inherits _ _ _ | learns _ _ =>
          simp only [afterLease] at phase
          split at phase <;> cases phase
        | escalates before _ => exact absurd before (early _ _)
        | _ => cases phase
    · refine .inr ⟨s₁, lease, e, _, fresh, .step onward step, ?_⟩
      rw [published_append, published_shown, same]

variable {lease : Lease} {e : Escalation}

/-- The candidates of an escalation, counted from its start. -/
theorem published_le_of_fresh {s₁ : Send} (fresh : Fresh desk.policy lease e s₁)
    (onward : Passage desk s₁ e.started shown now s) :
    (published shown).length ≤ 1 + (now - e.started) / desk.policy.resubmitAfter := by
  obtain ⟨_, n, -, -, rounds, count⟩ := onward.rounds fresh.phase
  have owed := e.owed_le
  have rounds_le : n ≤ (now - e.started) / desk.policy.resubmitAfter := by
    rw [Nat.le_div_iff_mul_le fresh.period]
    rcases Nat.eq_zero_or_pos n with rfl | some_round
    · simp
    · have paid := rounds.le_now (Nat.ne_of_gt some_round)
      simp only [fresh.ticker] at paid
      omega
  omega

/-- The candidates of an escalation between any two of its moments. -/
theorem published_le_of_period (phase : s₀.phase = .escalating lease e)
    (period : 0 < e.ticker.period) (onward : Passage desk s₀ begun shown now s) :
    (published shown).length ≤ 2 + (now - begun + Ticker.slack) / e.ticker.period := by
  obtain ⟨_, n, -, -, rounds, count⟩ := onward.rounds phase
  have owed := e.owed_le
  have rounds_le : n - 1 ≤ (now - begun + Ticker.slack) / e.ticker.period := by
    rw [Nat.le_div_iff_mul_le period, Nat.sub_one_mul]
    rcases Nat.eq_zero_or_pos n with rfl | some_round
    · simp
    · have paid := rounds.spread_now (Nat.ne_of_gt some_round)
      omega
  omega

/-- **A send keeps its cadence, whatever comes late**: by any moment it has published at most `1 +
    elapsed / resubmitAfter` candidates since its escalation began, and its end publishes none.
    Missed ticks are not made up for: between any two moments there are at most two candidates and
    one more for each period, however late the ticker was. -/
theorem published_le (passage : Passage desk (.start desk.policy call begun) begun shown now s)
    (phase : s.phase = .escalating lease e) :
    (published shown).length ≤ 1 + (now - e.started) / desk.policy.resubmitAfter ∧
    (∀ calls result, published (s.shown calls (.ended result)) = []) ∧
    ∀ {more later s'}, Passage desk s now more later s' →
      (published more).length ≤
        2 + (later - now + Ticker.slack) / desk.policy.resubmitAfter := by
  rcases passage.since_fresh with ⟨early, -⟩ | ⟨s₁, lease₁, e₁, onward, fresh, since, same⟩
  · exact absurd phase (early lease e)
  obtain ⟨e', n, phase', started, rounds, -⟩ := since.rounds fresh.phase
  cases phase.symm.trans phase'
  have period : e.ticker.period = desk.policy.resubmitAfter := by
    rw [rounds.period_eq, fresh.ticker]
  refine ⟨?_, ?_, ?_⟩
  · rw [same, started]
    exact published_le_of_fresh fresh since
  · intro calls result
    simp [published, Send.shown, Event.published?, List.filterMap_none]
  · intro more later s' onward
    have positive : 0 < e.ticker.period := period ▸ fresh.period
    rw [← period]
    exact published_le_of_period phase positive onward

/-- At 7 ms a send with a tick every 6 ms has published two candidates, as many as it may have. -/
theorem published_le_reached : ∃ d shown e,
    Course (Errand.bare.tardy d none) Errand.bare.call 0 none shown 7
      ⟨Errand.bare.call, none, .escalating Errand.bare.lease e⟩ ∧
    (published shown).length = 2 ∧ 1 + (7 - e.started) / 6 = 2 ∧
    (published shown).length ≤ 1 + (7 - e.started) / 6 := by
  obtain ⟨others, shown, course, both⟩ :=
    Errand.hands ⟨.accepted, some 10⟩ 8 Errand.bare_fits
  have periods : 1 + (7 - (Errand.bare.both others ⟨.accepted, some 10⟩).started) / 6 = 2 := by
    show 1 + (7 - 0) / 6 = 2
    rfl
  exact ⟨⟨1, ⟨.accepted, some 10⟩, 8⟩, shown, _, course, by rw [both]; rfl, periods,
    (course.passage.published_le rfl).1⟩

end Passage

end Send

end Relayer
