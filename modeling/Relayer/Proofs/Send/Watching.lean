import Relayer.Proofs.Send.Prompt
import Relayer.Proofs.Tracker.Trace

namespace Relayer

/-!
# Watching — no candidate is broadcast unwatched

A candidate that is broadcast and not watched would be mined without anybody noticing.  So its hash
is watched first, once, and stays watched; and a poll looks up all hashes that are watched when it
begins.

* `Send.Run.at_call` — a run is split at any of its calls;
* `Send.Run.watched_eq` — the watched hashes are those of the published candidates, each once;
* `Send.Run.surveys` — how far the poll under way has come through them;
* `Send.Run.watching` — a hash is watched before it is broadcast, and looked up by every later poll.
-/

variable {σ : Type}

/-! ### Calls one at a time -/

/-- A move of the tracker makes one call at most. -/
theorem Tracker.Move.calls_eq {desk : Desk σ} {now : Nat} {room : Bool} {t t' : Tracker}
    {calls : List Inquiry} {event : Option TrackerEvent}
    (move : Move desk now room t calls t' event) : calls = [] ∨ ∃ i, calls = [i] := by
  cases move <;> simp

/-- A move of an escalation makes one call at most, and publishes nothing then. -/
theorem Escalation.Move.calls_eq {desk : Desk σ} {limits : Limits} {now : Nat} {e e' : Escalation}
    {calls : List Inquiry} (move : Move desk limits now e calls (.running e')) :
    calls = [] ∨ ∃ i, calls = [i] ∧ e.handedOut e' = [] := by
  have single : calls = [] ∨ ∃ i, calls = [i] := by
    cases move with
    | tracks move => exact move.calls_eq
    | _ => simp
  rcases single with none | ⟨i, rfl⟩
  · exact .inl none
  · rcases move.handedOut with nothing | ⟨_, _, _, -, -, none, -⟩
    · exact .inr ⟨i, rfl, nothing⟩
    · cases none

/-- A move that publishes nothing leaves the watched hashes alone. -/
theorem Escalation.Move.watched_eq {desk : Desk σ} {limits : Limits} {now : Nat}
    {e e' : Escalation} {calls : List Inquiry}
    (move : Move desk limits now e calls (.running e')) (nothing : e.handedOut e' = []) :
    e'.tracker.watched = e.tracker.watched := by
  cases move with
  | publishes _ _ => simp at nothing
  | tracks move => exact move.fixed.2
  | _ => rfl

/-- A move of an escalation keeps the survey of its tracker, unless a new poll begins. -/
theorem Escalation.Move.surveys {desk : Desk σ} {limits : Limits} {now : Nat} {e e' : Escalation}
    {calls : List Inquiry} {hashes : List Digest} {reply : Pending (Except Failure Nat)}
    {looked : List Look}
    (h : e.tracker.stage.Surveys e.tracker.depth hashes reply looked)
    (move : Move desk limits now e calls (.running e')) (quiet : ∀ reply, .head reply ∉ calls) :
    e'.tracker.stage.Surveys e'.tracker.depth hashes reply
      (looked ++ calls.filterMap (·.look?)) := by
  cases move with
  | tracks move => exact move.surveys h quiet
  | publishes _ _ =>
    rw [List.filterMap_nil, List.append_nil]
    simpa [handOut] using h
  | _ =>
    simp only [List.filterMap_cons, List.filterMap_nil, Inquiry.look?, List.append_nil]
    exact h

namespace Send

variable {desk : Desk σ} {call : Call} {trail : List Event} {s s' : Send} {limits : Limits}
  {now : Nat} {l l' : Leases} {calls : List Inquiry} {i : Inquiry}

/-- **A move that makes a call** shows that call and nothing else. -/
theorem Move.shown_call (move : Move desk limits now s l calls (.running s') l')
    (asked : i ∈ calls) : calls = [i] ∧ s.shown calls (.running s') = [.asked i] := by
  cases move with
  | reads phase _ _ _ =>
    obtain rfl := List.mem_singleton.mp asked
    refine ⟨rfl, ?_⟩
    simp [shown, gained, handedOut, lease?, phase]
  | estimates phase move | prices phase move =>
    rcases move.calls_eq with rfl | ⟨reply, rfl, -, -⟩
    · cases asked
    · obtain rfl := List.mem_singleton.mp asked
      refine ⟨rfl, ?_⟩
      simp [shown, gained, handedOut, lease?, phase]
  | pads phase move _ | bids phase move _ =>
    rcases move.calls_eq with rfl | ⟨reply, -, -, waits⟩
    · cases asked
    · cases waits
  | @escalates _ e _ _ _ phase move =>
    rw [shown_escalating phase]
    rcases move.calls_eq with rfl | ⟨j, rfl, nothing⟩
    · cases asked
    · obtain rfl := List.mem_singleton.mp asked
      rw [show e.handedOut _ = [] from nothing]
      exact ⟨rfl, rfl⟩
  | _ => cases asked

/-- A call in a trail that a move has prolonged is that of the move, or was in the trail before. -/
theorem Move.split_call (move : Move desk limits now s l calls (.running s') l')
    {before after : List Event}
    (split : trail ++ s.shown calls (.running s') = before ++ .asked i :: after) :
    (before = trail ∧ calls = [i] ∧ after = []) ∨
      ∃ between, trail = before ++ .asked i :: between ∧
        after = between ++ s.shown calls (.running s') := by
  have here {between : List Event}
      (shown : s.shown calls (.running s') = between ++ .asked i :: after) :
      between = [] ∧ calls = [i] ∧ after = [] := by
    have asked : i ∈ calls := asked_mem_shown.mp (by rw [shown]; simp)
    obtain ⟨only, alone⟩ := move.shown_call asked
    rw [alone] at shown
    cases between with
    | nil => exact ⟨rfl, only, (List.cons.inj shown).2.symm⟩
    | cons => simp at shown
  rcases List.append_eq_append_iff.mp split with ⟨between, rfl, shown⟩ | ⟨between, rfl, shown⟩
  · obtain ⟨rfl, only, nothing⟩ := here shown
    exact .inl ⟨List.append_nil _, only, nothing⟩
  · cases between with
    | nil =>
      obtain ⟨-, only, nothing⟩ := @here [] shown.symm
      exact .inl ⟨(List.append_nil _).symm, only, nothing⟩
    | cons e between =>
      obtain ⟨rfl, rfl⟩ := List.cons.inj shown
      exact .inr ⟨between, rfl, rfl⟩

/-- **A run is split at any of its calls**, into a run up to there and a move that makes the
    call. -/
theorem Run.at_call {before after : List Event}
    (run : Run desk call (before ++ .asked i :: after) s) :
    ∃ s₀ s₁ limits now l l', Run desk call before s₀ ∧ Run desk call (before ++ [.asked i]) s₁ ∧
      Move desk limits now s₀ l [i] (.running s₁) l' := by
  generalize split : before ++ .asked i :: after = trail at run
  induction run generalizing after with
  | start now => simp at split
  | reschedule _ _ ih => exact ih split
  | @step trail s s' limits now l l' _ _ calls run step ih =>
    have move := move_of_noted step
    rcases move.split_call split.symm with ⟨rfl, rfl, rfl⟩ | ⟨between, same, -⟩
    · have shown := (move.shown_call (List.mem_singleton_self i)).2
      exact ⟨s, s', limits, now, l, l', run, shown ▸ .step run step, move⟩
    · exact ih same.symm

/-! ### What is watched -/

/-- The hashes that a send watches: none before its escalation. -/
def watched (s : Send) : List Digest :=
  match s.phase with
  | .escalating _ e => e.tracker.watched
  | _ => []

/-- A send that has just acquired its lease watches none. -/
theorem watched_afterLease (s : Send) (lease : Lease) :
    ({ s with phase := s.afterLease lease } : Send).watched = [] := by
  unfold afterLease
  split <;> rfl

/-- **A move watches what it publishes**, unless it is watched already. -/
theorem Move.watched_eq (move : Move desk limits now s l calls (.running s') l') :
    s'.watched = s.watched ∧ s.handedOut s' = [] ∨
      ∃ c, s.handedOut s' = [c] ∧ s'.watched = Tracker.enlist s.watched c.hash := by
  cases move with
  | @escalates lease e e' turn _ phase move =>
    have handed : s.handedOut { s with phase := .escalating lease e' } = e.handedOut e' := by
      simp only [handedOut, phase]
    rw [handed, watched, watched, phase]
    rcases move.handedOut with nothing | ⟨_, _, raw, -, -, -, rfl, one⟩
    · exact .inl ⟨move.watched_eq nothing, nothing⟩
    · exact .inr ⟨_, one, Tracker.watched_watch ..⟩
  | bids phase _ first =>
    obtain ⟨bid, -, rfl⟩ := firstBid_ok first
    exact .inl ⟨by simp [watched, phase, Tracker.start], by simp [handedOut, phase]⟩
  | inherits phase _ _ | learns phase _ =>
    exact .inl ⟨by rw [watched_afterLease, watched, phase], by simp [handedOut, phase]⟩
  | joins phase | reads phase _ _ _ | retries phase _ _ | resumes phase _ | estimates phase _
  | pads phase _ _ | prices phase _ =>
    exact .inl ⟨by simp [watched, phase], by simp [handedOut]⟩

/-- **The watched hashes** are those of the published candidates, each of them once, in the order of
    their first publication. -/
theorem Run.watched_eq (run : Run desk call trail s) :
    s.watched = ((published trail).map (·.hash)).eraseDups := by
  refine run.induction (P := fun trail s => s.watched = ((published trail).map (·.hash)).eraseDups)
    (fun _ => rfl) ?_ ?_
  · rintro trail s s' same ⟨lease, e, turn, outstanding, phase, -, rfl⟩
    rw [← same, watched, watched, phase]
  · intro trail s s' limits now l l' calls same move
    rw [published_append, published_shown, List.map_append]
    rcases move.watched_eq with ⟨kept, nothing⟩ | ⟨c, one, grown⟩
    · rw [kept, nothing, same, List.map_nil, List.append_nil]
    · rw [grown, one, same, List.map_singleton, Tracker.eraseDups_concat]

/-- No hash is watched twice. -/
theorem Run.watched_nodup (run : Run desk call trail s) : s.watched.Nodup := by
  refine run.induction (P := fun _ s => s.watched.Nodup) (fun _ => List.nodup_nil) ?_ ?_
  · rintro _ s s' distinct ⟨lease, e, turn, outstanding, phase, -, rfl⟩
    simpa [watched, phase] using distinct
  · intro _ s s' limits now l l' calls distinct move
    rcases move.watched_eq with ⟨kept, -⟩ | ⟨c, -, grown⟩
    · rwa [kept]
    · exact grown ▸ Tracker.nodup_enlist distinct c.hash

/-! ### What is looked up -/

/-- A send that keeps escalating makes a move of its escalation. -/
theorem Move.of_escalating {lease : Lease} {e : Escalation}
    (move : Move desk limits now s l calls (.running s') l')
    (phase : s.phase = .escalating lease e) :
    ∃ turn e', s'.phase = .escalating lease e' ∧
      Escalation.Move desk limits now { e with turn } calls (.running e') := by
  cases move with
  | escalates phase' move =>
    obtain ⟨rfl, rfl⟩ := Phase.escalating.inj (phase.symm.trans phase')
    exact ⟨_, _, rfl, move⟩
  | joins phase' | reads phase' _ _ _ | inherits phase' _ _ | learns phase' _ | retries phase' _ _
  | resumes phase' _ | estimates phase' _ | pads phase' _ _ | prices phase' _ | bids phase' _ _ =>
    cases phase.symm.trans phase'

/-- The head is asked for where a poll begins, with all hashes that are watched. -/
theorem Move.begins_of_head {reply : Pending (Except Failure Nat)}
    (move : Move desk limits now s l [.head reply] (.running s') l') :
    ∃ lease e e', s.phase = .escalating lease e ∧ e.tracker.stage = .resting ∧
      s'.phase = .escalating lease e' ∧
      e'.tracker.stage = .readingHead s.watched reply := by
  generalize asked : [Inquiry.head reply] = calls at move
  cases move with
  | estimates _ move | pads _ move _ | prices _ move | bids _ move _ =>
    rcases move.calls_eq with rfl | ⟨_, rfl, -, -⟩ <;> cases asked
  | @escalates lease e _ _ _ phase move =>
    cases move
    case tracks move =>
      cases move <;> cases asked
      case begins stage _ _ => exact ⟨lease, e, _, phase, stage, rfl, by rw [watched, phase]⟩
    all_goals cases asked
  | _ => cases asked

/-- **How far the poll under way has come** through the hashes that were watched when it began. -/
theorem Run.surveys (run : Run desk call trail s) {before during : List Event}
    {reply : Pending (Except Failure Nat)}
    (split : trail = before ++ .asked (.head reply) :: during)
    (no_head : ∀ reply', .asked (.head reply') ∉ during) :
    ∃ lease e, s.phase = .escalating lease e ∧
      e.tracker.stage.Surveys e.tracker.depth ((published before).map (·.hash)).eraseDups reply
        (looks during) := by
  induction run generalizing during with
  | start now => simp at split
  | reschedule _ order ih =>
    obtain ⟨lease, e, phase, survey⟩ := ih split no_head
    obtain ⟨_, _, turn, outstanding, phase', -, rfl⟩ := order
    obtain ⟨rfl, rfl⟩ := Phase.escalating.inj (phase.symm.trans phase')
    exact ⟨_, _, rfl, survey⟩
  | @step trail s s' limits now l l' _ _ calls run step ih =>
    have move := move_of_noted step
    -- The poll begins by this move, or it began before and this is one of its moves.
    rcases move.split_call split with ⟨rfl, rfl, rfl⟩ | ⟨between, rfl, rfl⟩
    · obtain ⟨lease, e, e', -, -, phase', stage⟩ := move.begins_of_head
      refine ⟨lease, e', phase', ?_⟩
      rw [stage, run.watched_eq]
      exact ⟨rfl, rfl, rfl⟩
    · obtain ⟨lease, e, phase, survey⟩ :=
        ih rfl fun reply' asked => no_head reply' (List.mem_append_left _ asked)
      have quiet (reply') : .head reply' ∉ calls := fun asked =>
        no_head reply' (List.mem_append_right _ (asked_mem_shown.mpr asked))
      obtain ⟨turn, e', phase', move⟩ := move.of_escalating phase
      rw [looks_append_shown]
      exact ⟨lease, e', phase',
        Escalation.Move.surveys (e := { e with turn }) survey move quiet⟩

/-- The hash of a published candidate is watched. -/
theorem Run.watched_of_published (run : Run desk call trail s) {c : Candidate}
    (listed : c ∈ published trail) : c.hash ∈ s.watched := by
  rw [run.watched_eq, List.mem_eraseDups]
  exact List.mem_map_of_mem listed

/-- A receipt lookup is a call in the trail. -/
theorem asked_of_mem_looks {look : Look} (listed : look ∈ looks trail) :
    .asked (.receipt look.hash look.reply) ∈ trail := by
  obtain ⟨event, listed, shown⟩ := List.mem_filterMap.mp listed
  cases event with
  | asked i => rwa [Inquiry.look?_eq_some.mp shown] at listed
  | _ => cases shown

/-- **A hash that was broadcast before a poll began** is looked up in it, or will be, unless the
    head reading fails or an earlier hash was confirmed. -/
theorem Run.looked_or {before during : List Event} {reply : Pending (Except Failure Nat)}
    (run : Run desk call (before ++ .asked (.head reply) :: during) s)
    (no_head : ∀ reply', .asked (.head reply') ∉ during) :
    ∃ lease e, s.phase = .escalating lease e ∧
      ∀ c reply', .asked (.broadcast c reply') ∈ before →
        (∃ reply', .asked (.receipt c.hash reply') ∈ during) ∨
        c.hash ∈ e.tracker.stage.pending ∨
        (∃ f, reply.answer = .error f) ∨
        e.tracker.stage = .done ∧ Tracker.EndedBefore e.tracker.depth
          ((published before).map (·.hash)).eraseDups reply (looks during) c.hash := by
  obtain ⟨s₀, _, _, _, _, _, run₀, -, -⟩ := run.at_call
  obtain ⟨lease, e, phase, survey⟩ := run.surveys rfl no_head
  refine ⟨lease, e, phase, fun c reply' sent => ?_⟩
  have listed := run₀.watched_of_published (run₀.published_of_broadcast sent)
  rw [run₀.watched_eq] at listed
  refine (survey.looked_or listed).imp_left ?_
  rintro ⟨look, looked, own⟩
  exact ⟨look.reply, own ▸ asked_of_mem_looks looked⟩

/-- **No candidate is broadcast unwatched.**
    * The watched hashes are those of the candidates published so far, each of them once, in the
      order of their first publication; so they only grow, and at the end.
    * When a candidate is broadcast its hash is watched already.
    * A poll that begins behind a broadcast looks that hash up, or has still to do so, unless the
      head reading fails or an earlier hash was confirmed.
    * So where the next poll begins, a head that was read means that the hash was looked up. -/
theorem Run.watching (run : Run desk call trail s) :
    (∀ lease e, s.phase = .escalating lease e →
      e.tracker.watched.Nodup ∧
      e.tracker.watched = ((published trail).map (·.hash)).eraseDups ∧
      ∀ later s' lease' e', Run desk call (trail ++ later) s' →
        s'.phase = .escalating lease' e' → e.tracker.watched <+: e'.tracker.watched) ∧
    (∀ before c reply after, trail = before ++ .asked (.broadcast c reply) :: after →
      ∃ s₀ s₁ limits now l l' lease e, Run desk call before s₀ ∧
        Move desk limits now s₀ l [.broadcast c reply] (.running s₁) l' ∧
        s₀.phase = .escalating lease e ∧ c.hash ∈ e.tracker.watched) ∧
    (∀ before reply during, trail = before ++ .asked (.head reply) :: during →
      (∀ reply', .asked (.head reply') ∉ during) →
      ∃ lease e, s.phase = .escalating lease e ∧
        ∀ c reply', .asked (.broadcast c reply') ∈ before →
          (∃ reply', .asked (.receipt c.hash reply') ∈ during) ∨
          c.hash ∈ e.tracker.stage.pending ∨
          (∃ f, reply.answer = .error f) ∨
          e.tracker.stage = .done ∧ Tracker.EndedBefore e.tracker.depth
            ((published before).map (·.hash)).eraseDups reply (looks during) c.hash) ∧
    ∀ before reply during next after head c reply',
      trail = before ++ .asked (.head reply) :: (during ++ .asked (.head next) :: after) →
      (∀ reply', .asked (.head reply') ∉ during) → reply.answer = .ok head →
      .asked (.broadcast c reply') ∈ before →
        ∃ reply', .asked (.receipt c.hash reply') ∈ during := by
  refine ⟨?_, ?_, ?_, ?_⟩
  · intro lease e phase
    have listed := run.watched_eq
    have distinct := run.watched_nodup
    rw [watched, phase] at listed distinct
    refine ⟨distinct, listed, fun later s' lease' e' run' phase' => ?_⟩
    have listed' := run'.watched_eq
    rw [watched, phase', published_append, List.map_append, List.eraseDups_append] at listed'
    exact ⟨_, (listed ▸ listed').symm⟩
  · rintro before c reply after rfl
    obtain ⟨s₀, s₁, limits, now, l, l', run₀, run₁, move⟩ := run.at_call
    obtain ⟨lease, e, phase, -⟩ := move.queued_of_broadcast (List.mem_singleton_self _)
    -- The move shows nothing but the broadcast, so the candidate was published before it.
    have before : c ∈ published before := by
      have sent := run₁.published_of_broadcast (List.mem_append_right _ (List.mem_singleton_self _))
      simpa [published, Event.published?] using sent
    have listed := run₀.watched_of_published before
    rw [watched, phase] at listed
    exact ⟨s₀, s₁, limits, now, l, l', lease, e, run₀, move, phase, listed⟩
  · rintro before reply during rfl no_head
    exact run.looked_or no_head
  · rintro before reply during next after head c reply' rfl no_head headed sent
    rw [← List.cons_append, ← List.append_assoc] at run
    obtain ⟨s₀, _, _, _, _, _, run₀, -, move⟩ := run.at_call
    -- The next poll begins where this one is over, and was not ended by a confirmation.
    obtain ⟨lease, e, _, phase, resting, -, -⟩ := move.begins_of_head
    obtain ⟨_, _, phase', looked⟩ := run₀.looked_or no_head
    obtain ⟨rfl, rfl⟩ := Phase.escalating.inj (phase.symm.trans phase')
    rcases looked c reply' sent with found | pending | ⟨f, lost⟩ | ⟨done, -⟩
    · exact found
    · simp [resting, Tracker.Stage.pending] at pending
    · cases headed.symm.trans lost
    · cases resting.symm.trans done

/-- The first candidate of an errand is watched when it is broadcast. -/
theorem Run.watching_first : ∃ before reply after s,
    Run Errand.bare.desk Errand.bare.call
      (before ++ .asked (.broadcast (Errand.bare.candidate .suggested) reply) :: after) s ∧
    ∃ s₀ lease e, Run Errand.bare.desk Errand.bare.call before s₀ ∧
      s₀.phase = .escalating lease e ∧ Errand.bare.hash ∈ e.tracker.watched := by
  obtain ⟨calls, l, stretch, -⟩ := Errand.bare_fits.stretch
  have sent : .asked (.broadcast (Errand.bare.candidate .suggested) (.immediate 0 .accepted)) ∈
      Errand.bare.trail calls := Errand.broadcast_mem_trail
  obtain ⟨before, after, split⟩ := List.append_of_mem sent
  have run := stretch.run (.start 0)
  rw [List.nil_append, split] at run
  obtain ⟨-, watched, -⟩ := run.watching
  obtain ⟨s₀, _, _, _, _, _, lease, e, run₀, -, phase, listed⟩ := watched before _ _ after rfl
  exact ⟨before, _, after, _, run, s₀, lease, e, run₀, phase, listed⟩

end Send

end Relayer
