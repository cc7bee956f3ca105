import Relayer.Proofs.Leases.Runtime
import Relayer.Proofs.Leases.Settlement

namespace Relayer

/-!
# Adequacy — a runtime has the histories of an office

In an `Office` a send is one state, with its tracker and its broadcasts in it; in a `Runtime` they
are tasks.  The two have the same histories: a frame and its tasks are an `Escalation`, whose `turn`
and order of broadcasts are those of the scheduler.

* `Runtime.Shows` — futures and tasks together are the clients of an office;
* `Runtime.Step.office` — a step of a runtime is a step of the office that it shows;
* `Runtime.Run.send` — a step of an office is a step of every runtime that shows it;
* `Runtime.Run.office` / `Runtime.exists_run_of_office` — the same for histories;
* `Runtime.exists_run_iff` — the histories are the same.
-/

variable {σ : Type}

/-! ### What a runtime shows -/

/-- The client is not escalating. -/
def Client.IsPlain : Client → Prop
  | .sending s => ∀ lease e, s.phase ≠ .escalating lease e
  | _ => True

/-- The future `id`, with the tasks in the table, is this client. -/
inductive Future.Shows (ts : Tasks) (id : Nat) : Future → Client → Prop where
  | plain {c} (early : c.IsPlain) : Shows ts id (.plain c) c
  | escalating {call deadline lease f t o} (turn : Escalation.Party) (sees : f.Sees id ts t o) :
      Shows ts id (.escalating call deadline lease f)
        (.sending ⟨call, deadline, .escalating lease { f.escalation t o with turn }⟩)

theorem Future.Shows.of_spares {ts ts' : Tasks} {id k : Nat} {future : Future} {c : Client}
    (shows : future.Shows ts id c) (other : id ≠ k) (spares : ts.Spares ts' k) :
    future.Shows ts' id c := by
  cases shows with
  | plain early => exact .plain early
  | escalating turn sees => exact .escalating turn (sees.of_spares other spares)

/-- The runtime and the office have the same slots, and every future is the client of its id. -/
structure Runtime.Shows (r : Runtime) (w : Office) : Prop where
  leases : w.leases = r.leases
  clients : ∀ id, (r.future id).Shows r.tasks id (w.client id)
  bounded : r.tasks.Bounded

theorem Runtime.Shows.put {r : Runtime} {w : Office} (shows : r.Shows w) {id : Nat}
    {future : Future} {c : Client} {leases : Leases} {tasks : Tasks}
    (spares : r.tasks.Spares tasks id) (bounded : tasks.Bounded) (own : future.Shows tasks id c) :
    (r.put id future leases tasks).Shows (w.put id c leases) := by
  refine ⟨rfl, fun k => ?_, bounded⟩
  by_cases same : k = id
  · subst same
    rw [Runtime.future_put_self, Office.client_put_self]
    exact own
  · rw [Runtime.future_put_other r same, Office.client_put_other w same]
    exact (shows.clients k).of_spares same spares

/-! ### Steps of an escalation in an office -/

/-- A step of the tracker is a `trackerStep` of its escalation. -/
theorem Escalation.trackerStep_of_step {desk : Desk σ} {now : Nat} {e : Escalation}
    {outside outside' : σ} {tracker : Tracker} {event : Option TrackerEvent}
    (h : e.tracker.step desk.chain now (e.inbox.length < inboxSize) outside =
      some (tracker, event, outside')) :
    e.trackerStep desk now outside =
      some (.running { e with tracker, inbox := e.inbox ++ event.toList }, outside') := by
  rw [trackerStep, h]

/-- The first broadcast, where it is queued, is sent by `broadcastStep`. -/
theorem Escalation.broadcastStep_of_queued (desk : Desk σ) {e : Escalation} {c : Candidate}
    {rest : List Broadcast} (front : e.outstanding = .queued c :: rest) (now : Nat) (outside : σ) :
    e.broadcastStep desk now outside =
      some (.running { e with
          outstanding := .sent c.gasPrice c.hash (desk.chain.broadcast c now outside).1 :: rest },
        (desk.chain.broadcast c now outside).2) := by
  simp [broadcastStep, front, sendFirst]

/-- Where it was sent and its answer has come, `broadcastStep` returns that. -/
theorem Escalation.broadcastStep_of_sent (desk : Desk σ) {now : Nat} {e : Escalation}
    {bid : Amount} {hash : Digest} {reply : Pending Verdict} {verdict : Verdict}
    {rest : List Broadcast} (front : e.outstanding = .sent bid hash reply :: rest)
    (ready : reply.ready? now = some verdict) (outside : σ) :
    e.broadcastStep desk now outside =
      some (.running { e with
          outstanding := rest, answered := e.answered ++ [⟨bid, hash, verdict⟩] }, outside) := by
  simp [broadcastStep, front, sendFirst, ready]

/-- Only the loop ends an escalation. -/
theorem Escalation.loopStep_of_ended {desk : Desk σ} {limits : Limits} {now : Nat} {e : Escalation}
    {outside outside' : σ} {turn : Party} {result : Except Stop Receipt}
    (h : e.stepOf desk limits now outside turn = some (.ended result, outside')) :
    { e with turn := .loop }.loopStep desk limits now outside = some (.ended result, outside') := by
  cases turn with
  | loop => exact h
  | tracker =>
    simp only [stepOf, trackerStep] at h
    split at h <;> cases h
  | broadcasts =>
    simp only [stepOf, broadcastStep] at h
    split at h <;> cases h

/-- A send begins its escalation with nothing published. -/
theorem Send.Move.entered {desk : Desk σ} {limits : Limits} {now : Nat} {s s' : Send}
    {l l' : Leases} {calls : List Inquiry} (move : Move desk limits now s l calls (.running s') l')
    (early : ∀ lease e, s.phase ≠ .escalating lease e) :
    (∀ lease e, s'.phase ≠ .escalating lease e) ∨ ∃ lease e, s'.phase = .escalating lease e ∧
      e = (Frame.enter e 0).escalation e.tracker [] := by
  cases move with
  | bids _ _ first =>
    obtain ⟨bid, -, rfl⟩ := firstBid_ok first
    exact .inr ⟨_, _, rfl, rfl⟩
  | escalates phase _ => exact absurd phase (early _ _)
  | inherits _ _ _ | learns _ _ =>
    left
    simp only [afterLease]
    split <;> simp
  | _ => exact .inl (by simp)

namespace Office

variable {desk : Desk σ} {shared : Bool} {history : List (Nat × Send.Event)} {w w' : Office}
  {id : Nat} {call : Call} {deadline : Option Nat} {lease : Lease} {e e₁ e' : Escalation}
  {turn : Escalation.Party} {o : List Broadcast} {limits : Limits} {now : Nat}
  {outside outside' : σ} {calls : List Inquiry} {published : List Candidate}

/-- A history of an office in which the scheduler chooses a turn and an order of the broadcasts, and
    the escalation steps. -/
theorem Run.escalates (run : Run desk shared history w)
    (here : w.client id = .sending ⟨call, deadline, .escalating lease e⟩)
    (order : o.Perm e.outstanding) (chosen : { e with turn, outstanding := o } = e₁)
    (step : e₁.stepOf desk.noted limits now (outside, []) turn =
      some (.running e', outside', calls)) (handed : e₁.handedOut e' = published) :
    Run desk shared
      (history ++ (calls.map Send.Event.asked ++ published.map Send.Event.published).map (id, ·))
      (w.put id (.sending ⟨call, deadline, .escalating lease e'⟩) w.leases) := by
  subst chosen handed
  have rescheduled := run.send (.reschedules here ⟨lease, e, turn, o, rfl, order, rfl⟩)
  have stepped : { e with turn, outstanding := o }.step desk.noted limits now (outside, []) =
      some (.running e', outside', calls) := Escalation.step_of_turn step
  have goes : ({ call, deadline, phase := .escalating lease { e with turn, outstanding := o } } :
      Send).stepWithin desk.noted limits now w.leases (outside, []) =
      some (.running ⟨call, deadline, .escalating lease e'⟩, w.leases, outside', calls) := by
    simp only [Send.stepWithin, stepped]
    rfl
  have next := rescheduled.send (.advances (client_put_self ..) goes)
  rw [put_put, Send.shown_escalating rfl] at next
  simpa using next

/-- The same with a step that ends the escalation. -/
theorem Run.settles {result : Except Stop Receipt} (run : Run desk shared history w)
    (here : w.client id = .sending ⟨call, deadline, .escalating lease e⟩)
    (order : o.Perm e.outstanding) (chosen : { e with turn, outstanding := o } = e₁)
    (step : e₁.stepOf desk.noted limits now (outside, []) turn =
      some (.ended result, outside', calls)) :
    Run desk shared
      (history ++ (calls.map Send.Event.asked ++
        [Send.Event.ended (Send.settle lease result w.leases).1]).map (id, ·))
      (w.put id .gone (Send.settle lease result w.leases).2) := by
  subst chosen
  have rescheduled := run.send (.reschedules here ⟨lease, e, turn, o, rfl, order, rfl⟩)
  have stepped : { e with turn, outstanding := o }.step desk.noted limits now (outside, []) =
      some (.ended result, outside', calls) := Escalation.step_of_turn step
  have ends : ({ call, deadline, phase := .escalating lease { e with turn, outstanding := o } } :
      Send).stepWithin desk.noted limits now w.leases (outside, []) =
      some (.ended (Send.settle lease result w.leases).1, (Send.settle lease result w.leases).2,
        outside', calls) := by
    simp only [Send.stepWithin, stepped]
  have next := rescheduled.send (.ends (client_put_self ..) ends)
  rw [put_put] at next
  simpa [Send.shown] using next

/-- A `SendStep` depends on the slots and the client `id` alone. -/
theorem SendStep.of_client {v v' : Office} {shown : List Send.Event}
    (step : SendStep desk v id shown v') (client : w.client id = v.client id)
    (leases : w.leases = v.leases) :
    SendStep desk w id shown (w.put id (v'.client id) v'.leases) := by
  obtain ⟨_, _⟩ := v
  obtain rfl : w.leases = _ := leases
  cases step <;> rw [client_put_self]
  case starts absent => exact .starts (client.trans absent)
  case reschedules here order => exact .reschedules (client.trans here) order
  case advances here step => exact .advances (client.trans here) step
  case ends here step => exact .ends (client.trans here) step
  case drops here => exact .drops (client.trans here)

/-- A `SendStep` changes the slots and the client `id` alone. -/
theorem SendStep.eq_put {shown : List Send.Event} (step : SendStep desk w id shown w') :
    w' = w.put id (w'.client id) w'.leases := by
  cases step <;> rw [client_put_self] <;> rfl

/-- A `HandStep` depends on the slots and the client `id` alone. -/
theorem HandStep.of_client {chain : Chain σ} {v v' : Office} (step : HandStep chain v id v')
    (client : w.client id = v.client id) (leases : w.leases = v.leases) :
    HandStep chain w id (w.put id (v'.client id) v'.leases) := by
  obtain ⟨_, _⟩ := v
  obtain rfl : w.leases = _ := leases
  cases step <;> rw [client_put_self]
  case comes absent => exact .comes (client.trans absent)
  case waits here step => exact .waits (client.trans here) step
  case obtains here step => exact .obtains (client.trans here) step
  case misses here step => exact .misses (client.trans here) step
  case leaves here => exact .leaves (client.trans here)
  case releases here => exact .releases (client.trans here)
  case commits here committed => exact .commits (client.trans here) committed
  case resyncs here => exact .resyncs (client.trans here)

theorem HandStep.eq_put {chain : Chain σ} (step : HandStep chain w id w') :
    w' = w.put id (w'.client id) w'.leases := by
  cases step <;> rw [client_put_self] <;> rfl

/-- The client of a `HandStep` is plain, before and behind it. -/
theorem HandStep.plain {chain : Chain σ} (step : HandStep chain w id w') :
    (w.client id).IsPlain ∧ (w'.client id).IsPlain := by
  cases step with
  | comes here | waits here _ | obtains here _ | misses here _ | leaves here | releases here
  | commits here _ | resyncs here => rw [here, client_put_self]; exact ⟨trivial, trivial⟩

/-- A `SendStep` of a plain client leads to a plain one, or into the loop with nothing published. -/
theorem SendStep.entered {shown : List Send.Event} (step : SendStep desk w id shown w')
    (early : (w.client id).IsPlain) :
    (w'.client id).IsPlain ∨ ∃ call deadline lease e,
      w'.client id = .sending ⟨call, deadline, .escalating lease e⟩ ∧
        e = (Frame.enter e 0).escalation e.tracker [] := by
  cases step with
  | starts _ => exact .inl (by simp [Client.IsPlain, Send.start])
  | reschedules here order =>
    obtain ⟨lease, e, _, _, phase, -, -⟩ := order
    rw [here] at early
    exact absurd phase (early lease e)
  | @advances s s' _ _ _ _ _ _ here step =>
    rw [here] at early
    rw [client_put_self]
    rcases (Send.move_of_noted step).entered early with plain | ⟨lease, e, phase, fresh⟩
    · exact .inl plain
    · exact .inr ⟨s'.call, s'.deadline, lease, e, by rw [← phase], fresh⟩
  | ends _ _ | drops _ =>
    rw [client_put_self]
    exact .inl trivial

end Office

/-! ### From a runtime to its office -/

namespace Runtime

variable {desk : Desk σ} {shared : Bool} {history : List (Nat × Send.Event)} {r r' : Runtime}
  {w w' : Office} {id : Nat} {shown : List Send.Event}

theorem arrive_escalating (call : Call) (deadline : Option Nat) (lease : Lease) (e : Escalation)
    (leases : Leases) :
    r.arrive id leases (.sending ⟨call, deadline, .escalating lease e⟩) =
      r.put id (.escalating call deadline lease (.enter e r.tasks.fresh)) leases
        (r.tasks.spawn id (.poll e.tracker)) := rfl

theorem arrive_plain {c : Client} (early : c.IsPlain) {leases : Leases} :
    r.arrive id leases c = r.put id (.plain c) leases r.tasks := by
  unfold arrive
  split
  next => exact absurd rfl (early _ _)
  next => rfl

theorem put_self (id : Nat) (tasks : Tasks) :
    r.put id (r.future id) r.leases tasks = { r with tasks } := by
  simp [put]

/-- The runtime and the office at their start. -/
theorem shows_opened : opened.Shows .opened :=
  ⟨rfl, fun _ => .plain trivial, fun _ _ => rfl⟩

/-- The client of a plain future is the same in the office. -/
theorem Shows.plain (shows : r.Shows w) {c : Client} (here : r.future id = .plain c) :
    w.client id = c ∧ c.IsPlain := by
  have own := shows.clients id
  rw [here] at own
  generalize w.client id = c' at own
  cases own with
  | plain early => exact ⟨rfl, early⟩

/-- The future of a plain client is plain. -/
theorem Shows.of_plain (shows : r.Shows w) (early : (w.client id).IsPlain) :
    r.future id = .plain (w.client id) := by
  have own := shows.clients id
  generalize w.client id = c at early own ⊢
  generalize r.future id = future at own ⊢
  cases own with
  | plain _ => rfl
  | escalating _ _ => exact absurd rfl (early _ _)

/-- `Runtime.arrive` shows `Office.put`, where an escalation starts with nothing published. -/
theorem Shows.arrive (shows : r.Shows w) {c : Client} (here : r.future id = .plain c) {v : Office}
    (step : Office.SendStep desk ⟨r.leases, fun _ => c⟩ id shown v) :
    (r.arrive id v.leases (v.client id)).Shows (w.put id (v.client id) v.leases) := by
  rcases step.entered (shows.plain here).2 with plain | ⟨call, deadline, lease, e, client, fresh⟩
  · rw [arrive_plain plain]
    exact shows.put (r.tasks.spares_refl id) shows.bounded (.plain plain)
  · rw [client, arrive_escalating]
    rw [fresh]
    exact shows.put (Tasks.spares_spawn shows.bounded _) shows.bounded.spawn
      (.escalating .loop (.enter _ r.tasks))

/-- The client of an escalating future is escalating. -/
theorem Shows.escalating (shows : r.Shows w) {call : Call} {deadline : Option Nat} {lease : Lease}
    {f : Frame} (here : r.future id = .escalating call deadline lease f) :
    ∃ turn t o, w.client id =
        .sending ⟨call, deadline, .escalating lease { f.escalation t o with turn }⟩ ∧
      f.Sees id r.tasks t o := by
  have own := shows.clients id
  rw [here] at own
  generalize w.client id = c at own ⊢
  cases own with
  | escalating turn sees => exact ⟨turn, _, _, rfl, sees⟩

/-- The future of an escalating client is escalating, with tasks that its frame sees. -/
theorem Shows.of_escalating (shows : r.Shows w) {call : Call} {deadline : Option Nat}
    {lease : Lease} {e : Escalation}
    (client : w.client id = .sending ⟨call, deadline, .escalating lease e⟩) :
    ∃ f t, r.future id = .escalating call deadline lease f ∧ f.Sees id r.tasks t e.outstanding := by
  have own := shows.clients id
  rw [client] at own
  generalize r.future id = future at own ⊢
  cases own with
  | plain early => exact absurd rfl (early _ _)
  | escalating turn sees => exact ⟨_, _, rfl, sees⟩

/-- The escalation of the office is the one in which the loop steps, up to the order of the
    broadcasts. -/
theorem Shows.chosen (shows : r.Shows w) {call : Call} {deadline : Option Nat} {lease : Lease}
    {f : Frame} {t : Tracker} {o : List Broadcast}
    (here : r.future id = .escalating call deadline lease f) (sees : f.Sees id r.tasks t o) :
    ∃ turn o', o.Perm o' ∧ w.client id =
      .sending ⟨call, deadline, .escalating lease { f.escalation t o' with turn }⟩ := by
  obtain ⟨turn, t', o', client, sees'⟩ := shows.escalating here
  obtain ⟨rfl, order⟩ := sees.unique sees'
  exact ⟨turn, o', order, client⟩

section Locals

variable {call : Call} {deadline : Option Nat} {lease : Lease} {f : Frame} {t : Tracker}
  {o : List Broadcast} {leases : Leases}

/-- `Frame.drop` with a plain future shows a client that is gone. -/
theorem Shows.leave (shows : r.Shows w) (sees : f.Sees id r.tasks t o) :
    (r.put id (.plain .gone) leases (f.drop r.tasks)).Shows (w.put id .gone leases) :=
  shows.put sees.spares_drop (Frame.bounded_drop shows.bounded) (.plain trivial)

/-- A step of the poll task shows a step of the tracker. -/
theorem Shows.poll (shows : r.Shows w) (sees : f.Sees id r.tasks t o) (t' : Tracker)
    (event : Option TrackerEvent) :
    (r.put id (.escalating call deadline lease { f with inbox := f.inbox ++ event.toList })
        leases (r.tasks.put f.tracker.task id (.poll t'))).Shows
      (w.put id (.sending ⟨call, deadline, .escalating lease
        { f.escalation t o with
          turn := .tracker, tracker := t', inbox := f.inbox ++ event.toList }⟩) leases) :=
  shows.put (Tasks.spares_put sees.poll _) (shows.bounded.put (by rw [sees.poll]; rfl))
    (.escalating .tracker ((sees.polls t').of_handles rfl rfl))

/-- A step of a broadcast task shows a step of its broadcast. -/
theorem Shows.broadcast (shows : r.Shows w) (here : r.future id = .escalating call deadline lease f)
    {tid : TaskId} {b b' : Broadcast} (job : r.tasks.job tid = some (id, .broadcast b))
    (sees : f.Sees id (r.tasks.put tid id (.broadcast b')) t o) :
    ({ r with tasks := r.tasks.put tid id (.broadcast b') } : Runtime).Shows
      (w.put id (.sending ⟨call, deadline, .escalating lease
        { f.escalation t o with turn := .broadcasts }⟩) r.leases) := by
  rw [← put_self id, here]
  exact shows.put (Tasks.spares_put job _) (shows.bounded.put (by rw [job]; rfl))
    (.escalating .broadcasts sees)

end Locals

/-- **A step of a runtime is a step of the office that it shows**, for some choice of the
    scheduler. -/
theorem Step.office [outside : Nonempty σ] (step : Step desk r id shown r') (held : r.Held)
    (shows : r.Shows w) (run : Office.Run desk shared history w) :
    ∃ w', Office.Run desk shared (history ++ shown.map (id, ·)) w' ∧ r'.Shows w' := by
  cases step with
  | @early c _ v here step =>
    have moved := step.of_client (shows.plain here).1 shows.leases
    exact ⟨_, run.send moved, shows.arrive here step⟩
  | @loops call deadline lease f t o _ _ _ _ e _ f' ts here sees step next =>
    obtain ⟨_, _, order, client⟩ := shows.chosen here sees
    obtain ⟨_, _, _, _, same, sees', rfl, bounded, spares⟩ := sees.follows shows.bounded step
    obtain ⟨rfl, rfl⟩ := Prod.mk.inj (same.symm.trans next)
    have turn : (f.escalation t o).stepOf desk.noted _ _ (_, []) .loop = _ := step
    have went := run.escalates client order rfl turn rfl
    rw [shows.leases] at went
    exact ⟨_, went, shows.put spares bounded (.escalating .loop sees')⟩
  | @returns call deadline lease f t o _ _ _ _ _ _ here sees step =>
    obtain ⟨_, _, order, client⟩ := shows.chosen here sees
    have turn : (f.escalation t o).stepOf desk.noted _ _ (_, []) .loop = _ := step
    have went := run.settles client order rfl turn
    rw [shows.leases] at went
    exact ⟨_, went, shows.leave sees⟩
  | drops here =>
    obtain ⟨_, t, o, client, sees⟩ := shows.escalating here
    -- Dropping takes no choice of the scheduler.
    have went := run.send (.drops client)
    rw [shows.leases] at went
    exact ⟨_, went, shows.leave sees⟩
  | @polls call deadline lease f t now outside t' event outside' calls here job step =>
    obtain ⟨_, t₀, o, client, sees⟩ := shows.escalating here
    obtain rfl : t = t₀ := by simpa using job.symm.trans sees.poll
    -- The scheduler gives the turn to the tracker.
    have turn : { f.escalation t o with turn := .tracker }.stepOf desk.noted ⟨false, none⟩ now
        (outside, []) .tracker = some (.running
          { f.escalation t o with
            turn := .tracker, tracker := t', inbox := f.inbox ++ event.toList },
          outside', calls) :=
      Escalation.trackerStep_of_step step
    have went := run.escalates client (.refl o) rfl turn
      (Escalation.handedOut_of_length_le (Nat.le_refl _))
    rw [List.map_nil, List.append_nil, shows.leases] at went
    exact ⟨_, went, shows.poll sees t' event⟩
  | pollsOn job unhandled _ =>
    -- The only poll task of a send is the one whose events its loop receives.
    obtain ⟨call, deadline, lease, f, here, listed⟩ := held _ _ _ job
    obtain ⟨_, _, _, _, sees⟩ := shows.escalating here
    exact absurd (sees.tracker_of_job listed job) (unhandled _ _ _ _ here)
  | @sends tid c now outside job =>
    obtain ⟨call, deadline, lease, f, here, listed⟩ := held _ _ _ job
    obtain ⟨_, t, o, client, sees⟩ := shows.escalating here
    obtain ⟨o', order, sees'⟩ := sees.sends (sees.running_of_job listed job) job
      (.sent c.gasPrice c.hash (desk.chain.broadcast c now outside).1)
    -- It gives the turn to the broadcasts, and puts this one in front.
    have turn : { f.escalation t (.queued c :: o') with turn := .broadcasts }.stepOf desk.noted
        ⟨false, none⟩ now (outside, []) .broadcasts = some (.running
          { f.escalation t (.sent c.gasPrice c.hash (desk.chain.broadcast c now outside).1 :: o')
              with turn := .broadcasts },
          (desk.chain.broadcast c now outside).2,
          [.broadcast c (desk.chain.broadcast c now outside).1]) :=
      Escalation.broadcastStep_of_queued desk.noted
        (e := { f.escalation t (.queued c :: o') with turn := .broadcasts }) rfl now (outside, [])
    have went := run.escalates client order.symm rfl turn
      (Escalation.handedOut_of_length_le (Nat.le_refl _))
    rw [List.map_nil, List.append_nil, shows.leases] at went
    exact ⟨_, went, shows.broadcast here job sees'⟩
  | @joins call deadline lease f tid bid hash reply now verdict here listed job ready =>
    obtain ⟨outside⟩ := outside
    obtain ⟨_, t, o, client, sees⟩ := shows.escalating here
    obtain ⟨o', order, sees'⟩ := sees.joins listed job ⟨bid, hash, verdict⟩
    have turn : { f.escalation t (.sent bid hash reply :: o') with turn := .broadcasts }.stepOf
        desk.noted ⟨false, none⟩ now (outside, []) .broadcasts = some (.running
          { f.escalation t o' with
            turn := .broadcasts, answered := f.broadcasts.finished ++ [⟨bid, hash, verdict⟩] },
          outside, []) :=
      Escalation.broadcastStep_of_sent desk.noted rfl ready (outside, [])
    have went := run.escalates client order.symm rfl turn
      (Escalation.handedOut_of_length_le (Nat.le_succ _))
    rw [shows.leases] at went
    exact ⟨_, went, shows.put (Tasks.spares_stop job) shows.bounded.stop
      (.escalating .broadcasts sees')⟩
  | joinsNobody job unhandled _ =>
    obtain ⟨call, deadline, lease, f, here, listed⟩ := held _ _ _ job
    obtain ⟨_, _, _, _, sees⟩ := shows.escalating here
    exact absurd (sees.running_of_job listed job) (unhandled _ _ _ _ here)

/-- **Every history of a runtime is one of an office.** -/
theorem Run.office [Nonempty σ] (run : Run desk shared history r) :
    ∃ w, Office.Run desk shared history w ∧ r.Shows w := by
  induction run with
  | opened => exact ⟨_, .opened, shows_opened⟩
  | step run step ih =>
    obtain ⟨w, office, shows⟩ := ih
    exact step.office run.held shows office
  | @hand _ r id c v _ run allowed here step ih =>
    obtain ⟨w, office, shows⟩ := ih
    exact ⟨_, office.hand allowed (step.of_client (shows.plain here).1 shows.leases),
      shows.put (r.tasks.spares_refl id) shows.bounded (.plain step.plain.2)⟩

/-! ### From an office to its runtimes -/

/-- A plain future makes every step of its client. -/
theorem Shows.early (shows : r.Shows w) {c : Client} (here : r.future id = .plain c)
    (step : Office.SendStep desk w id shown w') : ∃ r', Step desk r id shown r' ∧ r'.Shows w' := by
  have client := (shows.plain here).1
  have moved := step.of_client (w := ⟨r.leases, fun _ => c⟩) client.symm shows.leases.symm
  have arrived := shows.arrive here moved
  rw [show w.put id (_ : Client) _ = w' by rw [Office.client_put_self]; exact step.eq_put.symm]
    at arrived
  exact ⟨_, .early here moved, arrived⟩

/-- A step of an escalation is one of its loop, of its poll task or of a broadcast task. -/
theorem Shows.running {call : Call} {deadline : Option Nat} {lease : Lease} {f : Frame}
    {t : Tracker} {o : List Broadcast} {limits : Limits} {now : Nat} {outside outside' : σ}
    {calls : List Inquiry} {e : Escalation} {published : List Candidate} (shows : r.Shows w)
    (here : r.future id = .escalating call deadline lease f) (sees : f.Sees id r.tasks t o)
    {turn : Escalation.Party}
    (step : (f.escalation t o).stepOf desk.noted limits now (outside, []) turn =
      some (.running e, outside', calls))
    (handed : (f.escalation t o).handedOut e = published) :
    ∃ r', Step desk r id
        (calls.map Send.Event.asked ++ published.map Send.Event.published) r' ∧
      r'.Shows (w.put id (.sending ⟨call, deadline, .escalating lease e⟩) w.leases) := by
  -- Only the loop hands candidates out.
  have none (short : e.outstanding.length ≤ o.length) : published = [] := by
    rw [← handed]
    exact Escalation.handedOut_of_length_le short
  rw [shows.leases]
  cases turn with
  | loop =>
    obtain ⟨f', ts, t', o', next, sees', rfl, bounded, spares⟩ := sees.follows shows.bounded step
    subst handed
    exact ⟨_, .loops here sees step next, shows.put spares bounded (.escalating .loop sees')⟩
  | tracker =>
    simp only [Escalation.stepOf, Escalation.trackerStep] at step
    split at step
    next => cases step
    next t' event world polled =>
      obtain ⟨rfl, rfl, rfl⟩ := by simpa using step
      rw [none (Nat.le_refl _), List.map_nil, List.append_nil]
      exact ⟨_, .polls here sees.poll polled, shows.poll sees t' event⟩
  | broadcasts =>
    simp only [Escalation.stepOf, Escalation.broadcastStep] at step
    split at step
    next => cases step
    next outstanding answer world sent =>
      obtain ⟨rfl, rfl, rfl⟩ := by simpa using step
      rcases Escalation.sendFirst_cases sent with
        ⟨earlier, c, later, reply, ⟨now', outside'', rfl⟩, before, rfl, rfl, rfl⟩ |
        ⟨earlier, bid, hash, reply, later, verdict, ready, before, rfl, rfl, rfl⟩
      · obtain rfl : o = earlier ++ .queued c :: later := before
        rw [none (by simp)]
        obtain ⟨tid, listed, job⟩ := sees.exists_job (b := .queued c) (by simp)
        obtain ⟨o', order, sees'⟩ := sees.sends listed job
          (.sent c.gasPrice c.hash (desk.chain.broadcast c now' outside'').1)
        have others := (List.perm_middle.symm.trans order).cons_inv
        have placed := sees'.perm ((others.symm.cons _).trans List.perm_middle.symm)
        simp only [Option.toList_none, List.append_nil]
        exact ⟨_, .sends job, shows.broadcast here job placed⟩
      · obtain rfl : o = earlier ++ .sent bid hash reply :: later := before
        rw [none (by simp)]
        obtain ⟨tid, listed, job⟩ := sees.exists_job (b := .sent bid hash reply) (by simp)
        obtain ⟨o', order, sees'⟩ := sees.joins listed job ⟨bid, hash, verdict⟩
        have others := (List.perm_middle.symm.trans order).cons_inv
        exact ⟨_, .joins here listed job ready, shows.put (Tasks.spares_stop job)
          shows.bounded.stop (.escalating .broadcasts (sees'.perm others.symm))⟩

/-- **A `SendStep` is a step of every runtime that shows the office**, or a choice of the scheduler,
    which takes no step of the runtime. -/
theorem Run.send (run : Run desk shared history r) (shows : r.Shows w)
    (step : Office.SendStep desk w id shown w') :
    ∃ r', Run desk shared (history ++ shown.map (id, ·)) r' ∧ r'.Shows w' := by
  cases here : r.future id with
  | plain c =>
    obtain ⟨r', step', shows'⟩ := shows.early here step
    exact ⟨r', run.step step', shows'⟩
  | escalating call deadline lease f =>
    obtain ⟨turn, t, o, client, sees⟩ := shows.escalating here
    cases step with
    | starts absent => cases client.symm.trans absent
    | reschedules here' order =>
      obtain rfl := Client.sending.inj (client.symm.trans here')
      obtain ⟨_, _, turn', o', phase, order, rfl⟩ := order
      cases phase
      -- The runtime has neither a turn nor an order of broadcasts, so it takes no step.
      refine ⟨r, by simpa using run, ?_⟩
      rw [show r = r.put id (r.future id) r.leases r.tasks from (put_self ..).symm, ← shows.leases,
        here]
      exact shows.put (r.tasks.spares_refl id) shows.bounded
        (.escalating turn' (sees.perm order.symm))
    | advances here' step =>
      obtain rfl := Client.sending.inj (client.symm.trans here')
      simp only [Send.stepWithin] at step
      split at step
      next => cases step
      next e world stepped =>
        obtain ⟨rfl, rfl, rfl, rfl⟩ := by simpa [Send.enter] using step
        -- Some party made the step.
        obtain ⟨turn', -, turned⟩ := List.exists_of_findSome?_eq_some stepped
        obtain ⟨r', step', shows'⟩ := shows.running here sees turned rfl
        rw [Send.shown_escalating rfl]
        exact ⟨r', run.step step', shows'⟩
      next => cases step
    | ends here' step =>
      obtain rfl := Client.sending.inj (client.symm.trans here')
      simp only [Send.stepWithin] at step
      split at step
      next => cases step
      next => cases step
      next result world stepped =>
        obtain ⟨rfl, rfl, rfl, rfl⟩ := by simpa using step
        obtain ⟨turn', -, turned⟩ := List.exists_of_findSome?_eq_some stepped
        rw [shows.leases]
        exact ⟨_, run.step (.returns here sees (Escalation.loopStep_of_ended turned)),
          shows.leave sees⟩
    | drops here' =>
      obtain rfl := Client.sending.inj (client.symm.trans here')
      rw [shows.leases]
      exact ⟨_, run.step (.drops here), shows.leave sees⟩

/-- **Every history of an office is one of a runtime.** -/
theorem exists_run_of_office (office : Office.Run desk shared history w) :
    ∃ r, Run desk shared history r ∧ r.Shows w := by
  induction office with
  | opened => exact ⟨_, .opened, shows_opened⟩
  | send _ step ih =>
    obtain ⟨r, run, shows⟩ := ih
    exact run.send shows step
  | @hand _ w id w' _ _ allowed step ih =>
    obtain ⟨r, run, shows⟩ := ih
    have here := shows.of_plain step.plain.1
    have moved := step.of_client (w := ⟨r.leases, fun _ => w.client id⟩) rfl shows.leases.symm
    have next := run.hand allowed here moved
    rw [Office.client_put_self] at next
    refine ⟨_, next, ?_⟩
    rw [step.eq_put, Office.client_put_self]
    exact shows.put (r.tasks.spares_refl id) shows.bounded (.plain step.plain.2)

/-- **A runtime and an office have the same histories.** -/
theorem exists_run_iff [Nonempty σ] :
    (∃ r, Run desk shared history r) ↔ ∃ w, Office.Run desk shared history w := by
  constructor
  · rintro ⟨r, run⟩
    obtain ⟨w, office, -⟩ := run.office
    exact ⟨w, office⟩
  · rintro ⟨w, office⟩
    obtain ⟨r, run, -⟩ := exists_run_of_office office
    exact ⟨r, run⟩

end Runtime

end Relayer
