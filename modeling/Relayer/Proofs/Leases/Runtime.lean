import Relayer.Proofs.Leases.Office
import Relayer.Proofs.Send.Tasks

namespace Relayer

/-!
# Runtime — sends, their poll tasks and their broadcast tasks, side by side

In an `Office` a send is one state, with its tracker and its broadcasts in it.  Here they are tasks
of a runtime: any task of the table may make the next step, also one whose send has returned or has
been dropped.  The end of a send replaces its own future and nothing else; its tasks are aborted by
`Frame.drop`, as far as `Frame.handles` reach.

* `Future` — a client, or a send suspended in the loop of its escalation;
* `Runtime` — slots, futures and tasks;
* `Runtime.Step` — one step of a future or of a task, on behalf of a send;
* `Runtime.Run` — the histories of a runtime;
* `Runtime.Run.held` — every task of the table is in the `handles` of the loop that spawned it.
-/

/-- The future of a client. -/
inductive Future where
  /-- A future without tasks: a send before its escalation, or another client. -/
  | plain (c : Client)
  /-- A send that is suspended in the loop of its escalation, with these locals. -/
  | escalating (call : Call) (deadline : Option Nat) (lease : Lease) (f : Frame)

/-- The slots, the futures and the tasks. -/
structure Runtime where
  leases : Leases
  future : Nat → Future
  tasks : Tasks

namespace Runtime

variable {σ : Type}

/-- The runtime at its start, with no client and no task. -/
def opened : Runtime := ⟨.empty, fun _ => .plain .absent, .empty⟩

/-- The runtime after a step of the future `id`. -/
def put (r : Runtime) (id : Nat) (future : Future) (leases : Leases) (tasks : Tasks) : Runtime :=
  ⟨leases, Function.update r.future id future, tasks⟩

@[simp] theorem future_put_self (r : Runtime) (id : Nat) (future : Future) (leases : Leases)
    (tasks : Tasks) : (r.put id future leases tasks).future id = future :=
  Function.update_self ..

theorem future_put_other (r : Runtime) {id k : Nat} (other : k ≠ id) (future : Future)
    (leases : Leases) (tasks : Tasks) :
    (r.put id future leases tasks).future k = r.future k :=
  Function.update_of_ne other ..

/-- The runtime after a step of a plain future to the client `c`.  Where `c` is escalating it enters
    its loop, which spawns the poll task. -/
def arrive (r : Runtime) (id : Nat) (leases : Leases) : Client → Runtime
  | .sending ⟨call, deadline, .escalating lease e⟩ =>
    r.put id (.escalating call deadline lease (.enter e r.tasks.fresh)) leases
      (r.tasks.spawn id (.poll e.tracker))
  | c => r.put id (.plain c) leases r.tasks

theorem arrive_gone (r : Runtime) (id : Nat) (leases : Leases) :
    r.arrive id leases .gone = r.put id (.plain .gone) leases r.tasks := rfl

/-- The table has a task that was spawned by the send `id`. -/
def HasTask (r : Runtime) (id : Nat) : Prop := ∃ tid body, r.tasks.job tid = some (id, body)

/-! ### Steps -/

/-- One step on behalf of the client `id`, with what it shows. -/
inductive Step (desk : Desk σ) (r : Runtime) (id : Nat) : List Send.Event → Runtime → Prop where
  /-- A plain future makes a step of its client. -/
  | early {c shown w} (here : r.future id = .plain c)
      (step : Office.SendStep desk ⟨r.leases, fun _ => c⟩ id shown w) :
      Step desk r id shown (r.arrive id w.leases (w.client id))
  /-- The loop makes a step, and spawns what it publishes. -/
  | loops {call deadline lease f t o limits now outside outside' e calls f' ts}
      (here : r.future id = .escalating call deadline lease f) (sees : f.Sees id r.tasks t o)
      (step : (f.escalation t o).loopStep desk.noted limits now (outside, []) =
        some (.running e, outside', calls))
      (next : (f.follow e).publishAll id r.tasks ((f.escalation t o).handedOut e) = (f', ts)) :
      Step desk r id
        (calls.map .asked ++ ((f.escalation t o).handedOut e).map .published)
        (r.put id (.escalating call deadline lease f') r.leases ts)
  /-- The loop returns: its locals are dropped, and the lease is settled. -/
  | returns {call deadline lease f t o limits now outside outside' result calls}
      (here : r.future id = .escalating call deadline lease f) (sees : f.Sees id r.tasks t o)
      (step : (f.escalation t o).loopStep desk.noted limits now (outside, []) =
        some (.ended result, outside', calls)) :
      Step desk r id (calls.map .asked ++ [.ended (Send.settle lease result r.leases).1])
        (r.put id (.plain .gone) (Send.settle lease result r.leases).2 (f.drop r.tasks))
  /-- The caller drops the future that is suspended in the loop, and with it the locals and the
      lease. -/
  | drops {call deadline lease f} (here : r.future id = .escalating call deadline lease f) :
      Step desk r id [.dropped]
        (r.put id (.plain .gone) (lease.release r.leases) (f.drop r.tasks))
  /-- The poll task makes a step, and sends its event to the loop. -/
  | polls {call deadline lease f t now outside t' event outside' calls}
      (here : r.future id = .escalating call deadline lease f)
      (job : r.tasks.job f.tracker.task = some (id, .poll t))
      (step : t.step desk.noted.chain now (f.inbox.length < Escalation.inboxSize) (outside, []) =
        some (t', event, outside', calls)) :
      Step desk r id (calls.map .asked)
        (r.put id (.escalating call deadline lease { f with inbox := f.inbox ++ event.toList })
          r.leases (r.tasks.put f.tracker.task id (.poll t')))
  /-- A poll task makes a step whose loop is gone.  If it has an event to send, the channel is
      closed and the task returns. -/
  | pollsOn {tid t now outside t' event outside' calls}
      (job : r.tasks.job tid = some (id, .poll t))
      (unhandled : ∀ call deadline lease f, r.future id = .escalating call deadline lease f →
        f.tracker.task ≠ tid)
      (step : t.step desk.noted.chain now true (outside, []) =
        some (t', event, outside', calls)) :
      Step desk r id (calls.map .asked)
        { r with
          tasks := if event.isSome then r.tasks.stop tid else r.tasks.put tid id (.poll t') }
  /-- A broadcast task sends its candidate to a node. -/
  | sends {tid c now outside} (job : r.tasks.job tid = some (id, .broadcast (.queued c))) :
      Step desk r id [.asked (.broadcast c (desk.chain.broadcast c now outside).1)]
        { r with
          tasks := r.tasks.put tid id
            (.broadcast (.sent c.gasPrice c.hash (desk.chain.broadcast c now outside).1)) }
  /-- A broadcast task returns with the node's answer into the `JoinSet` of its loop. -/
  | joins {call deadline lease f tid bid hash reply now verdict}
      (here : r.future id = .escalating call deadline lease f)
      (listed : tid ∈ f.broadcasts.running)
      (job : r.tasks.job tid = some (id, .broadcast (.sent bid hash reply)))
      (ready : reply.ready? now = some verdict) :
      Step desk r id []
        (r.put id
          (.escalating call deadline lease
            { f with broadcasts := f.broadcasts.join tid ⟨bid, hash, verdict⟩ })
          r.leases (r.tasks.stop tid))
  /-- A broadcast task returns with an answer, and its `JoinSet` is gone. -/
  | joinsNobody {tid bid hash reply now verdict}
      (job : r.tasks.job tid = some (id, .broadcast (.sent bid hash reply)))
      (unhandled : ∀ call deadline lease f, r.future id = .escalating call deadline lease f →
        tid ∉ f.broadcasts.running)
      (ready : reply.ready? now = some verdict) :
      Step desk r id [] { r with tasks := r.tasks.stop tid }

/-- The histories of a runtime, with the runtime that each leads to.  Only a `shared` one has
    clients that are no sends. -/
inductive Run (desk : Desk σ) (shared : Bool) : List (Nat × Send.Event) → Runtime → Prop where
  | opened : Run desk shared [] .opened
  | step {history r id shown r'} (run : Run desk shared history r)
      (step : Step desk r id shown r') : Run desk shared (history ++ shown.map (id, ·)) r'
  | hand {history r id c w} {chain : Chain σ} (run : Run desk shared history r)
      (allowed : shared = true) (here : r.future id = .plain c)
      (step : Office.HandStep chain ⟨r.leases, fun _ => c⟩ id w) :
      Run desk shared history (r.put id (.plain (w.client id)) w.leases r.tasks)

variable {desk : Desk σ} {shared : Bool} {history : List (Nat × Send.Event)} {r r' : Runtime}
  {id : Nat} {shown : List Send.Event}

/-- A queued broadcast in the table can be sent at any moment, whatever has become of its send. -/
theorem exists_step_of_queued {tid : TaskId} {c : Candidate}
    (left : r.tasks.job tid = some (id, .broadcast (.queued c))) (now : Nat) (outside : σ) :
    ∃ r', Step desk r id [.asked (.broadcast c (desk.chain.broadcast c now outside).1)] r' :=
  ⟨_, .sends left⟩

/-! ### Every task is held -/

/-- Every task in the table is in the `handles` of the loop of its send. -/
def Held (r : Runtime) : Prop :=
  ∀ tid id body, r.tasks.job tid = some (id, body) →
    ∃ call deadline lease f, r.future id = .escalating call deadline lease f ∧ tid ∈ f.handles

/-- A step of one future keeps `Held`, if the tasks of the others were there before and its own are
    in its `handles`. -/
theorem Held.put (held : r.Held) {future : Future} {leases : Leases} {tasks : Tasks}
    (others : ∀ k ≠ id, ∀ tid body, tasks.job tid = some (k, body) →
      ∃ body', r.tasks.job tid = some (k, body'))
    (own : ∀ tid body, tasks.job tid = some (id, body) →
      ∃ call deadline lease f, future = .escalating call deadline lease f ∧ tid ∈ f.handles) :
    (r.put id future leases tasks).Held := by
  intro tid k body job
  by_cases same : k = id
  · subst same
    rw [future_put_self]
    exact own tid body job
  · obtain ⟨body', old⟩ := others k same tid body job
    rw [future_put_other r same]
    exact held tid k body' old

/-- A step of a task keeps `Held`. -/
theorem Held.of_job (held : r.Held) {tasks : Tasks}
    (jobs : ∀ tid k body, tasks.job tid = some (k, body) →
      ∃ body', r.tasks.job tid = some (k, body')) : ({ r with tasks } : Runtime).Held := by
  intro tid k body job
  obtain ⟨body', old⟩ := jobs tid k body job
  exact held tid k body' old

/-- A plain future has no tasks. -/
theorem Held.not_hasTask (held : r.Held) {c : Client} (here : r.future id = .plain c) :
    ¬ r.HasTask id := by
  rintro ⟨tid, body, job⟩
  obtain ⟨call, deadline, lease, f, escalating, -⟩ := held tid id body job
  cases here.symm.trans escalating

/-- `arrive` keeps `Held`: the poll task that it spawns is in the `handles` of the loop. -/
theorem Held.arrive (held : r.Held) {c : Client} (here : r.future id = .plain c) (leases : Leases)
    (c' : Client) : (r.arrive id leases c').Held := by
  have none : ∀ tid body, r.tasks.job tid ≠ some (id, body) := fun tid body job =>
    held.not_hasTask here ⟨tid, body, job⟩
  unfold Runtime.arrive
  split
  next call deadline lease e =>
    refine held.put (fun k other tid body job => ?_) (fun tid body job => ?_)
    · by_cases new : tid = r.tasks.fresh
      · subst new
        rw [Tasks.job_spawn_fresh] at job
        exact absurd (Prod.mk.inj (Option.some.inj job)).1.symm other
      · rw [Tasks.job_spawn new] at job
        exact ⟨body, job⟩
    · by_cases new : tid = r.tasks.fresh
      · exact ⟨call, deadline, lease, _, rfl, by simp [Frame.handles, Frame.enter, new]⟩
      · rw [Tasks.job_spawn new] at job
        exact absurd job (none tid body)
  next => exact held.put (fun _ _ _ body job => ⟨body, job⟩) fun tid body job =>
      absurd job (none tid body)

/-- A task of a send in its loop is in the `handles`. -/
theorem Held.mem_handles (held : r.Held) {call : Call} {deadline : Option Nat} {lease : Lease}
    {f : Frame} (here : r.future id = .escalating call deadline lease f) {tid : TaskId}
    {body : TaskBody} (job : r.tasks.job tid = some (id, body)) : tid ∈ f.handles := by
  obtain ⟨_, _, _, f', here', listed⟩ := held tid id body job
  obtain ⟨-, -, -, rfl⟩ := Future.escalating.inj (here.symm.trans here')
  exact listed

/-- A send that leaves its loop keeps `Held`, since `Frame.drop` aborts all of its tasks. -/
theorem Held.leave (held : r.Held) {call : Call} {deadline : Option Nat} {lease : Lease} {f : Frame}
    (here : r.future id = .escalating call deadline lease f) (leases : Leases) :
    (r.put id (.plain .gone) leases (f.drop r.tasks)).Held :=
  held.put (fun _ _ _ _ job => ⟨_, (Frame.job_of_drop job).2⟩) fun _ _ job =>
    absurd (held.mem_handles here (Frame.job_of_drop job).2) (Frame.job_of_drop job).1

/-- **Every step keeps `Held`.** -/
theorem Step.held (step : Step desk r id shown r') (held : r.Held) : r'.Held := by
  cases step with
  | early here step => exact held.arrive here _ _
  | @loops call deadline lease f t o _ _ _ _ e _ f' ts here sees step next =>
    obtain rfl : ts = _ := (congrArg Prod.snd next).symm
    obtain rfl : f' = _ := (congrArg Prod.fst next).symm
    refine held.put (fun k other tid body job => ?_) (fun tid body job => ?_)
    · -- A task that `publishAll` spawns is one of `id`.
      exact (Frame.job_publishAll job).resolve_right fun own => other own.1
    · refine ⟨call, deadline, lease, _, rfl, ?_⟩
      -- The tasks of `id` are the old ones, whose handles are kept, and those spawned into the set.
      rcases Frame.job_publishAll job with ⟨_, old⟩ | ⟨-, listed⟩
      · have before : tid ∈ (f.follow e).handles := held.mem_handles here old
        exact Frame.mem_handles_publishAll before
      · exact listed
  | returns here _ _ | drops here => exact held.leave here _
  | @polls call deadline lease f _ _ _ _ _ _ _ here own step =>
    refine held.put (fun _ _ _ _ job => Tasks.exists_job_of_put own job) fun tid body job => ?_
    obtain ⟨_, old⟩ := Tasks.exists_job_of_put own job
    have listed : tid ∈ f.handles := held.mem_handles here old
    exact ⟨call, deadline, lease, _, rfl, listed⟩
  | pollsOn own _ _ =>
    refine held.of_job fun tid k body job => ?_
    split at job
    · exact ⟨_, (Tasks.job_of_stop job).2⟩
    · exact Tasks.exists_job_of_put own job
  | sends own => exact held.of_job fun _ _ _ job => Tasks.exists_job_of_put own job
  | @joins call deadline lease f tid _ _ _ _ _ here listed own ready =>
    refine held.put (fun _ _ _ _ job => ⟨_, (Tasks.job_of_stop job).2⟩) fun tid' body job => ?_
    obtain ⟨other, old⟩ := Tasks.job_of_stop job
    refine ⟨call, deadline, lease, _, rfl, ?_⟩
    -- The task that returned leaves the set, and all others stay in it.
    rcases List.mem_cons.mp (held.mem_handles here old) with tracker | running
    · exact List.mem_cons.mpr (.inl tracker)
    · exact List.mem_cons_of_mem _ ((List.mem_erase_of_ne other).mpr running)
  | joinsNobody own _ _ => exact held.of_job fun _ _ _ job => ⟨_, (Tasks.job_of_stop job).2⟩

/-- **Every task is in the `handles` of the loop of its send**, in every runtime that a history
    leads to. -/
theorem Run.held (run : Run desk shared history r) : r.Held := by
  induction run with
  | opened =>
    intro tid id body job
    cases job
  | step _ step ih => exact step.held ih
  | @hand _ r id c w _ run _ here step ih =>
    exact ih.put (fun _ _ _ body job => ⟨body, job⟩) fun tid body job =>
      absurd ⟨tid, body, job⟩ (ih.not_hasTask here)

end Runtime

end Relayer
