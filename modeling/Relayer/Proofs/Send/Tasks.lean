import Mathlib.Data.List.Perm.Basic
import Mathlib.Logic.Function.Basic
import Relayer.Proofs.Send.Moves

namespace Relayer

/-!
# Tasks — the poll task and the broadcast tasks of an escalation

Besides the loop of an escalation there are tasks: the one that `ReceiptTracker` spawns to poll, and
one in a `JoinSet` for every broadcast.  The runtime polls a task for as long as it neither returns
nor is aborted, whoever spawned it and whether or not there still is a handle to it.

* `Tasks` — the table of the tasks there are, with `spawn` and `stop`;
* `ReceiptTracker` / `JoinSet` — the two handles, with `watch`, `join`, and the tasks that their
  `drop` aborts;
* `Frame` — the locals of the loop, with `publish` and `drop`;
* `Frame.job_drop` — the table after a frame is dropped;
* `Frame.Sees` — a frame and its tasks make up an `Escalation`; `Frame.Sees.follows` and
  `Frame.Sees.publish` for the steps of the loop, `polls`, `sends` and `joins` for those of the
  tasks.
-/

variable {σ : Type}

/-! ### A step of the loop -/

namespace Escalation

/-- A step of the loop leaves `tracker` and `outstanding` alone, unless it publishes a candidate. -/
structure Follows (e e' : Escalation) : Prop where
  call : e'.call = e.call
  nonce : e'.nonce = e.nonce
  gasLimit : e'.gasLimit = e.gasLimit
  started : e'.started = e.started
  turn : e'.turn = e.turn
  tasks : e'.tracker = e.tracker ∧ e'.outstanding = e.outstanding ∨
    ∃ c, e'.tracker = e.tracker.watch c.hash ∧ e'.outstanding = e.outstanding ++ [.queued c]

variable {desk : Desk σ} {limits : Limits} {now : Nat} {e e' : Escalation} {outside outside' : σ}

/-- A step that leaves both alone follows. -/
theorem Follows.within {phase : Phase} {ticker : Ticker} {book : Book} {inbox : List TrackerEvent}
    {answered : List Answer} : e.Follows { e with phase, ticker, book, inbox, answered } :=
  ⟨rfl, rfl, rfl, rfl, rfl, .inl ⟨rfl, rfl⟩⟩

theorem follows_of_afterPricing {suggested : Except Failure Amount}
    (h : e.afterPricing desk now suggested outside = (.running e', outside')) : e.Follows e' := by
  unfold afterPricing at h
  simp only at h
  split at h
  · cases h
  · split at h
    · split at h <;> cases h <;> exact .within
    · cases h
      exact .within

theorem follows_of_listen
    (h : e.listen desk limits now outside = some (.running e', outside')) : e.Follows e' := by
  unfold listen at h
  split at h
  · cases h
  · split at h
    next event inbox _ =>
      cases event <;> cases h <;> exact .within
    next =>
      split at h
      · cases h
      · split at h
        next a answered _ =>
          simp only [onBroadcast, Option.some.injEq, Prod.mk.injEq] at h
          obtain ⟨h, -⟩ := h
          split at h <;> cases h
          exact .within
        next =>
          split at h
          · cases h
          · split at h
            · cases h
            · split at h
              · simp only [escalate, Option.some.injEq] at h
                split at h <;> cases h <;> exact .within
              · cases h

/-- **Every `loopStep` follows**: it reaches its tasks by publishing only. -/
theorem follows_of_loopStep
    (h : e.loopStep desk limits now outside = some (.running e', outside')) : e.Follows e' := by
  unfold loopStep at h
  split at h
  next =>
    cases h
    exact .within
  next => exact follows_of_listen h
  next =>
    split at h
    · cases h
    · split at h
      · exact follows_of_afterPricing (Option.some.inj h)
      · cases h
  next =>
    split at h
    · cases h
    · split at h
      next signed _ =>
        match signed with
        | .ok raw =>
          cases h
          exact ⟨rfl, rfl, rfl, rfl, rfl, .inr ⟨_, rfl, rfl⟩⟩
        | .error (.failure f) =>
          simp only [afterSigning, Option.some.injEq, Prod.mk.injEq] at h
          obtain ⟨h, -⟩ := h
          split at h <;> cases h
          exact .within
        | .error (.fault f) => cases h
      next => cases h

end Escalation

/-! ### The table -/

abbrev TaskId := Nat

/-- The work of a task, as far as it has come. -/
inductive TaskBody where
  /-- The poll task of a tracker. -/
  | poll (t : Tracker)
  /-- The task that broadcasts one candidate. -/
  | broadcast (b : Broadcast)

/-- The tasks that have neither returned nor been aborted, each with the id of the send that spawned
    it. -/
structure Tasks where
  job : TaskId → Option (Nat × TaskBody)
  /-- The next identifier that was never used. -/
  fresh : TaskId

namespace Tasks

variable {ts : Tasks} {tid k : TaskId} {id : Nat} {body : TaskBody}

/-- The table without tasks. -/
def empty : Tasks := ⟨fun _ => none, 0⟩

/-- A task spawned by the send `id`. -/
def spawn (ts : Tasks) (id : Nat) (body : TaskBody) : Tasks :=
  ⟨Function.update ts.job ts.fresh (some (id, body)), ts.fresh + 1⟩

/-- The table after a step of the task `tid`. -/
def put (ts : Tasks) (tid : TaskId) (id : Nat) (body : TaskBody) : Tasks :=
  { ts with job := Function.update ts.job tid (some (id, body)) }

/-- The task `tid` returns or is aborted: it has no steps from here on. -/
def stop (ts : Tasks) (tid : TaskId) : Tasks := { ts with job := Function.update ts.job tid none }

/-- Every identifier in the table is below `fresh`. -/
def Bounded (ts : Tasks) : Prop := ∀ tid, ts.fresh ≤ tid → ts.job tid = none

@[simp] theorem job_spawn_fresh : (ts.spawn id body).job ts.fresh = some (id, body) :=
  Function.update_self ..

theorem job_spawn (other : k ≠ ts.fresh) : (ts.spawn id body).job k = ts.job k :=
  Function.update_of_ne other ..

@[simp] theorem job_put_self : (ts.put tid id body).job tid = some (id, body) :=
  Function.update_self ..

theorem job_put (other : k ≠ tid) : (ts.put tid id body).job k = ts.job k :=
  Function.update_of_ne other ..

@[simp] theorem job_stop_self : (ts.stop tid).job tid = none := Function.update_self ..

theorem job_stop (other : k ≠ tid) : (ts.stop tid).job k = ts.job k :=
  Function.update_of_ne other ..

/-- A task that is in the table after a `put` was in it before. -/
theorem exists_job_of_put {owner : Nat} {body' body'' : TaskBody}
    (own : ts.job tid = some (id, body))
    (job : (ts.put tid id body').job k = some (owner, body'')) :
    ∃ body, ts.job k = some (owner, body) := by
  by_cases same : k = tid
  · subst same
    rw [job_put_self] at job
    obtain ⟨rfl, -⟩ := Prod.mk.inj (Option.some.inj job)
    exact ⟨body, own⟩
  · rw [job_put same] at job
    exact ⟨_, job⟩

/-- A task that is in the table after a `stop` was in it before, and is another one. -/
theorem job_of_stop {x : Nat × TaskBody} (job : (ts.stop tid).job k = some x) :
    k ≠ tid ∧ ts.job k = some x := by
  by_cases same : k = tid
  · rw [same, job_stop_self] at job
    cases job
  · rw [job_stop same] at job
    exact ⟨same, job⟩

theorem Bounded.ne_fresh (bounded : ts.Bounded) (here : (ts.job k).isSome) : k ≠ ts.fresh := by
  rintro rfl
  rw [bounded _ (Nat.le_refl _)] at here
  cases here

theorem Bounded.spawn (bounded : ts.Bounded) : (ts.spawn id body).Bounded := by
  intro tid beyond
  have other : tid ≠ ts.fresh := Nat.ne_of_gt beyond
  rw [job_spawn other]
  exact bounded tid (Nat.le_of_lt beyond)

theorem Bounded.put (bounded : ts.Bounded) (here : (ts.job tid).isSome) :
    (ts.put tid id body).Bounded := by
  intro k beyond
  have other : k ≠ tid := by
    rintro rfl
    rw [bounded _ beyond] at here
    cases here
  rw [job_put other]
  exact bounded k beyond

theorem Bounded.stop (bounded : ts.Bounded) : (ts.stop tid).Bounded := by
  intro k beyond
  by_cases own : k = tid
  · rw [own, job_stop_self]
  · rw [job_stop own]
    exact bounded k beyond

/-- `ts'` has the same tasks as `ts` for every send but `id`. -/
def Spares (ts ts' : Tasks) (id : Nat) : Prop :=
  ∀ k ≠ id, ∀ tid body, ts.job tid = some (k, body) → ts'.job tid = some (k, body)

theorem spares_refl (ts : Tasks) (id : Nat) : ts.Spares ts id := fun _ _ _ _ job => job

theorem Spares.trans {ts' ts'' : Tasks} (h : ts.Spares ts' id) (h' : ts'.Spares ts'' id) :
    ts.Spares ts'' id := fun k other tid body job => h' k other tid body (h k other tid body job)

theorem spares_spawn (bounded : ts.Bounded) (body : TaskBody) :
    ts.Spares (ts.spawn id body) id := by
  intro k _ tid _ job
  rw [job_spawn (bounded.ne_fresh (by rw [job]; rfl))]
  exact job

/-- A task of `id` is not a task of another send. -/
theorem ne_of_job {k : Nat} {body : TaskBody} {tid' : TaskId} (own : ts.job tid = some (id, body))
    (other : k ≠ id) {body' : TaskBody} (job : ts.job tid' = some (k, body')) : tid' ≠ tid := by
  rintro rfl
  exact other (Prod.mk.inj (Option.some.inj (job.symm.trans own))).1

theorem spares_put (own : ts.job tid = some (id, body)) (body' : TaskBody) :
    ts.Spares (ts.put tid id body') id := by
  intro k other tid' _ job
  rw [job_put (ne_of_job own other job)]
  exact job

theorem spares_stop (own : ts.job tid = some (id, body)) : ts.Spares (ts.stop tid) id := by
  intro k other tid' _ job
  rw [job_stop (ne_of_job own other job)]
  exact job

end Tasks

/-! ### Handles -/

/-- The handle of a poll task. -/
structure ReceiptTracker where
  task : TaskId

namespace ReceiptTracker

/-- Add a hash to those that the poll task reads at its next tick. -/
def watch (tracker : ReceiptTracker) (hash : Digest) (ts : Tasks) : Tasks :=
  match ts.job tracker.task with
  | some (id, .poll t) => ts.put tracker.task id (.poll (t.watch hash))
  | _ => ts

/-- Dropping the handle aborts the poll task. -/
def drop (tracker : ReceiptTracker) (ts : Tasks) : Tasks := ts.stop tracker.task

end ReceiptTracker

/-- A set of broadcast tasks: those that are running, and the answers of those that have
    returned. -/
structure JoinSet where
  running : List TaskId
  finished : List Answer

namespace JoinSet

/-- Dropping the set aborts every task that is running in it. -/
def drop (set : JoinSet) (ts : Tasks) : Tasks := set.running.foldl Tasks.stop ts

/-- A running task has returned with this answer. -/
def join (set : JoinSet) (tid : TaskId) (a : Answer) : JoinSet :=
  ⟨set.running.erase tid, set.finished ++ [a]⟩

/-- The table after a set is dropped: that of the tasks that are not running in it. -/
theorem job_drop (set : JoinSet) (ts : Tasks) (tid : TaskId) :
    (set.drop ts).job tid = if tid ∈ set.running then none else ts.job tid := by
  unfold drop
  induction set.running generalizing ts with
  | nil => rfl
  | cons first rest ih =>
    rw [List.foldl_cons, ih]
    by_cases own : tid = first
    · subst own
      simp
    · simp [own, Tasks.job_stop own]

theorem bounded_drop {set : JoinSet} {ts : Tasks} (bounded : ts.Bounded) :
    (set.drop ts).Bounded := by
  unfold drop
  induction set.running generalizing ts with
  | nil => exact bounded
  | cons _ _ ih => exact ih bounded.stop

end JoinSet

/-! ### Frames -/

/-- The locals of the loop, while it is suspended. -/
structure Frame where
  call : Call
  nonce : UInt64
  gasLimit : Amount
  started : Nat
  ticker : Ticker
  book : Book
  phase : Escalation.Phase
  /-- The events that the poll task has sent and the loop has not received. -/
  inbox : List TrackerEvent
  tracker : ReceiptTracker
  broadcasts : JoinSet

namespace Frame

/-- The tasks that `tracker` and `broadcasts` hold handles to. -/
def handles (f : Frame) : List TaskId := f.tracker.task :: f.broadcasts.running

/-- The frame at the start of an escalation, whose poll task is `tid`. -/
def enter (e : Escalation) (tid : TaskId) : Frame where
  call := e.call
  nonce := e.nonce
  gasLimit := e.gasLimit
  started := e.started
  ticker := e.ticker
  book := e.book
  phase := e.phase
  inbox := []
  tracker := ⟨tid⟩
  broadcasts := ⟨[], []⟩

/-- The state in which the loop steps: its locals, with the tracker and the broadcasts as their
    tasks have left them. -/
def escalation (f : Frame) (tracker : Tracker) (outstanding : List Broadcast) : Escalation where
  call := f.call
  nonce := f.nonce
  gasLimit := f.gasLimit
  started := f.started
  ticker := f.ticker
  book := f.book
  phase := f.phase
  tracker
  inbox := f.inbox
  outstanding
  answered := f.broadcasts.finished
  turn := .loop

/-- The locals after a step of the loop to `e`. -/
def follow (f : Frame) (e : Escalation) : Frame :=
  { f with
    ticker := e.ticker
    book := e.book
    phase := e.phase
    inbox := e.inbox
    broadcasts := { f.broadcasts with finished := e.answered } }

/-- `publish`: the hash is watched, and the broadcast is spawned into the set. -/
def publish (id : Nat) (f : Frame) (ts : Tasks) (c : Candidate) : Frame × Tasks :=
  let ts := f.tracker.watch c.hash ts
  ({ f with broadcasts := { f.broadcasts with running := f.broadcasts.running ++ [ts.fresh] } },
    ts.spawn id (.broadcast (.queued c)))

/-- `publish` for some candidates in order. -/
def publishAll (id : Nat) (f : Frame) (ts : Tasks) (published : List Candidate) : Frame × Tasks :=
  published.foldl (fun x c => x.1.publish id x.2 c) (f, ts)

/-- The locals are dropped in reverse order of their declaration: the set of broadcasts, then the
    tracker. -/
def drop (f : Frame) (ts : Tasks) : Tasks := f.tracker.drop (f.broadcasts.drop ts)

/-- **Dropping a frame aborts every task in its `handles`**, and no other. -/
theorem job_drop (f : Frame) (ts : Tasks) (tid : TaskId) :
    (f.drop ts).job tid = if tid ∈ f.handles then none else ts.job tid := by
  by_cases own : tid = f.tracker.task
  · subst own
    simp [drop, ReceiptTracker.drop, handles]
  · rw [drop, ReceiptTracker.drop, Tasks.job_stop own, JoinSet.job_drop]
    simp [handles, own]

/-- A task that is in the table after a `drop` was in it before, and is not in the `handles`. -/
theorem job_of_drop {f : Frame} {ts : Tasks} {tid : TaskId} {x : Nat × TaskBody}
    (job : (f.drop ts).job tid = some x) : tid ∉ f.handles ∧ ts.job tid = some x := by
  rw [job_drop] at job
  split at job
  next => cases job
  next other => exact ⟨other, job⟩

theorem bounded_drop {f : Frame} {ts : Tasks} (bounded : ts.Bounded) : (f.drop ts).Bounded :=
  (JoinSet.bounded_drop bounded).stop

/-! ### What a step of the loop holds -/

section Handles

variable {f : Frame} {id k : Nat} {ts : Tasks} {tid : TaskId} {c : Candidate}

theorem mem_handles_publish (held : tid ∈ f.handles) : tid ∈ (f.publish id ts c).1.handles := by
  simp only [publish, handles, List.mem_cons, List.mem_append] at held ⊢
  tauto

/-- A task after a `publish` was in the table before, or is running in the set. -/
theorem job_publish {body : TaskBody} (job : (f.publish id ts c).2.job tid = some (k, body)) :
    (∃ body', ts.job tid = some (k, body')) ∨
      k = id ∧ tid ∈ (f.publish id ts c).1.handles := by
  have watched {body : TaskBody} (job : (f.tracker.watch c.hash ts).job tid = some (k, body)) :
      ∃ body', ts.job tid = some (k, body') := by
    unfold ReceiptTracker.watch at job
    split at job
    next owner t here =>
      by_cases own : tid = f.tracker.task
      · subst own
        rw [Tasks.job_put_self] at job
        obtain ⟨rfl, -⟩ := Prod.mk.inj (Option.some.inj job)
        exact ⟨_, here⟩
      · rw [Tasks.job_put own] at job
        exact ⟨_, job⟩
    next => exact ⟨_, job⟩
  simp only [publish] at job ⊢
  by_cases new : tid = (f.tracker.watch c.hash ts).fresh
  · subst new
    rw [Tasks.job_spawn_fresh] at job
    exact .inr ⟨(Prod.mk.inj (Option.some.inj job)).1.symm, by simp [handles]⟩
  · rw [Tasks.job_spawn new] at job
    exact .inl (watched job)

theorem publishAll_cons (c : Candidate) (rest : List Candidate) :
    f.publishAll id ts (c :: rest) =
      (f.publish id ts c).1.publishAll id (f.publish id ts c).2 rest := rfl

theorem mem_handles_publishAll {published : List Candidate} (held : tid ∈ f.handles) :
    tid ∈ (f.publishAll id ts published).1.handles := by
  induction published generalizing f ts with
  | nil => exact held
  | cons c rest ih =>
    rw [publishAll_cons]
    exact ih (mem_handles_publish held)

/-- The same for `publishAll`. -/
theorem job_publishAll {published : List Candidate} {body : TaskBody}
    (job : (f.publishAll id ts published).2.job tid = some (k, body)) :
    (∃ body', ts.job tid = some (k, body')) ∨
      k = id ∧ tid ∈ (f.publishAll id ts published).1.handles := by
  induction published generalizing f ts with
  | nil => exact .inl ⟨_, job⟩
  | cons c rest ih =>
    rw [publishAll_cons] at job ⊢
    rcases ih job with ⟨_, earlier⟩ | held
    · rcases job_publish earlier with old | ⟨own, held⟩
      · exact .inl old
      · exact .inr ⟨own, mem_handles_publishAll held⟩
    · exact .inr held

end Handles

/-! ### What a frame sees -/

/-- The poll task of the frame is at `t`, and its broadcast tasks are at `o` in some order, since a
    set has none. -/
structure Sees (f : Frame) (id : Nat) (ts : Tasks) (t : Tracker) (o : List Broadcast) : Prop where
  poll : ts.job f.tracker.task = some (id, .poll t)
  nodup : f.broadcasts.running.Nodup
  broadcasts : (f.broadcasts.running.map ts.job).Perm (o.map fun b => some (id, .broadcast b))

variable {f f' : Frame} {id : Nat} {ts ts' : Tasks} {t t' : Tracker} {o o' : List Broadcast}
  {b b' : Broadcast} {tid : TaskId} {c : Candidate} {a : Answer}

namespace Sees

/-- The poll task is not one of the broadcast tasks. -/
theorem tracker_ne (sees : f.Sees id ts t o) (listed : tid ∈ f.broadcasts.running) :
    f.tracker.task ≠ tid := by
  rintro rfl
  have job := sees.broadcasts.subset (List.mem_map_of_mem listed)
  rw [sees.poll] at job
  simp at job

theorem perm (sees : f.Sees id ts t o) (order : o.Perm o') : f.Sees id ts t o' :=
  ⟨sees.poll, sees.nodup, sees.broadcasts.trans (order.map _)⟩

/-- `t` is unique, and `o` up to its order. -/
theorem unique (sees : f.Sees id ts t o) (sees' : f.Sees id ts t' o') : t' = t ∧ o.Perm o' := by
  refine ⟨by simpa using sees'.poll.symm.trans sees.poll, ?_⟩
  have same := sees.broadcasts.symm.trans sees'.broadcasts
  have injective : Function.Injective fun b : Broadcast => some (id, TaskBody.broadcast b) := by
    intro b b' same
    simpa using same
  exact (List.map_perm_map_iff injective).mp same

/-- A change to other tasks keeps `Sees`. -/
theorem of_job (sees : f.Sees id ts t o) (same : ∀ k ∈ f.handles, ts'.job k = ts.job k) :
    f.Sees id ts' t o := by
  have running : f.broadcasts.running.map ts'.job = f.broadcasts.running.map ts.job :=
    List.map_congr_left fun k listed => same k (List.mem_cons_of_mem _ listed)
  refine ⟨(same _ List.mem_cons_self).trans sees.poll, sees.nodup, ?_⟩
  rw [running]
  exact sees.broadcasts

/-- So does a change of locals other than the `handles`. -/
theorem of_handles (sees : f.Sees id ts t o) (tracker : f'.tracker = f.tracker)
    (running : f'.broadcasts.running = f.broadcasts.running) : f'.Sees id ts t o := by
  obtain ⟨poll, nodup, broadcasts⟩ := sees
  rw [← tracker] at poll
  rw [← running] at nodup broadcasts
  exact ⟨poll, nodup, broadcasts⟩

/-- Every task in the `handles` is in the table, as one of `id`. -/
theorem job_of_mem (sees : f.Sees id ts t o) (listed : tid ∈ f.handles) :
    ∃ body, ts.job tid = some (id, body) := by
  rcases List.mem_cons.mp listed with rfl | listed
  · exact ⟨_, sees.poll⟩
  · obtain ⟨b, -, job⟩ :=
      List.mem_map.mp (sees.broadcasts.subset (List.mem_map_of_mem listed))
    exact ⟨_, job.symm⟩

/-- A poll task in the `handles` is that of the tracker. -/
theorem tracker_of_job (sees : f.Sees id ts t o) (listed : tid ∈ f.handles)
    (job : ts.job tid = some (id, .poll t')) : f.tracker.task = tid := by
  rcases List.mem_cons.mp listed with rfl | running
  · rfl
  · have mem := sees.broadcasts.subset (List.mem_map_of_mem running)
    rw [job] at mem
    simp at mem

/-- A broadcast task in the `handles` is running in the set. -/
theorem running_of_job (sees : f.Sees id ts t o) (listed : tid ∈ f.handles)
    (job : ts.job tid = some (id, .broadcast b)) : tid ∈ f.broadcasts.running := by
  rcases List.mem_cons.mp listed with rfl | running
  · cases sees.poll.symm.trans job
  · exact running

/-- Every broadcast in `o` is that of a task running in the set. -/
theorem exists_job (sees : f.Sees id ts t o) (listed : b ∈ o) :
    ∃ tid ∈ f.broadcasts.running, ts.job tid = some (id, .broadcast b) :=
  List.mem_map.mp (sees.broadcasts.symm.subset (List.mem_map_of_mem listed))

/-- A frame is entered with its poll task and no broadcast. -/
theorem enter (e : Escalation) (ts : Tasks) :
    (Frame.enter e ts.fresh).Sees id (ts.spawn id (.poll e.tracker)) e.tracker [] :=
  ⟨Tasks.job_spawn_fresh, List.nodup_nil, .nil⟩

/-- A step of the poll task changes `t` alone. -/
theorem polls (sees : f.Sees id ts t o) (t' : Tracker) :
    f.Sees id (ts.put f.tracker.task id (.poll t')) t' o := by
  have others : f.broadcasts.running.map (ts.put f.tracker.task id (.poll t')).job =
      f.broadcasts.running.map ts.job :=
    List.map_congr_left fun k listed => Tasks.job_put (sees.tracker_ne listed).symm
  refine ⟨Tasks.job_put_self, sees.nodup, ?_⟩
  rw [others]
  exact sees.broadcasts

/-- A watched hash is watched by the poll task. -/
theorem watch (sees : f.Sees id ts t o) (hash : Digest) :
    f.Sees id (f.tracker.watch hash ts) (t.watch hash) o := by
  rw [ReceiptTracker.watch, sees.poll]
  exact sees.polls (t.watch hash)

/-- `publish` adds the hash to `t` and a queued broadcast to `o`. -/
theorem publish (sees : f.Sees id ts t o) (bounded : ts.Bounded) (c : Candidate) :
    (f.publish id ts c).1.Sees id (f.publish id ts c).2 (t.watch c.hash) (o ++ [.queued c]) := by
  have watched := sees.watch c.hash
  generalize watching : f.tracker.watch c.hash ts = ts' at watched
  have bounded' : ts'.Bounded := by
    rw [← watching, ReceiptTracker.watch, sees.poll]
    exact bounded.put (by rw [sees.poll]; rfl)
  have known : ∀ k ∈ f.handles, k ≠ ts'.fresh := fun k listed =>
    bounded'.ne_fresh (by
      obtain ⟨body, job⟩ := watched.job_of_mem listed
      rw [job]
      rfl)
  have spawned : f.Sees id (ts'.spawn id (.broadcast (.queued c))) (t.watch c.hash) o :=
    watched.of_job fun k listed => Tasks.job_spawn (known k listed)
  simp only [Frame.publish, watching]
  refine ⟨spawned.poll, ?_, ?_⟩
  · refine List.nodup_append.mpr ⟨spawned.nodup, by simp, ?_⟩
    rintro k listed k' new rfl
    exact known k (List.mem_cons_of_mem _ listed) (List.mem_singleton.mp new)
  · simpa using spawned.broadcasts.append_right _

/-- The set with one of its tasks in front. -/
theorem split (sees : f.Sees id ts t o) (listed : tid ∈ f.broadcasts.running)
    (job : ts.job tid = some (id, .broadcast b)) :
    ∃ o', o.Perm (b :: o') ∧
      ((f.broadcasts.running.erase tid).map ts.job).Perm
        (o'.map fun b => some (id, .broadcast b)) := by
  have under : b ∈ o := by
    have mem := sees.broadcasts.subset (List.mem_map_of_mem listed)
    rw [job] at mem
    simpa using mem
  obtain ⟨o', order⟩ : ∃ o', o.Perm (b :: o') := by
    obtain ⟨before, behind, rfl⟩ := List.append_of_mem under
    exact ⟨before ++ behind, List.perm_middle⟩
  refine ⟨o', order, ?_⟩
  have whole := ((List.perm_cons_erase listed).map ts.job).symm.trans
    (sees.broadcasts.trans (order.map _))
  rw [List.map_cons, List.map_cons, job] at whole
  exact whole.cons_inv

/-- A step of a broadcast task changes its broadcast in `o`. -/
theorem sends (sees : f.Sees id ts t o) (listed : tid ∈ f.broadcasts.running)
    (job : ts.job tid = some (id, .broadcast b)) (b' : Broadcast) :
    ∃ o', o.Perm (b :: o') ∧ f.Sees id (ts.put tid id (.broadcast b')) t (b' :: o') := by
  obtain ⟨o', order, rest⟩ := sees.split listed job
  refine ⟨o', order, ?_, sees.nodup, ?_⟩
  · rw [Tasks.job_put (sees.tracker_ne listed)]
    exact sees.poll
  · have others : (f.broadcasts.running.erase tid).map (ts.put tid id (.broadcast b')).job =
        (f.broadcasts.running.erase tid).map ts.job :=
      List.map_congr_left fun k other => Tasks.job_put fun own =>
        sees.nodup.not_mem_erase (own ▸ other)
    refine ((List.perm_cons_erase listed).map _).trans ?_
    rw [List.map_cons, List.map_cons, others, Tasks.job_put_self]
    exact rest.cons _

/-- A broadcast task that returns is no longer in `o`. -/
theorem joins (sees : f.Sees id ts t o) (listed : tid ∈ f.broadcasts.running)
    (job : ts.job tid = some (id, .broadcast b)) (a : Answer) :
    ∃ o', o.Perm (b :: o') ∧
      { f with broadcasts := f.broadcasts.join tid a }.Sees id (ts.stop tid) t o' := by
  obtain ⟨o', order, rest⟩ := sees.split listed job
  refine ⟨o', order, ?_, sees.nodup.erase tid, ?_⟩
  · show (ts.stop tid).job f.tracker.task = _
    rw [Tasks.job_stop (sees.tracker_ne listed)]
    exact sees.poll
  · have others : (f.broadcasts.running.erase tid).map (ts.stop tid).job =
        (f.broadcasts.running.erase tid).map ts.job :=
      List.map_congr_left fun k other => Tasks.job_stop fun own =>
        sees.nodup.not_mem_erase (own ▸ other)
    show ((f.broadcasts.running.erase tid).map (ts.stop tid).job).Perm _
    rw [others]
    exact rest

/-- Steps of other sends keep `Sees`. -/
theorem of_spares {k : Nat} (sees : f.Sees id ts t o) (other : id ≠ k) (spares : ts.Spares ts' k) :
    f.Sees id ts' t o :=
  sees.of_job fun tid held => by
    obtain ⟨body, job⟩ := sees.job_of_mem held
    rw [job, spares id other tid body job]

theorem spares_drop (sees : f.Sees id ts t o) : ts.Spares (f.drop ts) id := by
  intro k other tid body job
  have none : tid ∉ f.handles := fun held => by
    obtain ⟨_, own⟩ := sees.job_of_mem held
    exact Tasks.ne_of_job own other job rfl
  rw [job_drop, if_neg none]
  exact job

/-- `publish` keeps the table `Bounded`, with the tasks of other sends as they were. -/
theorem table_publish (sees : f.Sees id ts t o) (bounded : ts.Bounded) (c : Candidate) :
    (f.publish id ts c).2.Bounded ∧ ts.Spares (f.publish id ts c).2 id := by
  have bounded' : (ts.put f.tracker.task id (.poll (t.watch c.hash))).Bounded :=
    bounded.put (by rw [sees.poll]; rfl)
  simp only [Frame.publish, ReceiptTracker.watch, sees.poll]
  exact ⟨bounded'.spawn, (Tasks.spares_put sees.poll _).trans (Tasks.spares_spawn bounded' _)⟩

/-- **A step of the loop keeps `Sees`**, with `publishAll` for the candidates that it hands out. -/
theorem follows {desk : Desk σ} {limits : Limits} {now : Nat} {outside outside' : σ}
    {e : Escalation}
    (sees : f.Sees id ts t o) (bounded : ts.Bounded)
    (step : (f.escalation t o).loopStep desk limits now outside = some (.running e, outside')) :
    ∃ f' ts' t' o',
      (f.follow e).publishAll id ts ((f.escalation t o).handedOut e) = (f', ts') ∧
      f'.Sees id ts' t' o' ∧ e = f'.escalation t' o' ∧ ts'.Bounded ∧
        ts.Spares ts' id := by
  obtain ⟨call, nonce, gasLimit, started, turn, tasks⟩ := Escalation.follows_of_loopStep step
  have sees' : (f.follow e).Sees id ts t o := sees.of_handles rfl rfl
  rcases tasks with ⟨tracker, outstanding⟩ | ⟨c, tracker, outstanding⟩
  · have none : (f.escalation t o).handedOut e = [] := by
      rw [Escalation.handedOut, outstanding, List.drop_length, List.filterMap_nil]
    rw [none]
    refine ⟨_, _, t, o, rfl, sees', ?_, bounded, ts.spares_refl id⟩
    cases e
    simp_all [escalation, follow]
  · have one : (f.escalation t o).handedOut e = [c] := by
      rw [Escalation.handedOut, outstanding, List.drop_left]
      rfl
    rw [one]
    obtain ⟨bounded', spares⟩ := sees'.table_publish bounded c
    refine ⟨_, _, _, _, rfl, sees'.publish bounded c, ?_, bounded', spares⟩
    cases e
    simp_all [escalation, follow, Frame.publish]

end Sees

end Frame

end Relayer
