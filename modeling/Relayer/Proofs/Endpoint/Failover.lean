import Mathlib.Data.List.Range
import Mathlib.Logic.Function.Basic
import Relayer.Endpoint.Pool

namespace Relayer

/-!
# Failover — the nodes that a read asks before it fails

Any number of reads share a pool with each other and with calls that make one attempt.  All of them
advance the one `active` index, so a read asks every node only where no other call advances it.

* `Traffic` — a pool and its readers;
* `Traffic.Step` / `Traffic.Run` — one step of one client, and any number of them;
* `Traffic.Run.alone` — `Pool.readFrom` is a run in which no other call makes a step;
* `Traffic.Run.place_eq` — the node that an attempt is made at;
* `Traffic.Run.exhausted` — the nodes that failed a read before its last attempt failed as well;
* `Traffic.Run.exhausted_early` — a read fails though the other node would have answered it.
-/

/-! ### The place -/

namespace Pool

variable {p : Pool}

/-- A new pool has a node, and its first one is active. -/
theorem ofUrls_ok {urls : List String} {timeout : Nat} (h : ofUrls urls timeout = .ok p) :
    0 < p.size ∧ p.active = 0 := by
  unfold ofUrls at h
  split at h
  next => cases h
  next listed =>
    cases h
    exact ⟨List.length_pos_of_ne_nil listed, rfl⟩

@[simp] theorem advance_size (p : Pool) : p.advance.size = p.size := by
  unfold advance
  split <;> rfl

/-- `advance` adds one to the index, modulo the number of nodes. -/
theorem advance_active (inside : p.active < p.size) :
    p.advance.active = (p.active + 1) % p.size := by
  unfold advance
  split
  next single =>
    have one : p.size = 1 := by omega
    rw [one] at inside ⊢
    omega
  next => rfl

end Pool

/-! ### Reads that share a pool -/

/-- A read, as its caller sees it. -/
inductive Reader where
  | absent
  | reading (r : Reading)
  | answered
  | failed (f : Failure)
  /-- Its caller has dropped it. -/
  | gone

/-- The result of a read that is over. -/
def Reader.ended {α : Type} : Except Failure α → Reader
  | .ok _ => .answered
  | .error f => .failed f

/-- A pool and its readers. -/
structure Traffic where
  pool : Pool
  reader : Nat → Reader

namespace Traffic

/-- One event at the nodes. -/
inductive Event where
  /-- A read asks the node at an index. -/
  | asks (id place : Nat)
  /-- That node fails it. -/
  | fails (id place : Nat)
  /-- A call that makes one attempt fails. -/
  | strays

/-- The event advances the index. -/
def Event.moves : Event → Bool
  | .fails _ _ | .strays => true
  | .asks _ _ => false

/-- The number of times that the index was advanced. -/
def moves (history : List Event) : Nat := history.countP Event.moves

/-- The indices of the nodes that a read has asked. -/
def asked (id : Nat) (history : List Event) : List Nat :=
  history.filterMap fun
    | .asks k place => if k = id then some place else none
    | .fails _ _ | .strays => none

/-- The indices of the nodes that have failed a read. -/
def failed (id : Nat) (history : List Event) : List Nat :=
  history.filterMap fun
    | .fails k place => if k = id then some place else none
    | .asks _ _ | .strays => none

/-- No other call advances the index between two attempts of the read. -/
def Undisturbed (id : Nat) (history : List Event) : Prop :=
  ∀ before between after place place',
    history = before ++ .asks id place :: between ++ .asks id place' :: after →
    ∀ e ∈ between, e.moves = true → ∃ place, e = .fails id place

/-! ### Steps -/

/-- One client has made a step. -/
def put (w : Traffic) (id : Nat) (c : Reader) (pool : Pool) : Traffic :=
  ⟨pool, Function.update w.reader id c⟩

@[simp] theorem reader_put_self (w : Traffic) (id : Nat) (c : Reader) (pool : Pool) :
    (w.put id c pool).reader id = c := Function.update_self ..

theorem reader_put_other (w : Traffic) {id k : Nat} (other : k ≠ id) (c : Reader) (pool : Pool) :
    (w.put id c pool).reader k = w.reader k := Function.update_of_ne other ..

/-- One step of one client, and what happens at the nodes. -/
inductive Step (w : Traffic) (id : Nat) : List Event → Traffic → Prop where
  | starts (absent : w.reader id = .absent) :
      Step w id [.asks id w.pool.active] (w.put id (.reading w.pool.startRead) w.pool)
  | answers {r pool} {α : Type} {a : α} (here : w.reader id = .reading r)
      (settles : r.settle (.ok a) w.pool = (.ended (.ok a), pool)) :
      Step w id [] (w.put id .answered pool)
  | failsOver {r r' f pool} {α : Type} (here : w.reader id = .reading r)
      (settles : r.settle (.error f : Except Failure α) w.pool = (.again r', pool)) :
      Step w id [.fails id r.asked, .asks id r'.asked] (w.put id (.reading r') pool)
  | givesUp {r f pool} {α : Type} (here : w.reader id = .reading r)
      (settles : r.settle (.error f : Except Failure α) w.pool = (.ended (.error f), pool)) :
      Step w id [.fails id r.asked] (w.put id (.failed f) pool)
  | drops {r} (here : w.reader id = .reading r) : Step w id [] (w.put id .gone w.pool)
  /-- A call that makes one attempt succeeds, or is rejected by the node. -/
  | passes {α : Type} {result : Except Failure α} (stays : w.pool.after result = w.pool) :
      Step w id [] w
  | strays {what} {α : Type} :
      Step w id [.strays]
        { w with pool := w.pool.after (.error (.transientRpc what) : Except Failure α) }

/-- The events at the nodes of a new pool, and the readers that they lead to. -/
inductive Run (urls : List String) (timeout : Nat) : List Event → Traffic → Prop where
  | opened {pool} (built : Pool.ofUrls urls timeout = .ok pool) :
      Run urls timeout [] ⟨pool, fun _ => .absent⟩
  | step {history w id shown w'} (run : Run urls timeout history w) (step : Step w id shown w') :
      Run urls timeout (history ++ shown) w'

variable {history shown : List Event} {w w' : Traffic} {id k : Nat}
  {r : Reading} {urls : List String} {timeout : Nat}

@[simp] theorem moves_append : moves (history ++ shown) = moves history + moves shown :=
  List.countP_append

@[simp] theorem asked_append : asked id (history ++ shown) = asked id history ++ asked id shown :=
  List.filterMap_append

@[simp] theorem failed_append :
    failed id (history ++ shown) = failed id history ++ failed id shown :=
  List.filterMap_append

/-- A read that was disturbed before still is. -/
theorem Undisturbed.of_append (h : Undisturbed id (history ++ shown)) : Undisturbed id history :=
  fun before between after place place' split =>
    h before between (after ++ shown) place place' (by simp [split])

/-! ### The place that is due -/

/-- After a failure the next attempt is made at the node that is active then. -/
theorem again_of_settle {α : Type} {p p' : Pool} {r' : Reading} {f : Failure}
    (h : r.settle (.error f : Except Failure α) p = (.again r', p')) :
    r.left = r'.left + 1 ∧ r'.asked = p.advance.active ∧ p' = p.advance := by
  obtain ⟨asked, left⟩ := r
  cases left with
  | zero => cases h
  | succ left =>
    cases h
    exact ⟨rfl, rfl, rfl⟩

/-- A read fails with its last attempt only. -/
theorem last_of_settle {α : Type} {p p' : Pool} {f : Failure}
    (h : r.settle (.error f : Except Failure α) p = (.ended (.error f), p')) :
    r.left = 0 ∧ p' = p.advance := by
  obtain ⟨asked, left⟩ := r
  cases left with
  | zero =>
    cases h
    exact ⟨rfl, rfl⟩
  | succ left => cases h

/-- **A failed attempt advances the index**, and nothing else does. -/
theorem Step.pool_cases (step : Step w id shown w') :
    (w'.pool = w.pool ∧ moves shown = 0) ∨ (w'.pool = w.pool.advance ∧ moves shown = 1) := by
  cases step with
  | starts _ | drops _ | passes _ => exact .inl ⟨rfl, rfl⟩
  | answers _ settles =>
    cases settles
    exact .inl ⟨rfl, rfl⟩
  | failsOver _ settles => exact .inr ⟨(again_of_settle settles).2.2, rfl⟩
  | givesUp _ settles => exact .inr ⟨(last_of_settle settles).2, rfl⟩
  | strays => exact .inr ⟨rfl, rfl⟩

/-- The index of the pool behind a step, by the events of the step. -/
theorem Step.pool (step : Step w id shown w') (inside : w.pool.active < w.pool.size) :
    w'.pool.size = w.pool.size ∧
      w'.pool.active = (w.pool.active + moves shown) % w.pool.size := by
  rcases step.pool_cases with ⟨same, none⟩ | ⟨next, one⟩
  · rw [same, none]
    exact ⟨rfl, (Nat.mod_eq_of_lt inside).symm⟩
  · rw [next, one]
    exact ⟨Pool.advance_size _, Pool.advance_active inside⟩

/-- A step leaves the other readers alone. -/
theorem Step.other (step : Step w id shown w') (other : k ≠ id) :
    w'.reader k = w.reader k ∧ asked k shown = [] ∧ failed k shown = [] := by
  cases step with
  | passes _ | strays => exact ⟨rfl, rfl, rfl⟩
  | _ => exact ⟨reader_put_other w other .., by simp [asked, Ne.symm other],
      by simp [failed, Ne.symm other]⟩

/-- **The active index** is the number of failed attempts of all calls together, modulo the number
    of nodes. -/
theorem Run.active_eq (run : Run urls timeout history w) :
    0 < w.pool.size ∧ w.pool.active = moves history % w.pool.size := by
  induction run with
  | opened built =>
    obtain ⟨some, first⟩ := Pool.ofUrls_ok built
    exact ⟨some, first⟩
  | step run step ih =>
    obtain ⟨some, active⟩ := ih
    obtain ⟨size, active'⟩ := step.pool (active ▸ Nat.mod_lt _ some)
    rw [active', size, active, moves_append, Nat.mod_add_mod]
    exact ⟨some, rfl⟩

/-- The active index is below the number of nodes. -/
theorem Run.inside (run : Run urls timeout history w) : w.pool.active < w.pool.size := by
  obtain ⟨some, active⟩ := run.active_eq
  exact active ▸ Nat.mod_lt _ some

/-- An attempt is made at the active index. -/
theorem Step.place_eq {before after : List Event} {place : Nat} (step : Step w id shown w')
    (inside : w.pool.active < w.pool.size) (split : shown = before ++ .asks k place :: after) :
    place = (w.pool.active + moves before) % w.pool.size := by
  cases step with
  | starts _ =>
    obtain ⟨rfl, -, rfl⟩ : before = [] ∧ k = id ∧ place = w.pool.active := by
      cases before <;> simp_all
    exact (Nat.mod_eq_of_lt inside).symm
  | failsOver _ settles =>
    -- The failure comes first, and advances the index.
    rcases before with _ | ⟨e, _ | ⟨_, _⟩⟩
    · simp at split
    · obtain ⟨rfl, ⟨-, rfl⟩, -⟩ := by simpa using split
      exact (again_of_settle settles).2.1.trans (Pool.advance_active inside)
    · simp at split
  | _ => rcases before with _ | ⟨_, _⟩ <;> simp at split

/-- **An attempt is made at `moves % size`**, whichever calls the failures were of. -/
theorem Run.place_eq {before after : List Event} {place : Nat} (run : Run urls timeout history w)
    (split : history = before ++ .asks id place :: after) :
    place = moves before % w.pool.size := by
  induction run generalizing after with
  | opened _ => simp at split
  | @step history w k shown w' run step ih =>
    rw [(step.pool run.inside).1]
    rcases List.append_eq_append_iff.mp split with ⟨front, old, new⟩ | ⟨back, old, new⟩
    · subst old
      rw [step.place_eq run.inside new, run.active_eq.2, Nat.mod_add_mod, moves_append]
    · cases back with
      | nil =>
        obtain rfl : history = before := by simpa using old
        have first : shown = [] ++ .asks id place :: after := new.symm
        rw [step.place_eq run.inside first, run.active_eq.2, Nat.mod_add_mod]
        rfl
      | cons e back =>
        obtain ⟨rfl, -⟩ := List.cons.inj new
        exact ih old

/-! ### What has become of a read -/

/-- `n` successive indices from `i` on, modulo the number of nodes. -/
def circle (size first n : Nat) : List Nat := (List.range n).map fun k => (first + k) % size

/-- One index more. -/
theorem circle_succ (size first n : Nat) :
    circle size first (n + 1) = circle size first n ++ [(first + n) % size] := by
  simp [circle, List.range_succ]

/-- `size` successive indices are all indices. -/
theorem mem_circle {size place : Nat} (first : Nat) (inside : place < size) :
    place ∈ circle size first size := by
  have start : first % size < size := Nat.mod_lt _ (Nat.zero_lt_of_lt inside)
  rw [circle, List.mem_map]
  by_cases behind : first % size ≤ place
  · refine ⟨place - first % size, List.mem_range.mpr (by omega), ?_⟩
    rw [← Nat.mod_add_mod, Nat.add_sub_of_le behind, Nat.mod_eq_of_lt inside]
  · refine ⟨place + size - first % size, List.mem_range.mpr (by omega), ?_⟩
    rw [← Nat.mod_add_mod, Nat.add_sub_of_le (by omega), Nat.add_mod_right,
      Nat.mod_eq_of_lt inside]

/-- A read under way was failed by every node that it asked but the last one; and if it is
    undisturbed, these nodes are successive. -/
structure Underway (history : List Event) (p : Pool) (id : Nat) (r : Reading) : Prop where
  tries : (failed id history).length + 1 + r.left = p.size
  last : asked id history = failed id history ++ [r.asked]
  since : ∃ before since, history = before ++ .asks id r.asked :: since ∧ failed id since = [] ∧
    p.active = (r.asked + moves since) % p.size
  round : Undisturbed id history → ∃ first,
    failed id history = circle p.size first (failed id history).length ∧
      r.asked = (first + (failed id history).length) % p.size

/-- The state of a read, by the events of the history. -/
def Recorded (history : List Event) (p : Pool) (id : Nat) : Reader → Prop
  | .absent => asked id history = [] ∧ failed id history = []
  | .reading r => Underway history p id r
  | .failed _ => (failed id history).length = p.size ∧ asked id history = failed id history ∧
      (Undisturbed id history → ∃ first, failed id history = circle p.size first p.size)
  | .answered | .gone => True

/-- Events of other calls keep `Recorded`. -/
theorem Recorded.frame {p p' : Pool} {c : Reader} (h : Recorded history p id c)
    (size : p'.size = p.size)
    (active : p'.active = (p.active + moves shown) % p.size) (unasked : asked id shown = [])
    (unfailed : failed id shown = []) : Recorded (history ++ shown) p' id c := by
  have asked_eq : asked id (history ++ shown) = asked id history := by
    rw [asked_append, unasked, List.append_nil]
  have failed_eq : failed id (history ++ shown) = failed id history := by
    rw [failed_append, unfailed, List.append_nil]
  cases c with
  | absent => exact ⟨asked_eq.trans h.1, failed_eq.trans h.2⟩
  | reading r =>
    obtain ⟨tries, last, ⟨before, since, split, still, due⟩, round⟩ := h
    refine ⟨?_, ?_, ⟨before, since ++ shown, by simp [split], by simp [still, unfailed], ?_⟩, ?_⟩
    · rw [failed_eq, size, tries]
    · rw [asked_eq, failed_eq, last]
    · rw [active, due, size, Nat.mod_add_mod, moves_append, Nat.add_assoc]
    · intro undisturbed
      rw [failed_eq, size]
      exact round undisturbed.of_append
  | failed f =>
    obtain ⟨tries, last, round⟩ := h
    refine ⟨by rw [failed_eq, size, tries], by rw [asked_eq, failed_eq, last], ?_⟩
    intro undisturbed
    rw [failed_eq, size]
    exact round undisturbed.of_append
  | answered | gone => trivial

/-- A read that starts. -/
theorem Underway.starts {p : Pool} (h : Recorded history p id .absent)
    (inside : p.active < p.size) :
    Underway (history ++ [.asks id p.active]) p id p.startRead := by
  obtain ⟨unasked, unfailed⟩ := h
  have unfailed : failed id (history ++ [.asks id p.active]) = [] := by
    rw [failed_append, unfailed]
    rfl
  refine ⟨?_, ?_, ⟨history, [], rfl, rfl, (Nat.mod_eq_of_lt inside).symm⟩, fun _ => ⟨p.active, ?_⟩⟩
  · rw [unfailed, Pool.startRead]
    simp only [List.length_nil]
    omega
  · rw [unfailed, asked_append, unasked]
    simp [asked, Pool.startRead]
  · rw [unfailed]
    exact ⟨rfl, (Nat.mod_eq_of_lt inside).symm⟩

/-- The last node that was asked fails the read as well. -/
theorem Underway.failed_eq {p : Pool} (h : Underway history p id r) :
    failed id (history ++ [.fails id r.asked]) = asked id history := by
  rw [failed_append, h.last]
  simp [failed]

/-- If the read is undisturbed, the nodes that failed it are successive. -/
theorem Underway.circle_eq {p : Pool} (h : Underway history p id r)
    (undisturbed : Undisturbed id history) :
    ∃ first, asked id history = circle p.size first (asked id history).length ∧
      r.asked = (first + (failed id history).length) % p.size := by
  obtain ⟨first, around, last⟩ := h.round undisturbed
  refine ⟨first, ?_, last⟩
  rw [h.last, List.length_append, List.length_singleton, circle_succ, ← around, ← last]

/-- If the read is undisturbed, the active index is the one next to the nodes that failed it. -/
theorem Underway.due {p : Pool} {place : Nat} (h : Underway history p id r)
    (undisturbed : Undisturbed id (history ++ [.fails id r.asked, .asks id place])) :
    p.active = r.asked % p.size := by
  obtain ⟨before, since, split, unfailed, due⟩ := h.since
  -- Nobody else has moved the index on, and the read itself does so only where it fails over.
  have unmoved : moves since = 0 := by
    refine List.countP_eq_zero.mpr fun e listed moves => ?_
    obtain ⟨place', rfl⟩ := undisturbed before (since ++ [.fails id r.asked]) [] r.asked place
      (by simp [split]) e (List.mem_append_left _ listed) moves
    have mem : place' ∈ failed id since := List.mem_filterMap.mpr ⟨_, listed, if_pos rfl⟩
    rw [unfailed] at mem
    cases mem
  rw [due, unmoved, Nat.add_zero]

/-- A read fails over to the next node. -/
theorem Underway.failsOver {p : Pool} {r' : Reading} (h : Underway history p id r)
    (inside : p.active < p.size) (left : r.left = r'.left + 1)
    (next : r'.asked = p.advance.active) :
    Underway (history ++ [.fails id r.asked, .asks id r'.asked]) p.advance id r' := by
  have failed_eq : failed id (history ++ [.fails id r.asked, .asks id r'.asked]) =
      asked id history := by
    rw [← h.failed_eq, failed_append, failed_append]
    simp [failed]
  have asked_eq : asked id (history ++ [.fails id r.asked, .asks id r'.asked]) =
      asked id history ++ [r'.asked] := by
    rw [asked_append]
    simp [asked]
  have length : (asked id history).length = (failed id history).length + 1 := by simp [h.last]
  have moved := Pool.advance_active inside
  refine ⟨?_, ?_, ⟨history ++ [.fails id r.asked], [], by simp, rfl, ?_⟩, fun undisturbed => ?_⟩
  · rw [failed_eq, length, Pool.advance_size, ← h.tries, left]
    omega
  · rw [failed_eq, asked_eq]
  · rw [next, moved, Pool.advance_size]
    exact (Nat.mod_mod _ _).symm
  · have due := h.due undisturbed
    obtain ⟨first, around, last⟩ := h.circle_eq undisturbed.of_append
    rw [failed_eq, Pool.advance_size]
    refine ⟨first, around, ?_⟩
    rw [next, moved, due, last, Nat.mod_mod, Nat.mod_add_mod, length, Nat.add_assoc]

/-- A read fails with its last attempt. -/
theorem Underway.givesUp {p : Pool} (h : Underway history p id r) (left : r.left = 0)
    (f : Failure) : Recorded (history ++ [.fails id r.asked]) p.advance id (.failed f) := by
  have asked_eq : asked id (history ++ [.fails id r.asked]) = asked id history := by
    rw [asked_append]
    exact List.append_nil _
  have length : (asked id history).length = p.size := by
    rw [← h.tries, left, h.last, List.length_append]
    rfl
  refine ⟨?_, ?_, fun undisturbed => ?_⟩
  · rw [h.failed_eq, length, Pool.advance_size]
  · rw [h.failed_eq, asked_eq]
  · obtain ⟨first, around, -⟩ := h.circle_eq undisturbed.of_append
    exact ⟨first, by rw [h.failed_eq, Pool.advance_size, around, length]⟩

/-- **The state of every read is recorded in the history.** -/
theorem Run.recorded (run : Run urls timeout history w) (id : Nat) :
    Recorded history w.pool id (w.reader id) := by
  induction run with
  | opened _ => exact ⟨rfl, rfl⟩
  | @step history w k shown w' run step ih =>
    have inside := run.inside
    obtain ⟨size, active⟩ := step.pool inside
    by_cases own : id = k
    · subst own
      cases step with
      | starts absent =>
        rw [reader_put_self]
        rw [absent] at ih
        exact Underway.starts ih inside
      | failsOver here settles =>
        rw [reader_put_self]
        rw [here] at ih
        obtain ⟨left, next, rfl⟩ := again_of_settle settles
        exact Underway.failsOver ih inside left next
      | givesUp here settles =>
        rw [reader_put_self]
        rw [here] at ih
        obtain ⟨left, rfl⟩ := last_of_settle settles
        exact Underway.givesUp ih left _
      | answers _ _ | drops _ =>
        rw [reader_put_self]
        trivial
      | passes _ | strays => exact ih.frame size active rfl rfl
    · obtain ⟨same, unasked, unfailed⟩ := step.other own
      rw [same]
      exact ih.frame size active unasked unfailed

/-- **A read that fails** was failed `size` times, each time by the node at the index that all
    failures before have led to, and by every node if it is undisturbed. -/
theorem Run.exhausted {f : Failure} (run : Run urls timeout history w)
    (gone : w.reader id = .failed f) :
    (asked id history).length = w.pool.size ∧ failed id history = asked id history ∧
      (∀ before place after, history = before ++ .asks id place :: after →
        place = moves before % w.pool.size) ∧
      (Undisturbed id history → ∀ place < w.pool.size, place ∈ failed id history) := by
  have recorded := run.recorded id
  rw [gone] at recorded
  obtain ⟨tries, last, round⟩ := recorded
  refine ⟨last ▸ tries, last.symm, fun _ _ _ => run.place_eq, fun undisturbed place inside => ?_⟩
  obtain ⟨first, around⟩ := round undisturbed
  exact around ▸ mem_circle first inside

/-! ### A read that has the pool to itself -/

/-- `Pool.readFrom` is a run of the reads that share a pool in which no other read makes a step. -/
theorem Run.fails_over {σ α : Type} (ask : Nat → σ → Except Failure α × σ)
    (run : Run urls timeout history w) (here : w.reader id = .reading r) (outside : σ) :
    ∃ shown w', Run urls timeout (history ++ shown) w' ∧
      w'.pool = (w.pool.readFrom ask r.left outside).2.1 ∧
      w'.reader id = .ended (w.pool.readFrom ask r.left outside).1 ∧
      ∀ e ∈ shown, e.moves = true → ∃ place, e = .fails id place := by
  obtain ⟨asked, left⟩ := r
  have answers (left : Nat) (a : α) :
      Reading.settle (.ok a) w.pool ⟨asked, left⟩ = (.ended (.ok a), w.pool) := rfl
  -- On the retries left: a failure moves the pool on, and the next attempt asks its current node.
  induction left generalizing history w asked outside with
  | zero =>
    unfold Pool.readFrom
    obtain ⟨result, outside'⟩ := ask w.pool.active outside
    cases result with
    | ok a => exact ⟨_, _, run.step (.answers here (answers 0 a)), rfl, reader_put_self .., by simp⟩
    | error f =>
      have fails : Reading.settle (.error f : Except Failure α) w.pool ⟨asked, 0⟩ =
          (.ended (.error f), w.pool.advance) := rfl
      exact ⟨_, _, run.step (.givesUp here fails), rfl, reader_put_self .., by simp⟩
  | succ left ih =>
    unfold Pool.readFrom
    obtain ⟨result, outside'⟩ := ask w.pool.active outside
    cases result with
    | ok a =>
      exact ⟨_, _, run.step (.answers here (answers (left + 1) a)), rfl, reader_put_self ..,
        by simp⟩
    | error f =>
      have fails : Reading.settle (.error f : Except Failure α) w.pool ⟨asked, left + 1⟩ =
          (.again ⟨w.pool.advance.active, left⟩, w.pool.advance) := rfl
      obtain ⟨shown, w', run', pool, reader, own⟩ :=
        ih (run.step (.failsOver here fails)) outside' _ (reader_put_self ..) fun _ _ => rfl
      refine ⟨_, w', List.append_assoc .. ▸ run', pool, reader, fun e listed moves => ?_⟩
      rcases List.mem_append.mp listed with first | later
      · rcases List.mem_pair.mp first with rfl | rfl
        · exact ⟨_, rfl⟩
        · cases moves
      · exact own e later moves

/-- **`Pool.readFrom` on a new pool** is a run of one read, which is undisturbed. -/
theorem Run.alone {σ α : Type} {p : Pool} (built : Pool.ofUrls urls timeout = .ok p)
    (ask : Nat → σ → Except Failure α × σ) (outside : σ) :
    ∃ history w, Run urls timeout history w ∧
      w.pool = (p.readFrom ask (p.size - 1) outside).2.1 ∧
      w.reader 0 = .ended (p.readFrom ask (p.size - 1) outside).1 ∧ Undisturbed 0 history := by
  have starts : Step ⟨p, fun _ => .absent⟩ 0 _ _ := .starts rfl
  -- Once it has started, all that happens is what it does itself.
  obtain ⟨shown, w, run, pool, reader, own⟩ :=
    ((Run.opened built).step starts).fails_over ask (reader_put_self ..) outside
  refine ⟨_, w, run, pool, reader, ?_⟩
  intro before between after place place' split e listed moves
  have mem : e ∈ [] ++ [Event.asks 0 p.active] ++ shown := by
    rw [split]
    simp [listed]
  rcases List.mem_append.mp mem with first | later
  · cases List.mem_singleton.mp first
    cases moves
  · exact own e later moves

/-- Two nodes, of which the first one is active. -/
theorem pair_ofUrls : Pool.ofUrls ["http://a", "http://b"] 5000 =
    .ok ⟨["http://a", "http://b"], 0, 5000⟩ := by
  have valid : ["http://a", "http://b"].filter Url.isValid = ["http://a", "http://b"] := by
    decide +kernel
  rw [Pool.ofUrls, valid]

/-- A read that is the only one asks both of two failing nodes. -/
theorem Run.exhausted_alone : ∃ history w, Run ["http://a", "http://b"] 5000 history w ∧
    w.reader 0 = .failed (.late "eth_blockNumber" 5000) ∧ Undisturbed 0 history ∧
    ∀ place < 2, place ∈ failed 0 history := by
  let ask (_ : Nat) (_ : Unit) : Except Failure Nat × Unit :=
    (.error (.late "eth_blockNumber" 5000), ())
  obtain ⟨history, w, run, pool, reader, undisturbed⟩ := Run.alone pair_ofUrls ask ()
  have size : w.pool.size = 2 := by
    rw [pool]
    rfl
  have around := (run.exhausted reader).2.2.2 undisturbed
  exact ⟨history, w, run, reader, undisturbed, size ▸ around⟩

/-! ### Two reads -/

/-- Two reads ask the first node at once, and both are failed.  One of them fails over to the second
    node, which answers it; the other one is sent back to the first node and fails, though the
    second node fails no read. -/
theorem Run.exhausted_early : ∃ history w, Run ["http://a", "http://b"] 5000 history w ∧
    w.pool.size = 2 ∧
    w.reader 0 = .answered ∧ asked 0 history = [0, 1] ∧
    w.reader 1 = .failed (.late "eth_blockNumber" 5000) ∧ asked 1 history = [0, 0] ∧
    ∀ id, .fails id 1 ∉ history := by
  let late : Except Failure Nat := .error (.late "eth_blockNumber" 5000)
  have fails (place left : Nat) (p : Pool) : Reading.settle late p ⟨place, left + 1⟩ =
    (.again ⟨p.advance.active, left⟩, p.advance) := rfl
  have gives_up (place : Nat) (p : Pool) : Reading.settle late p ⟨place, 0⟩ =
    (.ended late, p.advance) := rfl
  have answers (place left : Nat) (p : Pool) : Reading.settle (.ok 100) p ⟨place, left⟩ =
    (.ended (.ok 100 : Except Failure Nat), p) := rfl
  -- The first failure advances the index to the second node, and the second one back.
  have run := (Run.opened pair_ofUrls).step (.starts rfl : Step _ 0 _ _)
  have run := run.step (.starts rfl : Step _ 1 _ _)
  have run := run.step (.failsOver rfl (fails ..) : Step _ 0 _ _)
  have run := run.step (.failsOver rfl (fails ..) : Step _ 1 _ _)
  have run := run.step (.givesUp rfl (gives_up ..) : Step _ 1 _ _)
  have run := run.step (.answers rfl (answers ..) : Step _ 0 _ _)
  exact ⟨[.asks 0 0, .asks 1 0, .fails 0 0, .asks 0 1, .fails 1 0, .asks 1 0, .fails 1 0], _, run,
    rfl, rfl, rfl, rfl, rfl, by simp⟩

end Traffic

end Relayer
