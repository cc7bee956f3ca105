import Relayer.Proofs.Leases.Adequacy

namespace Relayer

/-!
# Silence — no call is made for a send that has returned or has been dropped

A send may return from any phase, or be dropped in any, with broadcasts outstanding, one of them
perhaps spawned just now, and its poll task anywhere in a poll.  The step that ends it makes no
call, and it aborts every task of the send.

* `Send.Move.calls_of_ended` — the step that ends a send makes no call;
* `Runtime.Step.stops` — it stops every task of the send;
* `Runtime.not_step_of_gone` — a send that is gone makes no step, nor does a task of it;
* `Runtime.Run.silent` — all calls of a send come before its end, and it has no task from there on.
-/

variable {σ : Type}

/-! ### The last step -/

/-- A retried call that fails makes no call. -/
theorem Retry.Move.calls_of_failed {α : Type} {note : Pending (Except Failure α) → Inquiry}
    {ask : Call.Effect σ (Except Failure α)} {limits : Limits} {now : Nat} {r : Retry α}
    {calls : List Inquiry} {f : Failure} (move : Move note ask limits now r calls (.failed f)) :
    calls = [] := by
  rcases move.calls_eq with none | ⟨_, -, -, waits⟩
  · exact none
  · cases waits

/-- An escalation that ends makes no call. -/
theorem Escalation.Move.calls_of_ended {desk : Desk σ} {limits : Limits} {now : Nat}
    {e : Escalation} {calls : List Inquiry} {result : Except Stop Receipt}
    (move : Move desk limits now e calls (.ended result)) : calls = [] := by
  generalize ends : Outcome.ended result = out at move
  cases move
  -- The moves with a call all go on.
  case opens | prices | repeats | raises | tracks | sends => cases ends
  all_goals rfl

/-- **A send that ends makes no call**, whichever way it ends. -/
theorem Send.Move.calls_of_ended {desk : Desk σ} {limits : Limits} {now : Nat} {s : Send}
    {l l' : Leases} {calls : List Inquiry} {result : Except Stop Receipt}
    (move : Move desk limits now s l calls (.ended result) l') : calls = [] := by
  generalize ends : Outcome.ended result = out at move
  cases move
  case unestimated move | unpriced move => exact move.calls_of_failed
  case settles move => exact move.calls_of_ended
  case reads | estimates | pads | prices | bids | escalates => cases ends
  all_goals rfl

/-! ### The end of a send in a runtime -/

/-- **The step that ends a send shows nothing but the end.** -/
theorem Office.SendStep.shown_of_over {desk : Desk σ} {w w' : Office} {id : Nat}
    {shown : List Send.Event} {e : Send.Event} (step : SendStep desk w id shown w')
    (listed : e ∈ shown) (isOver : e.isOver = true) : shown = [e] := by
  cases step with
  | starts _ | reschedules _ _ => cases listed
  | advances _ _ =>
    rw [Send.not_over_of_running listed] at isOver
    cases isOver
  | @ends s result _ _ _ _ _ calls _ step =>
    obtain rfl := (Send.move_of_noted step).calls_of_ended
    obtain rfl : e = .ended result := List.mem_singleton.mp listed
    rfl
  | drops _ =>
    obtain rfl := List.mem_singleton.mp listed
    rfl

namespace Runtime

variable {desk : Desk σ} {shared : Bool} {history : List (Nat × Send.Event)} {r r' : Runtime}
  {id : Nat} {shown : List Send.Event} {e : Send.Event}

/-- `arrive` changes the future `id` alone. -/
theorem future_arrive_other {k : Nat} (other : k ≠ id) (leases : Leases) (c : Client) :
    (r.arrive id leases c).future k = r.future k := by
  unfold arrive
  split <;> exact future_put_other r other _ _ _

/-- A step on behalf of one client leaves the futures of the others alone. -/
theorem Step.future_other (step : Step desk r id shown r') {k : Nat} (other : k ≠ id) :
    r'.future k = r.future k := by
  cases step with
  | early _ _ => exact future_arrive_other other _ _
  | loops _ _ _ _ | returns _ _ _ | drops _ | polls _ _ _ | joins _ _ _ _ =>
    exact future_put_other r other _ _ _
  | pollsOn _ _ _ | sends _ | joinsNobody _ _ _ => rfl

/-- The step that ends a send shows its end only, and leaves its future `gone`. -/
theorem Step.shown_of_over (step : Step desk r id shown r') (listed : e ∈ shown)
    (isOver : e.isOver = true) : shown = [e] ∧ r'.future id = .plain .gone := by
  have not_asked {calls : List Inquiry} : e ∉ calls.map Send.Event.asked := by
    rintro mem
    obtain ⟨i, -, rfl⟩ := List.mem_map.mp mem
    cases isOver
  cases step with
  | early here step =>
    refine ⟨step.shown_of_over listed isOver, ?_⟩
    rw [step.gone listed isOver, arrive_gone]
    exact future_put_self ..
  | loops _ _ _ _ =>
    rcases List.mem_append.mp listed with asked | published
    · exact absurd asked not_asked
    · obtain ⟨c, -, rfl⟩ := List.mem_map.mp published
      cases isOver
  | returns here sees step =>
    obtain ⟨_, same, move⟩ := Escalation.move_of_loopStep step
    obtain rfl := move.calls_of_ended
    obtain rfl : _ = [] := same
    exact ⟨by rw [List.mem_singleton.mp listed]; rfl, future_put_self ..⟩
  | drops here => exact ⟨by rw [List.mem_singleton.mp listed], future_put_self ..⟩
  | polls _ _ _ | pollsOn _ _ _ => exact absurd listed not_asked
  | sends _ =>
    obtain rfl := List.mem_singleton.mp listed
    cases isOver
  | joins _ _ _ _ | joinsNobody _ _ _ => cases listed

/-- **The step that ends a send stops every task of it.** -/
theorem Step.stops (step : Step desk r id shown r') (held : r.Held) (listed : e ∈ shown)
    (isOver : e.isOver = true) {tid : TaskId} {body : TaskBody}
    (job : r.tasks.job tid = some (id, body)) : r'.tasks.job tid = none := by
  obtain ⟨-, gone⟩ := step.shown_of_over listed isOver
  cases step with
  | early here _ => exact absurd ⟨tid, body, job⟩ (held.not_hasTask here)
  | returns here _ _ | drops here =>
    exact (Frame.job_drop ..).trans (if_pos (held.mem_handles here job))
  | loops _ _ _ _ | polls _ _ _ | joins _ _ _ _ => cases (future_put_self ..).symm.trans gone
  | pollsOn _ _ _ | sends _ | joinsNobody _ _ _ =>
    exact absurd ⟨tid, body, job⟩ (held.not_hasTask gone)

/-- A client that is gone makes no step, and has no task that could make one. -/
theorem not_step_of_gone (held : r.Held) (gone : r.future id = .plain .gone) :
    ¬ Step desk r id shown r' := by
  intro step
  have none : ∀ tid body, r.tasks.job tid ≠ some (id, body) := fun tid body job =>
    held.not_hasTask gone ⟨tid, body, job⟩
  cases step with
  | early here step =>
    obtain rfl : Client.gone = _ := Future.plain.inj (gone.symm.trans here)
    cases step with
    | starts here | reschedules here _ | advances here _ | ends here _ | drops here => cases here
  | loops here _ _ _ | returns here _ _ | drops here | polls here _ _ | joins here _ _ _ =>
    cases gone.symm.trans here
  | pollsOn job _ _ | sends job | joinsNobody job _ _ => exact none _ _ job

/-- **A client whose end is in the history is gone.** -/
theorem Run.gone_of_over (run : Run desk shared history r) (listed : (id, e) ∈ history)
    (isOver : e.isOver = true) : r.future id = .plain .gone := by
  induction run with
  | opened => cases listed
  | @step history r k shown r' run step ih =>
    rcases List.mem_append.mp listed with earlier | now
    · by_cases own : id = k
      · subst own
        exact absurd step (not_step_of_gone run.held (ih earlier))
      · rw [step.future_other own]
        exact ih earlier
    · obtain ⟨e', shown, same⟩ := List.mem_map.mp now
      obtain ⟨rfl, rfl⟩ := Prod.mk.inj same
      exact (step.shown_of_over shown isOver).2
  | @hand history r k c w _ run _ here step ih =>
    by_cases own : id = k
    · -- No `HandStep` is that of a client that is gone.
      subst own
      obtain rfl : Client.gone = c := Future.plain.inj ((ih listed).symm.trans here)
      cases step with
      | comes here | waits here _ | obtains here _ | misses here _ | leaves here | releases here
      | commits here _ | resyncs here => cases here
    · rw [future_put_other r own]
      exact ih listed

/-- The step that ended a send, with the history before it and the one behind it. -/
theorem Run.split_of_over (run : Run desk shared history r) {m : Nat}
    (over_at : history[m]? = some (id, e)) (isOver : e.isOver = true) :
    ∃ before v v' later, Run desk shared before v ∧ Step desk v id [e] v' ∧
      history = before ++ (id, e) :: later ∧ before.length = m ∧ ∀ e', (id, e') ∉ later := by
  induction run with
  | opened => cases over_at
  | @step history r k shown r' run step ih =>
    by_cases old : m < history.length
    · rw [List.getElem?_append_left old] at over_at
      obtain ⟨before, v, v', later, run', step', rfl, at_m, silent⟩ := ih over_at
      refine ⟨before, v, v', later ++ shown.map (k, ·), run', step', by simp, at_m, ?_⟩
      rintro e' listed
      rcases List.mem_append.mp listed with earlier | now
      · exact silent e' earlier
      · -- An event shown now is that of a client that is not gone.
        obtain ⟨e'', -, same⟩ := List.mem_map.mp now
        obtain ⟨rfl, -⟩ := Prod.mk.inj same
        exact not_step_of_gone run.held (run.gone_of_over (by simp) isOver) step
    · rw [List.getElem?_append_right (Nat.le_of_not_lt old), List.getElem?_map,
        Option.map_eq_some_iff] at over_at
      obtain ⟨e', here, same⟩ := over_at
      obtain ⟨rfl, rfl⟩ := Prod.mk.inj same
      obtain ⟨rfl, -⟩ := step.shown_of_over (List.mem_of_getElem? here) isOver
      have first := (List.getElem?_eq_some_iff.mp here).1
      rw [List.length_singleton] at first
      exact ⟨history, r, r', [], run, step, by simp, by omega, by simp⟩
  | hand _ _ _ _ ih => exact ih over_at

/-- **Nothing is done for a send that is over.**  When a send ends, by a result or by its caller's
    drop, its tasks may be anywhere: a broadcast just spawned, a poll half way through its hashes.
    The step that ends it shows its end and no call, and aborts each of these tasks.  All calls of
    the send come before it.  No task of the send is in the table from there on, and neither its
    future nor a task makes a step on its behalf, whatever other sends, their tasks and other
    clients do. -/
theorem Run.silent (run : Run desk shared history r) {m : Nat}
    (over_at : history[m]? = some (id, e)) (isOver : e.isOver = true) :
    (∃ before v v' later, Run desk shared before v ∧ Step desk v id [e] v' ∧
      (∀ tid body, v.tasks.job tid = some (id, body) → v'.tasks.job tid = none) ∧
      ¬ v'.HasTask id ∧
      history = before ++ (id, e) :: later ∧ before.length = m ∧ ∀ e', (id, e') ∉ later) ∧
    (∀ k i, history[k]? = some (id, .asked i) → k < m) ∧
    ¬ r.HasTask id ∧
    ∀ shown r', ¬ Step desk r id shown r' := by
  obtain ⟨before, v, v', later, run', step, split, at_m, silent⟩ := run.split_of_over over_at isOver
  have listed : e ∈ [e] := List.mem_singleton_self e
  have gone := run.gone_of_over (List.mem_of_getElem? over_at) isOver
  refine ⟨⟨before, v, v', later, run', step,
    fun tid body job => step.stops run'.held listed isOver job,
    (step.held run'.held).not_hasTask (step.shown_of_over listed isOver).2, split, at_m, silent⟩,
    fun k i asked_at => ?_, run.held.not_hasTask gone, fun _ _ => not_step_of_gone run.held gone⟩
  -- A call at `k ≥ m` would be at the place of the end or in `later`.
  by_contra behind
  rw [split, List.getElem?_append_right (by omega)] at asked_at
  cases place : k - before.length with
  | zero =>
    rw [place] at asked_at
    obtain ⟨-, rfl⟩ := Prod.mk.inj (Option.some.inj asked_at)
    cases isOver
  | succ n =>
    rw [place, List.getElem?_cons_succ] at asked_at
    exact silent _ (List.mem_of_getElem? asked_at)

/-! ### A send that is dropped -/

/-- A stretch of one send prolongs the history of a runtime. -/
theorem Run.stretch {desk : Desk Unit} {w : Office} {now : Nat} {s s' : Send} {l' : Leases}
    {trail : List Send.Event} (run : Run desk shared history r) (shows : r.Shows w)
    (here : w.client id = .sending s) (h : Send.Stretch desk now s w.leases trail s' l') :
    ∃ r', Run desk shared (history ++ trail.map (id, ·)) r' ∧
      r'.Shows (w.put id (.sending s') l') := by
  induction h with
  | here =>
    rw [Office.put_self here, List.map_nil, List.append_nil]
    exact ⟨r, run, shows⟩
  | step _ _ step shown ih =>
    obtain ⟨r', run', shows'⟩ := ih
    have next := run'.send shows' (.advances (Office.client_put_self ..) step)
    rw [shown, Office.put_put] at next
    rw [List.map_append, ← List.append_assoc]
    exact next

end Runtime

namespace Send.Errand

variable {x : Errand} {l : Leases}

/-- The same call at the same nonce, for another ticket. -/
def anew (x : Errand) (ticket : Ticket) : Errand :=
  { x with lease := ⟨x.lease.account, ticket, x.lease.nonce⟩ }

/-- It fits a slot whose lease was released. -/
theorem anew_fits (limit : x.call.gasLimit.map .ofWord = some x.limit)
    (slot : l.slot x.lease.account = ⟨some x.lease.nonce, none, []⟩) : (x.anew l.fresh).Fits l :=
  ⟨limit, rfl, some x.lease.nonce, slot, rfl⟩

/-- The history of a call at a free slot, in a runtime where everything is answered at once. -/
theorem Fits.showsRun {shared : Bool} {history : List (Nat × Event)} {r : Runtime} {w : Office}
    (fits : x.Fits w.leases) (run : Runtime.Run x.desk shared history r) (shows : r.Shows w)
    (id : Nat) (absent : w.client id = .absent) (room : x.lease.nonce.toNat + 1 < UInt64.size) :
    ∃ calls r', Runtime.Run x.desk shared
      (history ++ (x.trail calls ++ [Event.ended (.ok x.receipt)]).map (id, ·)) r' := by
  obtain ⟨calls, l, stretch, -⟩ := fits.stretch
  have starts : Office.SendStep x.desk w id []
      (w.put id (.sending (.start .brisk x.call 0)) w.leases) := .starts absent
  obtain ⟨r₁, run₁, shows₁⟩ := run.send shows starts
  obtain ⟨r₂, run₂, shows₂⟩ := run₁.stretch shows₁ (Office.client_put_self ..) stretch
  obtain ⟨r₃, run₃, -⟩ := run₂.send shows₂ (.ends (Office.client_put_self ..) (x.returns l room))
  exact ⟨calls, r₃, by simpa [shown] using run₃⟩

end Send.Errand

namespace Runtime

/-- A send is dropped while its poll task is running and its first candidate is queued.  Both tasks
    are aborted, and its nonce is granted to the next send.  That one ends with its receipt, and the
    candidate of the first is never broadcast. -/
theorem Run.silent_dropped : ∃ before later v v' w ticket,
    Run Send.Errand.bare.desk true before v ∧
    (∃ tid t, v.tasks.job tid = some (0, .poll t)) ∧
    (∃ tid, v.tasks.job tid =
      some (0, .broadcast (.queued (Send.Errand.bare.candidate .suggested)))) ∧
    Step Send.Errand.bare.desk v 0 [.dropped] v' ∧
    ¬ v'.HasTask 0 ∧
    Run Send.Errand.bare.desk true (before ++ (0, .dropped) :: later) w ∧
    (1, .ended (.ok (Send.Errand.bare.anew ticket).receipt)) ∈ later ∧
    (∀ k i, (before ++ (0, .dropped) :: later)[k]? = some (0, .asked i) → k < before.length) ∧
    ¬ w.HasTask 0 := by
  -- The first one comes as far as its first candidate.
  obtain ⟨l, before, v, waiting, shows, slot⟩ : ∃ l before v,
      Run Send.Errand.bare.desk true before v ∧
      v.Shows (Office.opened.put 0
        (.sending (Send.Errand.bare.escalating Send.Errand.bare.handedOut)) l) ∧
      l.slot Send.Errand.bare.lease.account =
        ⟨some Send.Errand.bare.lease.nonce, some Send.Errand.bare.lease.ticket, []⟩ := by
    obtain ⟨calls, l, leases, slot⟩ := Send.Errand.bare.leases Send.Errand.bare_fits
    have starts : Office.SendStep Send.Errand.bare.desk .opened 0 []
        (Office.opened.put 0 (.sending (.start .brisk Send.Errand.bare.call 0)) .empty) :=
      .starts rfl
    have nobody : Run Send.Errand.bare.desk true [] .opened := .opened
    obtain ⟨r, run, shows⟩ := nobody.send shows_opened starts
    obtain ⟨v, waiting, shows⟩ := run.stretch shows (Office.client_put_self ..)
      (leases.trans (Send.Errand.bare.bids l))
    rw [Office.put_put] at shows
    exact ⟨l, _, v, waiting, shows, slot⟩
  obtain ⟨f, t, here, sees⟩ := shows.of_escalating (Office.client_put_self ..)
  obtain ⟨tid, -, queued⟩ := sees.exists_job (List.mem_singleton_self _)
  -- It is dropped, and gives its lease back as it was granted.
  have drops : Step Send.Errand.bare.desk v 0 _ _ := .drops here
  have dropped := waiting.step drops
  have free : (Send.Errand.bare.lease.release v.leases).slot Send.Errand.bare.lease.account =
      ⟨some Send.Errand.bare.lease.nonce, none, []⟩ := by
    rw [← shows.leases, Lease.release, Leases.slot_leave, if_pos rfl]
    show ((l.slot Send.Errand.bare.lease.account).drop _) = _
    rw [slot]
    simp [Slot.drop]
  -- The second one is granted the same nonce, and commits it.
  let next := Send.Errand.bare.anew (Send.Errand.bare.lease.release v.leases).fresh
  have fits : next.Fits (Send.Errand.bare.lease.release v.leases) := Send.Errand.anew_fits rfl free
  have room : next.lease.nonce.toNat + 1 < UInt64.size := by
    show (7 : UInt64).toNat + 1 < UInt64.size
    decide
  have again : Run next.desk true _ _ := dropped
  obtain ⟨calls, w, ended⟩ := Send.Errand.Fits.showsRun fits again (shows.leave sees) 1 rfl room
  have ended : Run Send.Errand.bare.desk true (before ++ (0, .dropped) ::
      (next.trail calls ++ [Send.Event.ended (.ok next.receipt)]).map (1, ·)) w := by
    rw [List.append_assoc] at ended
    exact ended
  have drop_at (later : List (Nat × Send.Event)) :
      (before ++ (0, .dropped) :: later)[before.length]? = some (0, .dropped) := by
    simp
  obtain ⟨-, -, stopped, -⟩ := Run.silent dropped (drop_at []) rfl
  obtain ⟨-, silent, none, -⟩ := Run.silent ended (drop_at _) rfl
  exact ⟨before, _, v, _, w, _, waiting, ⟨_, t, sees.poll⟩, ⟨tid, queued⟩, drops, stopped, ended,
    List.mem_map_of_mem (List.mem_append_right _ (List.mem_singleton_self _)), silent, none⟩

end Runtime

end Relayer
