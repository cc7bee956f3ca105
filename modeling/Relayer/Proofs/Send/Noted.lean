import Relayer.Proofs.Send.Trail

namespace Relayer

/-!
# Noted — a desk with a log takes the same steps

Trails are made of the calls that a noted desk logs.  Here is why that is no restriction:
`stepWithin` at `desk.noted` is `stepWithin` at `desk`, once the log is forgotten.

* `Send.stepWithin_noted` — one step at a noted desk, and one at the desk itself;
* `Send.Run.of_step` / `Send.Ends.of_step` — the steps of a send are those of its runs.
-/

variable {σ : Type}

/-- An outcome with the log dropped from the outside. -/
def forget {α : Type} (x : α × σ × List Inquiry) : α × σ := (x.1, x.2.1)

/-- The same where the slots are returned as well. -/
def forgetBehind {α β : Type} (x : α × β × σ × List Inquiry) : α × β × σ := (x.1, forget x.2)

variable (desk : Desk σ) (limits : Limits) (now : Nat) (outside : σ) (log : List Inquiry)

/-! ### Questions and requests -/

/-- `Retry.step` does not depend on the log. -/
theorem Retry.step_noted {α : Type} (note : Pending (Except Failure α) → Inquiry)
    (ask : Call.Effect σ (Except Failure α)) (interval : Nat) (r : Retry α) :
    (r.step (Call.Effect.noted note ask) interval limits now (outside, log)).map forget =
      r.step ask interval limits now outside := by
  unfold Retry.step
  cases limits.verdict now with
  | some f => rfl
  | none =>
    cases r with
    | ready => rfl
    | asking reply =>
      simp only
      cases reply.ready? now <;> rfl
    | pausing resume =>
      by_cases due : resume ≤ now
      · simp [due, forget]
      · simp [due]

/-- Nor does `Acquire.step`. -/
theorem Acquire.step_noted (chain : Chain σ) (account : Address) (a : Acquire) (l : Leases) :
    (a.step chain.noted account now l (outside, log)).map forgetBehind =
      a.step chain account now l outside := by
  cases a with
  | start => rfl
  | queued ticket =>
    simp only [Acquire.step]
    by_cases holds : l.holds account ticket = true
    · simp only [if_pos holds]
      cases (l.slot account).next <;> rfl
    · simp only [if_neg holds]
      rfl
  | reading ticket reply =>
    simp only [Acquire.step]
    match reply.ready? now with
    | none => rfl
    | some (.ok _) => rfl
    | some (.error _) => rfl

/-! ### The tracker -/

/-- A step that makes no call logs none. -/
theorem Tracker.inside_noted (step : Option (Tracker × Option TrackerEvent)) :
    (inside (outside, log) step).map forgetBehind = inside outside step := by
  cases step <;> rfl

/-- `Tracker.step` does not depend on the log. -/
theorem Tracker.step_noted (chain : Chain σ) (room : Bool) (t : Tracker) :
    (t.step chain.noted now room (outside, log)).map forgetBehind =
      t.step chain now room outside := by
  unfold Tracker.step
  -- Only the stages that ask write to the log, and they write the same call.
  cases t.stage with
  | resting =>
    by_cases still : t.ticker.period = 0
    · simp only [if_pos still, inside_noted outside log]
    · simp only [if_neg still]
      cases t.ticker.tick? now with
      | none => rfl
      | some ticker =>
        by_cases empty : t.watched.isEmpty = true
        · simp only [if_pos empty]
          rfl
        · simp only [if_neg empty]
          rfl
  | readingHead hashes reply =>
    simp only
    match reply.ready? now with
    | none => rfl
    | some (.ok _) => rfl
    | some (.error _) => rfl
  | next head unseen rest => cases rest <;> rfl
  | asking head unseen hash rest reply =>
    simp only
    match reply.ready? now with
    | none => rfl
    | some (.error _) => rfl
    | some (.ok answer) =>
      simp only
      cases answer.bind (Receipt.ofChain? · head) <;> rfl
  | found head unseen hash receipt rest => exact inside_noted outside log _
  | absent head unseen hash rest => exact inside_noted outside log _
  | looking hashes => cases hashes <;> rfl
  | lookingAt hash rest reply =>
    simp only
    match reply.ready? now with
    | none => rfl
    | some (.ok true) => rfl
    | some (.ok false) => rfl
    | some (.error _) => rfl
  | sighted hash => exact inside_noted outside log _
  | done | broken => rfl

/-! ### The escalation -/

namespace Escalation

variable (e : Escalation)

/-- `afterPricing` leads to the same bid. -/
theorem afterPricing_noted (suggested : Except Failure Amount) :
    forget (e.afterPricing desk.noted now suggested (outside, log)) =
      e.afterPricing desk now suggested outside := by
  simp only [afterPricing, Desk.noted_policy]
  split
  · rfl
  · split
    · split <;> rfl
    · rfl

/-- `escalate` asks for a suggestion alike. -/
theorem escalate_noted :
    forget (e.escalate desk.noted now (outside, log)) = e.escalate desk now outside := by
  unfold escalate
  by_cases empty : e.book.mined.isEmpty = true
  · rw [if_pos empty, if_pos empty]
    rfl
  · rw [if_neg empty, if_neg empty]
    rfl

/-- `listen` selects the same branch. -/
theorem listen_noted :
    (e.listen desk.noted limits now (outside, log)).map forget =
      e.listen desk limits now outside := by
  unfold listen
  cases limits.cancelled with
  | true => rfl
  | false =>
    match e.inbox with
    | event :: inbox => rfl
    | [] =>
      cases e.tracker.isClosed with
      | true => rfl
      | false =>
        match e.answered with
        | a :: answered => rfl
        | [] =>
          cases isPast limits.deadline now with
          | true => rfl
          | false =>
            -- One condition, written with two policies that are the same.
            have same : (!e.book.seen && e.mempoolDeadline desk.noted.policy ≤ now : Bool) =
              (!e.book.seen && e.mempoolDeadline desk.policy ≤ now : Bool) := rfl
            rw [same]
            cases (!e.book.seen && e.mempoolDeadline desk.policy ≤ now : Bool) with
            | true => rfl
            | false =>
              simp only
              cases e.ticker.tick? now with
              | none => rfl
              | some ticker => exact congrArg some (escalate_noted desk now outside log _)

/-- `loopStep` does not depend on the log. -/
theorem loopStep_noted :
    (e.loopStep desk.noted limits now (outside, log)).map forget =
      e.loopStep desk limits now outside := by
  unfold loopStep
  split
  next => rfl
  next => exact listen_noted desk limits now outside log e
  next =>
    split
    · rfl
    · split
      · exact congrArg some (afterPricing_noted desk now outside log e _)
      · rfl
  next =>
    split
    · rfl
    · split <;> rfl

/-- Nor does `trackerStep`. -/
theorem trackerStep_noted :
    (e.trackerStep desk.noted now (outside, log)).map forget =
      e.trackerStep desk now outside := by
  unfold trackerStep
  rw [← Tracker.step_noted now outside log desk.chain, Desk.noted_chain]
  cases e.tracker.step desk.chain.noted now (e.inbox.length < inboxSize) (outside, log) <;> rfl

/-- `sendFirst` sends or joins the same broadcast. -/
theorem sendFirst_noted (chain : Chain σ) (outstanding : List Broadcast) :
    (sendFirst chain.noted now (outside, log) outstanding).map (fun x => (x.1, forget x.2)) =
      sendFirst chain now outside outstanding := by
  induction outstanding with
  | nil => rfl
  | cons b rest ih =>
    cases b with
    | queued c => rfl
    | sent bid hash reply =>
      simp only [sendFirst]
      cases reply.ready? now with
      | some verdict => rfl
      | none =>
        simp only
        rw [← ih]
        cases sendFirst chain.noted now (outside, log) rest <;> rfl

/-- Nor does `broadcastStep`. -/
theorem broadcastStep_noted :
    (e.broadcastStep desk.noted now (outside, log)).map forget =
      e.broadcastStep desk now outside := by
  unfold broadcastStep
  rw [← sendFirst_noted now outside log desk.chain, Desk.noted_chain]
  cases sendFirst desk.chain.noted now (outside, log) e.outstanding <;> rfl

/-- Nor does the step of any party. -/
theorem stepOf_noted (party : Party) :
    (e.stepOf desk.noted limits now (outside, log) party).map forget =
      e.stepOf desk limits now outside party := by
  cases party with
  | loop => exact loopStep_noted desk limits now outside log _
  | tracker => exact trackerStep_noted desk now outside log _
  | broadcasts => exact broadcastStep_noted desk now outside log _

/-- The first party that can step is the same. -/
theorem step_noted :
    (e.step desk.noted limits now (outside, log)).map forget = e.step desk limits now outside := by
  unfold step
  -- Who cannot make a step at the noted desk cannot make one at the desk itself.
  induction e.turn.order with
  | nil => rfl
  | cons party rest ih =>
    have first := e.stepOf_noted desk limits now outside log party
    rw [List.findSome?_cons, List.findSome?_cons, ← first]
    cases e.stepOf desk.noted limits now (outside, log) party with
    | some _ => rfl
    | none => exact ih

end Escalation

/-! ### The send -/

namespace Send

variable (s : Send) (l : Leases)

/-- `leaseStep` does not depend on the log. -/
theorem leaseStep_noted (a : Leasing) :
    (leaseStep desk.noted limits now s a l (outside, log)).map forgetBehind =
      leaseStep desk limits now s a l outside := by
  unfold leaseStep
  cases limits.verdict now with
  | some f => rfl
  | none =>
    cases a with
    | asking a =>
      simp only [Desk.noted_chain, Desk.noted_address, Desk.noted_policy]
      rw [← a.step_noted now outside log desk.chain]
      match a.step desk.chain.noted desk.signer.address now l (outside, log) with
      | none => rfl
      | some (.waiting _, _, _) => rfl
      | some (.granted _, _, _) => rfl
      | some (.failed f, _, _) =>
        simp only [Option.map, forgetBehind, forget]
        cases f.isRetryable <;> rfl
    | pausing resume =>
      by_cases due : resume ≤ now
      · simp only [if_pos due]
        rfl
      · simp only [if_neg due]
        rfl

/-- Nor does `estimateStep`. -/
theorem estimateStep_noted (lease : Lease) (question : Retry Amount) :
    (estimateStep desk.noted limits now s lease question l (outside, log)).map forgetBehind =
      estimateStep desk limits now s lease question l outside := by
  let t := s.call.toEstimate desk.signer.address
  have asked := question.step_noted limits now outside log (.estimate t) (desk.chain.estimate t)
    desk.policy.networkTimeout
  simp only [estimateStep, Desk.noted_chain, Desk.noted_address, Desk.noted_policy, Chain.noted]
  rw [← asked]
  match question.step (Call.Effect.noted (.estimate t) (desk.chain.estimate t))
    desk.policy.networkTimeout limits now (outside, log) with
  | none => rfl
  | some (.waiting _, _, _) => rfl
  | some (.failed _, _, _) => rfl
  | some (.answered estimate, _, _) =>
    simp only [Option.map, forget]
    cases desk.policy.pricing.paddedLimit estimate <;> rfl

/-- Nor does `priceStep`. -/
theorem priceStep_noted (lease : Lease) (gasLimit : Amount) (question : Retry Amount) :
    (priceStep desk.noted limits now s lease gasLimit question l (outside, log)).map forgetBehind =
      priceStep desk limits now s lease gasLimit question l outside := by
  have asked := question.step_noted limits now outside log .gasPrice desk.chain.gasPrice
    desk.policy.networkTimeout
  simp only [priceStep, Desk.noted_chain, Desk.noted_policy, Chain.noted]
  rw [← asked]
  match question.step (Call.Effect.noted .gasPrice desk.chain.gasPrice)
    desk.policy.networkTimeout limits now (outside, log) with
  | none => rfl
  | some (.waiting _, _, _) => rfl
  | some (.failed _, _, _) => rfl
  | some (.answered suggested, _, _) =>
    have bid : firstBid desk.noted now s lease gasLimit suggested =
      firstBid desk now s lease gasLimit suggested := rfl
    simp only [Option.map, forget, bid]
    cases firstBid desk now s lease gasLimit suggested <;> rfl

/-- **`stepWithin` does not depend on the log.** -/
theorem stepWithin_noted :
    (s.stepWithin desk.noted limits now l (outside, log)).map forgetBehind =
      s.stepWithin desk limits now l outside := by
  unfold stepWithin
  split
  next => exact leaseStep_noted desk limits now outside log s l _
  next => exact estimateStep_noted desk limits now outside log s l _ _
  next => exact priceStep_noted desk limits now outside log s l _ _ _
  next lease e _ =>
    rw [← e.step_noted desk limits now outside log]
    cases e.step desk.noted limits now (outside, log) with
    | none => rfl
    | some x =>
      obtain ⟨out, _, _⟩ := x
      cases out <;> rfl

variable {desk : Desk σ} {now : Nat} {outside : σ} {s : Send} {l : Leases} {cancelled : Bool}
  {call : Call} {trail : List Event} {s' : Send} {l' : Leases} {outside' : σ}

/-- What a step leads to, it leads to at the noted desk, with some calls. -/
theorem exists_calls {out : Outcome}
    (step : s.step desk cancelled now l outside = some (out, l', outside')) :
    ∃ calls, s.stepWithin desk.noted (s.limits cancelled) now l (outside, []) =
      some (out, l', outside', calls) := by
  rw [Send.step, ← stepWithin_noted desk _ now outside [], Option.map_eq_some_iff] at step
  obtain ⟨⟨out, l, outside, calls⟩, noted, same⟩ := step
  cases same
  exact ⟨calls, noted⟩

/-- **Every step of a send prolongs its run.** -/
theorem Run.of_step (run : Run desk call trail s)
    (step : s.step desk cancelled now l outside = some (.running s', l', outside')) :
    ∃ calls, Run desk call (trail ++ s.shown calls (.running s')) s' := by
  obtain ⟨calls, noted⟩ := exists_calls step
  exact ⟨calls, .step run noted⟩

/-- **Every end of a send is the end of a run.** -/
theorem Ends.of_step {result : Except Stop Receipt} (run : Run desk call trail s)
    (step : s.step desk cancelled now l outside = some (.ended result, l', outside')) :
    ∃ calls, Ends desk call (trail ++ s.shown calls (.ended result)) result := by
  obtain ⟨calls, noted⟩ := exists_calls step
  exact ⟨calls, trail, s, _, _, _, _, _, _, calls, run, noted, rfl⟩

end Send

end Relayer
