import Relayer.Proofs.Send.Bidding

namespace Relayer

/-!
# Confirmation — what the node has said when a send returns a receipt

A receipt passes from the node through a poll of the tracker and the inbox of the loop before a send
returns it.  The invariant keeps, at every stage on that way, the two replies it rests on: the head
that the poll began with, and the receipt looked up under that head.

* `Send.LastHead` / `Send.HeadIs` — the latest head reading, and the head it brought;
* `Send.Attested` — a receipt looked up under a head;
* `Tracker.Stage.Backed` — the stage of the tracker is backed by the trail;
* `Send.Evidence` — the invariant of an escalation;
* `Send.Ends.confirmed` — a returned receipt is one of an own candidate, deep enough.
-/

variable {σ : Type}

/-- The reply arrives at some moment, and it is this one. -/
def Pending.Brings {α : Type} (p : Pending α) (a : α) : Prop := ∃ now, p.ready? now = some a

/-- A receipt that `Receipt.ofChain?` takes has the hash and the block of the node's one, and `head
    - block` confirmations. -/
theorem Receipt.of_ofChain? {answer : ChainReceipt} {head : Nat} {receipt : Receipt}
    (h : Receipt.ofChain? answer head = some receipt) :
    receipt.hash = answer.hash ∧ answer.block = some receipt.block ∧
      receipt.confirmations = head - receipt.block := by
  obtain ⟨block, mined, rfl⟩ := Option.map_eq_some_iff.mp h
  exact ⟨rfl, mined, rfl⟩

namespace Send

/-! ### What the node has said -/

variable {trail later : List Event} {head depth : Nat} {hash : Digest} {receipt : Receipt}

/-- The latest head reading of a trail. -/
def LastHead (trail : List Event) (reply : Pending (Except Failure Nat)) : Prop :=
  ∃ before after, trail = before ++ .asked (.head reply) :: after ∧
    ∀ reply', .asked (.head reply') ∉ after

/-- The latest head reading of a trail brought `head`. -/
def HeadIs (trail : List Event) (head : Nat) : Prop :=
  ∃ reply, LastHead trail reply ∧ reply.Brings (.ok head)

/-- Under that head, the receipt of `hash` was looked up. -/
def AskedUnder (trail : List Event) (head : Nat) (hash : Digest)
    (reply : Pending (Except Failure (Option ChainReceipt))) : Prop :=
  ∃ before after, trail = before ++ .asked (.receipt hash reply) :: after ∧ HeadIs before head

/-- Under that head, the node gave that receipt for `hash`. -/
def Attested (trail : List Event) (head : Nat) (hash : Digest) (receipt : Receipt) : Prop :=
  ∃ reply answer, AskedUnder trail head hash reply ∧ reply.Brings (.ok (some answer)) ∧
    Receipt.ofChain? answer head = some receipt

/-- The hash is that of a published candidate. -/
def Own (trail : List Event) (hash : Digest) : Prop :=
  ∃ c ∈ published trail, hash = Keccak.hash c.raw

/-- A receipt of a published candidate was read, with `depth` confirmations. -/
def Deep (trail : List Event) (depth : Nat) (receipt : Receipt) : Prop :=
  ∃ head hash, Own trail hash ∧ Attested trail head hash receipt ∧ depth ≤ receipt.confirmations

/-- The latest head reading stays the latest behind a trail without another one. -/
theorem LastHead.append {reply : Pending (Except Failure Nat)} (h : LastHead trail reply)
    (no_other : ∀ reply', .asked (.head reply') ∉ later) : LastHead (trail ++ later) reply := by
  obtain ⟨before, after, rfl, last⟩ := h
  refine ⟨before, after ++ later, by simp, ?_⟩
  intro reply' asked
  rcases List.mem_append.mp asked with old | new
  · exact last reply' old
  · exact no_other reply' new

/-- So does the head it brought. -/
theorem HeadIs.append (h : HeadIs trail head) (no_other : ∀ reply', .asked (.head reply') ∉ later) :
    HeadIs (trail ++ later) head := by
  obtain ⟨reply, last, brought⟩ := h
  exact ⟨reply, last.append no_other, brought⟩

/-- A lookup of a trail is one of every longer trail. -/
theorem AskedUnder.append {reply : Pending (Except Failure (Option ChainReceipt))}
    (h : AskedUnder trail head hash reply) : AskedUnder (trail ++ later) head hash reply := by
  obtain ⟨before, after, rfl, headIs⟩ := h
  exact ⟨before, after ++ later, by simp, headIs⟩

/-- So is a receipt. -/
theorem Attested.append (h : Attested trail head hash receipt) :
    Attested (trail ++ later) head hash receipt := by
  obtain ⟨reply, answer, asked, rest⟩ := h
  exact ⟨reply, answer, asked.append, rest⟩

/-- So is a published candidate. -/
theorem Own.append (h : Own trail hash) : Own (trail ++ later) hash := by
  obtain ⟨c, listed, same⟩ := h
  exact ⟨c, by simp [listed], same⟩

/-- So is a receipt that is deep enough. -/
theorem Deep.append (h : Deep trail depth receipt) : Deep (trail ++ later) depth receipt := by
  obtain ⟨head, hash, own, attested, deep⟩ := h
  exact ⟨head, hash, own.append, attested.append, deep⟩

end Send

/-! ### The tracker -/

open Send (LastHead HeadIs AskedUnder Attested Own Deep)

/-- The stage of the tracker is backed by the trail. -/
def Tracker.Stage.Backed (trail : List Send.Event) : Tracker.Stage → Prop
  | .readingHead hashes reply => LastHead trail reply ∧ ∀ hash ∈ hashes, Own trail hash
  | .next head _ rest => HeadIs trail head ∧ ∀ hash ∈ rest, Own trail hash
  | .asking head _ hash rest reply =>
    HeadIs trail head ∧ (∀ hash' ∈ hash :: rest, Own trail hash') ∧
      AskedUnder trail head hash reply
  | .found head _ hash receipt rest =>
    HeadIs trail head ∧ (∀ hash' ∈ hash :: rest, Own trail hash') ∧
      Attested trail head hash receipt
  | .absent head _ _ rest => HeadIs trail head ∧ ∀ hash ∈ rest, Own trail hash
  | .resting | .looking _ | .lookingAt _ _ _ | .sighted _ | .done | .broken => True

namespace Tracker

variable {trail later : List Send.Event} {desk : Desk σ} {now : Nat} {room : Bool}
  {t t' : Tracker} {calls : List Inquiry} {event : Option TrackerEvent}

/-- It stays so behind a trail without another head reading. -/
theorem Stage.Backed.append {stage : Stage} (h : stage.Backed trail)
    (no_head : ∀ reply, .asked (.head reply) ∉ later) : stage.Backed (trail ++ later) := by
  cases stage with
  | readingHead hashes reply =>
    exact ⟨h.1.append no_head, fun hash listed => (h.2 hash listed).append⟩
  | next head unseen rest =>
    exact ⟨h.1.append no_head, fun hash listed => (h.2 hash listed).append⟩
  | asking head unseen hash rest reply =>
    exact ⟨h.1.append no_head, fun hash listed => (h.2.1 hash listed).append, h.2.2.append⟩
  | found head unseen hash receipt rest =>
    exact ⟨h.1.append no_head, fun hash listed => (h.2.1 hash listed).append, h.2.2.append⟩
  | absent head unseen hash rest =>
    exact ⟨h.1.append no_head, fun hash listed => (h.2 hash listed).append⟩
  | _ => trivial

/-- **Every move of the tracker is backed**, since a poll keeps the head that it began with. -/
theorem Move.backed (watched : ∀ hash ∈ t.watched, Own trail hash) (h : t.stage.Backed trail)
    (move : Move desk now room t calls t' event) :
    t'.stage.Backed (trail ++ calls.map .asked) := by
  cases move with
  | begins stage _ _ =>
    -- A new poll begins with a new head reading, which is the latest one now.
    exact ⟨⟨trail, [], rfl, by simp⟩, fun hash listed => (watched hash listed).append⟩
  | heads stage ready =>
    rw [stage] at h
    simpa [Stage.Backed] using ⟨⟨_, h.1, now, ready⟩, h.2⟩
  | @asks head unseen hash rest reply stage _ =>
    rw [stage] at h
    exact ⟨h.1.append (by simp), fun hash listed => (h.2 hash listed).append, trail, [], rfl, h.1⟩
  | comesRound stage =>
    simp only
    split <;> trivial
  | skips stage ready | misses stage ready _ =>
    rw [stage] at h
    simpa [Stage.Backed] using ⟨h.1, fun hash listed => h.2.1 hash (List.mem_cons_of_mem _ listed)⟩
  | @finds head unseen hash rest reply answer receipt stage ready found =>
    rw [stage] at h
    obtain ⟨answer, rfl, seen⟩ := Option.bind_eq_some_iff.mp found
    have attested : Attested trail head hash receipt :=
      ⟨reply, answer, h.2.2, ⟨now, ready⟩, seen⟩
    rw [List.map_nil, List.append_nil]
    exact ⟨h.1, h.2.1, attested⟩
  | sights stage _ _ | mines stage _ _ _ =>
    rw [stage] at h
    simpa using h
  | passes stage _ _ _ =>
    rw [stage] at h
    simpa [Stage.Backed] using ⟨h.1, fun hash listed => h.2.1 hash (List.mem_cons_of_mem _ listed)⟩
  | forgets stage _ _ | lacks stage _ =>
    rw [stage] at h
    simpa [Stage.Backed] using h
  | idles stage _ _ => simpa [stage] using h
  | breaks _ _ | loses _ _ | confirms _ _ _ _ _ | despairs _ | looks _ _ | spots _ _
  | overlooks _ _ _ | announces _ _ => trivial

/-- A receipt that the tracker emits as `confirmed` was read under the head of the poll, deep
    enough. -/
theorem Move.deep {receipt : Receipt} (h : t.stage.Backed trail)
    (move : Move desk now room t calls t' (some (.confirmed receipt))) :
    Deep trail t.depth receipt := by
  cases move with
  | @confirms head unseen hash _ rest stage _ _ _ deep =>
    rw [stage] at h
    exact ⟨head, hash, h.2.1 hash List.mem_cons_self, h.2.2, deep⟩

/-- A move of the tracker changes neither `depth` nor `watched`. -/
theorem Move.fixed (move : Move desk now room t calls t' event) :
    t'.depth = t.depth ∧ t'.watched = t.watched := by
  cases move <;> exact ⟨rfl, rfl⟩

end Tracker

/-! ### The escalation -/

namespace Send

variable {desk : Desk σ} {call : Call} {trail later : List Event} {lease : Lease}
  {e e' : Escalation} {s s' : Send} {limits : Limits} {now : Nat} {l l' : Leases}
  {calls : List Inquiry} {receipt : Receipt}

/-- The watched hashes, the stage and the inbox of an escalation are backed by its trail. -/
structure Evidence (desk : Desk σ) (trail : List Event) (e : Escalation) : Prop where
  depth : e.tracker.depth = desk.policy.confirmations.toNat
  watched : ∀ hash ∈ e.tracker.watched, Own trail hash
  stage : e.tracker.stage.Backed trail
  inbox : ∀ receipt, .confirmed receipt ∈ e.inbox →
    Deep trail desk.policy.confirmations.toNat receipt

/-- A step that leaves the tracker alone and emits nothing keeps the evidence. -/
theorem Evidence.of_quiet (h : Evidence desk trail e) (tracker : e'.tracker = e.tracker)
    (inbox : ∀ event ∈ e'.inbox, event ∈ e.inbox)
    (no_head : ∀ reply, .asked (.head reply) ∉ later) : Evidence desk (trail ++ later) e' where
  depth := tracker ▸ h.depth
  watched hash listed := (h.watched hash (tracker ▸ listed)).append
  stage := tracker ▸ h.stage.append no_head
  inbox receipt emitted := (h.inbox receipt (inbox _ emitted)).append

/-- A published candidate is watched. -/
theorem Evidence.handOut {raw : List UInt8} (h : Evidence desk trail e)
    (published' : published later = [e.candidate raw])
    (no_head : ∀ reply, .asked (.head reply) ∉ later) :
    Evidence desk (trail ++ later) (e.handOut raw) where
  depth := by
    rw [← h.depth]
    simp only [Escalation.handOut, Tracker.watch]
    split <;> rfl
  watched hash listed := by
    have cases' : hash ∈ e.tracker.watched ∨ hash = Keccak.hash raw := by
      simp only [Escalation.handOut, Tracker.watch] at listed
      split at listed
      · exact .inl listed
      · simpa [Escalation.candidate, Candidate.ofSigned] using listed
    rcases cases' with old | rfl
    · exact (h.watched hash old).append
    · exact ⟨e.candidate raw, by simp [published'], rfl⟩
  stage := by
    have same : (e.handOut raw).tracker.stage = e.tracker.stage := by
      simp only [Escalation.handOut, Tracker.watch]
      split <;> rfl
    rw [same]
    exact h.stage.append no_head
  inbox receipt emitted := (h.inbox receipt emitted).append

/-- **Every move of an escalation keeps the evidence.** -/
theorem Evidence.move (h : Evidence desk trail e)
    (move : Escalation.Move desk limits now e calls (.running e')) :
    Evidence desk (trail ++ (calls.map .asked ++ (e.handedOut e').map .published)) e' := by
  have no_head {calls : List Inquiry} {handed : List Candidate}
      (none : ∀ reply, .head reply ∉ calls) :
      ∀ reply, .asked (.head reply) ∉ calls.map Event.asked ++ handed.map .published := by
    simpa using none
  cases move with
  | publishes _ _ =>
    refine h.handOut ?_ (no_head (by simp))
    rw [Escalation.handedOut_handOut]
    rfl
  | @tracks calls tracker event move =>
    -- The only move that may read the head, and the only one that emits anything new.
    have none : e.handedOut { e with tracker, inbox := e.inbox ++ event.toList } = [] := by
      simp [Escalation.handedOut]
    rw [none, List.map_nil, List.append_nil]
    refine ⟨move.fixed.1.trans h.depth, ?_, move.backed h.watched h.stage, ?_⟩
    · intro hash listed
      rw [move.fixed.2] at listed
      exact (h.watched hash listed).append
    · intro receipt emitted
      rcases List.mem_append.mp emitted with old | new
      · exact (h.inbox receipt old).append
      · obtain rfl : event = some (.confirmed receipt) := by simpa using new
        rw [← h.depth]
        exact (move.deep h.stage).append
  | receives _ _ inbox _ =>
    refine h.of_quiet rfl ?_ (no_head (by simp))
    intro event emitted
    rw [inbox]
    exact List.mem_cons_of_mem _ emitted
  | _ => exact h.of_quiet rfl (fun _ emitted => emitted) (no_head (by simp))

/-- The evidence holds all along the escalation of a run. -/
theorem Run.evidence (run : Run desk call trail s) (phase : s.phase = .escalating lease e) :
    Evidence desk trail e := by
  suffices h : ∀ lease e, s.phase = .escalating lease e → Evidence desk trail e from
    h lease e phase
  refine run.induction
    (P := fun trail s => ∀ lease e, s.phase = .escalating lease e → Evidence desk trail e)
    (fun _ _ _ phase => by cases phase) ?_ ?_
  · rintro trail s s' h ⟨lease, e, turn, outstanding, phase, -, rfl⟩ lease' e' phase'
    cases phase'
    have evidence := h lease e phase
    exact ⟨evidence.depth, evidence.watched, evidence.stage, evidence.inbox⟩
  · intro trail s s' limits now l l' calls h move lease' e' phase'
    cases move with
    | inherits _ _ _ | learns _ _ =>
      simp only [afterLease] at phase'
      split at phase' <;> cases phase'
    | bids phase _ first =>
      cases phase'
      obtain ⟨bid, -, rfl⟩ := firstBid_ok first
      exact ⟨rfl, by simp [Tracker.start], trivial, by simp⟩
    | @escalates _ e _ turn _ phase move =>
      cases phase'
      have evidence := h lease' e phase
      have turned : Evidence desk trail { e with turn } :=
        ⟨evidence.depth, evidence.watched, evidence.stage, evidence.inbox⟩
      rw [shown_escalating phase]
      exact turned.move move
    | _ => cases phase'

/-- The bytes of a published candidate are the signer's reply. -/
theorem Run.signed (valid : desk.policy.validate = .ok ()) (run : Run desk call trail s)
    {c : Candidate} (listed : c ∈ published trail) :
    ∃ t reply, .asked (.sign desk.chainId t reply) ∈ trail ∧ reply.answer = .ok c.raw := by
  obtain ⟨lease, e, -, standing⟩ :=
    (run.account valid).escalating (List.ne_nil_of_mem listed)
  obtain ⟨t, reply, asked, given, -⟩ := (standing.carries c listed).signed
  exact ⟨t, reply, asked, given⟩

/-- A returned receipt is deep enough. -/
theorem Ends.deep (h : Ends desk call trail (.ok receipt)) :
    ∃ trail' s, Run desk call trail' s ∧ Deep trail' desk.policy.confirmations.toNat receipt ∧
      trail = trail' ++ [.ended (.ok receipt)] := by
  obtain ⟨trail', s, limits, now, l, l', calls, run, move, rfl⟩ := h.last_move
  obtain ⟨lease, e, turn, phase, -, ends⟩ := move.ended_ok
  cases ends with
  | confirms _ _ inbox =>
    refine ⟨trail', s, run, (run.evidence phase).inbox receipt ?_, rfl⟩
    rw [inbox]
    exact List.mem_cons_self

/-- **A returned receipt** is that of an own candidate: its hash is the keccak hash of bytes that
    the signer gave to this send.  In one poll the node answered with a head, and under that head
    with the receipt; and `block + confirmations ≤ head` for the confirmations of the policy. -/
theorem Ends.confirmed (valid : desk.policy.validate = .ok ())
    (faithful : ∀ hash now outside answer,
      (desk.chain.receipt hash now outside).1.answer = .ok (some answer) → answer.hash = hash)
    (h : Ends desk call trail (.ok receipt)) :
    (∃ c ∈ published trail, receipt.hash = Keccak.hash c.raw ∧
      ∃ t reply, .asked (.sign desk.chainId t reply) ∈ trail ∧ reply.answer = .ok c.raw) ∧
    ∃ head reply answer, AskedUnder trail head receipt.hash reply ∧
      reply.Brings (.ok (some answer)) ∧ answer.block = some receipt.block ∧
      receipt.block + desk.policy.confirmations.toNat ≤ head := by
  obtain ⟨trail', s, run, ⟨head, hash, ⟨c, listed, own⟩, attested, deep⟩, rfl⟩ := h.deep
  obtain ⟨reply, answer, asked, brought, read⟩ := attested
  have answered : reply.answer = .ok (some answer) := by
    obtain ⟨now, ready⟩ := brought
    exact Pending.answer_of_ready ready
  have same : answer.hash = hash := by
    obtain ⟨before, after, split, -⟩ := asked
    obtain ⟨now, outside, rfl⟩ := run.genuine (i := .receipt hash reply) (by simp [split])
    exact faithful hash now outside answer answered
  obtain ⟨sameHash, mined, above⟩ := Receipt.of_ofChain? read
  have hashed : receipt.hash = hash := sameHash.trans same
  obtain ⟨t, signed, asked', given⟩ := run.signed valid listed
  refine ⟨⟨c, by simp [listed], hashed.trans own, t, signed, by simp [asked'], given⟩,
    head, reply, answer, hashed ▸ asked.append, brought, mined, ?_⟩
  -- A head below the block would count as no block above it, and the policy wants at least one.
  have wanted := Policy.confirmations_pos valid
  omega

/-- A returned receipt of block 100, looked up under the head 110. -/
theorem Ends.ten_deep : ∃ trail, Ends Errand.bare.desk Errand.bare.call trail
      (.ok Errand.bare.receipt) ∧
    (∃ c ∈ published trail, Errand.bare.receipt.hash = Keccak.hash c.raw) ∧
    ∃ head reply, AskedUnder trail head Errand.bare.receipt.hash reply ∧ 100 + 10 ≤ head := by
  obtain ⟨trail, ends⟩ := Errand.bare_fits.ends (by decide)
  obtain ⟨⟨c, listed, hashed, -⟩, head, reply, -, asked, -, -, deep⟩ :=
    ends.confirmed Policy.validate_brisk (Desk.prompt_faithful _ _)
  exact ⟨trail, ends, ⟨c, listed, hashed⟩, head, reply, asked, deep⟩

end Send

end Relayer
