import Relayer.Proofs.Leases.Settlement
import Relayer.Proofs.Send.Looks
import Relayer.Proofs.Send.Tardy

namespace Relayer

/-!
# Staleness — when a send ends with `nonceStale`

A nonce that is too low has been used, by another sender or by a candidate of the send itself.  The
send distinguishes the two by `Book.mined`, that is by the receipts that its tracker has read so
far, not by those that the node would give now.

* `Book.fold_stale` — the answer that leads to `nonceStale`;
* `Desk.NeverStale` — no outside party fails with `nonceStale`;
* `Send.Ends.stale` — no lookup has an own candidate `inBlock` when a send ends so.
-/

variable {σ : Type}

/-- **`nonceStale` is the error of a `nonceTooLow` answer** folded while no candidate is mined. -/
theorem Book.fold_stale {policy : Policy} {b : Book} {nonce stale : UInt64} {bid : Amount}
    {verdict : Verdict} {count : Nat}
    (h : b.fold policy nonce bid verdict = .error (.nonceStale stale count)) :
    verdict = .rejected .nonceTooLow ∧ b.mined = [] ∧ stale = nonce ∧ count = b.tooLow + 1 ∧
      policy.nonceTolerance ≤ count := by
  rcases Book.fold_error h with ⟨-, other⟩ | ⟨-, -, other⟩ | ⟨rejected, unknown, enough, same⟩
  · cases other
  · cases other
  · cases same
    exact ⟨rejected, unknown, rfl, rfl, enough⟩

/-- An escalation whose signer does not fail with `nonceStale` ends so by its own state. -/
theorem Escalation.Move.ended_stale {desk : Desk σ} {limits : Limits} {now : Nat}
    {e : Escalation} {calls : List Inquiry} {nonce : UInt64} {count : Nat}
    (move : e.Move desk limits now calls (.ended (.error (.failure (.nonceStale nonce count)))))
    (sign : ∀ first reply, e.phase = .signing first reply →
      reply.answer ≠ .error (.failure (.nonceStale nonce count))) :
    calls = [] ∧ e.inbox = [] ∧ ∃ bid verdict,
      e.book.fold desk.policy e.nonce bid verdict = .error (.nonceStale nonce count) := by
  generalize out : Escalation.Outcome.ended _ = outcome at move
  cases move
  case condemns inbox _ folded =>
    cases out
    exact ⟨rfl, inbox, _, _, folded⟩
  case refuses phase ready _ =>
    cases out
    exact absurd (Pending.answer_of_ready ready) (sign _ _ phase)
  all_goals cases out

/-- No outside party fails with `nonceStale`. -/
structure Desk.NeverStale (desk : Desk σ) : Prop where
  chain : desk.chain.NeverStale
  nonce : ∀ account now outside n k,
    (desk.chain.nonce account now outside).1.answer ≠ .error (.nonceStale n k)
  sign : ∀ id t now outside n k,
    (desk.signer.sign id t now outside).1.answer ≠ .error (.failure (.nonceStale n k))

namespace Send

variable {desk : Desk σ} {call : Call} {trail : List Event} {lease : Lease} {e : Escalation}
  {s : Send} {limits : Limits} {now : Nat} {l l' : Leases} {calls : List Inquiry}
  {nonce : UInt64} {count : Nat}

/-- The nonce or the signature that a send waits for is a reply of the desk. -/
def Served (desk : Desk σ) (s : Send) : Prop :=
  match s.phase with
  | .leasing (.asking (.reading _ reply)) =>
    (Inquiry.nonce desk.signer.address reply).Genuine desk
  | .escalating _ e => ∀ first reply, e.phase = .signing first reply →
    ∃ t, (Inquiry.sign desk.chainId t reply).Genuine desk
  | _ => True

/-- Every nonce and every signature that a send waits for is a reply of the desk. -/
theorem Run.served (run : Run desk call trail s) : s.Served desk := by
  refine run.induction (P := fun _ s => s.Served desk) (fun _ => trivial) ?_ ?_
  · rintro _ s s' h ⟨lease, e, turn, outstanding, phase, -, rfl⟩
    rw [Served, phase] at h
    exact h
  · intro _ s s' limits now l l' calls h move
    cases move with
    | reads _ _ _ genuine => exact genuine
    | inherits _ _ _ | learns _ _ =>
      cases own : s.call.gasLimit <;> simp [Served, afterLease, own]
    | bids _ _ first =>
      obtain ⟨bid, -, rfl⟩ := firstBid_ok first
      rintro first reply ⟨⟩
    | @escalates _ e _ turn _ phase move =>
      rw [Served, phase] at h
      intro first reply signing
      rcases move.signing signing with ⟨earlier, -⟩ | asked
      · exact h first reply earlier
      · exact ⟨_, move.genuine _ asked⟩
    | _ => trivial

/-- A send at a desk that never fails with `nonceStale` ends so by its own state. -/
theorem Move.ended_stale (move : Move desk limits now s l calls
      (.ended (.error (.failure (.nonceStale nonce count)))) l')
    (never : desk.NeverStale) (asked : s.Asked desk) (served : s.Served desk) :
    ∃ lease e bid verdict, s.phase = .escalating lease e ∧ e.inbox = [] ∧ calls = [] ∧
      e.book.fold desk.policy e.nonce bid verdict = .error (.nonceStale nonce count) := by
  generalize out : Outcome.ended _ = outcome at move
  cases move
  case settles lease e turn result phase move =>
    simp only [Outcome.ended.injEq] at out
    obtain rfl := eq_failure_of_settle out.symm
    rw [Served, phase] at served
    obtain ⟨rfl, inbox, bid, verdict, folded⟩ := move.ended_stale fun first reply signing => by
      obtain ⟨t, now, outside, rfl⟩ := served first reply signing
      exact never.sign _ _ _ _ _ _
    exact ⟨lease, e, bid, verdict, phase, inbox, rfl, folded⟩
  case fails phase ready _ =>
    cases out
    rw [Served, phase] at served
    obtain ⟨now, outside, rfl⟩ := served
    exact absurd (Pending.answer_of_ready ready) (never.nonce _ _ _ _ _)
  case leaves phase verdict =>
    cases out
    exact absurd rfl (Limits.verdict_ne_stale verdict _ _)
  case stops phase verdict =>
    cases out
    exact absurd rfl (Limits.verdict_ne_stale verdict _ _)
  case unestimated phase move =>
    cases out
    rw [Asked, phase] at asked
    refine absurd rfl (move.not_stale (never.chain.estimate _) ?_ nonce count)
    rintro reply rfl
    exact asked
  case unpriced phase move =>
    cases out
    rw [Asked, phase] at asked
    refine absurd rfl (move.not_stale never.chain.gasPrice ?_ nonce count)
    rintro reply rfl
    exact asked
  -- No other move ends a send with a failure of this form.
  all_goals cases out

/-- **What is known when a send ends with `nonceStale`.**  Where no outside party fails so,
    `nonceTolerance` `nonceTooLow` answers were counted, and no candidate is `inBlock` by the
    lookups of its tracker: whatever receipt in a block the node gave of a candidate, a later lookup
    did not find it — unless it was the very latest lookup, whose event the loop may not have
    received.  A receipt that the node would give now, but that was not looked up, does not count.
    -/
theorem Ends.stale (never : desk.NeverStale)
    (h : Ends desk call trail (.error (.failure (.nonceStale nonce count)))) :
    desk.policy.nonceTolerance ≤ count ∧
    ∃ looked, (looked = looks trail ∨ looked = (looks trail).dropLast) ∧
      ∀ c ∈ published trail, Look.inBlock looked c.hash = false := by
  obtain ⟨trail, s, limits, now, l, l', calls, run, move, rfl⟩ := h.last_move
  obtain ⟨lease, e, bid, verdict, phase, inbox, rfl, folded⟩ :=
    move.ended_stale never run.asked run.served
  obtain ⟨-, unknown, -, -, enough⟩ := Book.fold_stale folded
  have apprised := run.apprised
  rw [Apprised, phase] at apprised
  obtain ⟨looked, same, agrees⟩ := apprised.1.looked
  rw [looks_append_shown, List.filterMap_nil, List.append_nil]
  refine ⟨enough, looked, same, fun c _ => ?_⟩
  -- The inbox is empty, so `book.mined` is what the tracker has noted, which is nothing.
  have abreast := apprised.2 c.hash
  rw [inbox, List.foldl_nil, unknown] at abreast
  rw [← agrees]
  simpa using abreast

/-! ### A nonce that the send itself has used -/

namespace Errand

variable (x : Errand)

/-- The escalation that is about to fold the answer to its second candidate. -/
def answered (others : List Digest) (verdict : Verdict) : Escalation :=
  { x.both others ⟨verdict, some 7⟩ with
    outstanding := []
    answered := [⟨.raised, (x.candidate .raised).hash, verdict⟩] }

variable {x}

/-- Neither the node nor the signer of a slow errand fails with `nonceStale`. -/
theorem neverStale_tardy (d : Delays) (timeout : Option Nat) : (x.tardy d timeout).NeverStale where
  chain := ⟨by rintro _ _ _ _ _ ⟨⟩, by rintro _ _ _ _ ⟨⟩⟩
  nonce := by rintro _ _ _ _ _ ⟨⟩
  sign := by rintro _ _ _ _ _ _ ⟨⟩

/-- The node gives a receipt of the first candidate as soon as it is mined. -/
theorem receipt_tardy (d : Delays) (timeout : Option Nat) {now : Nat} (since : d.mined ≤ now) :
    ((x.tardy d timeout).chain.receipt x.hash now ()).1.ready? now =
      some (.ok (some (.prompt x.hash))) := by
  simp [tardy, Pending.immediate, Pending.ready?, since]

/-- **The send ends with `nonceStale`** between two polls of the tracker: the answer to the second
    candidate comes at 7 ms, and the next poll is due at 10 ms. -/
theorem goesStale (mined : Nat) (fits : x.Fits .empty) (l : Leases) : ∃ others,
    Reached (x.tardy ⟨1, ⟨.rejected .nonceTooLow, some 7⟩, mined⟩ none) x.call none 7
      [x.candidate .suggested, x.candidate .raised]
      (x.underWay none (.escalating x.lease (x.answered others (.rejected .nonceTooLow)))) ∧
    (x.underWay none (.escalating x.lease (x.answered others (.rejected .nonceTooLow)))).stepWithin
        (x.tardy ⟨1, ⟨.rejected .nonceTooLow, some 7⟩, mined⟩ none).noted ⟨false, none⟩ 7 l
        ((), []) =
      some (.ended (.error (.failure (.nonceStale x.lease.nonce 1))), x.lease.resync l, (),
        []) := by
  obtain ⟨others, out⟩ := hands ⟨.rejected .nonceTooLow, some 7⟩ mined fits
  exact ⟨others, out.step .empty .empty [] rfl rfl, rfl⟩

end Errand

/-- The send ends with `nonceStale` before any receipt was looked up. -/
theorem Ends.stale_unseen : ∃ trail, Ends
      (Errand.bare.tardy ⟨1, ⟨.rejected .nonceTooLow, some 7⟩, 1⟩ none) Errand.bare.call trail
      (.error (.failure (.nonceStale 7 1))) ∧
    ∃ looked, (looked = looks trail ∨ looked = (looks trail).dropLast) ∧
      ∀ c ∈ published trail, Look.inBlock looked c.hash = false := by
  obtain ⟨others, ⟨trail, course, -⟩, ends⟩ :=
    Errand.goesStale 1 Errand.bare_fits .empty
  have ended : Ends _ _ _ _ := ⟨trail, _, _, _, _, _, _, _, _, course.run, ends, rfl⟩
  exact ⟨_, ended, (ended.stale (Errand.neverStale_tardy _ _)).2⟩

/-- **A send may end with `nonceStale` for its own candidate.**  Its first candidate is mined from 1
    ms on, and at 7 ms the node would give a receipt of it; but the next poll is due at 10 ms, and
    the send ends at 7 ms with the `nonceTooLow` of its second candidate. -/
theorem Course.stale_though_mined : ∃ trail s l' desk,
    desk.policy.validate = .ok () ∧ desk.NeverStale ∧
    Course desk Errand.bare.call 0 none trail 7 s ∧
    s.step desk false 7 .empty () =
      some (.ended (.error (.failure (.nonceStale 7 1))), l', ()) ∧
    ∃ c ∈ published trail, ∃ receipt, receipt.block = some 100 ∧ receipt.hash = c.hash ∧
      (desk.chain.receipt c.hash 7 ()).1.ready? 7 = some (.ok (some receipt)) := by
  obtain ⟨others, ⟨trail, course, both⟩, -⟩ :=
    Errand.goesStale 1 Errand.bare_fits .empty
  refine ⟨trail, _, _, _, Policy.validate_steady (by simp), Errand.neverStale_tardy _ _, course,
    rfl, Errand.bare.candidate .suggested, by rw [both]; exact List.mem_cons_self,
    .prompt Errand.bare.hash, rfl, rfl, Errand.receipt_tardy _ _ (by decide)⟩

end Send

end Relayer
