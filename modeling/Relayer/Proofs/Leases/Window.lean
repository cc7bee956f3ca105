import Mathlib.Data.List.Induction
import Mathlib.Data.List.Nodup
import Relayer.Send.Lease

namespace Relayer

/-!
# Window — the nonce of one account, with a line of clients in front of it

Here is what an account's slot is for, without tickets and without the other accounts: a client that
comes gets into line, and the first in line learns `next` and leases it until it gives it back.

* `Act` — what a client does about the lease of an account;
* `Window` — `next`, the clients in line, and what the first of them is doing;
* `Window.Step` / `Window.Way` — one act, and any number of them;
* `Window.Way.in_order` — clients obtain their leases in the order in which they asked;
* `Window.Way.counts_on` — two leases in succession have successive nonces or the same one.
-/

/-- What a client does about the lease of an account. -/
inductive Act where
  | asks
  | reads (reply : Pending (Except Failure UInt64))
  | obtains (nonce : UInt64)
  /-- Its reading of the pending nonce fails. -/
  | misses
  /-- It is dropped before it has a lease. -/
  | leaves
  /-- It drops its lease: the nonce stays unused. -/
  | releases
  /-- It commits its lease. -/
  | commits
  /-- It fails to commit a lease on the last nonce there is. -/
  | overflows
  /-- It resyncs its lease: the next nonce becomes unknown. -/
  | resyncs

/-- Whether a client that waits does so no longer. -/
def Act.endsWait : Act → Bool
  | .obtains _ | .misses | .leaves => true
  | .asks | .reads _ | .releases | .commits | .overflows | .resyncs => false

/-- `next` behind a lease of `nonce` that an act ends, where it is known. -/
def Act.behind (nonce : UInt64) : Act → Option UInt64
  | .releases | .overflows => some nonce
  | .commits => if nonce.toNat + 1 < UInt64.size then some (nonce + 1) else none
  | .asks | .reads _ | .obtains _ | .misses | .leaves | .resyncs => none

/-- What the first in line is doing. -/
inductive Doing where
  | waiting
  | reading (reply : Pending (Except Failure UInt64))
  | leased (nonce : UInt64)

/-- `next` of an account, none where it is unknown, and the clients in line for it. -/
structure Window where
  next : Option UInt64
  queue : List Nat
  doing : Doing

namespace Window

/-- No client has come. -/
def opened : Window := ⟨none, [], .waiting⟩

/-! ### Acts -/

/-- One act of one client. -/
inductive Step : Window → Nat → Act → Window → Prop where
  | asks {next queue doing id} (new : id ∉ queue) :
      Step ⟨next, queue, doing⟩ id .asks ⟨next, queue ++ [id], doing⟩
  | reads {id rest} (reply) :
      Step ⟨none, id :: rest, .waiting⟩ id (.reads reply) ⟨none, id :: rest, .reading reply⟩
  | inherits {nonce id rest} :
      Step ⟨some nonce, id :: rest, .waiting⟩ id (.obtains nonce)
        ⟨some nonce, id :: rest, .leased nonce⟩
  | learns {id rest reply nonce now} (ready : reply.ready? now = some (.ok nonce)) :
      Step ⟨none, id :: rest, .reading reply⟩ id (.obtains nonce)
        ⟨some nonce, id :: rest, .leased nonce⟩
  | misses {id rest reply f now} (ready : reply.ready? now = some (.error f)) :
      Step ⟨none, id :: rest, .reading reply⟩ id .misses ⟨none, rest, .waiting⟩
  /-- The first in line is dropped, whether it waits or reads. -/
  | makesWay {next id rest doing} (unleased : ∀ nonce, doing ≠ .leased nonce) :
      Step ⟨next, id :: rest, doing⟩ id .leaves ⟨next, rest, .waiting⟩
  /-- A client behind the first in line is dropped. -/
  | stepsOut {next first rest doing id} (listed : id ∈ rest) (behind : id ≠ first) :
      Step ⟨next, first :: rest, doing⟩ id .leaves ⟨next, first :: rest.filter (· != id), doing⟩
  | releases {nonce id rest} :
      Step ⟨some nonce, id :: rest, .leased nonce⟩ id .releases ⟨some nonce, rest, .waiting⟩
  | commits {nonce id rest} (room : nonce.toNat + 1 < UInt64.size) :
      Step ⟨some nonce, id :: rest, .leased nonce⟩ id .commits ⟨some (nonce + 1), rest, .waiting⟩
  | overflows {nonce id rest} (full : ¬ nonce.toNat + 1 < UInt64.size) :
      Step ⟨some nonce, id :: rest, .leased nonce⟩ id .overflows ⟨some nonce, rest, .waiting⟩
  | resyncs {nonce id rest} :
      Step ⟨some nonce, id :: rest, .leased nonce⟩ id .resyncs ⟨none, rest, .waiting⟩

/-- Any number of acts, one after the other. -/
inductive Way (v : Window) : List (Nat × Act) → Window → Prop where
  | here : Way v [] v
  | step {acts v' id act v''} (way : Way v acts v') (step : Step v' id act v'') :
      Way v (acts ++ [(id, act)]) v''

variable {v v' v'' : Window} {id id' : Nat} {act : Act} {acts acts' : List (Nat × Act)}

/-- **An act leads to one window only.** -/
theorem Step.unique (step : Step v id act v') (step' : Step v id act v'') : v' = v'' := by
  cases step with
  | makesWay unleased =>
    cases step' with
    | makesWay _ => rfl
    | stepsOut _ behind => exact absurd rfl behind
  | stepsOut listed behind =>
    cases step' with
    | makesWay _ => exact absurd rfl behind
    | stepsOut _ _ => rfl
  | _ =>
    cases step'
    rfl

/-- The last act of a way. -/
theorem Way.last (way : Way v (acts ++ [(id, act)]) v'') :
    ∃ v', Way v acts v' ∧ Step v' id act v'' := by
  -- A way is not a list, so its acts have to be a variable before it is taken apart.
  generalize all : acts ++ [(id, act)] = acts' at way
  cases way with
  | here => simp at all
  | step way step =>
    obtain ⟨rfl, last⟩ := List.append_inj' all rfl
    cases last
    exact ⟨_, way, step⟩

/-- **The same acts lead to the same window.** -/
theorem Way.unique (way : Way v acts v') (way' : Way v acts v'') : v' = v'' := by
  induction way generalizing v'' with
  | here =>
    generalize none : [] = acts at way'
    cases way' with
    | here => rfl
    | step _ _ => simp at none
  | step _ step ih =>
    obtain ⟨_, way', step'⟩ := way'.last
    obtain rfl := ih way'
    exact step.unique step'

/-- A way can be broken off anywhere. -/
theorem Way.split (way : Way v (acts ++ acts') v'') : ∃ v', Way v acts v' ∧ Way v' acts' v'' := by
  induction acts' using List.reverseRecOn generalizing v'' with
  | nil =>
    rw [List.append_nil] at way
    exact ⟨v'', way, .here⟩
  | append_singleton acts' x ih =>
    obtain ⟨id, act⟩ := x
    rw [← List.append_assoc] at way
    obtain ⟨v₁, before, step⟩ := way.last
    obtain ⟨v', first, then'⟩ := ih before
    exact ⟨v', first, .step then' step⟩

/-! ### The order in line -/

/-- The line behind an act of a client: it comes in at the end, and goes out wherever it is. -/
def line (queue : List Nat) (id : Nat) : Act → List Nat
  | .asks => queue ++ [id]
  | .reads _ | .obtains _ => queue
  | .misses | .leaves | .releases | .commits | .overflows | .resyncs => queue.filter (· != id)

/-- The first in line is in line once. -/
theorem filter_first {rest : List Nat} (nodup : (id :: rest).Nodup) :
    (id :: rest).filter (· != id) = rest := by
  obtain ⟨unlisted, -⟩ := List.nodup_cons.mp nodup
  rw [List.filter_cons_of_neg (by simp), List.filter_eq_self]
  intro k listed
  rw [bne_iff_ne]
  rintro rfl
  exact unlisted listed

/-- **Nobody moves in line** but the client that acts. -/
theorem Step.queue_eq (step : Step v id act v') (nodup : v.queue.Nodup) :
    v'.queue = line v.queue id act := by
  cases step with
  | asks _ | reads _ | inherits | learns _ => rfl
  | misses _ | makesWay _ | releases | commits _ | overflows _ | resyncs =>
    exact (filter_first nodup).symm
  | stepsOut _ behind => exact (List.filter_cons_of_pos (by simp [Ne.symm behind])).symm

/-- No client is in line twice, an empty line does nothing, `next` is unknown as long as it is being
    read, and is the nonce that is leased. -/
structure Orderly (v : Window) : Prop where
  nodup : v.queue.Nodup
  idle : v.queue = [] → v.doing = .waiting
  unknown : ∀ reply, v.doing = .reading reply → v.next = none
  leased : ∀ nonce, v.doing = .leased nonce → v.next = some nonce

/-- The window is orderly in the beginning. -/
theorem orderly_opened : opened.Orderly := ⟨.nil, fun _ => rfl, nofun, nofun⟩

/-- Every act keeps the window orderly. -/
theorem Step.orderly (step : Step v id act v') (orderly : v.Orderly) : v'.Orderly := by
  refine ⟨?_, ?_, ?_, ?_⟩
  · -- `nodup`: a client that asks is new to the line.
    rw [step.queue_eq orderly.nodup]
    cases act with
    | asks =>
      cases step with
      | asks new =>
        refine List.nodup_append.mpr ⟨orderly.nodup, List.nodup_singleton _, ?_⟩
        rintro k listed k' last rfl
        exact new (List.mem_singleton.mp last ▸ listed)
    | reads _ | obtains _ => exact orderly.nodup
    | _ => exact orderly.nodup.filter _
  · cases step with
    | misses _ | makesWay _ | releases | commits _ | overflows _ | resyncs => exact fun _ => rfl
    | asks _ => simp
    | reads _ | inherits | learns _ | stepsOut _ _ => nofun
  · intro reply reading
    cases step with
    | asks _ | stepsOut _ _ => exact orderly.unknown reply reading
    | reads _ => rfl
    | _ => cases reading
  · intro nonce leased
    cases step with
    | asks _ | stepsOut _ _ => exact orderly.leased nonce leased
    | inherits | learns _ =>
      cases leased
      rfl
    | _ => cases leased

/-- So does any number of them. -/
theorem Way.orderly (way : Way v acts v') (orderly : v.Orderly) : v'.Orderly := by
  induction way with
  | here => exact orderly
  | step _ step ih => exact step.orderly ih

/-- A client is in line, and has no lease. -/
def Waits (v : Window) (id : Nat) : Prop :=
  id ∈ v.queue ∧ (v.queue.head? = some id → ∀ nonce, v.doing ≠ .leased nonce)

/-- **A client waits until it obtains its lease, its reading fails or it is dropped.** -/
theorem Step.waits (step : Step v id' act v') (waits : v.Waits id)
    (still : id' = id → act.endsWait = false) : v'.Waits id := by
  obtain ⟨listed, unleased⟩ := waits
  cases step with
  | asks new =>
    refine ⟨List.mem_append_left _ listed, fun first => unleased ?_⟩
    rw [List.head?_append_of_ne_nil _ (List.ne_nil_of_mem listed)] at first
    exact first
  | reads _ => exact ⟨listed, nofun⟩
  | inherits | learns _ =>
    have other : id' ≠ id := fun same => by cases still same
    exact ⟨listed, fun first => absurd (Option.some.inj first) other⟩
  | misses _ | makesWay _ =>
    have other : id' ≠ id := fun same => by cases still same
    exact ⟨(List.mem_cons.mp listed).resolve_left (Ne.symm other), nofun⟩
  | releases | commits _ | overflows _ | resyncs =>
    -- Only who has the nonce gives it back.
    have other : id' ≠ id := fun same => unleased (congrArg some same) _ rfl
    exact ⟨(List.mem_cons.mp listed).resolve_left (Ne.symm other), nofun⟩
  | stepsOut _ behind =>
    have other : id' ≠ id := fun same => by cases still same
    refine ⟨?_, unleased⟩
    rcases List.mem_cons.mp listed with first | later
    · exact List.mem_cons.mpr (.inl first)
    · exact List.mem_cons_of_mem _ (List.mem_filter.mpr ⟨later, by simpa using Ne.symm other⟩)

/-- Wherever the other client is in line, this one is in front of it. -/
def Ahead (v : Window) (id other : Nat) : Prop := other ∈ v.queue → [id, other].Sublist v.queue

/-- **No client in line is overtaken.** -/
theorem Step.ahead {other : Nat} (step : Step v id' act v') (nodup : v.queue.Nodup)
    (ahead : v.Ahead id other) (listed : id ∈ v.queue) (still : id ∈ v'.queue) :
    v'.Ahead id other := by
  unfold Ahead at ahead ⊢
  rw [step.queue_eq nodup] at still ⊢
  intro behind
  cases act with
  | asks =>
    rcases List.mem_append.mp behind with before | new
    · exact (ahead before).trans (List.sublist_append_left _ _)
    · obtain rfl := List.mem_singleton.mp new
      exact (List.singleton_sublist.mpr listed).append (List.Sublist.refl [other])
  | reads _ | obtains _ => exact ahead behind
  | _ =>
    obtain ⟨before, stays⟩ := List.mem_filter.mp behind
    have kept := (ahead before).filter (· != id')
    rwa [List.filter_eq_self.mpr] at kept
    rintro k (_ | ⟨_, _ | ⟨_, ⟨⟩⟩⟩)
    · exact (List.mem_filter.mp still).2
    · exact stays

/-- A client that has just come waits. -/
theorem Step.waits_of_asks (step : Step v id .asks v') (orderly : v.Orderly) : v'.Waits id := by
  cases step with
  | @asks next queue doing _ new =>
    refine ⟨List.mem_append_right _ (List.mem_singleton_self id), fun first => ?_⟩
    cases queue with
    | nil =>
      have idle : doing = .waiting := orderly.idle rfl
      simp [idle]
    | cons k rest =>
      obtain rfl : k = id := Option.some.inj first
      exact absurd List.mem_cons_self new

/-- A client that waits does so until the end of its wait. -/
theorem Way.waits (way : Way v acts v') (waits : v.Waits id)
    (still : ∀ act, (id, act) ∈ acts → act.endsWait = false) : v'.Waits id := by
  induction way with
  | here => exact waits
  | step _ step ih =>
    refine step.waits (ih fun act listed => still act (List.mem_append_left _ listed)) ?_
    rintro rfl
    exact still _ (List.mem_append_right _ (List.mem_singleton_self _))

/-- Nor is a client that waits overtaken. -/
theorem Way.ahead {other : Nat} (way : Way v acts v') (orderly : v.Orderly) (waits : v.Waits id)
    (ahead : v.Ahead id other) (still : ∀ act, (id, act) ∈ acts → act.endsWait = false) :
    v'.Ahead id other := by
  induction way with
  | here => exact ahead
  | step before step ih =>
    have earlier act (listed : (id, act) ∈ _) := still act (List.mem_append_left _ listed)
    have waits := before.waits waits earlier
    have waits' := step.waits waits (by
      rintro rfl
      exact still _ (List.mem_append_right _ (List.mem_singleton_self _)))
    exact step.ahead (before.orderly orderly).nodup (ih earlier) waits.1 waits'.1

/-- A client that obtains a lease is the first in line. -/
theorem Step.first_of_obtains {nonce : UInt64} (step : Step v id (.obtains nonce) v') :
    ∃ rest, v.queue = id :: rest ∧ v' = ⟨some nonce, id :: rest, .leased nonce⟩ := by
  cases step with
  | inherits | learns _ => exact ⟨_, rfl, rfl⟩

/-- **Clients obtain their leases in the order in which they asked**: one that comes first has
    obtained its own, has failed to read or was dropped, before one that comes later obtains its
    own. -/
theorem Way.in_order {before between since : List (Nat × Act)} {nonce : UInt64}
    (way : Way .opened (before ++ [(id, .asks)] ++ between ++ [(id', .asks)] ++ since ++
      [(id', .obtains nonce)]) v) :
    ∃ act, (id, act) ∈ between ++ since ∧ act.endsWait = true := by
  by_contra none
  have still act (listed : (id, act) ∈ between ++ since) : act.endsWait = false := by
    rw [← Bool.not_eq_true]
    exact fun ends => none ⟨act, listed, ends⟩
  obtain ⟨v₄, way, obtains⟩ := way.last
  obtain ⟨v₃, way, after⟩ := way.split
  obtain ⟨v₂, way, comes'⟩ := way.last
  obtain ⟨v₁, way, meanwhile⟩ := way.split
  obtain ⟨v₀, way, comes⟩ := way.last
  have orderly₁ := comes.orderly (way.orderly orderly_opened)
  have orderly₂ := meanwhile.orderly orderly₁
  have orderly₃ := comes'.orderly orderly₂
  have waits₂ := meanwhile.waits (comes.waits_of_asks (way.orderly orderly_opened))
    fun act listed => still act (List.mem_append_left _ listed)
  have new : id' ∉ v₂.queue := by
    cases comes' with
    | asks new => exact new
  have other : id ≠ id' := by
    rintro rfl
    exact new waits₂.1
  -- The later one comes in behind the first, and the first is still in front when it gets there.
  have waits₃ := comes'.waits waits₂ fun same => absurd same.symm other
  have ahead₃ := comes'.ahead orderly₂.nodup (fun listed => absurd listed new) waits₂.1 waits₃.1
  have later act (listed : (id, act) ∈ since) := still act (List.mem_append_right _ listed)
  have ahead₄ := after.ahead orderly₃ waits₃ ahead₃ later
  have orderly₄ := after.orderly orderly₃
  obtain ⟨rest, queue, -⟩ := obtains.first_of_obtains
  unfold Ahead at ahead₄
  rw [queue] at ahead₄
  have sublist := ahead₄ List.mem_cons_self
  cases sublist with
  | cons _ behind =>
    have twice := orderly₄.nodup
    rw [queue] at twice
    exact (List.nodup_cons.mp twice).1 (behind.subset (by simp))
  | cons_cons _ _ => exact other rfl

/-! ### The count -/

/-- The nonces that a client has left in `next` by these acts, where it had a lease of `nonce`. -/
def left (nonce : UInt64) (id : Nat) (acts : List (Nat × Act)) : List UInt64 :=
  acts.filterMap fun x => if x.1 = id then x.2.behind nonce else none

/-- An act that ends no lease leaves none. -/
theorem left_of_quiet {nonce : UInt64} (quiet : act.behind nonce = none) :
    left nonce id (acts ++ [(id', act)]) = left nonce id acts := by
  simp [left, quiet]

/-- An act that ends a lease leaves the one behind it. -/
theorem left_of_behind {nonce next : UInt64} (ends : act.behind nonce = some next) :
    left nonce id (acts ++ [(id, act)]) = left nonce id acts ++ [next] := by
  simp [left, ends]

/-- What has become of a lease: it is there still, or its client has left a nonce, once, and that is
    `next`. -/
def Since (nonce : UInt64) (id : Nat) (acts : List (Nat × Act)) (v : Window) : Prop :=
  (∃ rest, v = ⟨some nonce, id :: rest, .leased nonce⟩ ∧ left nonce id acts = []) ∨
    ∃ next queue, v = ⟨some next, queue, .waiting⟩ ∧ left nonce id acts = [next]

/-- **What has become of a lease is clear** until there is another one, or a resync. -/
theorem Step.since {nonce : UInt64} (step : Step v id' act v') (since : v.Since nonce id acts)
    (unchanged : ∀ n, act ≠ .obtains n) (counted : act ≠ .resyncs) :
    v'.Since nonce id (acts ++ [(id', act)]) := by
  rcases since with ⟨rest, rfl, unended⟩ | ⟨next, queue, rfl, ended⟩
  · cases step with
    | asks _ => exact .inl ⟨rest ++ [id'], rfl, by rw [left_of_quiet rfl, unended]⟩
    | stepsOut _ _ => exact .inl ⟨_, rfl, by rw [left_of_quiet rfl, unended]⟩
    | makesWay unleased => exact absurd rfl (unleased nonce)
    | releases | overflows _ =>
      exact .inr ⟨nonce, rest, rfl, by rw [left_of_behind rfl, unended, List.nil_append]⟩
    | commits room =>
      have counted : Act.commits.behind nonce = some (nonce + 1) := if_pos room
      exact .inr ⟨nonce + 1, rest, rfl, by rw [left_of_behind counted, unended, List.nil_append]⟩
    | resyncs => exact absurd rfl counted
  · cases step with
    | asks _ | makesWay _ | stepsOut _ _ =>
      exact .inr ⟨next, _, rfl, by rw [left_of_quiet rfl, ended]⟩
    | inherits => exact absurd rfl (unchanged _)

/-- So it is after any number of acts. -/
theorem Way.since {nonce : UInt64} (way : Way v acts v') {rest : List Nat}
    (leased : v = ⟨some nonce, id :: rest, .leased nonce⟩)
    (unchanged : ∀ k n, (k, .obtains n) ∉ acts) (counted : ∀ k, (k, .resyncs) ∉ acts) :
    v'.Since nonce id acts := by
  induction way with
  | here => exact .inl ⟨rest, leased, rfl⟩
  | @step acts _ k act _ _ step ih =>
    have last : (k, act) ∈ acts ++ [(k, act)] := List.mem_append_right _ (List.mem_singleton_self _)
    refine step.since (ih ?_ ?_) ?_ ?_
    · exact fun k n listed => unchanged k n (List.mem_append_left _ listed)
    · exact fun k listed => counted k (List.mem_append_left _ listed)
    · rintro n rfl
      exact unchanged k n last
    · rintro rfl
      exact counted k last

/-- **Two leases in succession** without a resync in between: the first one has ended, and the
    second one has the nonce that it has left in `next`. -/
theorem Way.counts_on {before between : List (Nat × Act)} {nonce nonce' : UInt64}
    (way : Way .opened (before ++ [(id, .obtains nonce)] ++ between ++ [(id', .obtains nonce')]) v)
    (unchanged : ∀ k n, (k, .obtains n) ∉ between) (counted : ∀ k, (k, .resyncs) ∉ between) :
    left nonce id between = [nonce'] := by
  obtain ⟨v₂, way, obtains'⟩ := way.last
  obtain ⟨v₁, way, meanwhile⟩ := way.split
  obtain ⟨v₀, -, obtains⟩ := way.last
  obtain ⟨rest, -, leased⟩ := obtains.first_of_obtains
  rcases meanwhile.since leased unchanged counted with ⟨rest', rfl, -⟩ | ⟨next, queue, rfl, ended⟩
  · -- A window that is leased is not leased again.
    cases obtains'
  · cases obtains' with
    | inherits => exact ended

end Window

end Relayer
