import Relayer.Proofs.Leases.Deals

namespace Relayer

/-!
# Fairness — whoever asks for a lease gets its turn, and the right nonce

Any number of clients acquire leases, are dropped, and commit, release or resync what they have, at
any accounts and in any order.  What is right about one account is read off its window.

* `Office.Deals.extend` — every act of a window is possible next;
* `Office.Deals.alone` / `order` / `undelayed` / `unread` / `counted` — the parts, one by one;
* `Office.Deals.granted` / `Office.Deals.erase` — other accounts make no difference, and may be
  left out;
* `Office.Fair` — all of it.
-/

/-- The account is free: no client has a lease of it or reads its pending nonce, and if none waits
    for it either, its lock is free. -/
structure Office.Free (w : Office) (a : Address) : Prop where
  unleased : ∀ k lease, w.client k = .holding lease → lease.account ≠ a
  unread : ∀ k t reply, w.client k ≠ .asking a (.reading t reply)
  vacant : (∀ k t, w.client k ≠ .asking a (.queued t)) → w.leases.isLeased a = false

/-- Where the first in line has done nothing yet, the account is free. -/
theorem Window.Shows.free {v : Window} {a : Address} {w : Office} {ticket : Nat → Ticket}
    (shows : v.Shows a w ticket) (orderly : v.Orderly) (waits : v.doing = .waiting) :
    w.Free a where
  unleased k lease here own := by
    obtain ⟨_, -, leased, -⟩ := shows.first_of_holding orderly here own
    cases waits.symm.trans leased
  unread k t reply here := by
    obtain ⟨_, -, reading, -⟩ := shows.first_of_reading orderly here
    cases waits.symm.trans reading
  vacant nobody := by
    rw [Leases.isLeased, shows.slot]
    cases queue : v.queue with
    | nil => rfl
    | cons first rest =>
      have at_first := shows.at?_first queue
      rw [waits, Client.at?_eq_waiting] at at_first
      exact absurd at_first (nobody first _)

/-- At most one client can be granted a lease next, with one nonce. -/
theorem Window.Step.obtains_unique {v v' v'' : Window} {id id' : Nat} {nonce nonce' : UInt64}
    (step : v.Step id (.obtains nonce) v') (step' : v.Step id' (.obtains nonce') v'') :
    id = id' ∧ nonce = nonce' := by
  cases step with
  | inherits =>
    cases step' with
    | inherits => exact ⟨rfl, rfl⟩
  | learns ready =>
    cases step' with
    | learns ready' =>
      have same := (Pending.answer_of_ready ready).symm.trans (Pending.answer_of_ready ready')
      exact ⟨rfl, Except.ok.inj same⟩

namespace Office

variable {σ : Type} {chain : Chain σ} {history : List Deed} {w w' : Office} {id id' : Nat}
  {a : Address} {act : Act} {v v' : Window}

/-- A deal is that of one client, which has come then. -/
theorem Deal.client (deal : Deal chain w id a act w') :
    (∀ k, k ≠ id → w'.client k = w.client k) ∧ w'.client id ≠ .absent := by
  cases deal <;> exact ⟨fun k other => client_put_other w other .., by simp⟩

/-- Only a client that has not come yet gets into line. -/
theorem Deal.absent (deal : Deal chain w id a .asks w') : w.client id = .absent := by
  cases deal with
  | asks absent _ => exact absent

/-- **Every act of a window is possible next**, and leads there what it leads to. -/
theorem Deals.extend (deals : Deals history w)
    (way : Window.opened.Way (Deed.actsAt a history) v) (step : v.Step id act v')
    (newcomer : act = .asks → w.client id = .absent) :
    ∃ w', Deals (history ++ [⟨id, a, act⟩]) w' ∧
      Window.opened.Way (Deed.actsAt a (history ++ [⟨id, a, act⟩])) v' ∧
      ∀ k, k ≠ id → w'.client k = w.client k := by
  obtain ⟨shown, ticket, way', -, shows⟩ := deals.shows a
  obtain rfl := way.unique way'
  obtain ⟨chain, w', deal⟩ := step.deal shows newcomer
  exact ⟨w', deals.deal deal, actsAt_self .. ▸ way.step step, deal.client.1⟩

/-! ### The parts -/

/-- **An account has one lease at a time.** -/
theorem Deals.alone (deals : Deals history w) {lease lease' : Lease}
    (here : w.client id = .holding lease) (here' : w.client id' = .holding lease')
    (own : lease.account = a) (own' : lease'.account = a) : id = id' := by
  obtain ⟨v, ticket, -, orderly, shows⟩ := deals.shows a
  obtain ⟨rest, queue, -⟩ := shows.first_of_holding orderly here own
  obtain ⟨rest', queue', -⟩ := shows.first_of_holding orderly here' own'
  exact (List.cons.inj (queue.symm.trans queue')).1

/-- **Clients are granted their leases in the order in which they asked.** -/
theorem Deals.order (deals : Deals history w) {before between since later : List (Nat × Act)}
    {nonce : UInt64}
    (acts : Deed.actsAt a history = before ++ [(id, .asks)] ++ between ++ [(id', .asks)] ++ since ++
      [(id', .obtains nonce)] ++ later) :
    ∃ act, (id, act) ∈ between ++ since ∧ act.endsWait = true := by
  obtain ⟨v, ticket, way, -, -⟩ := deals.shows a
  rw [acts] at way
  obtain ⟨v', first, -⟩ := way.split
  exact first.in_order

/-- The acquisition of a client that waits can step, whatever its node. -/
def GoesOn (w : Office) (a : Address) (t : Ticket) : Prop :=
  ∀ {σ : Type} (chain : Chain σ) now outside,
    ((Acquire.queued t).step chain a now w.leases outside).isSome

/-- **No client waits for one that is gone**: where a client waits, some client has a lease, or
    reads the pending nonce, or can step. -/
theorem Deals.undelayed (deals : Deals history w) {t : Ticket}
    (here : w.client id = .asking a (.queued t)) :
    (∃ k lease, w.client k = .holding lease ∧ lease.account = a) ∨
      (∃ k t reply, w.client k = .asking a (.reading t reply)) ∨
      ∃ k t, w.client k = .asking a (.queued t) ∧ w.GoesOn a t := by
  obtain ⟨v, ticket, -, -, shows⟩ := deals.shows a
  obtain ⟨listed, -, -⟩ := shows.listed (Client.at?_eq_waiting.mpr here)
  obtain ⟨first, rest, queue⟩ := List.exists_cons_of_ne_nil (List.ne_nil_of_mem listed)
  have at_first := shows.at?_first queue
  cases doing : v.doing with
  | leased nonce =>
    rw [doing, Client.at?_eq_leased] at at_first
    exact .inl ⟨first, _, at_first, rfl⟩
  | reading reply =>
    rw [doing, Client.at?_eq_reading] at at_first
    exact .inr (.inl ⟨first, _, reply, at_first⟩)
  | waiting =>
    rw [doing, Client.at?_eq_waiting] at at_first
    refine .inr (.inr ⟨first, _, at_first, fun chain now outside => ?_⟩)
    simp only [Acquire.step, shows.holds_of_first queue, if_true]
    cases (w.leases.slot a).next <;> rfl

/-- **The pending nonce is read only where `next` is unknown.** -/
theorem Deals.reads (deals : Deals history w) {reply : Pending (Except Failure UInt64)}
    (deal : Deal chain w id a (.reads reply) w') : (w.leases.slot a).next = none := by
  obtain ⟨v, ticket, -, orderly, shows⟩ := deals.shows a
  obtain ⟨v', -, step, -⟩ := deal.step shows orderly
  rw [shows.next_eq]
  cases step with
  | reads _ => rfl

/-- **A reading that fails or is dropped** leaves `next` unknown and the account free. -/
theorem Deals.unread (deals : Deals history w) (deal : Deal chain w id a act w')
    (gone : act = .misses ∨
      act = .leaves ∧ ∃ t reply, w.client id = .asking a (.reading t reply)) :
    (w'.leases.slot a).next = none ∧ w'.Free a := by
  obtain ⟨v, ticket, -, orderly, shows⟩ := deals.shows a
  obtain ⟨v', ticket', step, shows'⟩ := deal.step shows orderly
  -- It was the first in line that read, so the window is left to whoever comes next.
  have left : ∃ rest, v' = ⟨none, rest, .waiting⟩ := by
    rcases gone with rfl | ⟨rfl, t, reply, here⟩
    · cases step with
      | misses _ => exact ⟨_, rfl⟩
    · obtain ⟨rest, queue, -, unknown, -⟩ := shows.first_of_reading orderly here
      cases step with
      | @makesWay next _ rest _ _ =>
        obtain rfl : next = none := unknown
        exact ⟨rest, rfl⟩
      | stepsOut _ behind => exact absurd (List.cons.inj queue).1.symm behind
  obtain ⟨rest, rfl⟩ := left
  exact ⟨shows'.next_eq, shows'.free (step.orderly orderly) rfl⟩

/-- **Leases in succession** have successive nonces, where the first one was committed, and the same
    nonce, where it was dropped. -/
theorem Deals.counted (deals : Deals history w) {before between later : List (Nat × Act)}
    {nonce nonce' : UInt64}
    (acts : Deed.actsAt a history = before ++ [(id, .obtains nonce)] ++ between ++
      [(id', .obtains nonce')] ++ later)
    (next : ∀ k n, (k, .obtains n) ∉ between) (counted : ∀ k, (k, .resyncs) ∉ between) :
    ((id, .commits) ∈ between → nonce.toNat + 1 < UInt64.size →
        nonce'.toNat = nonce.toNat + 1) ∧
      ((id, .releases) ∈ between → nonce' = nonce) ∧
      ∃ act ∈ [Act.commits, .releases, .overflows], (id, act) ∈ between := by
  obtain ⟨v, ticket, way, -, -⟩ := deals.shows a
  rw [acts] at way
  obtain ⟨v', first, -⟩ := way.split
  have left := first.counts_on next counted
  have left_behind {act : Act} {n : UInt64} (listed : (id, act) ∈ between)
      (ends : act.behind nonce = some n) : n = nonce' := by
    have mem : n ∈ Window.left nonce id between :=
      List.mem_filterMap.mpr ⟨_, listed, by simpa using ends⟩
    rw [left] at mem
    exact List.mem_singleton.mp mem
  -- How the first lease has ended is read off the one nonce that it has left behind.
  refine ⟨?_, ?_, ?_⟩
  · intro listed room
    rw [← left_behind listed (if_pos room), UInt64.toNat_add]
    exact Nat.mod_eq_of_lt room
  · exact fun listed => (left_behind listed rfl).symm
  · have mem : nonce' ∈ Window.left nonce id between := by simp [left]
    obtain ⟨⟨k, act⟩, listed, ends⟩ := List.mem_filterMap.mp mem
    dsimp only at ends
    split at ends
    next own =>
      subst own
      exact ⟨act, by cases act <;> simp_all [Act.behind], listed⟩
    next => cases ends

/-! ### The other accounts -/

/-- Where the same acts were done at an account, the same act is possible there next. -/
theorem Deals.apart {history' : List Deed} {w₀ : Office} (deals : Deals history w)
    (deals₀ : Deals history' w₀) (same : Deed.actsAt a history' = Deed.actsAt a history)
    (begun : act ≠ .asks) (deal : Deal chain w id a act w') :
    ∃ (chain : Chain Unit) (w₀' : Office), Deal chain w₀ id a act w₀' := by
  obtain ⟨v, ticket, way, orderly, shows⟩ := deals.shows a
  obtain ⟨v₀, ticket₀, way₀, -, shows₀⟩ := deals₀.shows a
  -- The same acts lead to the same window, whatever there is behind it.
  rw [same] at way₀
  obtain rfl := way.unique way₀
  obtain ⟨v', -, step, -⟩ := deal.step shows orderly
  exact step.deal shows₀ fun asks => absurd asks begun

/-- **Where the same acts were done at an account**, the same client is granted the same nonce
    next. -/
theorem Deals.granted {τ : Type} {chain₀ : Chain τ} {history' : List Deed} {w₀ w₀' : Office}
    {nonce nonce' : UInt64} (deals : Deals history w) (deals₀ : Deals history' w₀)
    (same : Deed.actsAt a history' = Deed.actsAt a history)
    (deal : Deal chain w id a (.obtains nonce) w')
    (deal₀ : Deal chain₀ w₀ id' a (.obtains nonce') w₀') : id' = id ∧ nonce' = nonce := by
  -- What is granted there could be granted here, where there is only one that can be.
  have begun : Act.obtains nonce' ≠ .asks := nofun
  obtain ⟨chain₁, w₁, deal₁⟩ := deals₀.apart deals same.symm begun deal₀
  obtain ⟨v, ticket, -, orderly, shows⟩ := deals.shows a
  obtain ⟨v', -, step, -⟩ := deal.step shows orderly
  obtain ⟨v₁, -, step₁, -⟩ := deal₁.step shows orderly
  exact step₁.obtains_unique step

/-- The deeds at an account are all its acts. -/
theorem actsAt_filter (a : Address) (history : List Deed) :
    Deed.actsAt a (history.filter (·.account = a)) = Deed.actsAt a history := by
  rw [Deed.actsAt, List.filterMap_filter]
  refine List.filterMap_congr fun deed _ => ?_
  by_cases here : deed.account = a <;> simp [here]

/-- **The other accounts may be left out**: the deeds at one account are possible where there are
    none at any other. -/
theorem Deals.erase (deals : Deals history w) (a : Address) :
    ∃ w₀, Deals (history.filter (·.account = a)) w₀ ∧
      ∀ k, w.client k = .absent → w₀.client k = .absent := by
  induction deals with
  | opened => exact ⟨_, .opened, fun _ absent => absent⟩
  | @deal _ _ history w id b act w' deals deal ih =>
    obtain ⟨w₀, deals₀, absent⟩ := ih
    obtain ⟨others, come⟩ := deal.client
    have other {k} (gone : w'.client k = .absent) : k ≠ id := by
      rintro rfl
      exact come gone
    by_cases here : b = a
    · subst here
      obtain ⟨v, ticket, way, orderly, shows⟩ := deals.shows b
      obtain ⟨v', -, step, -⟩ := deal.step shows orderly
      -- The window is that of the history without the other accounts as well.
      rw [← actsAt_filter] at way
      obtain ⟨w₀', deals₀', -, same⟩ := deals₀.extend way step (by
        rintro rfl
        exact absent id deal.absent)
      refine ⟨w₀', by simpa using deals₀', fun k gone => ?_⟩
      rw [same k (other gone)]
      exact absent k (others k (other gone) ▸ gone)
    · refine ⟨w₀, by simpa [here] using deals₀, fun k gone => ?_⟩
      exact absent k (others k (other gone) ▸ gone)

/-! ### All of it -/

/-- What is right about the leases of an account, behind any number of deals at any accounts. -/
structure Fair (history : List Deed) (w : Office) (a : Address) : Prop where
  /-- There is one lease at a time. -/
  alone : ∀ id id' lease lease', w.client id = .holding lease → w.client id' = .holding lease' →
    lease.account = a → lease'.account = a → id = id'
  /-- A client that asks first is granted its lease first, unless its reading has failed or it was
      dropped. -/
  order : ∀ id id' before between since later nonce,
    Deed.actsAt a history = before ++ [(id, .asks)] ++ between ++ [(id', .asks)] ++ since ++
      [(id', .obtains nonce)] ++ later →
    ∃ act, (id, act) ∈ between ++ since ∧ act.endsWait = true
  /-- Where a client waits, some client has a lease, reads the pending nonce, or can step. -/
  undelayed : ∀ id t, w.client id = .asking a (.queued t) →
    (∃ k lease, w.client k = .holding lease ∧ lease.account = a) ∨
      (∃ k t reply, w.client k = .asking a (.reading t reply)) ∨
      ∃ k t, w.client k = .asking a (.queued t) ∧ w.GoesOn a t
  /-- The pending nonce is read only where `next` is unknown. -/
  reads : ∀ {σ : Type} (chain : Chain σ) id reply w', Deal chain w id a (.reads reply) w' →
    (w.leases.slot a).next = none
  /-- A reading that fails or is dropped leaves `next` unknown and the account free. -/
  unread : ∀ {σ : Type} (chain : Chain σ) id act w', Deal chain w id a act w' →
    (act = .misses ∨ act = .leaves ∧ ∃ t reply, w.client id = .asking a (.reading t reply)) →
    (w'.leases.slot a).next = none ∧ w'.Free a
  /-- Leases in succession, with no resync in between, have successive nonces, where the first of
      them was committed, and the same nonce, where it was dropped. -/
  counted : ∀ id id' before between later nonce nonce',
    Deed.actsAt a history = before ++ [(id, .obtains nonce)] ++ between ++
      [(id', .obtains nonce')] ++ later →
    (∀ k n, (k, .obtains n) ∉ between) → (∀ k, (k, .resyncs) ∉ between) →
    ((id, .commits) ∈ between → nonce.toNat + 1 < UInt64.size →
        nonce'.toNat = nonce.toNat + 1) ∧
      ((id, .releases) ∈ between → nonce' = nonce) ∧
      ∃ act ∈ [Act.commits, .releases, .overflows], (id, act) ∈ between
  /-- Whatever is done at other accounts, the same acts are possible at this one. -/
  apart : ∀ {σ : Type} (chain : Chain σ) history' w₀ id act w', Deals history' w₀ →
    Deed.actsAt a history' = Deed.actsAt a history → act ≠ .asks → Deal chain w id a act w' →
    ∃ (chain : Chain Unit) (w₀' : Office), Deal chain w₀ id a act w₀'
  /-- Whatever is done at other accounts, the same client is granted the same nonce next. -/
  granted : ∀ {σ τ : Type} (chain : Chain σ) (chain₀ : Chain τ) history' w₀ id id' nonce nonce' w'
    w₀', Deals history' w₀ → Deed.actsAt a history' = Deed.actsAt a history →
    Deal chain w id a (.obtains nonce) w' → Deal chain₀ w₀ id' a (.obtains nonce') w₀' →
    id' = id ∧ nonce' = nonce
  /-- The deeds at this account are possible where there are none at any other. -/
  erased : ∃ w₀, Deals (history.filter (·.account = a)) w₀

/-- **Whoever asks for a lease gets its turn, and the right nonce**, whatever clients do in whatever
    order. -/
theorem Deals.fair (deals : Deals history w) (a : Address) : Fair history w a where
  alone _ _ _ _ := deals.alone
  order _ _ _ _ _ _ _ := deals.order
  undelayed _ _ := deals.undelayed
  reads _ _ _ _ := deals.reads
  unread _ _ _ _ := deals.unread
  counted _ _ _ _ _ _ _ := deals.counted
  apart _ _ _ _ _ _ := deals.apart
  granted _ _ _ _ _ _ _ _ _ _ := deals.granted
  erased :=
    have ⟨w₀, deals₀, _⟩ := deals.erase a
    ⟨w₀, deals₀⟩

/-- Two clients ask.  The pending nonce is 7: the first one commits it, and the second one is
    granted 8. -/
theorem Deals.fair_in_succession : ∃ history w, Deals history w ∧
    Deed.actsAt (.repeated 7) history =
      [(0, .asks), (1, .asks), (0, .reads (.immediate 0 (.ok 7))), (0, .obtains 7), (0, .commits),
        (1, .obtains 8)] ∧
    Fair history w (.repeated 7) := by
  have asks : Window.opened.Step 0 .asks ⟨none, [0], .waiting⟩ := .asks (by simp)
  have asks' : Window.Step ⟨none, [0], .waiting⟩ 1 .asks ⟨none, [0, 1], .waiting⟩ :=
    .asks (by simp)
  have reply : (Pending.immediate 0 (.ok 7) : Pending (Except Failure UInt64)).ready? 0 =
      some (.ok 7) := rfl
  obtain ⟨w₁, deals, way, others⟩ :=
    Deals.opened.extend (a := .repeated 7) .here asks fun _ => rfl
  obtain ⟨w₂, deals, way, -⟩ := deals.extend way asks' fun _ => others 1 (by decide)
  obtain ⟨w₃, deals, way, -⟩ := deals.extend way (.reads (.immediate 0 (.ok 7))) nofun
  obtain ⟨w₄, deals, way, -⟩ := deals.extend way (.learns reply) nofun
  obtain ⟨w₅, deals, way, -⟩ := deals.extend way (.commits (by decide)) nofun
  obtain ⟨w₆, deals, -, -⟩ := deals.extend way .inherits nofun
  exact ⟨_, w₆, deals, by simp [Deed.actsAt], deals.fair _⟩

end Office

end Relayer
