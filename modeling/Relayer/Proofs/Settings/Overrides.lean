import Relayer.Proofs.Settings.Keys

namespace Relayer

/-!
# Overrides — settings overridden by an environment, in whatever order

An environment has no order of its own.  The settings that come out of it are determined by what it
holds: each of its variables has its value in its own place, and all other places are as before.
That says which settings these are, so the order of the variables cannot matter.

* `Variable.Kind` / `Variable.read` — what a value is read as, whatever the settings are;
* `Settings.content` — what settings have in the place of a variable; `Settings.eq_of_content` —
  there is nothing else in them;
* `Variable.Put` — other settings with one place overridden, and `apply_eq_ok_iff` /
  `apply_eq_error_iff` for what applying a value comes to;
* `Settings.Overridden` — the settings that an environment asks for, of which there is one at most;
* `override_overridden` / `override_stopped` — how overriding ends;
* `override_any_order` — the same settings in every order.
-/

/-! ### Numbers -/

namespace Decimal

variable {bound n acc next : Nat} {c : Char} {text : String}

theorem push_lt (h : push bound acc c = .ok next) : next < bound := by
  unfold push at h
  split at h
  · dsimp only at h
    split at h
    · next below => exact Except.ok.inj h ▸ below
    · cases h
  · cases h

theorem foldlM_push_lt : ∀ {digits : List Char} {acc : Nat}, acc < bound →
    digits.foldlM (push bound) acc = .ok n → n < bound
  | [], _, below, h => Except.ok.inj h ▸ below
  | c :: digits, acc, _, h => by
    rw [List.foldlM_cons] at h
    cases hp : push bound acc c with
    | error p => rw [hp] at h; cases h
    | ok next =>
      rw [hp] at h
      exact foldlM_push_lt (push_lt hp) h

theorem read_lt (pos : 0 < bound) (h : read bound text = .ok n) : n < bound := by
  unfold read at h
  split at h
  · cases h
  · cases h
  · exact foldlM_push_lt pos h
  · exact foldlM_push_lt pos h

end Decimal

/-! ### Values -/

namespace Variable

/-- The kind of the values of a variable. -/
inductive Kind where
  /-- The value overrides no setting. -/
  | ignored
  | texts
  | text
  | number (bound : Nat)
  | flag

/-- What settings have in the place of a variable. -/
inductive Content where
  | nothing
  | texts (items : List String)
  | text (value : Option String)
  | number (n : Nat)
  | flag (b : Bool)
  deriving DecidableEq

/-- What a value is read as, or the cause why it is invalid. -/
def Kind.read : Kind → String → Except String Content
  | ignored, _ => .ok .nothing
  | texts, value => .ok (.texts (items value))
  | text, value => .ok (.text (some value))
  | number bound, value => (Variable.number bound value).map .number
  | flag, value => (Variable.flag value).map .flag

/-- The kind of a variable.  Most are numbers of 64 bits. -/
def kind : Variable → Kind
  | file => .ignored
  | endpoints => .texts
  | privateKey | mnemonic | hdPath | remoteUrl | remoteAddress | apiHost => .text
  | metricsEnabled => .flag
  | nonceTolerance => .number UInt32.size
  | apiPort | metricsPort => .number UInt16.size
  | _ => .number UInt64.size

/-- What a value of a variable is read as. -/
def read (v : Variable) (value : String) : Except String Content := v.kind.read value

/-- Whether a variable belongs to the section about the remote signer. -/
def isRemote : Variable → Bool
  | remoteUrl | remoteAddress => true
  | _ => false

end Variable

/-! ### Places -/

namespace Settings

open Variable (Content Kind)

variable {s t t' : Settings} {v w : Variable} {c : Content} {mark value cause : String}
  {vars vars' : List (String × String)} {problem : Problem}

/-- What settings have in the place of a variable.  Both places of the remote signer's section hold
    an empty text where there is no such section. -/
def content (s : Settings) : Variable → Content
  | .file => .nothing
  | .endpoints => .texts s.endpoints
  | .privateKey => .text s.signer.privateKey
  | .mnemonic => .text s.signer.mnemonic
  | .hdPath => .text s.signer.hdPath
  | .remoteUrl => .text (some (s.signer.remote.getD ⟨"", ""⟩).url)
  | .remoteAddress => .text (some (s.signer.remote.getD ⟨"", ""⟩).address)
  | .confirmations => .number s.policy.confirmations.toNat
  | .nonceTolerance => .number s.policy.nonceTolerance.toNat
  | .resubmitAfter => .number s.policy.resubmitAfter.toNat
  | .networkTimeout => .number s.policy.networkTimeout.toNat
  | .sendTimeout => .number s.policy.sendTimeout.toNat
  | .mempoolTimeout => .number s.policy.mempoolTimeout.toNat
  | .receiptInterval => .number s.policy.receiptInterval.toNat
  | .bufferSize => .number s.policy.bufferSize.toNat
  | .maxGasPrice => .number s.policy.maxGasPriceGwei.toNat
  | .bumpPercent => .number s.policy.bumpPercent.toNat
  | .limitPercent => .number s.policy.limitPercent.toNat
  | .apiHost => .text (some s.api.host)
  | .apiPort => .number s.api.port.toNat
  | .metricsEnabled => .flag s.metrics.enabled
  | .metricsPort => .number s.metrics.port.toNat

/-- Whether there is a section about the remote signer. -/
def hasRemote (s : Settings) : Bool := s.signer.remote.isSome

theorem remote_eq (url : s.content .remoteUrl = t.content .remoteUrl)
    (address : s.content .remoteAddress = t.content .remoteAddress)
    (opened : s.hasRemote = t.hasRemote) : s.signer.remote = t.signer.remote := by
  simp only [content, hasRemote, Content.text.injEq, Option.some.injEq] at url address opened
  cases hs : s.signer.remote <;> cases ht : t.signer.remote
  case none.none => rfl
  case some.some a b =>
    simp only [hs, ht, Option.getD_some] at url address
    cases a; cases b; simp_all
  all_goals simp [hs, ht] at opened

/-- Settings are determined by their contents and by whether there is a section about the remote
    signer. -/
theorem eq_of_content (same : ∀ v, s.content v = t.content v) (opened : s.hasRemote = t.hasRemote) :
    s = t := by
  have remote := remote_eq (same .remoteUrl) (same .remoteAddress) opened
  have each : ∀ v ∈ Variable.all, s.content v = t.content v := fun v _ => same v
  obtain ⟨_, ⟨_, _, _, _, _, _, _, _, _, _, _⟩, ⟨_, _, _, _⟩, ⟨_, _⟩, ⟨_, _⟩⟩ := s
  obtain ⟨_, ⟨_, _, _, _, _, _, _, _, _, _, _⟩, ⟨_, _, _, _⟩, ⟨_, _⟩, ⟨_, _⟩⟩ := t
  simp only [Variable.all, List.forall_mem_cons, content, Content.texts.injEq, Content.text.injEq,
    Content.number.injEq, Content.flag.injEq, Option.some.injEq, UInt64.toNat_inj,
    UInt32.toNat_inj, UInt16.toNat_inj] at each remote
  simp only [each, remote]

end Settings

/-! ### One variable -/

namespace Variable

variable {s t : Settings} {v w : Variable} {c : Content} {mark value cause : String}

/-- Other settings with one place overridden.  The section about the remote signer is created by its
    variables where it is missing. -/
structure Put (v : Variable) (c : Content) (s t : Settings) : Prop where
  here : t.content v = c
  elsewhere : ∀ w, w ≠ v → t.content w = s.content w
  opened : t.hasRemote = (v.isRemote || s.hasRemote)

theorem Put.unique {t' : Settings} (h : Put v c s t) (h' : Put v c s t') : t = t' := by
  refine Settings.eq_of_content (fun w => ?_) (h.opened.trans h'.opened.symm)
  by_cases hw : w = v
  · rw [hw, h.here, h'.here]
  · rw [h.elsewhere w hw, h'.elsewhere w hw]

/-- What applying a value may come to: the settings with its place overridden, or the cause why the
    value is invalid. -/
def Outcome (v : Variable) (value : String) (s : Settings) : Except String Settings → Prop
  | .ok t => ∃ c, v.read value = .ok c ∧ Put v c s t
  | .error cause => v.read value = .error cause

theorem number_lt {bound n : Nat} (pos : 0 < bound) (h : number bound value = .ok n) :
    n < bound := by
  rw [number] at h
  cases hr : Decimal.read bound value with
  | error p => rw [hr] at h; cases h
  | ok m =>
    rw [hr] at h
    exact Except.ok.inj h ▸ Decimal.read_lt pos hr

theorem outcome_number {bound : Nat} (kind : v.kind = .number bound) (pos : 0 < bound)
    (g : Nat → Settings) (put : ∀ n < bound, Put v (.number n) s (g n)) :
    Outcome v value s ((number bound value).map g) := by
  have said : v.read value = (number bound value).map .number := by rw [read, kind, Kind.read]
  cases h : number bound value with
  | error cause =>
    rw [h] at said
    exact said
  | ok n =>
    rw [h] at said
    exact ⟨.number n, said, put n (number_lt pos h)⟩

/-- Numbers are read in as many bits as their bound has. -/
theorem outcome_bits {bound : Nat} {α : Type} {ofNat : Nat → α} (kind : v.kind = .number bound)
    (pos : 0 < bound) (g : α → Settings)
    (put : ∀ n < bound, Put v (.number n) s (g (ofNat n))) :
    Outcome v value s (((number bound value).map ofNat).map g) := by
  have fused : ((number bound value).map ofNat).map g = (number bound value).map (g ∘ ofNat) := by
    cases number bound value <;> rfl
  rw [fused]
  exact outcome_number kind pos _ put

theorem outcome_flag (kind : v.kind = .flag) (g : Bool → Settings)
    (put : ∀ b, Put v (.flag b) s (g b)) : Outcome v value s ((flag value).map g) := by
  have said : v.read value = (flag value).map .flag := by rw [read, kind, Kind.read]
  cases h : flag value with
  | error cause =>
    rw [h] at said
    exact said
  | ok b =>
    rw [h] at said
    exact ⟨.flag b, said, put b⟩

/-- `apply` overrides the place of the variable with what its value is read as. -/
theorem outcome (v : Variable) (value : String) (s : Settings) :
    Outcome v value s (v.apply value s) := by
  cases v
  case nonceTolerance =>
    refine outcome_number rfl (by decide) _ fun n below =>
      ⟨congrArg _ (UInt32.toNat_ofNat_of_lt' below), fun w hw => ?_, rfl⟩
    cases w <;> first | rfl | exact absurd rfl hw
  case metricsEnabled =>
    refine outcome_flag rfl _ fun b => ⟨rfl, fun w hw => ?_, rfl⟩
    cases w <;> first | rfl | exact absurd rfl hw
  case apiPort | metricsPort =>
    refine outcome_bits rfl (by decide) _ fun n below =>
      ⟨congrArg _ (UInt16.toNat_ofNat_of_lt' below), fun w hw => ?_, rfl⟩
    cases w <;> first | rfl | exact absurd rfl hw
  case file | endpoints | privateKey | mnemonic | hdPath | remoteUrl | remoteAddress | apiHost =>
    refine ⟨_, rfl, rfl, fun w hw => ?_, rfl⟩
    cases w <;> first | rfl | exact absurd rfl hw
  all_goals
    refine outcome_bits rfl (by decide) _ fun n below =>
      ⟨congrArg _ (UInt64.toNat_ofNat_of_lt' below), fun w hw => ?_, rfl⟩
    cases w <;> first | rfl | exact absurd rfl hw

theorem apply_eq_error_iff : v.apply value s = .error cause ↔ v.read value = .error cause := by
  have taken := outcome v value s
  constructor
  · intro h
    rw [h] at taken
    exact taken
  · intro h
    cases ha : v.apply value s with
    | ok t =>
      rw [ha] at taken
      obtain ⟨c, said, -⟩ := taken
      rw [h] at said
      cases said
    | error other =>
      rw [ha] at taken
      have said : v.read value = .error other := taken
      rw [h] at said
      rw [Except.error.inj said]

theorem apply_eq_ok_iff : v.apply value s = .ok t ↔ ∃ c, v.read value = .ok c ∧ Put v c s t := by
  have taken := outcome v value s
  constructor
  · intro h
    rw [h] at taken
    exact taken
  · rintro ⟨c, said, put⟩
    cases ha : v.apply value s with
    | ok t' =>
      rw [ha] at taken
      obtain ⟨c', said', put'⟩ := taken
      obtain rfl := Except.ok.inj (said.symm.trans said')
      rw [put'.unique put]
    | error other =>
      rw [ha] at taken
      have said' : v.read value = .error other := taken
      rw [said] at said'
      cases said'

end Variable

/-! ### All variables of an environment -/

namespace Settings

open Variable (Put)

variable {s t t' : Settings} {v : Variable} {mark key value cause : String}
  {vars vars' rest : List (String × String)} {problem : Problem}

/-- The settings that an environment asks for: its values stand in their places, and in all other
    places what stood there before. -/
structure Overridden (mark : String) (vars : List (String × String)) (s t : Settings) : Prop where
  said : ∀ v value, (Variable.key mark v, value) ∈ vars → v.read value = .ok (t.content v)
  unsaid : ∀ v, Variable.key mark v ∉ vars.map (·.1) → t.content v = s.content v
  opened : t.hasRemote = true ↔
    s.hasRemote = true ∨ ∃ v, v.isRemote = true ∧ Variable.key mark v ∈ vars.map (·.1)

/-- An environment asks for the same settings in every order. -/
theorem Overridden.perm (h : Overridden mark vars s t) (same : vars.Perm vars') :
    Overridden mark vars' s t where
  said v value mem := h.said v value (same.mem_iff.mpr mem)
  unsaid v unmet := h.unsaid v fun mem => unmet ((same.map _).mem_iff.mp mem)
  opened := by simpa only [(same.map _).mem_iff] using h.opened

/-- An environment asks for at most one settings. -/
theorem Overridden.unique (h : Overridden mark vars s t) (h' : Overridden mark vars s t') :
    t = t' := by
  refine eq_of_content (fun v => ?_) (Bool.eq_iff_iff.mpr (h.opened.trans h'.opened.symm))
  by_cases met : Variable.key mark v ∈ vars.map (·.1)
  · obtain ⟨⟨_, value⟩, mem, rfl⟩ := List.mem_map.mp met
    exact Except.ok.inj ((h.said v value mem).symm.trans (h'.said v value mem))
  · rw [h.unsaid v met, h'.unsaid v met]

/-- What one more variable comes to: its key is unknown and ignored, its value is read and overrides
    its place, or its value is invalid and ends the overriding. -/
theorem override_cons (mark key value : String) (s : Settings) :
    (Variable.ofKey? mark key = none ∧
        ∀ rest, s.override mark ((key, value) :: rest) = s.override mark rest) ∨
      (∃ v c t, key = Variable.key mark v ∧ v.read value = .ok c ∧ Put v c s t ∧
        ∀ rest, s.override mark ((key, value) :: rest) = t.override mark rest) ∨
      ∃ v cause, key = Variable.key mark v ∧ v.read value = .error cause ∧
        ∀ rest, s.override mark ((key, value) :: rest) = (s, some (.badValue key cause)) := by
  cases found : Variable.ofKey? mark key with
  | none => exact .inl ⟨rfl, Variable.passed_of_ofKey? found s value⟩
  | some v =>
    obtain rfl := Variable.ofKey?_eq_some_iff.mp found
    have taken := (Variable.takes_key mark v).taken s value
    cases applied : v.apply value s with
    | ok t =>
      obtain ⟨c, said, put⟩ := Variable.apply_eq_ok_iff.mp applied
      rw [applied] at taken
      exact .inr (.inl ⟨v, c, t, rfl, said, put, taken⟩)
    | error cause =>
      rw [applied] at taken
      exact .inr (.inr ⟨v, cause, rfl, Variable.apply_eq_error_iff.mp applied, taken⟩)

theorem Overridden.nil : Overridden mark [] s s where
  said _ _ mem := absurd mem List.not_mem_nil
  unsaid _ _ := rfl
  opened := by simp

theorem Overridden.pass (none : Variable.ofKey? mark key = none) (h : Overridden mark rest s t) :
    Overridden mark ((key, value) :: rest) s t := by
  have other := Variable.ofKey?_eq_none_iff.mp none
  have keys : ∀ v, Variable.key mark v ∈ ((key, value) :: rest).map (·.1) ↔
      Variable.key mark v ∈ rest.map (·.1) := fun v => by
    rw [List.map_cons, List.mem_cons, or_iff_right (other v).symm]
  refine ⟨fun v said mem => ?_, fun v unmet => ?_, ?_⟩
  · rcases List.mem_cons.mp mem with here | behind
    · exact absurd (congrArg Prod.fst here).symm (other v)
    · exact h.said v said behind
  · exact h.unsaid v fun met => unmet ((keys v).mpr met)
  · simpa only [keys] using h.opened

theorem Overridden.put {c : Variable.Content} (once : Variable.key mark v ∉ rest.map (·.1))
    (said : v.read value = .ok c) (put : Put v c s t) (h : Overridden mark rest t t') :
    Overridden mark ((v.key mark, value) :: rest) s t' := by
  refine ⟨fun w said' mem => ?_, fun w unmet => ?_, ?_⟩
  · rcases List.mem_cons.mp mem with here | behind
    · obtain ⟨same, rfl⟩ := Prod.mk.inj here
      obtain rfl := Variable.key_injective mark same
      rw [h.unsaid w once, put.here, said]
    · exact h.said w said' behind
  · rw [List.map_cons, List.mem_cons, not_or] at unmet
    have other : w ≠ v := fun same => unmet.1 (congrArg _ same)
    rw [h.unsaid w unmet.2, put.elsewhere w other]
  · rw [h.opened, put.opened, Bool.or_eq_true]
    simp only [List.map_cons, List.mem_cons, (Variable.key_injective mark).eq_iff]
    constructor
    · rintro ((remote | already) | ⟨w, remote, met⟩)
      · exact .inr ⟨v, remote, .inl rfl⟩
      · exact .inl already
      · exact .inr ⟨w, remote, .inr met⟩
    · rintro (already | ⟨w, remote, rfl | met⟩)
      · exact .inl (.inr already)
      · exact .inl (.inl remote)
      · exact .inr ⟨w, remote, met⟩

/-- Where all values are valid, `override` ends with the settings that the environment asks for. -/
theorem override_overridden : ∀ {vars : List (String × String)} {s : Settings},
    (vars.map (·.1)).Nodup → s.override mark vars = (t, none) → Overridden mark vars s t
  | [], _, _, h => (Prod.mk.inj h).1 ▸ .nil
  | (key, value) :: rest, s, distinct, h => by
    obtain ⟨once, apart⟩ := List.nodup_cons.mp distinct
    obtain ⟨none, same⟩ | ⟨v, c, t', rfl, said, put, same⟩ | ⟨v, cause, rfl, said, same⟩ :=
      override_cons mark key value s
    · rw [same] at h
      exact (override_overridden apart h).pass none
    · rw [same] at h
      exact (override_overridden apart h).put once said put
    · rw [same] at h
      cases h

/-- An invalid value ends the overriding: the settings are those with the values in front of it. -/
theorem override_stopped : ∀ {vars : List (String × String)} {s : Settings},
    s.override mark vars = (t, some problem) →
      ∃ before v value cause after, vars = before ++ (Variable.key mark v, value) :: after ∧
        v.read value = .error cause ∧ problem = .badValue (v.key mark) cause ∧
          s.override mark before = (t, none)
  | [], _, h => by cases h
  | (key, value) :: rest, s, h => by
    obtain ⟨none, same⟩ | ⟨v, c, t', rfl, said, put, same⟩ | ⟨v, cause, rfl, said, same⟩ :=
      override_cons mark key value s
    · rw [same] at h
      obtain ⟨before, v, said, cause, after, rfl, wrong, named, taken⟩ := override_stopped h
      exact ⟨(key, value) :: before, v, said, cause, after, rfl, wrong, named,
        (same before).trans taken⟩
    · rw [same] at h
      obtain ⟨before, w, said', cause, after, rfl, wrong, named, taken⟩ := override_stopped h
      exact ⟨(v.key mark, value) :: before, w, said', cause, after, rfl, wrong, named,
        (same before).trans taken⟩
    · rw [same] at h
      obtain ⟨rfl, named⟩ := Prod.mk.inj h
      exact ⟨[], v, value, cause, rest, rfl, said, (Option.some.inj named).symm, rfl⟩

/-- `override` ends with a problem exactly where a value of the environment is invalid. -/
theorem override_ne_none_iff (distinct : (vars.map (·.1)).Nodup) :
    (s.override mark vars).2 ≠ none ↔
      ∃ v value cause, (Variable.key mark v, value) ∈ vars ∧ v.read value = .error cause := by
  constructor
  · intro h
    obtain ⟨problem, hp⟩ := Option.ne_none_iff_exists'.mp h
    have stopped : s.override mark vars = (_, some problem) := Prod.ext rfl hp
    obtain ⟨before, v, value, cause, after, rfl, wrong, -⟩ := override_stopped stopped
    exact ⟨v, value, cause, List.mem_append_right _ List.mem_cons_self, wrong⟩
  · rintro ⟨v, value, cause, mem, wrong⟩ hn
    have taken : s.override mark vars = (_, none) := Prod.ext rfl hn
    rw [(override_overridden distinct taken).said v value mem] at wrong
    cases wrong

/-- **The order of an environment makes no difference.**  With its variables in two orders,
    `override` ends with a problem in both or in neither, namely where a value is invalid at all;
    where none is, the settings are the same, and are those that the environment asks for.  Every
    single variable overrides its own place, if any.  An invalid value leaves the settings as the
    variables in front of it left them, and its own place as it was. -/
theorem override_any_order (mark : String) (s : Settings) (same : vars.Perm vars')
    (distinct : (vars.map (·.1)).Nodup) :
    ((s.override mark vars).2 = none ↔ (s.override mark vars').2 = none) ∧
      ((s.override mark vars).2 ≠ none ↔
        ∃ v value cause, (Variable.key mark v, value) ∈ vars ∧ v.read value = .error cause) ∧
      ((s.override mark vars).2 = none →
        (s.override mark vars').1 = (s.override mark vars).1 ∧
          Overridden mark vars s (s.override mark vars).1) ∧
      (∀ (v : Variable) value (t : Settings),
        (∃ c t', v.read value = .ok c ∧ Put v c t t' ∧
            ∀ rest, t.override mark ((v.key mark, value) :: rest) = t'.override mark rest) ∨
          ∃ cause, v.read value = .error cause ∧
            ∀ rest, t.override mark ((v.key mark, value) :: rest) =
              (t, some (.badValue (v.key mark) cause))) ∧
      ∀ t problem, s.override mark vars = (t, some problem) →
        ∃ before v value cause after, vars = before ++ (Variable.key mark v, value) :: after ∧
          v.read value = .error cause ∧ problem = .badValue (v.key mark) cause ∧
            s.override mark before = (t, none) ∧ t.content v = s.content v := by
  have distinct' : (vars'.map (·.1)).Nodup := (same.map _).nodup_iff.mp distinct
  -- Whether a value is invalid depends on the set of variables, which a permutation keeps.
  have both : (s.override mark vars).2 = none ↔ (s.override mark vars').2 = none := by
    rw [← not_iff_not, ← ne_eq, ← ne_eq, override_ne_none_iff distinct,
      override_ne_none_iff distinct']
    simp only [same.mem_iff]
  refine ⟨both, override_ne_none_iff distinct, fun taken => ?_, fun v value t => ?_,
    fun t problem stopped => ?_⟩
  · have here : s.override mark vars = (_, none) := Prod.ext rfl taken
    have there : s.override mark vars' = (_, none) := Prod.ext rfl (both.mp taken)
    have settled := override_overridden distinct here
    exact ⟨(override_overridden distinct' there).unique (settled.perm same), settled⟩
  · obtain ⟨none, -⟩ | ⟨w, c, t', named, said, put, next⟩ | ⟨w, cause, named, said, next⟩ :=
      override_cons mark (v.key mark) value t
    · exact absurd rfl (Variable.ofKey?_eq_none_iff.mp none v)
    · obtain rfl := Variable.key_injective mark named
      exact .inl ⟨c, t', said, put, next⟩
    · obtain rfl := Variable.key_injective mark named
      exact .inr ⟨cause, said, next⟩
  · obtain ⟨before, v, value, cause, after, rfl, wrong, named, taken⟩ := override_stopped stopped
    rw [List.map_append, List.nodup_append] at distinct
    -- Keys are distinct, so nothing in front has touched the place of the invalid value.
    have first : Variable.key mark v ∉ before.map (·.1) := fun mem =>
      distinct.2.2 _ mem _ List.mem_cons_self rfl
    exact ⟨before, v, value, cause, after, rfl, wrong, named, taken,
      (override_overridden distinct.1 taken).unsaid v first⟩

/-- Two variables that create a section between them, a number, and an unknown key. -/
theorem override_any_order_reversed :
    let s := standard ["http://localhost:8545"]
    let vars := [("ROLLUP_TXMGR_REMOTE_SIGNER_URL", "http://signer:8550"), ("PATH", "/bin"),
      ("ROLLUP_TXMGR_NUM_CONFIRMATIONS", "4"), ("ROLLUP_TXMGR_REMOTE_SIGNER_ADDRESS", "0x70")]
    vars.Perm vars.reverse ∧ (vars.map (·.1)).Nodup ∧
      (s.override Variable.mark vars.reverse).1 = (s.override Variable.mark vars).1 ∧
        (s.override Variable.mark vars).1.signer.remote = some ⟨"http://signer:8550", "0x70"⟩ := by
  intro s vars
  have same : vars.Perm vars.reverse := (List.reverse_perm vars).symm
  have distinct : (vars.map (·.1)).Nodup := by decide
  have taken : (s.override Variable.mark vars).2 = none := by decide
  exact ⟨same, distinct,
    ((override_any_order Variable.mark s same distinct).2.2.1 taken).1, by decide⟩

end Settings

end Relayer
