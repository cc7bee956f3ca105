import Mathlib.Data.List.Nodup
import Relayer.Metrics.Exposition
import Relayer.Proofs.Metrics.Counts

namespace Relayer.Metrics

/-!
# Exposition — what the rendered metrics show

The text is read as a scraper does: a line is a sample of the name in front of its labels and its
value.  Under every name stand just the samples of one family, so what is counted can be read off
the text, and nothing else stands there.

* `escapeLabel_injective` / `withLabel_injective` — labels that differ are shown differently;
* `nameOf` and `samples` — the samples of a name in a text;
* `samples_lines` — which these are, and `samples_counter` up to `samples_histogram` for each kind;
* `apartFromSums_lines` — what the text depends on, apart from the sums of histograms;
* `Charted`, `FailuresShown`, `Booked` — what some events come to, in the text;
* `bookkeeping` — the text shows just that, and the order of the events does not matter to it.
-/

/-! ### Labels -/

/-- A character inside quotes. -/
def escaped (c : Char) : List Char :=
  if c = '\\' then ['\\', '\\']
  else if c = '"' then ['\\', '"']
  else if c = '\n' then ['\\', 'n']
  else [c]

theorem toList_escapeLabel (value : String) :
    (escapeLabel value).toList = value.toList.flatMap escaped := by
  rw [escapeLabel, String.toList_ofList]
  rfl

/-- No form of a character begins another one. -/
theorem escaped_append_inj {c d : Char} {text more : List Char}
    (same : escaped c ++ text = escaped d ++ more) : c = d ∧ text = more := by
  unfold escaped at same
  split_ifs at same <;> grind

/-- **Labels that differ** are shown differently. -/
theorem escapeLabel_injective : Function.Injective escapeLabel := by
  -- The texts are read from the front, where one form begins no other.
  have lists : ∀ a b : List Char, a.flatMap escaped = b.flatMap escaped → a = b := by
    intro a
    induction a with
    | nil =>
      intro b same
      cases b with
      | nil => rfl
      | cons d rest =>
        rw [List.flatMap_cons] at same
        unfold escaped at same
        split_ifs at same <;> simp at same
    | cons c rest ih =>
      intro b same
      cases b with
      | nil =>
        rw [List.flatMap_cons] at same
        unfold escaped at same
        split_ifs at same <;> simp at same
      | cons d more =>
        rw [List.flatMap_cons, List.flatMap_cons] at same
        obtain ⟨rfl, rest_eq⟩ := escaped_append_inj same
        rw [ih more rest_eq]
  intro a b same
  have texts := congrArg String.toList same
  rw [toList_escapeLabel, toList_escapeLabel] at texts
  exact String.toList_inj.mp (lists _ _ texts)

theorem withLabel_injective (name label : String) : Function.Injective (withLabel name label) := by
  intro a b same
  have texts := congrArg String.toList same
  simp only [withLabel, String.toList_append, List.append_cancel_right_eq,
    List.append_cancel_left_eq] at texts
  exact escapeLabel_injective (String.toList_inj.mp texts)

/-! ### Samples of a name -/

/-- A character of a name: labels begin with a brace, and values behind a blank. -/
def isNamePart (c : Char) : Bool := c != ' ' && c != '\x7b'

/-- The name in front of a line. -/
def nameOf (line : String) : List Char := line.toList.takeWhile isNamePart

/-- The samples of a name in a text. -/
def samples (name : String) (text : List String) : List String :=
  text.filter fun line => nameOf line == name.toList

/-- A name that ends where labels or a value begin. -/
def Plain (name : String) : Prop := name.toList.all isNamePart = true

theorem takeWhile_of_plain {name : String} (plain : Plain name) (rest : List Char) :
    (name.toList ++ rest).takeWhile isNamePart = name.toList ++ rest.takeWhile isNamePart :=
  List.takeWhile_append_of_pos (List.all_eq_true.mp plain)

theorem nameOf_sample {name : String} (plain : Plain name) (value : String) :
    nameOf (sample name value) = name.toList := by
  rw [nameOf, sample, String.toList_append, String.toList_append, List.append_assoc,
    takeWhile_of_plain plain]
  exact List.append_nil _

theorem nameOf_sample_withLabel {name : String} (plain : Plain name) (label value n : String) :
    nameOf (sample (withLabel name label value) n) = name.toList := by
  simp only [nameOf, sample, withLabel, String.toList_append, List.append_assoc]
  rw [takeWhile_of_plain plain]
  exact List.append_nil _

/-- The names of a family: its own, or that with an ending for each part of a histogram. -/
def Family.names (f : Family) : List String :=
  match f.samples with
  | .histogram _ => [f.name ++ "_bucket", f.name ++ "_sum", f.name ++ "_count"]
  | _ => [f.name]

/-- **The samples of a family** have its names. -/
theorem nameOf_sampleLine {f : Family} {line : String} (plain : ∀ name ∈ f.names, Plain name)
    (here : line ∈ f.sampleLines) : ∃ name ∈ f.names, nameOf line = name.toList := by
  obtain ⟨name, help, samples⟩ := f
  cases samples with
  | counter n =>
    obtain rfl := List.mem_singleton.mp here
    exact ⟨name, .head _, nameOf_sample (plain name (.head _)) _⟩
  | gauge text =>
    obtain rfl := List.mem_singleton.mp here
    exact ⟨name, .head _, nameOf_sample (plain name (.head _)) _⟩
  | labelled label counts =>
    obtain ⟨entry, -, rfl⟩ := List.mem_map.mp here
    exact ⟨name, .head _, nameOf_sample_withLabel (plain name (.head _)) _ _ _⟩
  | histogram h =>
    rcases List.mem_append.mp here with bucket | rest
    · obtain ⟨entry, -, rfl⟩ := List.mem_map.mp bucket
      exact ⟨_, .head _, nameOf_sample_withLabel (plain _ (.head _)) _ _ _⟩
    · simp only [List.mem_cons, List.not_mem_nil, or_false] at rest
      rcases rest with rfl | rfl | rfl
      · exact ⟨_, .head _, nameOf_sample_withLabel (plain _ (.head _)) _ _ _⟩
      · exact ⟨_, .tail _ (.head _), nameOf_sample (plain _ (.tail _ (.head _))) _⟩
      · exact ⟨_, .tail _ (.tail _ (.head _)),
          nameOf_sample (plain _ (.tail _ (.tail _ (.head _)))) _⟩

/-- The lines about a family are no samples. -/
theorem nameOf_headLine {f : Family} {line : String} (here : line ∈ f.headLines) :
    nameOf line = ['#'] := by
  simp only [Family.headLines, List.mem_cons, List.not_mem_nil, or_false] at here
  rcases here with rfl | rfl <;>
    simp [nameOf, isNamePart, String.toList_append]

/-! ### The samples in the whole text -/

variable {name : String} {f : Family} {fs : List Family}

/-- A name of a sample, which is not the mark of the other lines. -/
def Proper (name : String) : Prop := Plain name ∧ name.toList ≠ ['#']

theorem samples_append (name : String) (text more : List String) :
    samples name (text ++ more) = samples name text ++ samples name more := List.filter_append ..

/-- The lines of a family show just its samples. -/
theorem samples_familyLines (proper : Proper name) :
    samples name f.lines = samples name f.sampleLines := by
  have heads : samples name f.headLines = [] := by
    refine List.filter_eq_nil_iff.mpr fun line here => ?_
    rw [nameOf_headLine here, beq_iff_eq]
    exact proper.2.symm
  rw [Family.lines]
  split
  · next none => rw [List.isEmpty_iff.mp none]
  · rw [samples_append, heads, List.nil_append]

/-- A family shows nothing under the names of others. -/
theorem samples_of_not_mem (plain : ∀ other ∈ f.names, Plain other) (foreign : name ∉ f.names) :
    samples name f.sampleLines = [] := by
  refine List.filter_eq_nil_iff.mpr fun line here => ?_
  obtain ⟨other, own, shown⟩ := nameOf_sampleLine plain here
  rw [shown, beq_iff_eq, String.toList_inj]
  rintro rfl
  exact foreign own

/-- **Under a name stand the samples of its family**, if no two families share a name. -/
theorem samples_flatMap (proper : ∀ name ∈ fs.flatMap Family.names, Proper name)
    (apart : (fs.flatMap Family.names).Nodup) (here : f ∈ fs) (named : name ∈ f.names) :
    samples name (fs.flatMap Family.lines) = samples name f.sampleLines := by
  have fits : Proper name := proper name (List.mem_flatMap.mpr ⟨f, here, named⟩)
  -- The family stands in front or behind, and the other part shows nothing under its names.
  induction fs with
  | nil => cases here
  | cons g rest ih =>
    rw [List.flatMap_cons] at apart
    obtain ⟨-, apart_rest, disjoint⟩ := List.nodup_append.mp apart
    have proper_head : ∀ other ∈ g.names, Plain other := fun other own =>
      (proper other (List.mem_flatMap.mpr ⟨g, .head _, own⟩)).1
    have proper_rest : ∀ other ∈ rest.flatMap Family.names, Proper other := fun other own => by
      refine proper other ?_
      rw [List.flatMap_cons]
      exact List.mem_append_right _ own
    rw [List.flatMap_cons, samples_append, samples_familyLines fits]
    rcases List.mem_cons.mp here with rfl | behind
    · have others : samples name (rest.flatMap Family.lines) = [] := by
        rw [samples, List.filter_flatMap]
        refine List.flatMap_eq_nil_iff.mpr fun other listed => ?_
        have foreign : name ∉ other.names := fun own =>
          disjoint name named name (List.mem_flatMap.mpr ⟨other, listed, own⟩) rfl
        refine (samples_familyLines fits).trans (samples_of_not_mem (fun n own => ?_) foreign)
        exact (proper_rest n (List.mem_flatMap.mpr ⟨other, listed, own⟩)).1
      rw [others, List.append_nil]
    · have foreign : name ∉ g.names := fun own =>
        disjoint name own name (List.mem_flatMap.mpr ⟨f, behind, named⟩) rfl
      rw [samples_of_not_mem proper_head foreign, ih proper_rest apart_rest behind,
        List.nil_append]

/-- The names of all families. -/
theorem names_families (m : Metrics) : m.families.flatMap Family.names =
    ["txmgr_candidates_broadcast_total", "txmgr_current_bid_gwei", "txmgr_fee_bumps_total",
      "txmgr_nonce_lease_wait_seconds_bucket", "txmgr_nonce_lease_wait_seconds_sum",
      "txmgr_nonce_lease_wait_seconds_count", "txmgr_nonce_too_low_total",
      "txmgr_send_latency_seconds_bucket", "txmgr_send_latency_seconds_sum",
      "txmgr_send_latency_seconds_count", "txmgr_sends_confirmed_total",
      "txmgr_sends_failed_total", "txmgr_sends_started_total"] := by
  simp [families, Family.names]

theorem nodup_names (m : Metrics) : (m.families.flatMap Family.names).Nodup := by
  rw [names_families]
  simp

theorem proper_names (m : Metrics) : ∀ name ∈ m.families.flatMap Family.names, Proper name := by
  rw [names_families]
  simp only [List.forall_mem_cons, List.not_mem_nil, false_imp_iff, implies_true, and_true, Proper,
    Plain, String.reduceToList]
  decide

/-- **Under a name stand the samples of its family**, and nothing else. -/
theorem samples_lines {m : Metrics} (here : f ∈ m.families) (named : name ∈ f.names) :
    samples name m.lines = samples name f.sampleLines :=
  samples_flatMap (proper_names m) (nodup_names m) here named

theorem proper_of_mem {m : Metrics} (here : f ∈ m.families) (named : name ∈ f.names) :
    Proper name := proper_names m name (List.mem_flatMap.mpr ⟨f, here, named⟩)

/-! ### Families of each kind -/

variable {m : Metrics} {help label : String} {h h' : Histogram}

/-- The text has a family, whatever its explanation. -/
def Offers (m : Metrics) (name : String) (samples : Samples) : Prop :=
  ∃ help, ⟨name, help, samples⟩ ∈ m.families

/-- A family whose samples all have one name. -/
theorem samples_own (here : f ∈ m.families) (named : name ∈ f.names)
    (own : ∀ line ∈ f.sampleLines, nameOf line = name.toList) :
    samples name m.lines = f.sampleLines := by
  rw [samples_lines here named]
  exact List.filter_eq_self.mpr fun line listed => beq_iff_eq.mpr (own line listed)

theorem samples_counter {n : Nat} (offers : m.Offers name (.counter n)) :
    samples name m.lines = [sample name (toString n)] := by
  obtain ⟨help, here⟩ := offers
  refine samples_own here (.head _) fun line listed => ?_
  rw [List.mem_singleton.mp listed, nameOf_sample (proper_of_mem here (.head _)).1]

theorem samples_gauge {text : String} (offers : m.Offers name (.gauge text)) :
    samples name m.lines = [sample name text] := by
  obtain ⟨help, here⟩ := offers
  refine samples_own here (.head _) fun line listed => ?_
  rw [List.mem_singleton.mp listed, nameOf_sample (proper_of_mem here (.head _)).1]

theorem samples_labelled {counts : List (String × Nat)}
    (offers : m.Offers name (.labelled label counts)) :
    samples name m.lines =
      counts.map fun entry => sample (withLabel name label entry.1) (toString entry.2) := by
  obtain ⟨help, here⟩ := offers
  refine samples_own here (.head _) fun line listed => ?_
  obtain ⟨entry, -, rfl⟩ := List.mem_map.mp listed
  exact nameOf_sample_withLabel (proper_of_mem here (.head _)).1 _ _ _

/-- The lines of the buckets with a bound. -/
def bucketLines (name : String) (h : Histogram) : List String :=
  h.within.map fun entry =>
    sample (withLabel (name ++ "_bucket") "le" (seconds entry.1)) (toString entry.2)

/-- Names with endings that differ are not the same. -/
theorem beq_ending (name ending other : String) :
    ((name ++ ending).toList == (name ++ other).toList) = (ending.toList == other.toList) := by
  rw [Bool.eq_iff_iff, beq_iff_eq, beq_iff_eq, String.toList_append, String.toList_append,
    List.append_cancel_left_eq]

/-- The buckets with a bound stand under their own name only. -/
theorem samples_bucketLines (plain : Plain (name ++ "_bucket")) (ending : String) :
    samples (name ++ ending) (bucketLines name h) =
      if "_bucket".toList == ending.toList then bucketLines name h else [] := by
  have shown : ∀ line ∈ bucketLines name h,
      (nameOf line == (name ++ ending).toList) = ("_bucket".toList == ending.toList) := by
    intro line listed
    obtain ⟨entry, -, rfl⟩ := List.mem_map.mp listed
    rw [nameOf_sample_withLabel plain, beq_ending]
  rw [samples, List.filter_congr shown]
  split
  · next own => simp only [own, List.filter_true]
  · next foreign => simp only [foreign, List.filter_false]

/-- A histogram has samples under three names: its buckets, the last of which has no bound, the sum,
    and the count. -/
theorem samples_histogram (offers : m.Offers name (.histogram h)) :
    samples (name ++ "_bucket") m.lines = bucketLines name h ++
        [sample (withLabel (name ++ "_bucket") "le" "+Inf") (toString h.count)] ∧
      samples (name ++ "_count") m.lines = [sample (name ++ "_count") (toString h.count)] := by
  obtain ⟨help, here⟩ := offers
  have bucket : Plain (name ++ "_bucket") := (proper_of_mem here (.head _)).1
  have sum : Plain (name ++ "_sum") := (proper_of_mem here (.tail _ (.head _))).1
  have count : Plain (name ++ "_count") := (proper_of_mem here (.tail _ (.tail _ (.head _)))).1
  have lines (ending : String) : samples (name ++ ending) (histogramLines name h) =
      (if "_bucket".toList == ending.toList then bucketLines name h else []) ++
        samples (name ++ ending)
          [ sample (withLabel (name ++ "_bucket") "le" "+Inf") (toString h.count),
            sample (name ++ "_sum") (seconds h.sum),
            sample (name ++ "_count") (toString h.count) ] := by
    rw [← samples_bucketLines bucket]
    exact samples_append _ _ _
  rw [samples_lines here (.head _), samples_lines here (.tail _ (.tail _ (.head _)))]
  show samples _ (histogramLines name h) = _ ∧ samples _ (histogramLines name h) = _
  rw [lines, lines]
  simp [samples, nameOf_sample_withLabel bucket, nameOf_sample sum, nameOf_sample count]

/-! ### Sums -/

/-- A line with the sum of a histogram. -/
def isSum (line : String) : Bool :=
  nameOf line == "txmgr_send_latency_seconds_sum".toList ||
    nameOf line == "txmgr_nonce_lease_wait_seconds_sum".toList

/-- A text apart from these lines. -/
def apartFromSums (text : List String) : List String := text.filter fun line => !isSum line

/-- Apart from its sum, a histogram is shown by its counts. -/
theorem apartFromSums_histogram (help : String)
    (sum : ∀ value, isSum (sample (name ++ "_sum") value) = true)
    (within : h.within = h'.within) (count : h.count = h'.count) :
    apartFromSums (Family.lines ⟨name, help, .histogram h⟩) =
      apartFromSums (Family.lines ⟨name, help, .histogram h'⟩) := by
  have shown : ∀ h : Histogram, Family.lines ⟨name, help, .histogram h⟩ =
      Family.headLines ⟨name, help, .histogram h⟩ ++ histogramLines name h := by
    intro h
    have some : (histogramLines name h).isEmpty = false := by simp [histogramLines]
    rw [Family.lines, show Family.sampleLines ⟨name, help, .histogram h⟩ = histogramLines name h
      from rfl, some]
    rfl
  have heads : Family.headLines ⟨name, help, .histogram h⟩ =
      Family.headLines ⟨name, help, .histogram h'⟩ := rfl
  rw [shown, shown, heads, histogramLines, histogramLines, within, count]
  simp only [apartFromSums, List.filter_append, List.filter_cons, sum, Bool.not_true,
    Bool.false_eq_true, if_false]

/-- **Apart from the sums**, the text shows the counts and the bid and nothing else. -/
theorem apartFromSums_lines {m m' : Metrics} (started : m.started = m'.started)
    (confirmed : m.confirmed = m'.confirmed) (failed : m.failed = m'.failed)
    (latency : m.latency.within = m'.latency.within) (sent : m.latency.count = m'.latency.count)
    (candidates : m.candidates = m'.candidates) (bumps : m.bumps = m'.bumps) (bid : m.bid = m'.bid)
    (tooLow : m.tooLow = m'.tooLow) (leaseWait : m.leaseWait.within = m'.leaseWait.within)
    (granted : m.leaseWait.count = m'.leaseWait.count) :
    apartFromSums m.lines = apartFromSums m'.lines := by
  have sum (name : String) (listed : name ∈ m.families.flatMap Family.names) (value : String) :
      nameOf (sample name value) = name.toList := nameOf_sample (proper_names m name listed).1 value
  have sum_latency (value : String) :
      isSum (sample ("txmgr_send_latency_seconds" ++ "_sum") value) = true := by
    rw [isSum, sum _ (by rw [names_families]; decide)]
    rfl
  have sum_wait (value : String) :
      isSum (sample ("txmgr_nonce_lease_wait_seconds" ++ "_sum") value) = true := by
    rw [isSum, sum _ (by rw [names_families]; decide)]
    rfl
  have latency_lines := apartFromSums_histogram "Time from send start to confirmation"
    sum_latency latency sent
  have wait_lines := apartFromSums_histogram "Time spent waiting for the account nonce lease"
    sum_wait leaseWait granted
  rw [apartFromSums, apartFromSums] at latency_lines wait_lines
  -- All families but the two histograms are the same already.
  simp only [lines, families, List.flatMap_cons, List.flatMap_nil, apartFromSums,
    List.filter_append, ← started, ← confirmed, ← failed, ← candidates, ← bumps, ← bid, ← tooLow]
  rw [latency_lines, wait_lines]

/-! ### The text after some events -/

variable {bounds observed : List Nat} {counts : List (String × Nat)} {es : List Event}
  {text : List String}

/-- A histogram of some observations, as shown. -/
structure Charted (name : String) (bounds observed : List Nat) (text : List String) : Prop where
  /-- Each bound stands in front of the number of observations that do not exceed it. -/
  buckets : samples (name ++ "_bucket") text =
    (bounds.map fun bound => sample (withLabel (name ++ "_bucket") "le" (seconds bound))
        (toString (observed.countP (· ≤ bound)))) ++
      [sample (withLabel (name ++ "_bucket") "le" "+Inf") (toString observed.length)]
  count : samples (name ++ "_count") text =
    [sample (name ++ "_count") (toString observed.length)]
  /-- The cumulative counts never decrease. -/
  ascending : (bounds.map (fun bound => observed.countP (· ≤ bound)) ++
    [observed.length]).Pairwise (· ≤ ·)

theorem charted (offers : m.Offers name (.histogram h))
    (charts : h.Charts bounds observed) (ascending : bounds.Pairwise (· < ·)) :
    Charted name bounds observed m.lines where
  buckets := by
    rw [(samples_histogram offers).1, bucketLines, charts.within, charts.count, List.map_map]
    rfl
  count := by rw [(samples_histogram offers).2, charts.count]
  ascending := by
    have never := charts.pairwise_cumulative ascending
    rw [Histogram.cumulative, charts.within, charts.count, List.map_map] at never
    exact never

/-- The failures of some events, as shown: each kind once, under a label of its own, and no kind
    that never occurred. -/
structure FailuresShown (name label : String) (es : List Event) (kinds : List String)
    (text : List String) : Prop where
  occurred : ∀ kind, kind ∈ kinds ↔ .failed kind ∈ es
  once : (kinds.map (withLabel name label)).Nodup
  shown : samples name text =
    kinds.map fun kind => sample (withLabel name label kind) (toString (es.count (.failed kind)))

theorem failuresShown (offers : m.Offers name (.labelled label counts))
    (tallied : Tallied counts es) :
    FailuresShown name label es (counts.map Prod.fst) m.lines where
  occurred kind := by
    rw [List.mem_map]
    constructor
    · rintro ⟨⟨_, n⟩, listed, rfl⟩
      exact ((tallied.counts _ n).mp listed).1
    · exact fun occurs => ⟨(kind, _), (tallied.counts kind _).mpr ⟨occurs, rfl⟩, rfl⟩
  once := List.Nodup.map (withLabel_injective name label) (tallied.sorted.imp ne_of_lt)
  shown := by
    rw [samples_labelled offers, List.map_map]
    refine List.map_congr_left fun entry listed => ?_
    rw [((tallied.counts entry.1 entry.2).mp listed).2]
    rfl

/-- All that some events come to, as shown. -/
structure Booked (es : List Event) (text : List String) : Prop where
  started : samples "txmgr_sends_started_total" text =
    [sample "txmgr_sends_started_total" (toString (es.count .started))]
  confirmed : samples "txmgr_sends_confirmed_total" text =
    [sample "txmgr_sends_confirmed_total" (toString (es.filterMap Event.latency?).length)]
  failed : ∃ kinds, FailuresShown "txmgr_sends_failed_total" "kind" es kinds text
  latency : Charted "txmgr_send_latency_seconds" latencyBounds (es.filterMap Event.latency?) text
  candidates : samples "txmgr_candidates_broadcast_total" text =
    [sample "txmgr_candidates_broadcast_total" (toString (es.filterMap Event.bid?).length)]
  bumps : samples "txmgr_fee_bumps_total" text =
    [sample "txmgr_fee_bumps_total" (toString (es.count .bump))]
  /-- The gauge shows the bid of the last candidate. -/
  bid : samples "txmgr_current_bid_gwei" text =
    [sample "txmgr_current_bid_gwei" (gweiText ((es.filterMap Event.bid?).getLast?.getD .zero))]
  tooLow : samples "txmgr_nonce_too_low_total" text =
    [sample "txmgr_nonce_too_low_total" (toString (es.count .tooLow))]
  leaseWait : Charted "txmgr_nonce_lease_wait_seconds" waitBounds (es.filterMap Event.wait?) text

theorem booked (reckons : Reckons m es) : Booked es m.lines where
  started := by
    rw [← reckons.started]
    exact samples_counter (by simp [Offers, families])
  confirmed := by
    rw [← reckons.confirmed]
    exact samples_counter (by simp [Offers, families])
  failed := ⟨_, failuresShown (by simp [Offers, families]) reckons.failed⟩
  latency := charted (by simp [Offers, families]) reckons.latency ascending_latencyBounds
  candidates := by
    rw [← reckons.candidates]
    exact samples_counter (by simp [Offers, families])
  bumps := by
    rw [← reckons.bumps]
    exact samples_counter (by simp [Offers, families])
  bid := by
    rw [← reckons.bid]
    exact samples_gauge (by simp [Offers, families])
  tooLow := by
    rw [← reckons.tooLow]
    exact samples_counter (by simp [Offers, families])
  leaseWait := charted (by simp [Offers, families]) reckons.leaseWait ascending_waitBounds

/-- Events in another order come to the same counts. -/
theorem apartFromSums_perm {m' : Metrics} {es' : List Event} (reckons : Reckons m es)
    (reckons' : Reckons m' es') (same : es.Perm es')
    (last : (es.filterMap Event.bid?).getLast? = (es'.filterMap Event.bid?).getLast?) :
    apartFromSums m.lines = apartFromSums m'.lines := by
  have latencies := same.filterMap Event.latency?
  have waits := same.filterMap Event.wait?
  have failures := reckons.failed.unique reckons'.failed same
  refine apartFromSums_lines ?_ ?_ failures ?_ ?_ ?_ ?_ ?_ ?_ ?_ ?_
  · rw [reckons.started, reckons'.started, same.count_eq]
  · rw [reckons.confirmed, reckons'.confirmed, latencies.length_eq]
  · rw [reckons.latency.within, reckons'.latency.within]
    exact List.map_congr_left fun bound _ => by rw [latencies.countP_eq]
  · rw [reckons.latency.count, reckons'.latency.count, latencies.length_eq]
  · rw [reckons.candidates, reckons'.candidates, (same.filterMap Event.bid?).length_eq]
  · rw [reckons.bumps, reckons'.bumps, same.count_eq]
  · rw [reckons.bid, reckons'.bid, last]
  · rw [reckons.tooLow, reckons'.tooLow, same.count_eq]
  · rw [reckons.leaseWait.within, reckons'.leaseWait.within]
    exact List.map_congr_left fun bound _ => by rw [waits.countP_eq]
  · rw [reckons.leaseWait.count, reckons'.leaseWait.count, waits.length_eq]

/-- **The rendered metrics show what the events come to**, however many there are; and the same
    events in another order show the same apart from the sums, as long as the last candidate is the
    same. -/
theorem bookkeeping (es : List Event) :
    Booked es (after es).lines ∧
    ∀ es', es.Perm es' →
      (es.filterMap Event.bid?).getLast? = (es'.filterMap Event.bid?).getLast? →
      apartFromSums (after es).lines = apartFromSums (after es').lines :=
  ⟨booked (reckons es), fun es' => apartFromSums_perm (reckons es) (reckons es')⟩

/-- A candidate and a failure, in both orders. -/
theorem bookkeeping_swap :
    [Event.candidate .zero, .failed "nonce_stale"].Perm [.failed "nonce_stale", .candidate .zero] ∧
    apartFromSums (after [.candidate .zero, .failed "nonce_stale"]).lines =
      apartFromSums (after [.failed "nonce_stale", .candidate .zero]).lines :=
  have swap := List.Perm.swap (.failed "nonce_stale") (Event.candidate .zero) []
  ⟨swap, (bookkeeping _).2 _ swap rfl⟩

end Relayer.Metrics
