import ConfidenceResolver.Support.TextFormat
import ConfidenceResolver.Telemetry.Histogram
import Mathlib.Data.Finset.Insert
import Mathlib.Data.List.Nodup

/-!
# Telemetry — the exposition is well formed

The samples of the exposition, metric by metric, and what a reader of the text format gets from
them.

* `TelemetrySnapshot.metrics`: each metric with its labels and numbers.  `samples_writePrometheus`:
  the samples are those.
* `SampleLabel.Legible`: a label that is read as it was given.  `Sample.parse_text`: a sample of
  such.
* `Distinct`: no two samples of a metric have the same labels.
* `exposition_well_formed`: for a resolver id without characters to escape, and provider
  initializations that the rendered labels tell apart.
* `plain_of_legible`: for no other resolver id is a sample read as it was given.
-/

namespace ConfidenceResolver

open TextFormat

/-! ### Reading a sample -/

/-- What a reader of the sample should get. -/
def Sample.parsed (s : Sample) : Parsed :=
  ⟨s.name.toList, s.labels.map fun l => (l.name.toList, l.value.toList), s.value.toList⟩

/-- The labels, whatever their order. -/
def labelSet (labels : List SampleLabel) : Finset (String × String) :=
  (labels.map fun l => (l.name, l.value)).toFinset

/-- What a character is escaped to is read as the character. -/
theorem readValue_escapeChar (c : Char) (rest : List Char) :
    readValue (escapeChar c ++ rest) = (readValue rest).map fun r => (c :: r.1, r.2) := by
  unfold escapeChar
  split
  · rfl
  · rfl
  · rfl
  · next hslash hquote hfeed => exact readValue_cons ⟨hslash, hquote, hfeed⟩ rest

theorem readValue_escaped (value : List Char) (rest : List Char) :
    readValue (value.flatMap escapeChar ++ '"' :: rest) = some (value, rest) := by
  induction value with
  | nil => exact readValue_quote rest
  | cons c value ih =>
      rw [List.flatMap_cons, List.append_assoc, readValue_escapeChar, ih]
      rfl

/-- A label that is read as it was given: its value is escaped, or has nothing to escape. -/
structure SampleLabel.Legible (l : SampleLabel) : Prop where
  name : isName isNameChar l.name.toList = true
  value : l.escaped = true ∨ AllPlain l.value.toList

theorem SampleLabel.Legible.reads {l : SampleLabel} (h : l.Legible) (rest : List Char) :
    readValue (l.written.toList ++ '"' :: rest) = some (l.value.toList, rest) := by
  rw [SampleLabel.written]
  split
  · rw [escapeLabelValue, String.toList_ofList]
    exact readValue_escaped l.value.toList rest
  · next hescaped => exact readValue_plain (h.value.resolve_left hescaped) rest

def SampleLabel.Legible.toWritten {l : SampleLabel} (h : l.Legible) : Written :=
  ⟨l.name.toList, l.written.toList, l.value.toList, h.name, h.reads⟩

theorem SampleLabel.toList_text (l : SampleLabel) :
    l.text.toList = labelChars l.name.toList l.written.toList := by
  simp [SampleLabel.text, labelChars]

theorem Sample.toList_text (s : Sample) :
    s.text.toList = lineChars s.name.toList (s.labels.map fun l => l.text.toList)
      s.value.toList := by
  simp [Sample.text, lineChars, String.toList_intercalate, Function.comp_def]

/-- A sample that is read as it was given. -/
structure Sample.Legible (s : Sample) : Prop where
  name : isName isMetricChar s.name.toList = true
  labels : ∀ l ∈ s.labels, l.Legible
  labelled : s.labels ≠ []
  names : (s.labels.map fun l => l.name).Nodup
  value : isNumber s.value.toList = true

/-- **A legible sample is read as it was given.** -/
theorem Sample.parse_text {s : Sample} (h : s.Legible) :
    parseSample s.text.toList = some s.parsed := by
  let written := s.labels.pmap (fun _ hl => SampleLabel.Legible.toWritten hl) h.labels
  have hchars : written.map Written.chars = s.labels.map fun l => l.text.toList := by
    simp [written, List.map_pmap, SampleLabel.Legible.toWritten, Written.chars,
      SampleLabel.toList_text]
  have hnames : written.map Written.name = s.labels.map fun l => l.name.toList := by
    simp [written, List.map_pmap, SampleLabel.Legible.toWritten]
  have hparsed : (written.map fun w => (w.name, w.value)) =
      s.labels.map fun l => (l.name.toList, l.value.toList) := by
    simp [written, List.map_pmap, SampleLabel.Legible.toWritten]
  have hne : written ≠ [] := by simpa [written] using h.labelled
  have hnodup : (written.map Written.name).Nodup := by
    have hlists := h.names.map (f := String.toList) fun _ _ => String.toList_inj.mp
    rw [List.map_map] at hlists
    rw [hnames]
    exact hlists
  have hline := parseSample_line h.name hne hnodup h.value
  rw [hchars, hparsed] at hline
  rw [Sample.toList_text]
  exact hline

/-! ### The samples, metric by metric -/

def samplesOf (lines : List Line) : List Sample := lines.filterMap Line.sample?

theorem samplesOf_append (lines lines' : List Line) :
    samplesOf (lines ++ lines') = samplesOf lines ++ samplesOf lines' := List.filterMap_append

/-- A metric: its name, and for each of its samples the labels behind `resolver_id` and the
number. -/
structure Metric where
  name : String
  rows : List (List SampleLabel × Nat)

def rowSample (config : PrometheusConfig) (resolverId name : String)
    (row : List SampleLabel × Nat) : Sample :=
  ⟨name, ⟨"resolver_id", resolverId, false⟩ :: row.1, toString row.2 ++ config.suffix⟩

def Metric.samples (m : Metric) (config : PrometheusConfig) (resolverId : String) : List Sample :=
  m.rows.map (rowSample config resolverId m.name)

/-- A metric without labels of its own. -/
def numberMetric (name : String) (value : Option Nat) : Metric :=
  ⟨name, value.toList.map fun n => ([], n)⟩

def bucketRows (upper : Nat → Option ℚ) (s : HistogramSnapshot) (config : PrometheusConfig) :
    List (List SampleLabel × Nat) :=
  if s.count = 0 then []
  else
    (s.emitted config).map (fun e => ([⟨"le", upperText upper e.1, false⟩], e.2.toNat)) ++
      [([⟨"le", "+Inf", false⟩], s.count.toNat)]

def rateRows (resolveRates : List UInt64) : List (List SampleLabel × Nat) :=
  resolveRates.zipIdx.filterMap fun e =>
    if e.1 = 0 then none else some ([⟨"reason", reasonLabel e.2, false⟩], e.1.toNat)

def initRows (providerInitRate : List ProviderInitSnapshot) : List (List SampleLabel × Nat) :=
  providerInitRate.filterMap fun entry =>
    if entry.count = 0 then none else some (entryLabels entry.labels, entry.count.toNat)

def whenNot (absent : Prop) [Decidable absent] (n : Nat) : Option Nat :=
  if absent then none else some n

/-- The metrics of the exposition, in order. -/
def TelemetrySnapshot.metrics (upper : Nat → Option ℚ) (s : TelemetrySnapshot)
    (config : PrometheusConfig) : List Metric :=
  let dedup := s.applyDedup.filter ApplyDedupSnapshot.hasActivity
  let noFlush := s.flush.succeeded = 0 ∧ s.flush.failed = 0
  [⟨latencyName ++ "_bucket", bucketRows upper s.latency config⟩,
    numberMetric (latencyName ++ "_sum") (whenNot (s.latency.count = 0) s.latency.sum.toNat),
    numberMetric (latencyName ++ "_count") (whenNot (s.latency.count = 0) s.latency.count.toNat),
    ⟨"confidence_resolves_total", rateRows s.resolveRates⟩,
    numberMetric "confidence_memory_bytes" (whenNot (s.memoryBytes = 0) s.memoryBytes.toNat),
    numberMetric "confidence_apply_dedup_applies_total" (dedup.map fun ad => ad.appliesTotal.toNat),
    numberMetric "confidence_apply_dedup_deduped_total"
      (dedup.map fun ad => ad.appliesDeduped.toNat),
    numberMetric "confidence_apply_dedup_overflow_total"
      (dedup.map fun ad => ad.applyDedupOverflow.toNat),
    numberMetric "confidence_apply_dedup_sweeps_total" (dedup.map fun ad => ad.sweeps.toNat),
    numberMetric "confidence_apply_dedup_map_size" (dedup.map fun ad => ad.mapSize.toNat),
    numberMetric "confidence_apply_dedup_map_capacity" (dedup.map fun ad => ad.mapCapacity.toNat),
    numberMetric "confidence_flush_succeeded_total" (whenNot noFlush s.flush.succeeded.toNat),
    numberMetric "confidence_flush_failed_total" (whenNot noFlush s.flush.failed.toNat),
    numberMetric "confidence_events_published_total"
      (whenNot (¬ 0 < s.events.published) s.events.published.toNat),
    numberMetric "confidence_event_batches_succeeded_total"
      (whenNot (¬ 0 < s.events.batchesSucceeded) s.events.batchesSucceeded.toNat),
    numberMetric "confidence_event_batches_failed_total"
      (whenNot (¬ 0 < s.events.batchesFailed) s.events.batchesFailed.toNat),
    numberMetric "confidence_events_rejected_total"
      (whenNot (¬ 0 < s.events.eventsRejected) s.events.eventsRejected.toNat),
    ⟨"confidence_provider_init_total", initRows s.providerInitRate⟩]

section Samples

variable (config : PrometheusConfig) (resolverId : String)

theorem samplesOf_counterHeader (base help : String) :
    samplesOf (counterHeader config base help) = [] := rfl

/-- Lines with rows of their own, one sample for each row. -/
theorem samplesOf_rows {α : Type*} (name : String) (row : α → Option (List SampleLabel × Nat))
    (l : List α) :
    samplesOf (l.filterMap fun a =>
        (row a).map fun r => sampleLine config resolverId name r.1 r.2) =
      (l.filterMap row).map (rowSample config resolverId name) := by
  rw [samplesOf, List.filterMap_filterMap, List.map_filterMap]
  congr 1
  funext a
  cases row a <;> rfl

theorem samples_writeHistogram (upper : Nat → Option ℚ) (s : HistogramSnapshot) :
    samplesOf (writeHistogram upper s resolverId config) =
      (⟨latencyName ++ "_bucket", bucketRows upper s config⟩ : Metric).samples config resolverId ++
      (numberMetric (latencyName ++ "_sum") (whenNot (s.count = 0) s.sum.toNat)).samples config
        resolverId ++
      (numberMetric (latencyName ++ "_count") (whenNot (s.count = 0) s.count.toNat)).samples config
        resolverId := by
  by_cases hcount : s.count = 0
  · simp only [writeHistogram, bucketRows, whenNot, hcount, if_true]
    rfl
  · simp only [writeHistogram, bucketRows, whenNot, hcount, if_false, samplesOf_append,
      Metric.samples, List.map_append, List.map_map]
    have hlines : samplesOf ((s.emitted config).map fun e =>
        bucketLine config resolverId (upperText upper e.1) e.2) =
          (s.emitted config).map (rowSample config resolverId (latencyName ++ "_bucket") ∘
            fun e => ([⟨"le", upperText upper e.1, false⟩], e.2.toNat)) := by
      rw [samplesOf, List.filterMap_map, ← List.filterMap_eq_map]
      rfl
    simp only [hlines, List.append_assoc]
    rfl

theorem samples_writeResolveRates (resolveRates : List UInt64) :
    samplesOf (writeResolveRates resolveRates resolverId config) =
      (⟨"confidence_resolves_total", rateRows resolveRates⟩ : Metric).samples config
        resolverId := by
  have hlines := samplesOf_rows config resolverId "confidence_resolves_total"
    (fun e : UInt64 × Nat =>
      if e.1 = 0 then none else some ([⟨"reason", reasonLabel e.2, false⟩], e.1.toNat))
    resolveRates.zipIdx
  rw [writeResolveRates]
  split
  · rw [samplesOf_append, samplesOf_counterHeader, List.nil_append, Metric.samples, rateRows,
      ← hlines]
    congr 2
    funext e
    split <;> rfl
  · next hany =>
      have hnone : rateRows resolveRates = [] := by
        rw [rateRows, List.filterMap_eq_nil_iff]
        rintro ⟨count, i⟩ he
        rw [if_pos]
        by_contra hcount
        apply hany
        rw [List.any_eq_true]
        exact ⟨count, List.fst_mem_of_mem_zipIdx he, decide_eq_true (UInt64.pos_iff_ne_zero.mpr hcount)⟩
      rw [hnone]
      rfl

theorem samples_writeProviderInit (providerInitRate : List ProviderInitSnapshot) :
    samplesOf (writeProviderInit providerInitRate resolverId config) =
      (⟨"confidence_provider_init_total", initRows providerInitRate⟩ : Metric).samples config
        resolverId := by
  have hlines := samplesOf_rows config resolverId "confidence_provider_init_total"
    (fun entry : ProviderInitSnapshot =>
      if entry.count = 0 then none else some (entryLabels entry.labels, entry.count.toNat))
    providerInitRate
  rw [writeProviderInit]
  split
  · rw [samplesOf_append, samplesOf_counterHeader, List.nil_append, Metric.samples, initRows,
      ← hlines]
    congr 2
    funext entry
    split <;> rfl
  · next hany =>
      have hnone : initRows providerInitRate = [] := by
        rw [initRows, List.filterMap_eq_nil_iff]
        intro entry he
        rw [if_pos]
        by_contra hcount
        apply hany
        rw [List.any_eq_true]
        exact ⟨entry, he, decide_eq_true (UInt64.pos_iff_ne_zero.mpr hcount)⟩
      rw [hnone]
      rfl

theorem samples_writeApplyDedup (applyDedup : Option ApplyDedupSnapshot) :
    samplesOf (writeApplyDedup applyDedup resolverId config) =
      let dedup := applyDedup.filter ApplyDedupSnapshot.hasActivity
      ([numberMetric "confidence_apply_dedup_applies_total"
          (dedup.map fun ad => ad.appliesTotal.toNat),
        numberMetric "confidence_apply_dedup_deduped_total"
          (dedup.map fun ad => ad.appliesDeduped.toNat),
        numberMetric "confidence_apply_dedup_overflow_total"
          (dedup.map fun ad => ad.applyDedupOverflow.toNat),
        numberMetric "confidence_apply_dedup_sweeps_total" (dedup.map fun ad => ad.sweeps.toNat),
        numberMetric "confidence_apply_dedup_map_size" (dedup.map fun ad => ad.mapSize.toNat),
        numberMetric "confidence_apply_dedup_map_capacity"
          (dedup.map fun ad => ad.mapCapacity.toNat)] : List Metric).flatMap
        fun m => m.samples config resolverId := by
  rw [writeApplyDedup]
  cases applyDedup.filter ApplyDedupSnapshot.hasActivity <;> rfl

theorem samples_writeMemory (memoryBytes : UInt64) :
    samplesOf (writeMemory memoryBytes resolverId config) =
      (numberMetric "confidence_memory_bytes" (whenNot (memoryBytes = 0) memoryBytes.toNat)).samples
        config resolverId := by
  rw [writeMemory, whenNot]
  split <;> rfl

theorem samples_writeFlush (flush : FlushSnapshot) :
    samplesOf (writeFlush flush resolverId config) =
      let noFlush := flush.succeeded = 0 ∧ flush.failed = 0
      (numberMetric "confidence_flush_succeeded_total"
        (whenNot noFlush flush.succeeded.toNat)).samples config resolverId ++
      (numberMetric "confidence_flush_failed_total"
        (whenNot noFlush flush.failed.toNat)).samples config resolverId := by
  simp only [writeFlush, whenNot]
  split <;> rfl

theorem samples_eventLines (base help : String) (value : UInt64) :
    samplesOf (eventLines config resolverId base help value) =
      (numberMetric (base ++ "_total") (whenNot (¬ 0 < value) value.toNat)).samples config
        resolverId := by
  rw [eventLines, whenNot]
  by_cases hvalue : 0 < value
  · rw [if_pos hvalue, if_neg (not_not.mpr hvalue)]
    rfl
  · rw [if_neg hvalue, if_pos hvalue]
    rfl

/-- **The samples of the exposition are those of its metrics.** -/
theorem samples_writePrometheus (upper : Nat → Option ℚ) (s : TelemetrySnapshot) :
    samplesOf (s.writePrometheus upper resolverId config) =
      (s.metrics upper config).flatMap fun m => m.samples config resolverId := by
  have hend : samplesOf (if config.openmetrics then [Line.comment "# EOF"] else []) = [] := by
    split <;> rfl
  rw [TelemetrySnapshot.writePrometheus, samplesOf_append, samplesOf_append, samplesOf_append,
    samplesOf_append, samplesOf_append, samplesOf_append, samplesOf_append, hend,
    samples_writeHistogram, samples_writeResolveRates, samples_writeMemory,
    samples_writeApplyDedup, samples_writeFlush, samples_writeProviderInit, writeEvents,
    samplesOf_append, samplesOf_append, samplesOf_append, samples_eventLines, samples_eventLines,
    samples_eventLines, samples_eventLines, TelemetrySnapshot.metrics]
  simp only [List.flatMap_cons, List.flatMap_nil, List.append_nil, List.append_assoc]
  rfl

end Samples

/-! ### Metrics that are read as they were given -/

/-- Every row is read as it was given, and no two rows have the same labels. -/
structure Metric.Readable (m : Metric) : Prop where
  legible : ∀ row ∈ m.rows, ∀ l ∈ row.1, l.Legible
  names : ∀ row ∈ m.rows, ("resolver_id" :: row.1.map SampleLabel.name).Nodup
  distinct : (m.rows.map fun row => labelSet row.1).Nodup

theorem readable_nil (name : String) : (⟨name, []⟩ : Metric).Readable :=
  ⟨List.forall_mem_nil _, List.forall_mem_nil _, List.nodup_nil⟩

theorem readable_numberMetric (name : String) (value : Option Nat) :
    (numberMetric name value).Readable := by
  cases value with
  | none => exact readable_nil name
  | some n =>
      have hrow : ∀ row ∈ (numberMetric name (some n)).rows, row.1 = [] := by
        intro row h
        rw [List.mem_singleton.mp h]
      refine ⟨fun row h l hl => ?_, fun row h => ?_, List.nodup_singleton _⟩
      · rw [hrow row h] at hl
        cases hl
      · rw [hrow row h]
        exact List.nodup_singleton _

/-- Rows with one label each, of one name. -/
theorem readable_oneLabel {name label : String} {rows : List (String × Nat)}
    (hlabel : isName isNameChar label.toList = true) (hne : label ≠ "resolver_id")
    (hplain : ∀ row ∈ rows, AllPlain row.1.toList) (hnodup : (rows.map Prod.fst).Nodup) :
    (⟨name, rows.map fun row => ([⟨label, row.1, false⟩], row.2)⟩ : Metric).Readable := by
  refine ⟨?_, ?_, ?_⟩
  · intro row hrow l hl
    obtain ⟨r, hr, rfl⟩ := List.mem_map.mp hrow
    rw [List.mem_singleton.mp hl]
    exact ⟨hlabel, .inr (hplain r hr)⟩
  · intro row hrow
    obtain ⟨r, _, rfl⟩ := List.mem_map.mp hrow
    rw [List.map_singleton, List.nodup_cons]
    exact ⟨fun hmem => hne (List.mem_singleton.mp hmem).symm, List.nodup_singleton _⟩
  · have hsets : (fun row : List SampleLabel × Nat => labelSet row.1) ∘
        (fun row : String × Nat => ([⟨label, row.1, false⟩], row.2)) =
          (fun value => {(label, value)}) ∘ Prod.fst := by
      funext row
      rfl
    rw [List.map_map, hsets, ← List.map_map]
    apply hnodup.map
    intro v v' heq
    exact (Prod.mk.inj (Finset.singleton_inj.mp heq)).2

/-! ### Buckets -/

theorem plain_scientific (s : Scientific) : AllPlain s.text.toList := by
  intro c hc
  rw [Scientific.text, String.toList_ofList] at hc
  obtain hdigit | rfl | rfl | rfl := Scientific.mem_chars hc
  · refine ⟨?_, ?_, ?_⟩ <;> rintro rfl <;> cases hdigit
  · decide
  · decide
  · decide

theorem plain_upperText (upper : Nat → Option ℚ) (i : Nat) :
    AllPlain (upperText upper i).toList := by
  rw [upperText]
  split
  · exact plain_scientific _
  · decide

/-- Bounds that differ are written differently. -/
theorem upperText_ne {upper : Nat → Option ℚ} (hupper : ExpAccurate upper) {i j : Nat}
    (hij : i < j) (hj : j < BUCKET_COUNT) : upperText upper i ≠ upperText upper j := by
  intro heq
  have hlt := writtenBound_lt hupper hij hj
  obtain ⟨a, ha, _⟩ := hupper.near i (hij.trans hj)
  obtain ⟨b, hb, _⟩ := hupper.near j hj
  rw [upperText, upperText, ha, hb] at heq
  rw [writtenBound, writtenBound, ha, hb] at hlt
  simp only [Scientific.text_inj heq, lt_self_iff_false] at hlt

theorem upperText_ne_infinity {upper : Nat → Option ℚ} (hupper : ExpAccurate upper) {i : Nat}
    (hi : i < BUCKET_COUNT) : upperText upper i ≠ "+Inf" := by
  intro heq
  obtain ⟨q, hq, _⟩ := hupper.near i hi
  rw [upperText, hq] at heq
  change (Scientific.ofRat 6 q).text = "+Inf" at heq
  -- the text of a number has an exponent
  have hexponent : 'e' ∈ (Scientific.ofRat 6 q).text.toList := by
    rw [Scientific.text, String.toList_ofList, Scientific.chars]
    exact List.mem_append_right _ List.mem_cons_self
  rw [heq] at hexponent
  exact absurd hexponent (by decide)

theorem readable_buckets {upper : Nat → Option ℚ} (hupper : ExpAccurate upper)
    {s : HistogramSnapshot} (hlen : s.buckets.length ≤ BUCKET_COUNT) (config : PrometheusConfig) :
    (⟨latencyName ++ "_bucket", bucketRows upper s config⟩ : Metric).Readable := by
  by_cases hcount : s.count = 0
  · rw [bucketRows, if_pos hcount]
    exact readable_nil _
  · have hrows : bucketRows upper s config =
        ((s.emitted config).map (fun e => (upperText upper e.1, e.2.toNat)) ++
          [("+Inf", s.count.toNat)]).map fun row => ([⟨"le", row.1, false⟩], row.2) := by
      rw [bucketRows, if_neg hcount, List.map_append, List.map_map]
      rfl
    have hbound : ∀ e ∈ s.emitted config, e.1 < BUCKET_COUNT := by
      intro e he
      exact (emitted_lt he).trans_le hlen
    rw [hrows]
    apply readable_oneLabel (by decide) (by decide)
    · intro row hrow
      rw [List.mem_append, List.mem_map, List.mem_singleton] at hrow
      obtain ⟨e, _, rfl⟩ | rfl := hrow
      · exact plain_upperText upper e.1
      · show AllPlain "+Inf".toList
        decide
    · rw [List.map_append, List.map_map, List.map_singleton, List.nodup_append]
      refine ⟨?_, List.nodup_singleton _, ?_⟩
      · rw [List.Nodup, List.pairwise_map]
        exact (emitted_pairwise s config).imp_of_mem fun _ hb hlt =>
          upperText_ne hupper hlt (hbound _ hb)
      · intro a ha b hb
        obtain ⟨e, he, rfl⟩ := List.mem_map.mp ha
        rw [List.mem_singleton.mp hb]
        exact upperText_ne_infinity hupper (hbound e he)

/-! ### Reasons -/

theorem plain_reasonLabel (i : Nat) : AllPlain (reasonLabel i).toList := by
  rw [reasonLabel]
  split
  · next reason _ => cases reason <;> decide +kernel
  · decide

theorem reasonLabel_nodup : ((List.range REASON_COUNT).map reasonLabel).Nodup := by decide

theorem filterMap_unless {α β : Type*} (absent : α → Prop) [DecidablePred absent] (f : α → β)
    (l : List α) :
    (l.filterMap fun a => if absent a then none else some (f a)) =
      (l.filter fun a => ¬ absent a).map f := by
  induction l with
  | nil => rfl
  | cons a l ih =>
      by_cases ha : absent a
      · simp [ha, ih]
      · simp [ha, ih]

theorem readable_rates {resolveRates : List UInt64} (hlen : resolveRates.length ≤ REASON_COUNT) :
    (⟨"confidence_resolves_total", rateRows resolveRates⟩ : Metric).Readable := by
  have hrows : rateRows resolveRates =
      ((resolveRates.zipIdx.filter fun e => ¬ e.1 = 0).map fun e =>
        (reasonLabel e.2, e.1.toNat)).map fun row => ([⟨"reason", row.1, false⟩], row.2) := by
    rw [rateRows, filterMap_unless, List.map_map]
    rfl
  rw [hrows]
  apply readable_oneLabel (by decide) (by decide)
  · intro row hrow
    obtain ⟨e, _, rfl⟩ := List.mem_map.mp hrow
    exact plain_reasonLabel e.2
  · rw [List.map_map]
    have hsub : ((resolveRates.zipIdx.filter fun e => ¬ e.1 = 0).map fun e =>
        reasonLabel e.2).Sublist ((List.range REASON_COUNT).map reasonLabel) := by
      have hall : (resolveRates.zipIdx.map fun e => reasonLabel e.2) =
          (List.range resolveRates.length).map reasonLabel := by
        rw [List.range_eq_range', ← List.zipIdx_map_snd 0 resolveRates, List.map_map]
        rfl
      have hrange : (List.range resolveRates.length).Sublist (List.range REASON_COUNT) :=
        List.range_sublist.mpr hlen
      exact (List.filter_sublist.map _).trans (hall ▸ hrange.map reasonLabel)
    exact hsub.nodup reasonLabel_nodup

/-! ### Provider initializations -/

theorem not_digit_of_alpha {c : Char} (h : c.isAlpha = true) : c.isDigit = false := by
  have hletter : 'A'.val.toNat ≤ c.val.toNat := by
    obtain hupper | hlower := Bool.or_eq_true_iff.mp h
    · exact (of_decide_eq_true hupper : _ ∧ _).1
    · have hle : 'a'.val.toNat ≤ c.val.toNat := of_decide_eq_true (Bool.and_eq_true_iff.mp hlower).1
      exact le_trans (by decide) hle
  apply Bool.and_eq_false_iff.mpr
  right
  apply decide_eq_false
  intro hdigit
  have hle : c.val.toNat ≤ '9'.val.toNat := hdigit
  exact absurd (hletter.trans hle) (by decide)

theorem isName_of_isValidLabelName {name : String} (h : isValidLabelName name = true) :
    isName isNameChar name.toList = true := by
  rw [isValidLabelName] at h
  cases hname : name.toList with
  | nil =>
      rw [hname] at h
      cases h
  | cons c cs =>
      rw [hname] at h
      rw [Bool.and_eq_true] at h
      have hstart : c.isDigit = false ∧ isNameChar c = true := by
        obtain ⟨hc, _⟩ := h
        rw [Bool.or_eq_true] at hc
        obtain halpha | hunderscore := hc
        · exact ⟨not_digit_of_alpha halpha, by rw [isNameChar, Char.isAlphanum, halpha]; rfl⟩
        · rw [eq_of_beq hunderscore]
          exact ⟨rfl, rfl⟩
      rw [isName, List.all_cons, hstart.1, hstart.2]
      exact h.2

theorem legible_entryLabels (labels : Labels) : ∀ l ∈ entryLabels labels, l.Legible := by
  intro l hl
  obtain ⟨e, he, rfl⟩ := List.mem_map.mp hl
  have hrenders := (List.mem_filter.mp he).2
  rw [rendersLabel, Bool.and_eq_true, Bool.and_eq_true] at hrenders
  exact ⟨isName_of_isValidLabelName hrenders.1.1, .inl rfl⟩

theorem nodup_entryLabels (labels : Labels) :
    ("resolver_id" :: (entryLabels labels).map SampleLabel.name).Nodup := by
  rw [List.nodup_cons]
  constructor
  · intro hmem
    obtain ⟨l, hl, hname⟩ := List.mem_map.mp hmem
    obtain ⟨e, he, rfl⟩ := List.mem_map.mp hl
    have hrenders := (List.mem_filter.mp he).2
    rw [rendersLabel, Bool.and_eq_true] at hrenders
    exact of_decide_eq_true hrenders.2 hname
  · rw [entryLabels, List.map_map]
    -- the entries of a map are in the order of their keys
    have hsorted := labels.sorted.filter fun e => rendersLabel (ofLex e).1
    exact List.pairwise_map.mpr (hsorted.imp fun hlt => hlt.ne)

/-- No two entries with a count are rendered with the same labels. -/
def InitsDistinct (providerInitRate : List ProviderInitSnapshot) : Prop :=
  ((providerInitRate.filter fun e => ¬ e.count = 0).map fun e =>
    labelSet (entryLabels e.labels)).Nodup

/-- Where no label is left out, the label maps tell the entries apart. -/
theorem initsDistinct_of_rendered {providerInitRate : List ProviderInitSnapshot}
    (hnodup : (providerInitRate.map fun e => e.labels).Nodup)
    (hrendered : ∀ e ∈ providerInitRate, ∀ l ∈ e.labels.entries, rendersLabel (ofLex l).1 = true) :
    InitsDistinct providerInitRate := by
  have hset : ∀ e ∈ providerInitRate, labelSet (entryLabels e.labels) =
      (e.labels.entries.map ofLex).toFinset := by
    intro e he
    rw [labelSet, entryLabels, List.filter_eq_self.mpr (hrendered e he), List.map_map]
    rfl
  have hkeys : ∀ labels : Labels, (labels.entries.map ofLex).Pairwise fun a b => a.1 < b.1 :=
    fun labels => List.pairwise_map.mpr labels.sorted
  rw [InitsDistinct, List.Nodup, List.pairwise_map]
  rw [List.Nodup, List.pairwise_map] at hnodup
  apply (hnodup.filter _).imp_of_mem
  intro a b ha hb hne heq
  apply hne
  rw [hset a (List.mem_of_mem_filter ha), hset b (List.mem_of_mem_filter hb)] at heq
  -- both list the same labels in the order of their keys
  have hperm := List.perm_of_nodup_nodup_toFinset_eq
    ((hkeys a.labels).imp fun hlt => ne_of_apply_ne Prod.fst hlt.ne)
    ((hkeys b.labels).imp fun hlt => ne_of_apply_ne Prod.fst hlt.ne) heq
  have hlists := hperm.eq_of_pairwise
    (fun _ _ _ _ hab hba => absurd hab (lt_asymm hba)) (hkeys a.labels) (hkeys b.labels)
  exact Labels.entries_injective (List.map_injective_iff.mpr ofLex.injective hlists)

theorem readable_inits {providerInitRate : List ProviderInitSnapshot}
    (h : InitsDistinct providerInitRate) :
    (⟨"confidence_provider_init_total", initRows providerInitRate⟩ : Metric).Readable := by
  rw [initRows, filterMap_unless]
  refine ⟨?_, ?_, ?_⟩
  · intro row hrow
    obtain ⟨e, _, rfl⟩ := List.mem_map.mp hrow
    exact legible_entryLabels e.labels
  · intro row hrow
    obtain ⟨e, _, rfl⟩ := List.mem_map.mp hrow
    exact nodup_entryLabels e.labels
  · rw [List.map_map]
    exact h

/-! ### Main results -/

theorem forall_metrics {P : Metric → Prop} {upper : Nat → Option ℚ} {s : TelemetrySnapshot}
    {config : PrometheusConfig} (hnumber : ∀ name value, P (numberMetric name value))
    (hbuckets : P ⟨latencyName ++ "_bucket", bucketRows upper s.latency config⟩)
    (hrates : P ⟨"confidence_resolves_total", rateRows s.resolveRates⟩)
    (hinits : P ⟨"confidence_provider_init_total", initRows s.providerInitRate⟩) :
    ∀ m ∈ s.metrics upper config, P m := by
  simp only [TelemetrySnapshot.metrics, List.forall_mem_cons, hnumber, hbuckets, hrates, hinits,
    List.not_mem_nil, false_implies, implies_true, and_self]

def metricNames : List String :=
  ["confidence_resolve_latency_microseconds_bucket", "confidence_resolve_latency_microseconds_sum",
    "confidence_resolve_latency_microseconds_count", "confidence_resolves_total",
    "confidence_memory_bytes", "confidence_apply_dedup_applies_total",
    "confidence_apply_dedup_deduped_total", "confidence_apply_dedup_overflow_total",
    "confidence_apply_dedup_sweeps_total", "confidence_apply_dedup_map_size",
    "confidence_apply_dedup_map_capacity", "confidence_flush_succeeded_total",
    "confidence_flush_failed_total", "confidence_events_published_total",
    "confidence_event_batches_succeeded_total", "confidence_event_batches_failed_total",
    "confidence_events_rejected_total", "confidence_provider_init_total"]

theorem names_metrics (upper : Nat → Option ℚ) (s : TelemetrySnapshot)
    (config : PrometheusConfig) : (s.metrics upper config).map Metric.name = metricNames := rfl

theorem metricNames_nodup : metricNames.Nodup := by decide +kernel

theorem isName_metricNames : ∀ name ∈ metricNames, isName isMetricChar name.toList = true := by
  decide +kernel

/-- Every number is written as one, in both formats. -/
theorem isNumber_value (n : Nat) (config : PrometheusConfig) :
    isNumber (toString n ++ config.suffix).toList = true := by
  have hdigits : ∀ c ∈ Nat.toDigits 10 n, c.isDigit = true := fun c hc =>
    Nat.isDigit_of_mem_toDigits (by norm_num) (by norm_num) hc
  have hne : Nat.toDigits 10 n ≠ [] := Nat.toDigits_ne_nil
  have hchars : (toString n ++ config.suffix).toList =
      Nat.toDigits 10 n ++ config.suffix.toList := by
    rw [String.toList_append, Nat.toString_eq_repr, Nat.toList_repr]
  rw [hchars, PrometheusConfig.suffix, isNumber]
  split
  · obtain ⟨htake, hdrop⟩ := takeWhile_name hdigits (c := '.') rfl ['0']
    have hfraction : ".0".toList = '.' :: ['0'] := rfl
    rw [hfraction, htake, hdrop, List.isEmpty_eq_false_iff.mpr hne]
    rfl
  · have htake : (Nat.toDigits 10 n).takeWhile Char.isDigit = Nat.toDigits 10 n :=
      List.takeWhile_eq_self_iff.mpr hdigits
    have hdrop : (Nat.toDigits 10 n).dropWhile Char.isDigit = [] :=
      List.dropWhile_eq_nil_iff.mpr hdigits
    have hempty : "".toList = [] := rfl
    rw [hempty, List.append_nil, htake, hdrop, List.isEmpty_eq_false_iff.mpr hne]
    rfl

theorem isName_resolver_id : isName isNameChar "resolver_id".toList = true := by decide

theorem legible_rowSample {m : Metric} (h : m.Readable)
    (hname : isName isMetricChar m.name.toList = true) {resolverId : String}
    (hplain : AllPlain resolverId.toList) (config : PrometheusConfig)
    {row : List SampleLabel × Nat} (hrow : row ∈ m.rows) :
    (rowSample config resolverId m.name row).Legible where
  name := hname
  labels :=
    List.forall_mem_cons.mpr ⟨⟨isName_resolver_id, .inr hplain⟩, h.legible row hrow⟩
  labelled := List.cons_ne_nil _ _
  names := h.names row hrow
  value := isNumber_value row.2 config

/-- What tells samples apart. -/
def Sample.key (s : Sample) : String × Finset (String × String) := (s.name, labelSet s.labels)

theorem keys_nodup {m : Metric} (h : m.Readable) (config : PrometheusConfig)
    (resolverId : String) : ((m.samples config resolverId).map Sample.key).Nodup := by
  have hnot : ∀ row ∈ m.rows, ("resolver_id", resolverId) ∉ labelSet row.1 := by
    intro row hrow hmem
    rw [labelSet, List.mem_toFinset] at hmem
    obtain ⟨l, hl, heq⟩ := List.mem_map.mp hmem
    have hnames := h.names row hrow
    rw [List.nodup_cons] at hnames
    exact hnames.1 (List.mem_map.mpr ⟨l, hl, (Prod.mk.inj heq).1⟩)
  have hdistinct := h.distinct
  rw [List.Nodup, List.pairwise_map] at hdistinct
  rw [Metric.samples, List.map_map, List.Nodup, List.pairwise_map]
  apply hdistinct.imp_of_mem
  intro a b ha hb hne heq
  apply hne
  have hsets : insert ("resolver_id", resolverId) (labelSet a.1) =
      insert ("resolver_id", resolverId) (labelSet b.1) := by
    have hsecond := (Prod.mk.inj heq).2
    rw [rowSample, rowSample] at hsecond
    simpa only [labelSet, List.map_cons, List.toFinset_cons] using hsecond
  rw [← Finset.erase_insert (hnot a ha), hsets, Finset.erase_insert (hnot b hb)]

/-- Each sample is a line of the text. -/
theorem toPrometheus_line {upper : Nat → Option ℚ} {s : TelemetrySnapshot} {resolverId : String}
    {config : PrometheusConfig} {sample : Sample}
    (h : sample ∈ samplesOf (s.writePrometheus upper resolverId config)) :
    ∃ before after, (s.toPrometheus upper resolverId config).toList =
        before ++ (sample.text.toList ++ '\n' :: after) ∧
      (before = [] ∨ ∃ line, before = line ++ ['\n']) := by
  obtain ⟨line, hline, hsome⟩ := List.mem_filterMap.mp h
  cases line with
  | comment text => cases hsome
  | sample sample' =>
      cases hsome
      obtain ⟨front, back, hlines⟩ := List.append_of_mem hline
      refine ⟨(String.join (front.map fun l => l.text ++ "\n")).toList,
        (String.join (back.map fun l => l.text ++ "\n")).toList, ?_, ?_⟩
      · rw [TelemetrySnapshot.toPrometheus, hlines, List.map_append, List.map_cons,
          String.join_append, String.join_cons, String.toList_append, String.toList_append,
          String.toList_append, List.append_assoc]
        rfl
      · rcases List.eq_nil_or_concat front with rfl | ⟨front', l, rfl⟩
        · left
          rfl
        · right
          refine ⟨(String.join (front'.map fun l => l.text ++ "\n")).toList ++ l.text.toList, ?_⟩
          rw [List.concat_eq_append, List.map_append, String.join_append, List.map_singleton,
            String.join_cons, String.join_nil, String.append_empty, String.toList_append,
            String.toList_append, List.append_assoc]
          rfl

/-- **The exposition is well formed.**  Each sample is a line of the text and is read as it was
given, and no two are of one metric with the same labels.  Of the labels of a provider
initialization, those are left out whose names would break the scrape.  The resolver id has nothing
to escape, there are no more buckets and rates than the collector has, and the rendered labels tell
the provider initializations apart. -/
theorem exposition_well_formed {upper : Nat → Option ℚ} (hupper : ExpAccurate upper)
    (s : TelemetrySnapshot) (resolverId : String) (config : PrometheusConfig)
    (hplain : AllPlain resolverId.toList)
    (hsized : s.Sized) (hinits : InitsDistinct s.providerInitRate) :
    (∀ sample ∈ samplesOf (s.writePrometheus upper resolverId config),
      parseSample sample.text.toList = some sample.parsed) ∧
    (∀ sample ∈ samplesOf (s.writePrometheus upper resolverId config),
      ∃ before after, (s.toPrometheus upper resolverId config).toList =
          before ++ (sample.text.toList ++ '\n' :: after) ∧
        (before = [] ∨ ∃ line, before = line ++ ['\n'])) ∧
    (∀ entry ∈ s.providerInitRate, entry.count ≠ 0 →
      ∃ sample ∈ samplesOf (s.writePrometheus upper resolverId config),
        sample.key = ("confidence_provider_init_total", insert ("resolver_id", resolverId)
          ((entry.labels.entries.map ofLex).filter fun e => rendersLabel e.1).toFinset)) ∧
    ((samplesOf (s.writePrometheus upper resolverId config)).map Sample.key).Nodup := by
  have hreadable : ∀ m ∈ s.metrics upper config, m.Readable :=
    forall_metrics readable_numberMetric (readable_buckets hupper hsized.buckets config)
      (readable_rates hsized.rates) (readable_inits hinits)
  have hlines := fun sample => @toPrometheus_line upper s resolverId config sample
  rw [samples_writePrometheus] at hlines ⊢
  refine ⟨?_, hlines, ?_, ?_⟩
  · intro sample hsample
    obtain ⟨m, hm, hmem⟩ := List.mem_flatMap.mp hsample
    obtain ⟨row, hrow, rfl⟩ := List.mem_map.mp hmem
    have hname : m.name ∈ metricNames := by
      rw [← names_metrics upper s config]
      exact List.mem_map_of_mem hm
    exact Sample.parse_text
      (legible_rowSample (hreadable m hm) (isName_metricNames _ hname) hplain config hrow)
  · intro entry hentry hcount
    refine ⟨rowSample config resolverId "confidence_provider_init_total"
      (entryLabels entry.labels, entry.count.toNat), ?_, ?_⟩
    · apply List.mem_flatMap.mpr
      refine ⟨⟨_, initRows s.providerInitRate⟩, ?_, List.mem_map_of_mem ?_⟩
      · simp only [TelemetrySnapshot.metrics, List.mem_cons, List.not_mem_nil, or_false, or_true]
      · exact List.mem_filterMap.mpr ⟨entry, hentry, if_neg hcount⟩
    · have hlabels : ((entryLabels entry.labels).map fun l => (l.name, l.value)) =
          (entry.labels.entries.map ofLex).filter fun e => rendersLabel e.1 := by
        rw [entryLabels, List.map_map, List.filter_map]
        rfl
      rw [Sample.key, rowSample, labelSet, List.map_cons, List.toFinset_cons, hlabels]
  · rw [List.map_flatMap, List.nodup_flatMap]
    refine ⟨fun m hm => keys_nodup (hreadable m hm) config resolverId, ?_⟩
    have hnames : ((s.metrics upper config).map Metric.name).Nodup := by
      rw [names_metrics]
      exact metricNames_nodup
    rw [List.Nodup, List.pairwise_map] at hnames
    -- samples of two metrics differ in the name
    apply hnames.imp
    intro m m' hne key hkey hkey'
    obtain ⟨sample, hsample, rfl⟩ := List.mem_map.mp hkey
    obtain ⟨sample', hsample', heq⟩ := List.mem_map.mp hkey'
    obtain ⟨row, _, rfl⟩ := List.mem_map.mp hsample
    obtain ⟨row', _, rfl⟩ := List.mem_map.mp hsample'
    exact hne (Prod.mk.inj heq).1.symm

def sampleLabels : Labels := ⟨[toLex ("encryption-mode", "true")], List.pairwise_singleton _ _⟩

/-- A value with everything that is escaped. -/
def escapedLabels : Labels :=
  ⟨[toLex ("host", "a\"b\\c\nd"), toLex ("mode", "wasm")], by decide⟩

/-- All writers but two, a provider initialization of which a label is left out, and one with a
value to escape. -/
theorem exposition_well_formed_sample :
    let s : TelemetrySnapshot :=
      { latency := { sum := 4, count := 3, buckets := [1, 0, 2] }
        resolveRates := [0, 2]
        memoryBytes := 7
        flush := { succeeded := 1, failed := 0 }
        providerInitRate := [⟨sampleLabels, 1⟩, ⟨escapedLabels, 2⟩] }
    (∀ sample ∈ samplesOf (s.writePrometheus sampleUpper "w0" {}),
      parseSample sample.text.toList = some sample.parsed) ∧
    (∃ sample ∈ samplesOf (s.writePrometheus sampleUpper "w0" {}),
      sample.key = ("confidence_provider_init_total",
        {("resolver_id", "w0"), ("host", "a\"b\\c\nd"), ("mode", "wasm")})) ∧
    ((samplesOf (s.writePrometheus sampleUpper "w0" {})).map Sample.key).Nodup := by
  intro s
  have hdistinct : InitsDistinct s.providerInitRate := by
    unfold InitsDistinct
    decide +kernel
  obtain ⟨hread, -, hinits, hkeys⟩ := exposition_well_formed sampleUpper_accurate s "w0" {}
    (by decide) ⟨by decide, by decide⟩ hdistinct
  have hlabels : ((escapedLabels.entries.map ofLex).filter fun e => rendersLabel e.1).toFinset =
      {("host", "a\"b\\c\nd"), ("mode", "wasm")} := by decide +kernel
  have hentry := hinits ⟨escapedLabels, 2⟩ (by simp [s]) (by decide)
  rw [hlabels] at hentry
  exact ⟨hread, hentry, hkeys⟩

/-- A label name is left out that would break the scrape; a resolver id is written that does. -/
theorem exposition_not_as_given :
    (samplesOf (TelemetrySnapshot.writePrometheus sampleUpper
        { providerInitRate := [⟨sampleLabels, 1⟩] } "w0" {})).map (fun sample =>
          parseSample sample.text.toList) =
      [some ⟨"confidence_provider_init_total".toList, [("resolver_id".toList, "w0".toList)],
        "1".toList⟩] ∧
    (samplesOf (TelemetrySnapshot.writePrometheus sampleUpper { memoryBytes := 1 } "w\"0" {})).map
        (fun sample => parseSample sample.text.toList) = [none] := by
  constructor
  · decide +kernel
  · decide +kernel

theorem intercalate_cons (l : List Char) (ls : List (List Char)) :
    ∃ t, [','].intercalate (l :: ls) = l ++ t := by
  cases ls with
  | nil => exact ⟨[], by rw [List.intercalate_singleton, List.append_nil]⟩
  | cons l' ls => exact ⟨_, by rw [List.intercalate_cons_cons, List.append_assoc]⟩

/-- **For no other resolver id is a sample read as it was given.** -/
theorem plain_of_legible {upper : Nat → Option ℚ} {s : TelemetrySnapshot} {resolverId : String}
    {config : PrometheusConfig} {sample : Sample}
    (hmem : sample ∈ samplesOf (s.writePrometheus upper resolverId config))
    (hread : parseSample sample.text.toList = some sample.parsed) :
    AllPlain resolverId.toList := by
  rw [samples_writePrometheus] at hmem
  obtain ⟨m, hm, hmem⟩ := List.mem_flatMap.mp hmem
  obtain ⟨row, _, rfl⟩ := List.mem_map.mp hmem
  have hname : m.name ∈ metricNames := by
    rw [← names_metrics upper s config]
    exact List.mem_map_of_mem hm
  have hfirst : ∃ cs, (rowSample config resolverId m.name row).text.toList =
      m.name.toList ++ '{' :: ("resolver_id".toList ++ '=' :: '"' ::
        (resolverId.toList ++ '"' :: cs)) := by
    obtain ⟨t, ht⟩ := intercalate_cons
      (labelChars "resolver_id".toList resolverId.toList) (row.1.map fun l => l.text.toList)
    refine ⟨t ++ '}' :: ' ' :: (toString row.2 ++ config.suffix).toList, ?_⟩
    have hlabel : (SampleLabel.mk "resolver_id" resolverId false).text.toList =
        labelChars "resolver_id".toList resolverId.toList := SampleLabel.toList_text _
    rw [Sample.toList_text, lineChars, rowSample, List.map_cons, hlabel, ht, labelChars]
    simp only [List.append_assoc, List.cons_append, List.nil_append]
  obtain ⟨cs, hcs⟩ := hfirst
  rw [hcs] at hread
  obtain ⟨rest, hvalue⟩ := readValue_of_parseSample (isName_metricNames _ hname)
    isName_resolver_id hread rfl
  exact plain_of_readValue hvalue

end ConfidenceResolver
