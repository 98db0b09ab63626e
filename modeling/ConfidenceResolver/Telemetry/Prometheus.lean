import ConfidenceResolver.Support.Scientific
import ConfidenceResolver.Telemetry.Collector

/-!
# Telemetry — the Prometheus exposition

`TelemetrySnapshot::to_prometheus` of `telemetry.rs`.  A writer writes lines: comments, and samples
with a name, labels and a value.

The upper bound of a bucket is `exp((i + 1) * LN_RATIO)`, where `exp` is the platform's: the
parameter `upper`, which is `none` where the power is infinite.
-/

namespace ConfidenceResolver

/-- `PrometheusConfig`. -/
structure PrometheusConfig where
  bucketsPerDecade : UInt32 := 18
  openmetrics : Bool := false

/-! ### Lines -/

/-- `escape_label_value`, of one character. -/
def escapeChar : Char → List Char
  | '\\' => ['\\', '\\']
  | '"' => ['\\', '"']
  | '\n' => ['\\', 'n']
  | c => [c]

/-- `escape_label_value`. -/
def escapeLabelValue (value : String) : String := String.ofList (value.toList.flatMap escapeChar)

/-- A label of a sample, and whether its value is escaped when it is written. -/
structure SampleLabel where
  name : String
  value : String
  escaped : Bool
deriving DecidableEq

/-- What is written between the quotes. -/
def SampleLabel.written (l : SampleLabel) : String :=
  if l.escaped then escapeLabelValue l.value else l.value

def SampleLabel.text (l : SampleLabel) : String := l.name ++ "=\"" ++ l.written ++ "\""

structure Sample where
  name : String
  labels : List SampleLabel
  value : String
deriving DecidableEq

def Sample.text (s : Sample) : String :=
  s.name ++ "\x7b" ++ ",".intercalate (s.labels.map SampleLabel.text) ++ "\x7d " ++ s.value

/-- A line of the exposition, less its line feed. -/
inductive Line where
  | comment (text : String)
  | sample (s : Sample)
deriving DecidableEq

def Line.text : Line → String
  | .comment text => text
  | .sample s => s.text

def Line.sample? : Line → Option Sample
  | .comment _ => none
  | .sample s => some s

/-! ### Writing one metric -/

/-- What is written behind a number. -/
def PrometheusConfig.suffix (config : PrometheusConfig) : String :=
  if config.openmetrics then ".0" else ""

/-- The name in the comments of a counter. -/
def PrometheusConfig.typeName (config : PrometheusConfig) (base : String) : String :=
  if config.openmetrics then base else base ++ "_total"

def helpLine (name help : String) : Line := .comment ("# HELP " ++ name ++ " " ++ help)

def typeLine (name kind : String) : Line := .comment ("# TYPE " ++ name ++ " " ++ kind)

/-- The sample of one number. -/
def sampleLine (config : PrometheusConfig) (resolverId name : String) (labels : List SampleLabel)
    (value : Nat) : Line :=
  .sample ⟨name, ⟨"resolver_id", resolverId, false⟩ :: labels, toString value ++ config.suffix⟩

/-- The comments of a counter. -/
def counterHeader (config : PrometheusConfig) (base help : String) : List Line :=
  [helpLine (config.typeName base) help, typeLine (config.typeName base) "counter"]

def counterLines (config : PrometheusConfig) (resolverId base help : String) (value : Nat) :
    List Line :=
  counterHeader config base help ++ [sampleLine config resolverId (base ++ "_total") [] value]

def gaugeLines (config : PrometheusConfig) (resolverId name help : String) (value : Nat) :
    List Line :=
  [helpLine name help, typeLine name "gauge", sampleLine config resolverId name [] value]

/-! ### The histogram -/

def latencyName : String := "confidence_resolve_latency_microseconds"

/-- How many buckets a line stands for. -/
def PrometheusConfig.stride (config : PrometheusConfig) : Nat :=
  let bpd := if config.bucketsPerDecade = 0 then 18
    else max 1 (min config.bucketsPerDecade.toNat 18)
  (18 + bpd - 1) / bpd

/-- The loop of `write_histogram` from bucket `i` on: the buckets for which a line is written, each
with its count. -/
def bucketLoop (stride : Nat) (cumulative : UInt64) (nextEmit i : Nat) :
    List UInt64 → List (Nat × UInt64)
  | [] => []
  | count :: counts =>
      if i ≠ nextEmit then bucketLoop stride (cumulative + count) nextEmit (i + 1) counts
      else if cumulative + count = 0 then
        bucketLoop stride (cumulative + count) (nextEmit + stride) (i + 1) counts
      else
        (i, cumulative + count) ::
          bucketLoop stride (cumulative + count) (nextEmit + stride) (i + 1) counts

/-- The buckets for which a line is written. -/
def HistogramSnapshot.emitted (s : HistogramSnapshot) (config : PrometheusConfig) :
    List (Nat × UInt64) :=
  bucketLoop config.stride 0 (config.stride - 1) 0 s.buckets

section Histogram

variable (upper : Nat → Option ℚ)

/-- The upper bound as `{:.6e}`. -/
def upperText (i : Nat) : String :=
  match upper i with
  | some q => (Scientific.ofRat 6 q).text
  | none => "inf"

def bucketLine (config : PrometheusConfig) (resolverId le : String) (count : UInt64) : Line :=
  sampleLine config resolverId (latencyName ++ "_bucket") [⟨"le", le, false⟩] count.toNat

def writeHistogram (s : HistogramSnapshot) (resolverId : String) (config : PrometheusConfig) :
    List Line :=
  if s.count = 0 then []
  else
    [helpLine latencyName "Latency of flag resolve operations in microseconds.",
      typeLine latencyName "histogram"] ++
    (s.emitted config).map (fun e => bucketLine config resolverId (upperText upper e.1) e.2) ++
    [bucketLine config resolverId "+Inf" s.count,
      sampleLine config resolverId (latencyName ++ "_sum") [] s.sum.toNat,
      sampleLine config resolverId (latencyName ++ "_count") [] s.count.toNat]

end Histogram

/-! ### Counters and gauges -/

/-- `ResolveReason::as_str_name`. -/
def ResolveReason.asStrName : ResolveReason → String
  | .unspecified => "RESOLVE_REASON_UNSPECIFIED"
  | .match => "RESOLVE_REASON_MATCH"
  | .noSegmentMatch => "RESOLVE_REASON_NO_SEGMENT_MATCH"
  | .noTreatmentMatch => "RESOLVE_REASON_NO_TREATMENT_MATCH"
  | .flagArchived => "RESOLVE_REASON_FLAG_ARCHIVED"
  | .targetingKeyError => "RESOLVE_REASON_TARGETING_KEY_ERROR"
  | .error => "RESOLVE_REASON_ERROR"
  | .unrecognizedTargetingRule => "RESOLVE_REASON_UNRECOGNIZED_TARGETING_RULE"
  | .materializationNotSupported => "RESOLVE_REASON_MATERIALIZATION_NOT_SUPPORTED"
  | .typeMismatch => "RESOLVE_REASON_TYPE_MISMATCH"
  | .flagNotFound => "RESOLVE_REASON_FLAG_NOT_FOUND"

/-- `ResolveReason::try_from`. -/
def ResolveReason.tryFrom (i : Int32) : Option ResolveReason :=
  [.unspecified, .match, .noSegmentMatch, .noTreatmentMatch, .flagArchived, .targetingKeyError,
    .error, .unrecognizedTargetingRule, .materializationNotSupported, .typeMismatch,
    .flagNotFound].find? fun reason => Int32.ofNat reason.discriminant == i

/-- The label of the resolves counted at an index. -/
def reasonLabel (i : Nat) : String :=
  match ResolveReason.tryFrom (Int32.ofNat i) with
  | some reason => reason.asStrName
  | none => "UNKNOWN"

def writeResolveRates (resolveRates : List UInt64) (resolverId : String)
    (config : PrometheusConfig) : List Line :=
  if resolveRates.any (fun c => 0 < c) then
    counterHeader config "confidence_resolves" "Total number of flag resolve operations." ++
    resolveRates.zipIdx.filterMap fun e =>
      if e.1 = 0 then none
      else
        some (sampleLine config resolverId "confidence_resolves_total"
          [⟨"reason", reasonLabel e.2, false⟩] e.1.toNat)
  else []

def writeMemory (memoryBytes : UInt64) (resolverId : String) (config : PrometheusConfig) :
    List Line :=
  if memoryBytes = 0 then []
  else gaugeLines config resolverId "confidence_memory_bytes"
    "Current memory usage of the resolver in bytes." memoryBytes.toNat

def ApplyDedupSnapshot.hasActivity (s : ApplyDedupSnapshot) : Bool := 0 < s.appliesTotal

def writeApplyDedup (applyDedup : Option ApplyDedupSnapshot) (resolverId : String)
    (config : PrometheusConfig) : List Line :=
  match applyDedup.filter ApplyDedupSnapshot.hasActivity with
  | none => []
  | some ad =>
      counterLines config resolverId "confidence_apply_dedup_applies"
        "Total flag apply events processed by dedup." ad.appliesTotal.toNat ++
      counterLines config resolverId "confidence_apply_dedup_deduped"
        "Duplicate apply events filtered out." ad.appliesDeduped.toNat ++
      counterLines config resolverId "confidence_apply_dedup_overflow"
        ("Unique apply events that passed the dedup filter but could not be cached " ++
          "(map full).") ad.applyDedupOverflow.toNat ++
      counterLines config resolverId "confidence_apply_dedup_sweeps"
        "Number of dedup map sweep operations." ad.sweeps.toNat ++
      gaugeLines config resolverId "confidence_apply_dedup_map_size"
        "Current entries in the dedup map." ad.mapSize.toNat ++
      gaugeLines config resolverId "confidence_apply_dedup_map_capacity"
        "Maximum entries allowed in the dedup map." ad.mapCapacity.toNat

def writeFlush (flush : FlushSnapshot) (resolverId : String) (config : PrometheusConfig) :
    List Line :=
  if flush.succeeded = 0 ∧ flush.failed = 0 then []
  else
    counterLines config resolverId "confidence_flush_succeeded"
      "Successful WriteFlagLogs batch deliveries." flush.succeeded.toNat ++
    counterLines config resolverId "confidence_flush_failed"
      "Failed WriteFlagLogs batch deliveries." flush.failed.toNat

/-- A counter that is left out while it is zero. -/
def eventLines (config : PrometheusConfig) (resolverId base help : String) (value : UInt64) :
    List Line :=
  if 0 < value then counterLines config resolverId base help value.toNat else []

/-- When all are zero, the source returns before; what it writes is the same. -/
def writeEvents (events : EventsSnapshot) (resolverId : String) (config : PrometheusConfig) :
    List Line :=
  eventLines config resolverId "confidence_events_published" "Total events published."
    events.published ++
  eventLines config resolverId "confidence_event_batches_succeeded"
    "Successful event batch deliveries." events.batchesSucceeded ++
  eventLines config resolverId "confidence_event_batches_failed" "Failed event batch deliveries."
    events.batchesFailed ++
  eventLines config resolverId "confidence_events_rejected"
    "Total events rejected by the events service." events.eventsRejected

/-! ### Provider initializations -/

def isValidLabelName (name : String) : Bool :=
  match name.toList with
  | [] => false
  | c :: cs => (c.isAlpha || c == '_') && cs.all fun c => c.isAlphanum || c == '_'

/-- Whether a label of an entry is rendered: others would break the scrape. -/
def rendersLabel (key : String) : Bool :=
  isValidLabelName key && !"__".toList.isPrefixOf key.toList && key ≠ "resolver_id"

/-- The labels of an entry that are rendered. -/
def entryLabels (labels : Labels) : List SampleLabel :=
  (labels.entries.filter fun e => rendersLabel (ofLex e).1).map fun e =>
    ⟨(ofLex e).1, (ofLex e).2, true⟩

def writeProviderInit (providerInitRate : List ProviderInitSnapshot) (resolverId : String)
    (config : PrometheusConfig) : List Line :=
  if providerInitRate.any (fun e => 0 < e.count) then
    counterHeader config "confidence_provider_init" "Total provider initializations." ++
    providerInitRate.filterMap fun entry =>
      if entry.count = 0 then none
      else
        some (sampleLine config resolverId "confidence_provider_init_total"
          (entryLabels entry.labels) entry.count.toNat)
  else []

/-! ### The exposition -/

/-- `write_prometheus`, line by line. -/
def TelemetrySnapshot.writePrometheus (upper : Nat → Option ℚ) (s : TelemetrySnapshot)
    (resolverId : String) (config : PrometheusConfig) : List Line :=
  writeHistogram upper s.latency resolverId config ++
  writeResolveRates s.resolveRates resolverId config ++
  writeMemory s.memoryBytes resolverId config ++
  writeApplyDedup s.applyDedup resolverId config ++
  writeFlush s.flush resolverId config ++
  writeEvents s.events resolverId config ++
  writeProviderInit s.providerInitRate resolverId config ++
  if config.openmetrics then [.comment "# EOF"] else []

/-- `TelemetrySnapshot::to_prometheus`. -/
def TelemetrySnapshot.toPrometheus (upper : Nat → Option ℚ) (s : TelemetrySnapshot)
    (resolverId : String) (config : PrometheusConfig) : String :=
  String.join ((s.writePrometheus upper resolverId config).map fun line => line.text ++ "\n")

end ConfidenceResolver
