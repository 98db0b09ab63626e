import ConfidenceResolver.Proto.Telemetry
import ConfidenceResolver.Support.Counters

/-!
# Telemetry — snapshots and how deltas are merged

The cumulative `TelemetrySnapshot` of `telemetry.rs` and the three places that add telemetry up:
`accumulate_delta` adds a delta to a snapshot, `merge_telemetry` of `flag_logger.rs` adds a delta
to a delta, and `merge_snapshots` of the worker adds a snapshot to a snapshot.

Counters wrap: `u32` in a delta, `u64` in a snapshot.
-/

namespace ConfidenceResolver

def BUCKET_COUNT : Nat := 174

/-- The number of `ResolveReason`s, generated from the enumeration. -/
def REASON_COUNT : Nat := 11

/-- `HistogramSnapshot`. -/
structure HistogramSnapshot where
  sum : UInt64 := 0
  count : UInt64 := 0
  buckets : List UInt64 := []
deriving DecidableEq

/-- `ApplyDedupSnapshot`. -/
structure ApplyDedupSnapshot where
  appliesTotal : UInt64 := 0
  appliesDeduped : UInt64 := 0
  applyDedupOverflow : UInt64 := 0
  sweeps : UInt64 := 0
  mapSize : UInt32 := 0
  mapCapacity : UInt32 := 0
deriving DecidableEq

/-- `FlushSnapshot`. -/
structure FlushSnapshot where
  succeeded : UInt64 := 0
  failed : UInt64 := 0
deriving DecidableEq

/-- `EventsSnapshot`. -/
structure EventsSnapshot where
  published : UInt64 := 0
  batchesSucceeded : UInt64 := 0
  batchesFailed : UInt64 := 0
  eventsRejected : UInt64 := 0
deriving DecidableEq

/-- `ProviderInitSnapshot`. -/
abbrev ProviderInitSnapshot := Labelled Labels UInt64

/-- `TelemetrySnapshot`. -/
structure TelemetrySnapshot where
  latency : HistogramSnapshot := {}
  resolveRates : List UInt64 := []
  memoryBytes : UInt64 := 0
  applyDedup : Option ApplyDedupSnapshot := none
  flush : FlushSnapshot := {}
  events : EventsSnapshot := {}
  providerInitRate : List ProviderInitSnapshot := []
deriving DecidableEq

/-! ### `TelemetrySnapshot::accumulate_delta` -/

/-- `usize::try_from(x)`, where it is below `bound`. -/
def index? (bound : Nat) (x : Int32) : Option Nat :=
  if 0 ≤ x.toInt ∧ x.toInt < bound then some x.toInt.toNat else none

/-- The loop over the counts of a span, from bucket `idx` on; it breaks behind the last bucket. -/
def addCounts (buckets : List UInt64) (idx : Nat) : List UInt32 → List UInt64
  | [] => buckets
  | count :: counts =>
    if BUCKET_COUNT ≤ idx then buckets
    else addCounts (Counters.addAt idx count.toUInt64 buckets) (idx + 1) counts

/-- Expand a span into the bucket array; a malformed span is skipped. -/
def addSpan (buckets : List UInt64) (span : BucketSpan) : List UInt64 :=
  match index? BUCKET_COUNT span.offset with
  | none => buckets
  | some base => addCounts buckets base span.counts

def accumulateLatency (latency : HistogramSnapshot) :
    Option ResolveLatency → HistogramSnapshot
  | none => latency
  | some d =>
    { sum := latency.sum + d.sum.toUInt64
      count := latency.count + d.count.toUInt64
      buckets := d.buckets.foldl addSpan latency.buckets }

/-- An unknown reason is skipped. -/
def addRate (rates : List UInt64) (rate : ResolveRate) : List UInt64 :=
  match index? REASON_COUNT rate.reason with
  | none => rates
  | some idx => Counters.addAt idx rate.count.toUInt64 rates

def accumulateDedup (ad : Option ApplyDedupSnapshot) :
    Option ApplyDedupTelemetry → Option ApplyDedupSnapshot
  | none => ad
  | some dedup =>
    let ad := ad.getD {}
    some
      { appliesTotal := ad.appliesTotal + dedup.appliesTotal.toUInt64
        appliesDeduped := ad.appliesDeduped + dedup.appliesDeduped.toUInt64
        applyDedupOverflow := ad.applyDedupOverflow + dedup.applyDedupOverflow.toUInt64
        sweeps := ad.sweeps + dedup.sweeps.toUInt64
        mapSize := dedup.mapSize
        mapCapacity := dedup.mapCapacity }

def accumulateFlush (s : FlushSnapshot) : Option FlushTelemetry → FlushSnapshot
  | none => s
  | some flush =>
    { succeeded := s.succeeded + flush.succeeded.toUInt64
      failed := s.failed + flush.failed.toUInt64 }

def accumulateEvents (s : EventsSnapshot) : Option EventsTelemetry → EventsSnapshot
  | none => s
  | some events =>
    { published := s.published + events.published.toUInt64
      batchesSucceeded := s.batchesSucceeded + events.batchesSucceeded.toUInt64
      batchesFailed := s.batchesFailed + events.batchesFailed.toUInt64
      eventsRejected := s.eventsRejected + events.eventsRejected.toUInt64 }

/-- The entry of a provider init rate in a snapshot. -/
def ProviderInitRate.snapshot (pir : ProviderInitRate) : ProviderInitSnapshot :=
  ⟨pir.labels, pir.count.toUInt64⟩

/-- `TelemetrySnapshot::accumulate_delta`. -/
def TelemetrySnapshot.accumulateDelta (s : TelemetrySnapshot) (td : TelemetryData) :
    TelemetrySnapshot where
  latency := accumulateLatency s.latency td.resolveLatency
  resolveRates := td.resolveRate.foldl addRate s.resolveRates
  memoryBytes := if 0 < td.memoryBytes then td.memoryBytes else s.memoryBytes
  applyDedup := accumulateDedup s.applyDedup td.applyDedup
  flush := accumulateFlush s.flush td.flush
  events := accumulateEvents s.events td.events
  providerInitRate :=
    td.providerInitRate.foldl (fun l pir => Labelled.addTo l (ProviderInitRate.snapshot pir))
      s.providerInitRate

/-! ### `merge_telemetry` -/

def mergeLatency : Option ResolveLatency → Option ResolveLatency → Option ResolveLatency
  | some a, some d =>
    some
      { sum := a.sum + d.sum
        count := a.count + d.count
        buckets := a.buckets ++ d.buckets
        lnRatio := if a.lnRatio == 0.0 then d.lnRatio else a.lnRatio }
  | none, some d => some d
  | a, none => a

def mergeRate (rates : List ResolveRate) (dr : ResolveRate) : List ResolveRate :=
  (updateFirst (fun ar => ar.reason = dr.reason) (fun ar => { ar with count := ar.count + dr.count })
    rates).getD (rates ++ [dr])

def mergeDedup : Option ApplyDedupTelemetry → Option ApplyDedupTelemetry →
    Option ApplyDedupTelemetry
  | some a, some d =>
    some
      { appliesTotal := a.appliesTotal + d.appliesTotal
        appliesDeduped := a.appliesDeduped + d.appliesDeduped
        applyDedupOverflow := a.applyDedupOverflow + d.applyDedupOverflow
        sweeps := a.sweeps + d.sweeps
        mapSize := d.mapSize
        mapCapacity := d.mapCapacity }
  | none, some d => some d
  | a, none => a

def mergeFlush : Option FlushTelemetry → Option FlushTelemetry → Option FlushTelemetry
  | some a, some d => some { succeeded := a.succeeded + d.succeeded, failed := a.failed + d.failed }
  | none, some d => some d
  | a, none => a

def mergeEvents : Option EventsTelemetry → Option EventsTelemetry → Option EventsTelemetry
  | some a, some d =>
    some
      { published := a.published + d.published
        batchesSucceeded := a.batchesSucceeded + d.batchesSucceeded
        batchesFailed := a.batchesFailed + d.batchesFailed
        eventsRejected := a.eventsRejected + d.eventsRejected }
  | none, some d => some d
  | a, none => a

/-- `merge_telemetry` into an accumulator that is there. -/
def TelemetryData.merge (acc delta : TelemetryData) : TelemetryData where
  sdk := acc.sdk
  resolveLatency := mergeLatency acc.resolveLatency delta.resolveLatency
  resolveRate := delta.resolveRate.foldl mergeRate acc.resolveRate
  stateAge := delta.stateAge.or acc.stateAge
  memoryBytes := if 0 < delta.memoryBytes then delta.memoryBytes else acc.memoryBytes
  resolverVersion :=
    if delta.resolverVersion = "" then acc.resolverVersion else delta.resolverVersion
  providerInitRate := delta.providerInitRate.foldl Labelled.addTo acc.providerInitRate
  applyDedup := mergeDedup acc.applyDedup delta.applyDedup
  flush := mergeFlush acc.flush delta.flush
  events := mergeEvents acc.events delta.events

/-- `merge_telemetry`. -/
def mergeTelemetry (acc : Option TelemetryData) (delta : TelemetryData) : TelemetryData :=
  (acc.getD {}).merge delta

/-! ### `merge_snapshots` -/

/-- `GaugeSource`: whether a snapshot's gauges are current readings. -/
inductive GaugeSource where
  | live
  | frozen
deriving DecidableEq

def mergeDedupSnapshots (gauges : GaugeSource) :
    Option ApplyDedupSnapshot → Option ApplyDedupSnapshot → Option ApplyDedupSnapshot
  | some a, some b =>
    some
      { appliesTotal := a.appliesTotal + b.appliesTotal
        appliesDeduped := a.appliesDeduped + b.appliesDeduped
        applyDedupOverflow := a.applyDedupOverflow + b.applyDedupOverflow
        sweeps := a.sweeps + b.sweeps
        mapSize := if gauges = .live then b.mapSize else a.mapSize
        mapCapacity := if gauges = .live then b.mapCapacity else a.mapCapacity }
  | none, some b =>
    some
      { b with
        mapSize := if gauges = .frozen then 0 else b.mapSize
        mapCapacity := if gauges = .frozen then 0 else b.mapCapacity }
  | a, none => a

/-- `merge_snapshots`. -/
def mergeSnapshots (acc other : TelemetrySnapshot) (gauges : GaugeSource) : TelemetrySnapshot where
  latency :=
    { sum := acc.latency.sum + other.latency.sum
      count := acc.latency.count + other.latency.count
      buckets := Counters.zipAdd acc.latency.buckets other.latency.buckets }
  resolveRates := Counters.zipAdd acc.resolveRates other.resolveRates
  memoryBytes :=
    if gauges = .live ∧ 0 < other.memoryBytes then other.memoryBytes else acc.memoryBytes
  flush :=
    { succeeded := acc.flush.succeeded + other.flush.succeeded
      failed := acc.flush.failed + other.flush.failed }
  events :=
    { published := acc.events.published + other.events.published
      batchesSucceeded := acc.events.batchesSucceeded + other.events.batchesSucceeded
      batchesFailed := acc.events.batchesFailed + other.events.batchesFailed
      eventsRejected := acc.events.eventsRejected + other.events.eventsRejected }
  applyDedup := mergeDedupSnapshots gauges acc.applyDedup other.applyDedup
  providerInitRate := Labelled.join acc.providerInitRate other.providerInitRate

end ConfidenceResolver
