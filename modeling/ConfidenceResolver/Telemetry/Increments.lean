import ConfidenceResolver.Telemetry.Snapshot

/-!
# Telemetry — what a delta adds to a snapshot

A snapshot read as counters, and a delta as what it adds to them.

* `Scalar`: the counters that a snapshot and a delta have once.
* `bucketIncrements`, `rateIncrements`, `providerIncrements`: the others, as lists of increments.
* `Gauges`: the readings that a later one replaces.
* `accumulateAll_scalar` and its siblings: a run of deltas adds what they add together.
-/

namespace ConfidenceResolver

/-- The counters outside the histogram buckets, the resolve rates and the provider inits. -/
inductive Scalar where
  | latencySum
  | latencyCount
  | appliesTotal
  | appliesDeduped
  | applyDedupOverflow
  | sweeps
  | flushSucceeded
  | flushFailed
  | published
  | batchesSucceeded
  | batchesFailed
  | eventsRejected
deriving DecidableEq

/-- Point-in-time readings: `memory_bytes`, and `map_size` and `map_capacity` once there are any. -/
structure Gauges where
  memoryBytes : UInt64
  map : Option (UInt32 × UInt32)
deriving DecidableEq

namespace Gauges

/-- The readings of `h`, where it has any. -/
def latest (g h : Gauges) : Gauges where
  memoryBytes := if 0 < h.memoryBytes then h.memoryBytes else g.memoryBytes
  map := h.map.or g.map

def unread : Gauges := ⟨0, none⟩

theorem latest_assoc (g h k : Gauges) : (g.latest h).latest k = g.latest (h.latest k) := by
  by_cases hk : 0 < k.memoryBytes <;> simp [latest, hk, Option.or_assoc]

end Gauges

namespace TelemetrySnapshot

def scalar (s : TelemetrySnapshot) : Scalar → UInt64
  | .latencySum => s.latency.sum
  | .latencyCount => s.latency.count
  | .appliesTotal => (s.applyDedup.getD {}).appliesTotal
  | .appliesDeduped => (s.applyDedup.getD {}).appliesDeduped
  | .applyDedupOverflow => (s.applyDedup.getD {}).applyDedupOverflow
  | .sweeps => (s.applyDedup.getD {}).sweeps
  | .flushSucceeded => s.flush.succeeded
  | .flushFailed => s.flush.failed
  | .published => s.events.published
  | .batchesSucceeded => s.events.batchesSucceeded
  | .batchesFailed => s.events.batchesFailed
  | .eventsRejected => s.events.eventsRejected

def gauges (s : TelemetrySnapshot) : Gauges :=
  ⟨s.memoryBytes, s.applyDedup.map fun ad => (ad.mapSize, ad.mapCapacity)⟩

/-- The snapshot without its gauges. -/
def counters (s : TelemetrySnapshot) : TelemetrySnapshot :=
  { s with
    memoryBytes := 0
    applyDedup := s.applyDedup.map fun ad => { ad with mapSize := 0, mapCapacity := 0 } }

/-- A snapshot is its counters and its gauges. -/
theorem ext_readings {s t : TelemetrySnapshot} (hscalar : ∀ c, s.scalar c = t.scalar c)
    (hbuckets : s.latency.buckets = t.latency.buckets) (hrates : s.resolveRates = t.resolveRates)
    (hprovider : s.providerInitRate = t.providerInitRate) (hgauges : s.gauges = t.gauges) :
    s = t := by
  obtain ⟨⟨ss, sc, sb⟩, sr, sm, sad, ⟨sf₁, sf₂⟩, ⟨se₁, se₂, se₃, se₄⟩, sp⟩ := s
  obtain ⟨⟨ts, tc, tb⟩, tr, tm, tad, ⟨tf₁, tf₂⟩, ⟨te₁, te₂, te₃, te₄⟩, tp⟩ := t
  have hdedup : sad = tad := by
    have h₁ := hscalar .appliesTotal
    have h₂ := hscalar .appliesDeduped
    have h₃ := hscalar .applyDedupOverflow
    have h₄ := hscalar .sweeps
    have h₅ := congrArg Gauges.map hgauges
    cases sad with
    | none =>
        cases tad with
        | none => rfl
        | some b => simp [gauges] at h₅
    | some a =>
        cases tad with
        | none => simp [gauges] at h₅
        | some b =>
            cases a
            cases b
            simp_all [scalar, gauges]
  have hmemory : sm = tm := congrArg Gauges.memoryBytes hgauges
  have h₁ := hscalar .latencySum
  have h₂ := hscalar .latencyCount
  have h₃ := hscalar .flushSucceeded
  have h₄ := hscalar .flushFailed
  have h₅ := hscalar .published
  have h₆ := hscalar .batchesSucceeded
  have h₇ := hscalar .batchesFailed
  have h₈ := hscalar .eventsRejected
  simp only [scalar] at h₁ h₂ h₃ h₄ h₅ h₆ h₇ h₈
  simp only at hbuckets hrates hprovider
  subst_vars
  rfl

end TelemetrySnapshot

/-! ### What a delta adds -/

/-- The increments of the counts of a span, from bucket `idx` on. -/
def countIncrements (idx : Nat) : List UInt32 → List (Nat × UInt64)
  | [] => []
  | count :: counts =>
    if BUCKET_COUNT ≤ idx then [] else (idx, count.toUInt64) :: countIncrements (idx + 1) counts

def BucketSpan.increments (span : BucketSpan) : List (Nat × UInt64) :=
  ((index? BUCKET_COUNT span.offset).map fun base => countIncrements base span.counts).getD []

def ResolveRate.increments (rate : ResolveRate) : List (Nat × UInt64) :=
  ((index? REASON_COUNT rate.reason).map fun idx => (idx, rate.count.toUInt64)).toList

namespace TelemetryData

def scalar (d : TelemetryData) : Scalar → UInt32
  | .latencySum => (d.resolveLatency.map (·.sum)).getD 0
  | .latencyCount => (d.resolveLatency.map (·.count)).getD 0
  | .appliesTotal => (d.applyDedup.map (·.appliesTotal)).getD 0
  | .appliesDeduped => (d.applyDedup.map (·.appliesDeduped)).getD 0
  | .applyDedupOverflow => (d.applyDedup.map (·.applyDedupOverflow)).getD 0
  | .sweeps => (d.applyDedup.map (·.sweeps)).getD 0
  | .flushSucceeded => (d.flush.map (·.succeeded)).getD 0
  | .flushFailed => (d.flush.map (·.failed)).getD 0
  | .published => (d.events.map (·.published)).getD 0
  | .batchesSucceeded => (d.events.map (·.batchesSucceeded)).getD 0
  | .batchesFailed => (d.events.map (·.batchesFailed)).getD 0
  | .eventsRejected => (d.events.map (·.eventsRejected)).getD 0

def bucketIncrements (d : TelemetryData) : List (Nat × UInt64) :=
  ((d.resolveLatency.map (·.buckets)).getD []).flatMap BucketSpan.increments

def rateIncrements (d : TelemetryData) : List (Nat × UInt64) :=
  d.resolveRate.flatMap ResolveRate.increments

def providerIncrements (d : TelemetryData) : List ProviderInitSnapshot :=
  d.providerInitRate.map ProviderInitRate.snapshot

def gauges (d : TelemetryData) : Gauges :=
  ⟨d.memoryBytes, d.applyDedup.map fun ad => (ad.mapSize, ad.mapCapacity)⟩

end TelemetryData

/-! ### One delta -/

theorem addCounts_eq (counts : List UInt32) :
    ∀ (buckets : List UInt64) (idx : Nat),
      addCounts buckets idx counts = Counters.addAll (countIncrements idx counts) buckets := by
  induction counts with
  | nil => exact fun _ _ => rfl
  | cons count counts ih =>
      intro buckets idx
      by_cases h : BUCKET_COUNT ≤ idx
      · simp [addCounts, countIncrements, h]
      · simp [addCounts, countIncrements, h, ih, Counters.addAll_cons]

theorem addSpan_eq (buckets : List UInt64) (span : BucketSpan) :
    addSpan buckets span = Counters.addAll span.increments buckets := by
  rw [addSpan, BucketSpan.increments]
  cases index? BUCKET_COUNT span.offset with
  | none => rfl
  | some base => exact addCounts_eq span.counts buckets base

theorem addRate_eq (rates : List UInt64) (rate : ResolveRate) :
    addRate rates rate = Counters.addAll rate.increments rates := by
  rw [addRate, ResolveRate.increments]
  cases index? REASON_COUNT rate.reason <;> rfl

theorem accumulateDelta_scalar (s : TelemetrySnapshot) (d : TelemetryData) (c : Scalar) :
    (s.accumulateDelta d).scalar c = s.scalar c + (d.scalar c).toUInt64 := by
  simp only [TelemetrySnapshot.accumulateDelta, TelemetrySnapshot.scalar, TelemetryData.scalar]
  cases c with
  | latencySum | latencyCount => cases d.resolveLatency <;> simp [accumulateLatency]
  | appliesTotal | appliesDeduped | applyDedupOverflow | sweeps =>
      cases d.applyDedup <;> simp [accumulateDedup]
  | flushSucceeded | flushFailed => cases d.flush <;> simp [accumulateFlush]
  | published | batchesSucceeded | batchesFailed | eventsRejected =>
      cases d.events <;> simp [accumulateEvents]

theorem accumulateDelta_buckets (s : TelemetrySnapshot) (d : TelemetryData) :
    (s.accumulateDelta d).latency.buckets =
      Counters.addAll d.bucketIncrements s.latency.buckets := by
  simp only [TelemetrySnapshot.accumulateDelta, TelemetryData.bucketIncrements]
  cases d.resolveLatency with
  | none => rfl
  | some latency =>
      simp only [accumulateLatency, Option.map_some, Option.getD_some, Counters.addAll,
        List.foldl_flatMap]
      congr 1
      funext buckets span
      exact addSpan_eq buckets span

theorem accumulateDelta_rates (s : TelemetrySnapshot) (d : TelemetryData) :
    (s.accumulateDelta d).resolveRates = Counters.addAll d.rateIncrements s.resolveRates := by
  simp only [TelemetrySnapshot.accumulateDelta, TelemetryData.rateIncrements, Counters.addAll,
    List.foldl_flatMap]
  congr 1
  funext rates rate
  exact addRate_eq rates rate

theorem accumulateDelta_provider (s : TelemetrySnapshot) (d : TelemetryData) :
    (s.accumulateDelta d).providerInitRate =
      Labelled.addAll d.providerIncrements s.providerInitRate := by
  simp only [TelemetrySnapshot.accumulateDelta, TelemetryData.providerIncrements, Labelled.addAll,
    List.foldl_map]

theorem accumulateDelta_gauges (s : TelemetrySnapshot) (d : TelemetryData) :
    (s.accumulateDelta d).gauges = s.gauges.latest d.gauges := by
  simp only [TelemetrySnapshot.accumulateDelta, TelemetrySnapshot.gauges, TelemetryData.gauges,
    Gauges.latest]
  cases d.applyDedup <;> rfl

/-! ### A run of deltas -/

namespace TelemetrySnapshot

/-- Accumulate deltas one after another. -/
def accumulateAll (s : TelemetrySnapshot) (ds : List TelemetryData) : TelemetrySnapshot :=
  ds.foldl accumulateDelta s

theorem accumulateAll_append (s : TelemetrySnapshot) (ds ds' : List TelemetryData) :
    s.accumulateAll (ds ++ ds') = (s.accumulateAll ds).accumulateAll ds' :=
  List.foldl_append

theorem accumulateAll_scalar (s : TelemetrySnapshot) (ds : List TelemetryData) (c : Scalar) :
    (s.accumulateAll ds).scalar c = s.scalar c + (ds.map fun d => (d.scalar c).toUInt64).sum :=
  Counters.foldl_adds (c := fun s => s.scalar c) (fun s d => accumulateDelta_scalar s d c) ds s

theorem accumulateAll_buckets (s : TelemetrySnapshot) (ds : List TelemetryData) :
    (s.accumulateAll ds).latency.buckets =
      Counters.addAll (ds.flatMap (·.bucketIncrements)) s.latency.buckets := by
  rw [Counters.addAll, List.foldl_flatMap]
  exact (List.foldl_hom (fun s : TelemetrySnapshot => s.latency.buckets)
    fun s d => (accumulateDelta_buckets s d).symm).symm

theorem accumulateAll_rates (s : TelemetrySnapshot) (ds : List TelemetryData) :
    (s.accumulateAll ds).resolveRates =
      Counters.addAll (ds.flatMap (·.rateIncrements)) s.resolveRates := by
  rw [Counters.addAll, List.foldl_flatMap]
  exact (List.foldl_hom resolveRates fun s d => (accumulateDelta_rates s d).symm).symm

theorem accumulateAll_provider (s : TelemetrySnapshot) (ds : List TelemetryData) :
    (s.accumulateAll ds).providerInitRate =
      Labelled.addAll (ds.flatMap (·.providerIncrements)) s.providerInitRate := by
  rw [Labelled.addAll, List.foldl_flatMap]
  exact (List.foldl_hom providerInitRate fun s d => (accumulateDelta_provider s d).symm).symm

theorem accumulateAll_gauges (s : TelemetrySnapshot) (ds : List TelemetryData) :
    (s.accumulateAll ds).gauges = ds.foldl (fun g d => g.latest d.gauges) s.gauges :=
  (List.foldl_hom gauges fun s d => (accumulateDelta_gauges s d).symm).symm

end TelemetrySnapshot

end ConfidenceResolver
