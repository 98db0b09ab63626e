import ConfidenceResolver.Proto.Flags
import ConfidenceResolver.Telemetry.Increments

/-!
# Telemetry — the collector and its deltas

`Histogram` and `Telemetry` of `telemetry.rs`: atomic counters that calls add to, and
`delta_snapshot`, which reports what was added since the snapshot it replaces.

* `Cell`: the atomic counters.  `Call.additions`: the additions of one call, in order.
* `deltaData`: the report of one snapshot against the one before.
* `bucketSpans_increments`: decoding the encoded buckets gives the buckets that are not zero.
* `accumulateDelta_deltaData`: a report whose differences fit adds exactly the differences.
-/

namespace ConfidenceResolver

/-- The atomic counters of a `Telemetry`: the histogram's `sum`, `count` and `buckets`, and one
resolve rate for each reason. -/
inductive Cell where
  | sum
  | count
  | bucket (i : Fin BUCKET_COUNT)
  | rate (i : Fin REASON_COUNT)
deriving DecidableEq

/-- `Telemetry`, less its memory provider. -/
structure Telemetry where
  cells : Cell → UInt64
  lastStateUpdate : UInt64

/-- `Telemetry::new`. -/
def Telemetry.new : Telemetry := ⟨fun _ => 0, 0⟩

/-- `fetch_add` on one counter. -/
def fetchAdd (cells : Cell → UInt64) (c : Cell) (n : UInt64) : Cell → UInt64 :=
  Function.update cells c (cells c + n)

/-! ### Calls -/

/-- The natural logarithm of 10 over 18. -/
def LN_RATIO : Float := Float.log 10.0 / 18.0

theorem bucketCount_pos : 0 < BUCKET_COUNT := by decide

theorem clamp_lt_bucketCount (k : Nat) : min k (BUCKET_COUNT - 1) < BUCKET_COUNT :=
  (Nat.min_le_right _ _).trans_lt (Nat.sub_lt bucketCount_pos Nat.one_pos)

/-- The bucket of a value; the logarithm is the platform's. -/
def bucketIndex (value : UInt32) : Fin BUCKET_COUNT :=
  if value = 0 then ⟨0, bucketCount_pos⟩
  else
    let k := (Float.floor (Float.log value.toFloat / LN_RATIO)).toUInt64.toNat
    ⟨min k (BUCKET_COUNT - 1), clamp_lt_bucketCount k⟩

/-- `reason as usize`. -/
def ResolveReason.discriminant : ResolveReason → Nat
  | .unspecified => 0
  | .match => 1
  | .noSegmentMatch => 2
  | .noTreatmentMatch => 3
  | .flagArchived => 4
  | .targetingKeyError => 5
  | .error => 6
  | .unrecognizedTargetingRule => 7
  | .materializationNotSupported => 8
  | .typeMismatch => 9
  | .flagNotFound => 10

/-- The calls that add to counters. -/
inductive Call where
  | observe (value : UInt32)
  | markResolve (reason : ResolveReason)
deriving DecidableEq

/-- The atomic additions of `Histogram::observe` and of `Telemetry::mark_resolve`, in order. -/
def Call.additions : Call → List (Cell × UInt32)
  | .observe value => [(.sum, value), (.count, 1), (.bucket (bucketIndex value), 1)]
  | .markResolve reason =>
    if h : reason.discriminant < REASON_COUNT then [(.rate ⟨reason.discriminant, h⟩, 1)] else []

def addAll (cells : Cell → UInt64) (additions : List (Cell × UInt32)) : Cell → UInt64 :=
  additions.foldl (fun cells a => fetchAdd cells a.1 a.2.toUInt64) cells

/-! ### Snapshots -/

/-- The counters in the order in which a snapshot loads them. -/
def loadOrder : List Cell :=
  .sum :: .count :: (List.finRange BUCKET_COUNT).map .bucket ++
    (List.finRange REASON_COUNT).map .rate

/-- The snapshot of the values read, with the memory provider's answer. -/
def snapshotOf (read : Cell → UInt64) (memory : UInt64) : TelemetrySnapshot where
  latency :=
    { sum := read .sum
      count := read .count
      buckets := List.ofFn fun i => read (.bucket i) }
  resolveRates := List.ofFn fun i => read (.rate i)
  memoryBytes := memory

/-- A counter in a snapshot; a bucket or a rate beyond the end is zero. -/
def TelemetrySnapshot.cell (s : TelemetrySnapshot) : Cell → UInt64
  | .sum => s.latency.sum
  | .count => s.latency.count
  | .bucket i => s.latency.buckets.getD i 0
  | .rate i => s.resolveRates.getD i 0

/-! ### Deltas -/

/-- The loop of `Histogram::bucket_spans`: the spans so far, the current one, and the exponent. -/
def bucketSpansFrom (spans : List BucketSpan) (current : Option BucketSpan) (exponent : Nat) :
    List UInt32 → List BucketSpan
  | [] => spans ++ current.toList
  | v :: vs =>
    match decide (0 < v), current with
    | true, some span =>
      bucketSpansFrom spans (some { span with counts := span.counts ++ [v] }) (exponent + 1) vs
    | true, none => bucketSpansFrom spans (some ⟨Int32.ofNat exponent, [v]⟩) (exponent + 1) vs
    | false, some span => bucketSpansFrom (spans ++ [span]) none (exponent + 1) vs
    | false, none => bucketSpansFrom spans none (exponent + 1) vs

/-- `Histogram::bucket_spans`. -/
def bucketSpans (buckets : List UInt32) : List BucketSpan := bucketSpansFrom [] none 0 buckets

/-- The differences of the counters to those at the same places before, as `u32`. -/
def deltaCounts (current previous : List UInt64) : List UInt32 :=
  current.mapIdx fun i c => (c - previous.getD i 0).toUInt32

def deltaLatency (current previous : HistogramSnapshot) : Option ResolveLatency :=
  let deltaSum := (current.sum - previous.sum).toUInt32
  let deltaCount := (current.count - previous.count).toUInt32
  if 0 < deltaCount then
    some
      { sum := deltaSum
        count := deltaCount
        buckets := bucketSpans (deltaCounts current.buckets previous.buckets)
        lnRatio := LN_RATIO }
  else none

def deltaRates (current previous : List UInt64) : List ResolveRate :=
  (deltaCounts current previous).zipIdx.filterMap fun e =>
    if 0 < e.1 then some ⟨e.1, Int32.ofNat e.2⟩ else none

def VERSION : String := "0.26.1"

/-- What `Telemetry::delta_snapshot` reports, `memory` being the memory provider's answer. -/
def deltaData (current previous : TelemetrySnapshot) (lastUpdate memory : UInt64) :
    TelemetryData where
  resolveLatency := deltaLatency current.latency previous.latency
  resolveRate := deltaRates current.resolveRates previous.resolveRates
  stateAge := if 0 < lastUpdate then some ⟨lastUpdate⟩ else none
  memoryBytes := memory
  resolverVersion := VERSION

/-! ### Decoding the buckets -/

/-- The counts that are not zero, from index `k` on. -/
def nonzero (k : Nat) : List UInt32 → List (Nat × UInt64)
  | [] => []
  | v :: vs => if 0 < v then (k, v.toUInt64) :: nonzero (k + 1) vs else nonzero (k + 1) vs

theorem sumAt_nonzero (i : Nat) (vs : List UInt32) :
    ∀ k, Counters.sumAt i (nonzero k vs) = if k ≤ i then (vs.getD (i - k) 0).toUInt64 else 0 := by
  induction vs with
  | nil =>
      intro k
      simp [nonzero, Counters.sumAt]
  | cons v vs ih =>
      intro k
      have hcons : Counters.sumAt i (nonzero k (v :: vs)) =
          (if k = i then v.toUInt64 else 0) + Counters.sumAt i (nonzero (k + 1) vs) := by
        by_cases hv : 0 < v
        · rw [nonzero, if_pos hv, Counters.sumAt_cons]
        · have hzero : v = 0 := by simpa using hv
          simp [nonzero, hzero]
      rw [hcons, ih]
      rcases Nat.lt_trichotomy k i with hlt | heq | hgt
      · obtain ⟨j, rfl⟩ := Nat.exists_eq_add_of_lt hlt
        have h₁ : ¬ k = k + j + 1 := by omega
        have h₂ : k + 1 ≤ k + j + 1 := by omega
        have h₃ : k ≤ k + j + 1 := by omega
        have h₄ : k + j + 1 - (k + 1) = j := by omega
        have h₅ : k + j + 1 - k = j + 1 := by omega
        rw [if_neg h₁, if_pos h₂, if_pos h₃, h₄, h₅, List.getD_cons_succ, zero_add]
      · subst heq
        simp
      · have h₁ : ¬ k = i := by omega
        have h₂ : ¬ k + 1 ≤ i := by omega
        have h₃ : ¬ k ≤ i := by omega
        simp [h₁, h₂, h₃]

theorem index?_ofNat {bound i : Nat} (h : i < bound) (hbound : bound ≤ 2 ^ 31) :
    index? bound (Int32.ofNat i) = some i := by
  have hi : (Int32.ofNat i).toInt = i := Int32.toInt_ofNat_of_lt (by omega)
  simp [index?, hi, h]

theorem countIncrements_append (counts : List UInt32) (v : UInt32) :
    ∀ idx, idx + counts.length < BUCKET_COUNT →
      countIncrements idx (counts ++ [v]) =
        countIncrements idx counts ++ [(idx + counts.length, v.toUInt64)] := by
  induction counts with
  | nil =>
      intro idx h
      have h' : ¬ BUCKET_COUNT ≤ idx := by simpa using h
      simp [countIncrements, h']
  | cons count counts ih =>
      intro idx h
      rw [List.length_cons] at h
      have h' : ¬ BUCKET_COUNT ≤ idx := by omega
      rw [List.cons_append, countIncrements, if_neg h', ih (idx + 1) (by omega), countIncrements,
        if_neg h', List.length_cons, List.cons_append]
      congr 4
      omega

/-- The span under construction ends where the loop stands. -/
def EndsAt (exponent : Nat) : Option BucketSpan → Prop
  | none => True
  | some span => ∃ base, index? BUCKET_COUNT span.offset = some base ∧
      base + span.counts.length = exponent

/-- From any state of the loop: what was built, then the rest of the counts that are not zero. -/
theorem bucketSpansFrom_increments (vs : List UInt32) :
    ∀ (spans : List BucketSpan) (current : Option BucketSpan) (exponent : Nat),
      exponent + vs.length ≤ BUCKET_COUNT → EndsAt exponent current →
      (bucketSpansFrom spans current exponent vs).flatMap BucketSpan.increments =
        (spans ++ current.toList).flatMap BucketSpan.increments ++ nonzero exponent vs := by
  induction vs with
  | nil =>
      intro spans current exponent _ _
      simp [bucketSpansFrom, nonzero]
  | cons v vs ih =>
      intro spans current exponent hlen hends
      rw [List.length_cons] at hlen
      -- a bucket that has grown opens or extends the current span, one that has not closes it
      by_cases hv : 0 < v
      · rw [nonzero, if_pos hv]
        cases current with
        | none =>
            have hidx : index? BUCKET_COUNT (Int32.ofNat exponent) = some exponent :=
              index?_ofNat (by omega) (by decide)
            simp only [bucketSpansFrom, hv, decide_true]
            rw [ih spans (some ⟨Int32.ofNat exponent, [v]⟩) (exponent + 1) (by omega)
              ⟨exponent, hidx, rfl⟩]
            have hnot : ¬ BUCKET_COUNT ≤ exponent := by omega
            simp [BucketSpan.increments, hidx, countIncrements, hnot]
        | some span =>
            obtain ⟨base, hbase, hend⟩ := hends
            simp only [bucketSpansFrom, hv, decide_true]
            have hend' : base + (span.counts ++ [v]).length = exponent + 1 := by
              simp
              omega
            rw [ih spans (some { span with counts := span.counts ++ [v] }) (exponent + 1) (by omega)
              ⟨base, hbase, hend'⟩]
            have happend := countIncrements_append span.counts v base (by omega)
            simp [BucketSpan.increments, hbase, happend, hend]
      · rw [nonzero, if_neg hv]
        cases current with
        | none =>
            simp only [bucketSpansFrom, hv, decide_false]
            exact ih spans none (exponent + 1) (by omega) trivial
        | some span =>
            simp only [bucketSpansFrom, hv, decide_false]
            rw [ih (spans ++ [span]) none (exponent + 1) (by omega) trivial]
            simp

/-- **Decoding the encoded buckets gives the counts that are not zero.** -/
theorem bucketSpans_increments {buckets : List UInt32} (h : buckets.length ≤ BUCKET_COUNT) :
    (bucketSpans buckets).flatMap BucketSpan.increments = nonzero 0 buckets := by
  rw [bucketSpans, bucketSpansFrom_increments buckets [] none 0 (by omega) trivial]
  rfl

theorem rates_increments (vs : List UInt32) :
    ∀ k, k + vs.length ≤ REASON_COUNT →
      ((vs.zipIdx k).filterMap fun e =>
          if 0 < e.1 then some (⟨e.1, Int32.ofNat e.2⟩ : ResolveRate) else none).flatMap
        ResolveRate.increments = nonzero k vs := by
  induction vs with
  | nil => exact fun _ _ => rfl
  | cons v vs ih =>
      intro k hlen
      rw [List.length_cons] at hlen
      have hidx : index? REASON_COUNT (Int32.ofNat k) = some k :=
        index?_ofNat (by omega) (by decide)
      by_cases hv : 0 < v
      · simp [List.zipIdx_cons, hv, nonzero, ResolveRate.increments, hidx, ih (k + 1) (by omega)]
      · simp [List.zipIdx_cons, hv, nonzero, ih (k + 1) (by omega)]

/-! ### What a report adds -/

@[simp] theorem cell_snapshotOf (read : Cell → UInt64) (memory : UInt64) (c : Cell) :
    (snapshotOf read memory).cell c = read c := by
  cases c <;> simp [snapshotOf, TelemetrySnapshot.cell]

@[simp] theorem length_deltaCounts (current previous : List UInt64) :
    (deltaCounts current previous).length = current.length := by
  simp [deltaCounts]

theorem getD_deltaCounts {current previous : List UInt64} {i : Nat} (h : i < current.length) :
    (deltaCounts current previous).getD i 0 =
      (current.getD i 0 - previous.getD i 0).toUInt32 := by
  simp [deltaCounts, List.getD, List.getElem?_eq_getElem h]

theorem toUInt32_toUInt64 {x : UInt64} (h : x.toNat < 2 ^ 32) : x.toUInt32.toUInt64 = x := by
  rw [← UInt64.toNat_inj, UInt32.toNat_toUInt64, UInt64.toNat_toUInt32, Nat.mod_eq_of_lt h]

/-- The counters that are reported only when the count went up. -/
def Cell.isLatency : Cell → Bool
  | .rate _ => false
  | _ => true

/-- A snapshot of the values `read` is reported without loss against `previous`: each difference
fits a `u32`, and where the count did not change the other latency counters did not either. -/
structure Reportable (read previous : Cell → UInt64) : Prop where
  fits : ∀ c, (read c - previous c).toNat < 2 ^ 32
  gated : read .count = previous .count → ∀ c, c.isLatency = true → read c = previous c

section Report

variable {read : Cell → UInt64} {previous : TelemetrySnapshot} {lastUpdate memory memory' : UInt64}

theorem cell_zero (c : Cell) : TelemetrySnapshot.cell {} c = 0 := by
  cases c <;> simp [TelemetrySnapshot.cell]

/-- The latency counters, where the report has a latency. -/
theorem latency_reported (h : Reportable read previous.cell)
    (hcount : 0 < (read .count - previous.cell .count).toUInt32) (s : TelemetrySnapshot) (c : Cell)
    (hc : c.isLatency = true) :
    (s.accumulateDelta (deltaData (snapshotOf read memory) previous lastUpdate memory')).cell c =
      s.cell c + (read c - previous.cell c) := by
  have hlatency : deltaLatency (snapshotOf read memory).latency previous.latency = some
      { sum := (read .sum - previous.cell .sum).toUInt32
        count := (read .count - previous.cell .count).toUInt32
        buckets := bucketSpans (deltaCounts (snapshotOf read memory).latency.buckets
          previous.latency.buckets)
        lnRatio := LN_RATIO } := if_pos hcount
  -- the sum and the count are scalars of the message, a bucket is read through the spans
  cases c with
  | sum =>
      have hadd := accumulateDelta_scalar s
        (deltaData (snapshotOf read memory) previous lastUpdate memory') .latencySum
      have hscalar : (deltaData (snapshotOf read memory) previous lastUpdate memory').scalar
          .latencySum = (read .sum - previous.cell .sum).toUInt32 := by
        rw [TelemetryData.scalar, deltaData, hlatency]
        rfl
      rw [hscalar, toUInt32_toUInt64 (h.fits .sum)] at hadd
      exact hadd
  | count =>
      have hadd := accumulateDelta_scalar s
        (deltaData (snapshotOf read memory) previous lastUpdate memory') .latencyCount
      have hscalar : (deltaData (snapshotOf read memory) previous lastUpdate memory').scalar
          .latencyCount = (read .count - previous.cell .count).toUInt32 := by
        rw [TelemetryData.scalar, deltaData, hlatency]
        rfl
      rw [hscalar, toUInt32_toUInt64 (h.fits .count)] at hadd
      exact hadd
  | bucket i =>
      have hlen : (snapshotOf read memory).latency.buckets.length = BUCKET_COUNT := by
        simp [snapshotOf]
      have hread : (snapshotOf read memory).latency.buckets.getD i 0 = read (.bucket i) :=
        cell_snapshotOf read memory (.bucket i)
      have hdelta : (deltaCounts (snapshotOf read memory).latency.buckets
          previous.latency.buckets).length ≤ BUCKET_COUNT := by rw [length_deltaCounts, hlen]
      have hspans := bucketSpans_increments hdelta
      rw [TelemetrySnapshot.cell, accumulateDelta_buckets, Counters.getD_addAll]
      simp only [TelemetryData.bucketIncrements, deltaData, hlatency, Option.map_some,
        Option.getD_some, hspans, sumAt_nonzero, Nat.zero_le, if_true, Nat.sub_zero]
      rw [getD_deltaCounts (by rw [hlen]; exact i.isLt), hread]
      have hfit := h.fits (.bucket i)
      simp only [TelemetrySnapshot.cell] at hfit ⊢
      rw [toUInt32_toUInt64 hfit]
  | rate i => cases hc

/-- Without a latency in the report nothing is added to the latency counters. -/
theorem latency_unreported (hcount : ¬ 0 < (read .count - previous.cell .count).toUInt32)
    (s : TelemetrySnapshot) (c : Cell) (hc : c.isLatency = true) :
    (s.accumulateDelta (deltaData (snapshotOf read memory) previous lastUpdate memory')).cell c =
      s.cell c := by
  have hlatency : deltaLatency (snapshotOf read memory).latency previous.latency = none :=
    if_neg hcount
  cases c with
  | rate i => cases hc
  | _ => simp [TelemetrySnapshot.cell, TelemetrySnapshot.accumulateDelta, deltaData, hlatency,
      accumulateLatency]

theorem rate_reported (h : Reportable read previous.cell) (s : TelemetrySnapshot)
    (i : Fin REASON_COUNT) :
    (s.accumulateDelta (deltaData (snapshotOf read memory) previous lastUpdate memory')).cell
        (.rate i) =
      s.cell (.rate i) + (read (.rate i) - previous.cell (.rate i)) := by
  have hlen : (snapshotOf read memory).resolveRates.length = REASON_COUNT := by simp [snapshotOf]
  have hread : (snapshotOf read memory).resolveRates.getD i 0 = read (.rate i) :=
    cell_snapshotOf read memory (.rate i)
  have hrates := rates_increments
    (deltaCounts (snapshotOf read memory).resolveRates previous.resolveRates) 0
    (by rw [length_deltaCounts, hlen]; omega)
  rw [TelemetrySnapshot.cell, accumulateDelta_rates, Counters.getD_addAll]
  simp only [TelemetryData.rateIncrements, deltaData, deltaRates]
  rw [hrates, sumAt_nonzero, if_pos (Nat.zero_le _), Nat.sub_zero,
    getD_deltaCounts (by rw [hlen]; exact i.isLt), hread]
  have hfit := h.fits (.rate i)
  simp only [TelemetrySnapshot.cell] at hfit ⊢
  rw [toUInt32_toUInt64 hfit]

/-- **A report that loses nothing adds the differences.** -/
theorem accumulateDelta_deltaData (h : Reportable read previous.cell) (s : TelemetrySnapshot)
    (c : Cell) :
    (s.accumulateDelta (deltaData (snapshotOf read memory) previous lastUpdate memory')).cell c =
      s.cell c + (read c - previous.cell c) := by
  by_cases hc : c.isLatency = true
  · by_cases hcount : 0 < (read .count - previous.cell .count).toUInt32
    · exact latency_reported h hcount s c hc
    · have hzero : (read .count - previous.cell .count).toUInt32 = 0 := by simpa using hcount
      have hsame : read .count = previous.cell .count := by
        have := toUInt32_toUInt64 (h.fits .count)
        rw [hzero] at this
        exact sub_eq_zero.mp this.symm
      rw [latency_unreported hcount s c hc, h.gated hsame c hc, sub_self, add_zero]
  · cases c with
    | rate i => exact rate_reported h s i
    | _ => exact absurd rfl hc

end Report

end ConfidenceResolver
