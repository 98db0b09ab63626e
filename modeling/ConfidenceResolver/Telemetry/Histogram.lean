import ConfidenceResolver.Telemetry.Prometheus
import Mathlib.Data.List.Pairwise
import Mathlib.Order.WithBot
import Mathlib.Tactic.IntervalCases

/-!
# Telemetry — the histogram of the exposition

`write_histogram` writes one line for each `stride` buckets, with the count of the observations so
far.

* `HistogramSnapshot.upTo`: the observations in the buckets up to one.
* `bucketLoop_eq`: the loop keeps, of all running counts, those at a stride boundary that are not
  zero.
* `ExpAccurate`: what is asked of the platform's `exp`.  `writtenBound_lt`: then the bounds that are
  written are in order.
* `histogram_cumulative`: what is written, for every stride.
* `observed_upTo`: in a snapshot of a histogram, the count up to a bucket is that of the values
  observed.
-/

namespace ConfidenceResolver

/-- The observations in the buckets up to `i`. -/
def HistogramSnapshot.upTo (s : HistogramSnapshot) (i : Nat) : Nat :=
  ((s.buckets.take (i + 1)).map UInt64.toNat).sum

/-- The observations in all buckets. -/
def HistogramSnapshot.observations (s : HistogramSnapshot) : Nat :=
  (s.buckets.map UInt64.toNat).sum

/-! ### Running counts -/

/-- The running count at each bucket from `i` on. -/
def runningCounts (cumulative : UInt64) (i : Nat) : List UInt64 → List (Nat × UInt64)
  | [] => []
  | count :: counts =>
      (i, cumulative + count) :: runningCounts (cumulative + count) (i + 1) counts

/-- **The loop keeps the running counts at a stride boundary, from the first that is not zero on.**
The next boundary is less than a stride away. -/
theorem bucketLoop_eq (stride : Nat) (counts : List UInt64) :
    ∀ (cumulative : UInt64) (nextEmit i : Nat), i ≤ nextEmit → nextEmit < i + stride →
      stride ∣ nextEmit + 1 →
      bucketLoop stride cumulative nextEmit i counts =
        (runningCounts cumulative i counts).filter fun e => stride ∣ e.1 + 1 ∧ e.2 ≠ 0 := by
  induction counts with
  | nil =>
      intro _ _ _ _ _ _
      rfl
  | cons count counts ih =>
      intro cumulative nextEmit i hle hlt hdvd
      rw [bucketLoop, runningCounts, List.filter_cons]
      by_cases hi : i = nextEmit
      · subst hi
        have hnext := ih (cumulative + count) (i + stride) (i + 1) (by omega) (by omega)
          (by rw [Nat.add_right_comm]; exact hdvd.add (dvd_refl stride))
        rw [if_neg (not_not.mpr rfl), hnext]
        by_cases hzero : cumulative + count = 0
        · simp only [hzero, hdvd, if_true, ne_eq, not_true_eq_false, and_false, decide_false,
            Bool.false_eq_true, if_false]
        · simp only [hzero, hdvd, if_false, ne_eq, not_false_eq_true, and_self, decide_true, if_true]
      · -- between two boundaries
        have hnot : ¬ stride ∣ i + 1 := by
          intro hi'
          have hgap : stride ∣ nextEmit + 1 - (i + 1) := Nat.dvd_sub hdvd hi'
          have hle' := Nat.le_of_dvd (by omega) hgap
          omega
        rw [if_pos hi, ih _ nextEmit (i + 1) (by omega) (by omega) hdvd]
        simp only [hnot, false_and, decide_false, Bool.false_eq_true, if_false]

/-- A running count is that of the buckets so far, as long as it does not wrap. -/
theorem mem_runningCounts (counts : List UInt64) :
    ∀ (cumulative : UInt64) (i : Nat),
      cumulative.toNat + (counts.map UInt64.toNat).sum < 2 ^ 64 →
      ∀ j c, (j, c) ∈ runningCounts cumulative i counts ↔ i ≤ j ∧ j < i + counts.length ∧
        c.toNat = cumulative.toNat + ((counts.take (j - i + 1)).map UInt64.toNat).sum := by
  induction counts with
  | nil =>
      intro cumulative i _ j c
      simp only [runningCounts, List.not_mem_nil, List.length_nil, false_iff]
      omega
  | cons count counts ih =>
      intro cumulative i hfit j c
      rw [List.map_cons, List.sum_cons] at hfit
      have hadd : (cumulative + count).toNat = cumulative.toNat + count.toNat := by
        rw [UInt64.toNat_add, Nat.mod_eq_of_lt (by omega)]
      rw [runningCounts, List.mem_cons, ih (cumulative + count) (i + 1) (by rw [hadd]; omega),
        List.length_cons, Prod.mk.injEq, ← UInt64.toNat_inj, hadd]
      -- the entry of this bucket is the head, the later ones are in the tail, with this count added
      rcases Nat.lt_trichotomy j i with hlt | rfl | hgt
      · constructor
        · rintro (⟨rfl, _⟩ | ⟨hle, _⟩) <;> omega
        · rintro ⟨hle, _⟩
          omega
      · rw [Nat.sub_self, List.take_succ_cons, List.take_zero, List.map_singleton,
          List.sum_singleton]
        constructor
        · rintro (⟨_, hc⟩ | ⟨hle, _⟩)
          · exact ⟨le_refl j, by omega, hc⟩
          · omega
        · rintro ⟨_, _, hc⟩
          exact .inl ⟨rfl, hc⟩
      · have htake : j - i + 1 = (j - (i + 1) + 1) + 1 := by omega
        rw [htake, List.take_succ_cons, List.map_cons, List.sum_cons]
        constructor
        · rintro (⟨rfl, _⟩ | ⟨_, hlt, hc⟩)
          · omega
          · exact ⟨by omega, by omega, by omega⟩
        · rintro ⟨_, hlt, hc⟩
          exact .inr ⟨by omega, by omega, by omega⟩

theorem runningCounts_index (counts : List UInt64) :
    ∀ (cumulative : UInt64) (i : Nat), ∀ e ∈ runningCounts cumulative i counts,
      i ≤ e.1 ∧ e.1 < i + counts.length := by
  induction counts with
  | nil =>
      intro _ _ e he
      cases he
  | cons count counts ih =>
      intro cumulative i e he
      rw [runningCounts, List.mem_cons] at he
      rw [List.length_cons]
      obtain rfl | he := he
      · exact ⟨le_refl i, by omega⟩
      · have htail := ih _ _ e he
        omega

theorem runningCounts_pairwise (counts : List UInt64) :
    ∀ (cumulative : UInt64) (i : Nat),
      (runningCounts cumulative i counts).Pairwise fun a b => a.1 < b.1 := by
  induction counts with
  | nil =>
      intro _ _
      exact List.Pairwise.nil
  | cons count counts ih =>
      intro cumulative i
      rw [runningCounts, List.pairwise_cons]
      exact ⟨fun e he => (runningCounts_index counts _ _ e he).1, ih _ _⟩

section Emitted

variable {s : HistogramSnapshot} {config : PrometheusConfig}

theorem stride_pos (config : PrometheusConfig) : 0 < config.stride := by
  rw [PrometheusConfig.stride]
  have hbpd : ∀ bpd : Nat, 0 < bpd → 0 < (18 + bpd - 1) / bpd := by
    intro bpd hpos
    exact Nat.div_pos (by omega) hpos
  apply hbpd
  split
  · norm_num
  · exact lt_of_lt_of_le Nat.one_pos (Nat.le_max_left _ _)

theorem emitted_eq (s : HistogramSnapshot) (config : PrometheusConfig) :
    s.emitted config = (runningCounts 0 0 s.buckets).filter fun e =>
      config.stride ∣ e.1 + 1 ∧ e.2 ≠ 0 := by
  have hpos := stride_pos config
  have hlast : config.stride - 1 + 1 = config.stride := Nat.sub_add_cancel hpos
  exact bucketLoop_eq config.stride s.buckets 0 (config.stride - 1) 0 (Nat.zero_le _) (by omega)
    (hlast ▸ dvd_refl config.stride)

/-- **The buckets for which a line is written, and their counts.** -/
theorem mem_emitted (hfit : s.observations < 2 ^ 64) (i : Nat) (c : UInt64) :
    (i, c) ∈ s.emitted config ↔
      i < s.buckets.length ∧ config.stride ∣ i + 1 ∧ c.toNat = s.upTo i ∧ c ≠ 0 := by
  rw [HistogramSnapshot.observations] at hfit
  have hmem := mem_runningCounts s.buckets 0 0 (by simpa using hfit) i c
  rw [emitted_eq, List.mem_filter, hmem]
  simp only [decide_eq_true_eq, UInt64.toNat_zero, Nat.zero_add, Nat.sub_zero, Nat.zero_le,
    true_and, HistogramSnapshot.upTo]
  tauto

theorem emitted_pairwise (s : HistogramSnapshot) (config : PrometheusConfig) :
    (s.emitted config).Pairwise fun a b => a.1 < b.1 := by
  rw [emitted_eq]
  exact (runningCounts_pairwise s.buckets 0 0).filter _

theorem emitted_lt {e : Nat × UInt64} (he : e ∈ s.emitted config) : e.1 < s.buckets.length := by
  rw [emitted_eq, List.mem_filter] at he
  simpa using (runningCounts_index s.buckets 0 0 e he.1).2

theorem upTo_mono (s : HistogramSnapshot) : Monotone s.upTo := by
  intro i j hij
  have hsub : (s.buckets.take (i + 1)).Sublist (s.buckets.take (j + 1)) :=
    List.take_sublist_take_left (by omega)
  exact (hsub.map UInt64.toNat).sum_le_sum fun _ _ => Nat.zero_le _

theorem upTo_le (s : HistogramSnapshot) (i : Nat) : s.upTo i ≤ s.observations :=
  ((List.take_sublist (i + 1) s.buckets).map UInt64.toNat).sum_le_sum fun _ _ => Nat.zero_le _

end Emitted

/-! ### Upper bounds -/

/-- The upper bound that is written, as a number. -/
def writtenBound (upper : Nat → Option ℚ) (i : Nat) : WithTop ℚ :=
  match upper i with
  | some q => ((Scientific.ofRat 6 q).value 6 : ℚ)
  | none => ⊤

/-- `exp` is right to within one percent, and finite, as far as there are buckets: the 18th power of
the upper bound of bucket `i` is `10 ^ (i + 1)`. -/
structure ExpAccurate (upper : Nat → Option ℚ) : Prop where
  near : ∀ i < BUCKET_COUNT, ∃ q, upper i = some q ∧ 0 < q ∧
    (99 / 100) ^ 18 * 10 ^ (i + 1) ≤ q ^ 18 ∧ q ^ 18 ≤ (101 / 100) ^ 18 * 10 ^ (i + 1)

/-- Two bounds are one tenth apart at least. -/
theorem apart {a b : ℚ} {i j : Nat} (hij : i < j) (hb : 0 < b)
    (hhigh : a ^ 18 ≤ (101 / 100) ^ 18 * 10 ^ (i + 1))
    (hlow : (99 / 100) ^ 18 * 10 ^ (j + 1) ≤ b ^ 18) : 11 / 10 * a ≤ b := by
  have hpow : (10 : ℚ) ^ (i + 2) ≤ 10 ^ (j + 1) := pow_le_pow_right₀ (by norm_num) (by omega)
  apply le_of_pow_le_pow_left₀ (n := 18) (by norm_num) hb.le
  calc (11 / 10 * a) ^ 18
      = (11 / 10) ^ 18 * a ^ 18 := mul_pow _ _ _
    _ ≤ (11 / 10) ^ 18 * ((101 / 100) ^ 18 * 10 ^ (i + 1)) := by gcongr
    _ ≤ (99 / 100) ^ 18 * 10 * 10 ^ (i + 1) := by
        rw [← mul_assoc]
        have hnum : ((11 : ℚ) / 10) ^ 18 * (101 / 100) ^ 18 ≤ (99 / 100) ^ 18 * 10 := by norm_num
        gcongr
    _ = (99 / 100) ^ 18 * 10 ^ (i + 2) := by ring
    _ ≤ (99 / 100) ^ 18 * 10 ^ (j + 1) := by gcongr
    _ ≤ b ^ 18 := hlow

/-- **The bounds that are written are in order.** -/
theorem writtenBound_lt {upper : Nat → Option ℚ} (h : ExpAccurate upper) {i j : Nat} (hij : i < j)
    (hj : j < BUCKET_COUNT) : writtenBound upper i < writtenBound upper j := by
  obtain ⟨a, hupper, ha, _, hhigh⟩ := h.near i (hij.trans hj)
  obtain ⟨b, hupper', hb, hlow, _⟩ := h.near j hj
  have hapart := apart hij hb hhigh hlow
  rw [writtenBound, writtenBound, hupper, hupper']
  apply WithTop.coe_lt_coe.mpr
  apply Scientific.value_lt ha _ hb
  -- six digits behind the point are precise enough for that
  rw [Scientific.precision]
  linarith

theorem writtenBound_ne_top {upper : Nat → Option ℚ} (h : ExpAccurate upper) {i : Nat}
    (hi : i < BUCKET_COUNT) : writtenBound upper i < ⊤ := by
  obtain ⟨q, hupper, _⟩ := h.near i hi
  rw [writtenBound, hupper]
  exact WithTop.coe_lt_top _

/-! ### Main results -/

/-- The samples for buckets. -/
def bucketSamples (lines : List Line) : List Sample :=
  (lines.filterMap Line.sample?).filter fun s => s.name == latencyName ++ "_bucket"

/-- The sample of a bucket, with its bound and its count as written. -/
def bucketSample (config : PrometheusConfig) (resolverId le : String) (count : UInt64) : Sample :=
  ⟨latencyName ++ "_bucket", [⟨"resolver_id", resolverId, false⟩, ⟨"le", le, false⟩],
    toString count.toNat ++ config.suffix⟩

theorem bucketSamples_writeHistogram (upper : Nat → Option ℚ) (s : HistogramSnapshot)
    (resolverId : String) (config : PrometheusConfig) (hcount : s.count ≠ 0) :
    bucketSamples (writeHistogram upper s resolverId config) =
      (s.emitted config).map (fun e => bucketSample config resolverId (upperText upper e.1) e.2) ++
        [bucketSample config resolverId "+Inf" s.count] := by
  have hbuckets : ∀ l : List (Nat × UInt64),
      bucketSamples (l.map fun e => bucketLine config resolverId (upperText upper e.1) e.2) =
        l.map fun e => bucketSample config resolverId (upperText upper e.1) e.2 := by
    intro l
    induction l with
    | nil => rfl
    | cons e l ih =>
        rw [List.map_cons, List.map_cons, ← ih]
        rfl
  rw [← hbuckets, writeHistogram, if_neg hcount]
  simp only [bucketSamples, List.filterMap_append, List.filter_append]
  rfl

/-- **What is written is a cumulative histogram, for every stride.**  Each line has the count of all
buckets up to its bound; the lines are among those that are written without striding; and the last
has the count of all. -/
theorem histogram_cumulative {upper : Nat → Option ℚ} (hupper : ExpAccurate upper)
    (s : HistogramSnapshot) (hsum : s.observations = s.count.toNat) (resolverId : String)
    (config : PrometheusConfig) :
    bucketSamples (writeHistogram upper s resolverId config) =
        (if s.count = 0 then [] else
          (s.emitted config).map (fun e =>
            bucketSample config resolverId (upperText upper e.1) e.2) ++
          [bucketSample config resolverId "+Inf" s.count]) ∧
      (s.buckets.length ≤ BUCKET_COUNT →
        (s.emitted config).Pairwise (fun a b => writtenBound upper a.1 < writtenBound upper b.1) ∧
        ∀ e ∈ s.emitted config, writtenBound upper e.1 < ⊤) ∧
      (s.emitted config).Pairwise (fun a b => a.2 ≤ b.2) ∧
      (∀ i c, (i, c) ∈ s.emitted config ↔
        i < s.buckets.length ∧ config.stride ∣ i + 1 ∧ c.toNat = s.upTo i ∧ c ≠ 0) ∧
      (s.emitted config).Sublist (s.emitted {}) ∧
      ∀ e ∈ s.emitted config, e.2 ≤ s.count := by
  have hfit : s.observations < 2 ^ 64 := hsum ▸ s.count.toNat_lt
  have hmem : ∀ i c, (i, c) ∈ s.emitted config ↔
      i < s.buckets.length ∧ config.stride ∣ i + 1 ∧ c.toNat = s.upTo i ∧ c ≠ 0 := mem_emitted hfit
  refine ⟨?_, fun hlen => ⟨?_, fun e he => ?_⟩, ?_, hmem, ?_, fun e he => ?_⟩
  · split
    · next hzero =>
        rw [writeHistogram, if_pos hzero]
        rfl
    · next hcount => exact bucketSamples_writeHistogram upper s resolverId config hcount
  · apply (emitted_pairwise s config).imp_of_mem
    intro a b _ hb hlt
    exact writtenBound_lt hupper hlt ((emitted_lt hb).trans_le hlen)
  · exact writtenBound_ne_top hupper ((emitted_lt he).trans_le hlen)
  · apply (emitted_pairwise s config).imp_of_mem
    rintro ⟨i, c⟩ ⟨j, d⟩ ha hb hlt
    rw [UInt64.le_iff_toNat_le, ((hmem i c).mp ha).2.2.1, ((hmem j d).mp hb).2.2.1]
    exact upTo_mono s hlt.le
  · -- without striding, every bucket is at a boundary
    have hone : PrometheusConfig.stride {} = 1 := rfl
    rw [emitted_eq, emitted_eq, hone]
    apply List.monotone_filter_right
    intro e he
    simp only [decide_eq_true_eq] at he ⊢
    exact ⟨one_dvd _, he.2⟩
  · obtain ⟨i, c⟩ := e
    rw [UInt64.le_iff_toNat_le, ((hmem i c).mp he).2.2.1, ← hsum]
    exact upTo_le s i

/-- The powers of `10 ^ (1 / 18)` below ten, with 16 digits behind the point. -/
def sampleMantissas : List Nat :=
  [10000000000000000, 11364636663857247, 12915496650148839, 14677992676220695, 16681005372000588,
    18957356524063758, 21544346900318837, 24484367468222270, 27825594022071246,
    31622776601683793, 35938136638046273, 40842386526745211, 46415888336127789,
    52749970637026184, 59948425031894101, 68129206905796129, 77426368268112706, 87992254356910703]

def sampleUpper (i : Nat) : Option ℚ :=
  some (sampleMantissas.getD ((i + 1) % 18) 0 / 10 ^ 16 * 10 ^ ((i + 1) / 18))

theorem sampleMantissas_near {r : Nat} (hr : r < 18) :
    (0 : ℚ) < sampleMantissas.getD r 0 / 10 ^ 16 ∧
      (99 / 100) ^ 18 * 10 ^ r ≤ (sampleMantissas.getD r 0 / 10 ^ 16 : ℚ) ^ 18 ∧
      (sampleMantissas.getD r 0 / 10 ^ 16 : ℚ) ^ 18 ≤ (101 / 100) ^ 18 * 10 ^ r := by
  interval_cases r <;> simp only [sampleMantissas, List.getD_cons_zero, List.getD_cons_succ] <;>
    norm_num

theorem sampleUpper_accurate : ExpAccurate sampleUpper := by
  constructor
  intro i _
  obtain ⟨hpos, hlow, hhigh⟩ := sampleMantissas_near (Nat.mod_lt (i + 1) (by norm_num : 0 < 18))
  have hpow : (10 : ℚ) ^ (i + 1) = 10 ^ ((i + 1) % 18) * (10 ^ ((i + 1) / 18)) ^ 18 := by
    rw [← pow_mul, ← pow_add, Nat.mul_comm, Nat.mod_add_div]
  refine ⟨_, rfl, by positivity, ?_, ?_⟩
  · rw [mul_pow, hpow, ← mul_assoc]
    gcongr
  · rw [mul_pow, hpow, ← mul_assoc]
    gcongr

/-- Three observations, with one line for two buckets. -/
theorem histogram_cumulative_sample :
    let s : HistogramSnapshot := { sum := 4, count := 3, buckets := [1, 0, 2] }
    let config : PrometheusConfig := { bucketsPerDecade := 9 }
    s.emitted config = [(1, 1)] ∧
      bucketSamples (writeHistogram sampleUpper s "w0" config) =
        [bucketSample config "w0" (upperText sampleUpper 1) 1, bucketSample config "w0" "+Inf" 3] ∧
      ∀ e ∈ s.emitted config, writtenBound sampleUpper e.1 < ⊤ ∧ e.2 ≤ 3 := by
  intro s config
  have hcumulative := histogram_cumulative sampleUpper_accurate s rfl "w0" config
  have hemitted : s.emitted config = [(1, 1)] := by decide
  refine ⟨hemitted, ?_, fun e he => ⟨?_, hcumulative.2.2.2.2.2 e he⟩⟩
  · rw [hcumulative.1, hemitted, if_neg (by decide)]
    rfl
  · exact (hcumulative.2.1 (by decide)).2 e he

/-! ### Snapshots -/

/-- A snapshot has no more buckets and rates than the collector. -/
structure TelemetrySnapshot.Sized (s : TelemetrySnapshot) : Prop where
  buckets : s.latency.buckets.length ≤ BUCKET_COUNT
  rates : s.resolveRates.length ≤ REASON_COUNT

theorem sized_snapshotOf (read : Cell → UInt64) (memory : UInt64) :
    (snapshotOf read memory).Sized where
  buckets := List.length_ofFn.le
  rates := List.length_ofFn.le

theorem index?_lt {bound i : Nat} {x : Int32} (h : index? bound x = some i) : i < bound := by
  rw [index?] at h
  split at h
  · next hx =>
      cases h
      omega
  · cases h

theorem bucketIncrements_lt (td : TelemetryData) :
    ∀ e ∈ td.bucketIncrements, e.1 < BUCKET_COUNT := by
  have hcounts : ∀ (counts : List UInt32) (idx : Nat),
      ∀ e ∈ countIncrements idx counts, e.1 < BUCKET_COUNT := by
    intro counts
    induction counts with
    | nil =>
        intro _ e he
        cases he
    | cons count counts ih =>
        intro idx e he
        rw [countIncrements] at he
        split at he
        · cases he
        · next hlt =>
            rw [List.mem_cons] at he
            obtain rfl | he := he
            · exact not_le.mp hlt
            · exact ih (idx + 1) e he
  intro e he
  rw [TelemetryData.bucketIncrements, List.mem_flatMap] at he
  obtain ⟨span, _, he⟩ := he
  rw [BucketSpan.increments] at he
  cases hbase : index? BUCKET_COUNT span.offset with
  | none =>
      rw [hbase] at he
      cases he
  | some base =>
      rw [hbase] at he
      exact hcounts _ _ e he

theorem rateIncrements_lt (td : TelemetryData) :
    ∀ e ∈ td.rateIncrements, e.1 < REASON_COUNT := by
  intro e he
  rw [TelemetryData.rateIncrements, List.mem_flatMap] at he
  obtain ⟨rate, _, he⟩ := he
  rw [ResolveRate.increments, Option.mem_toList, Option.map_eq_some_iff] at he
  obtain ⟨idx, hidx, rfl⟩ := he
  exact index?_lt hidx

/-- Accumulating a delta adds nothing beyond the last bucket or the last reason. -/
theorem TelemetrySnapshot.Sized.accumulateDelta {s : TelemetrySnapshot} (h : s.Sized)
    (td : TelemetryData) : (s.accumulateDelta td).Sized := by
  constructor
  · rw [accumulateDelta_buckets]
    exact Counters.length_addAll_le.mpr ⟨h.buckets, bucketIncrements_lt td⟩
  · rw [accumulateDelta_rates]
    exact Counters.length_addAll_le.mpr ⟨h.rates, rateIncrements_lt td⟩

/-- Nor does merging snapshots. -/
theorem TelemetrySnapshot.Sized.mergeSnapshots {s t : TelemetrySnapshot} (hs : s.Sized)
    (ht : t.Sized) (gauges : GaugeSource) :
    (ConfidenceResolver.mergeSnapshots s t gauges).Sized := by
  constructor
  · rw [ConfidenceResolver.mergeSnapshots, Counters.length_zipAdd]
    exact max_le hs.buckets ht.buckets
  · rw [ConfidenceResolver.mergeSnapshots, Counters.length_zipAdd]
    exact max_le hs.rates ht.rates

/-- The counters behind a run of observations. -/
def observeAll (cells : Cell → UInt64) (values : List UInt32) : Cell → UInt64 :=
  addAll cells (values.flatMap fun v => (Call.observe v).additions)

/-- A counter to which some of the observations add one. -/
theorem toNat_observeAll {c : Cell} {counted : UInt32 → Bool}
    (hone : ∀ cells v, addAll cells (Call.observe v).additions c =
      cells c + if counted v then 1 else 0) (values : List UInt32) :
    ∀ cells, (cells c).toNat + values.length < 2 ^ 64 →
      (observeAll cells values c).toNat = (cells c).toNat + values.countP counted := by
  induction values with
  | nil =>
      intro cells _
      rfl
  | cons v values ih =>
      intro cells hfit
      rw [List.length_cons] at hfit
      have hsplit : observeAll cells (v :: values) =
          observeAll (addAll cells (Call.observe v).additions) values := List.foldl_append
      have hv : (addAll cells (Call.observe v).additions c).toNat =
          (cells c).toNat + if counted v then 1 else 0 := by
        rw [hone]
        split
        · rw [UInt64.toNat_add, UInt64.toNat_one, Nat.mod_eq_of_lt (by omega)]
        · rw [UInt64.add_zero, Nat.add_zero]
      have hle : (if counted v then 1 else 0) ≤ 1 := by split <;> omega
      rw [hsplit, ih _ (by rw [hv]; omega), hv, List.countP_cons]
      omega

theorem observe_count (cells : Cell → UInt64) (v : UInt32) :
    addAll cells (Call.observe v).additions .count = cells .count + if true then 1 else 0 := rfl

theorem observe_bucket (i : Fin BUCKET_COUNT) (cells : Cell → UInt64) (v : UInt32) :
    addAll cells (Call.observe v).additions (.bucket i) =
      cells (.bucket i) + if decide (bucketIndex v = i) then 1 else 0 := by
  have hadd : addAll cells (Call.observe v).additions (.bucket i) =
      fetchAdd (fetchAdd (fetchAdd cells .sum v.toUInt64) .count 1) (.bucket (bucketIndex v)) 1
        (.bucket i) := rfl
  rw [hadd, fetchAdd]
  by_cases hi : bucketIndex v = i
  · subst hi
    rw [Function.update_self, decide_eq_true rfl, if_pos rfl]
    rfl
  · have hne : Cell.bucket i ≠ Cell.bucket (bucketIndex v) := by
      rintro ⟨⟩
      exact hi rfl
    rw [Function.update_of_ne hne, decide_eq_false hi, if_neg Bool.false_ne_true, UInt64.add_zero]
    rfl

theorem countP_lt_succ {α : Type*} (f : α → Nat) (k : Nat) (l : List α) :
    (l.countP fun a => f a < k + 1) = (l.countP fun a => f a < k) + l.countP fun a => f a = k := by
  induction l with
  | nil => rfl
  | cons a l ih =>
      rw [List.countP_cons, List.countP_cons, List.countP_cons, ih]
      simp only [decide_eq_true_eq]
      split_ifs <;> omega

/-- **The histogram counts the values observed.**  Its count is the sum of its buckets, and the
count up to a bucket is that of the values whose bucket it is, or one before. -/
theorem observed_upTo (values : List UInt32) (memory : UInt64) (hfit : values.length < 2 ^ 64) :
    let s := (snapshotOf (observeAll (fun _ => 0) values) memory).latency
    s.observations = s.count.toNat ∧
      ∀ i, s.upTo i = values.countP fun v => (bucketIndex v).val ≤ i := by
  intro s
  have hzero : ((fun _ => 0 : Cell → UInt64) .count).toNat + values.length < 2 ^ 64 := by
    rw [UInt64.toNat_zero, Nat.zero_add]
    exact hfit
  have hfront : ∀ k, ((s.buckets.take k).map UInt64.toNat).sum =
      values.countP fun v => (bucketIndex v).val < k := by
    intro k
    induction k with
    | zero => simp
    | succ k ih =>
        rw [List.take_add_one, List.map_append, List.sum_append, ih,
          countP_lt_succ fun v => (bucketIndex v).val]
        congr 1
        by_cases hk : k < BUCKET_COUNT
        · have hget : s.buckets[k]? = some (observeAll (fun _ => 0) values (.bucket ⟨k, hk⟩)) := by
            show (List.ofFn _)[k]? = _
            rw [List.getElem?_ofFn, dif_pos hk]
          rw [hget, Option.toList_some, List.map_singleton, List.sum_singleton,
            toNat_observeAll (observe_bucket ⟨k, hk⟩) values _ hzero, UInt64.toNat_zero,
            Nat.zero_add]
          simp only [Fin.ext_iff]
        · have hget : s.buckets[k]? = none := by
            show (List.ofFn _)[k]? = _
            rw [List.getElem?_ofFn, dif_neg hk]
          rw [hget, eq_comm]
          -- no value has a bucket beyond the last
          simp only [Option.toList_none, List.map_nil, List.sum_nil, List.countP_eq_zero,
            decide_eq_true_eq]
          intro v _ hv
          exact hk (hv ▸ (bucketIndex v).isLt)
  have hcount : s.count.toNat = values.length := by
    have htotal := toNat_observeAll observe_count values (fun _ => 0) hzero
    rw [UInt64.toNat_zero, Nat.zero_add, List.countP_true] at htotal
    exact htotal
  constructor
  · have hall := hfront s.buckets.length
    rw [List.take_length] at hall
    have hlen : s.buckets.length = BUCKET_COUNT := List.length_ofFn
    rw [HistogramSnapshot.observations, hall, hcount, List.countP_eq_length, hlen]
    intro v _
    exact decide_eq_true (bucketIndex v).isLt
  · intro i
    rw [HistogramSnapshot.upTo, hfront]
    simp only [Nat.lt_succ_iff]

end ConfidenceResolver
