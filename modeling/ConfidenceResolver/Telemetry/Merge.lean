import ConfidenceResolver.Telemetry.Increments

/-!
# Telemetry — the three accumulators agree

Deltas may be merged into one delta first, added to a snapshot one after another, or added to an
empty snapshot that is then merged into the snapshot.

* `Fits`: the sums of the deltas fit the `u32` counters of a delta.
* `mergeSnapshots_accumulateAll`: merging the snapshot of the deltas is accumulating them.
* `accumulateMerged_eq`: accumulating the merged delta is accumulating the deltas.
* `accumulators_agree`: all three.
-/

namespace ConfidenceResolver

/-! ### Merging snapshots -/

theorem mergeSnapshots_scalar (s t : TelemetrySnapshot) (gauges : GaugeSource) (c : Scalar) :
    (mergeSnapshots s t gauges).scalar c = s.scalar c + t.scalar c := by
  simp only [mergeSnapshots, TelemetrySnapshot.scalar]
  cases c with
  | appliesTotal | appliesDeduped | applyDedupOverflow | sweeps =>
      cases s.applyDedup <;> cases t.applyDedup <;> simp [mergeDedupSnapshots]
  | _ => rfl

theorem mergeSnapshots_gauges (s t : TelemetrySnapshot) :
    (mergeSnapshots s t .live).gauges = s.gauges.latest t.gauges := by
  simp only [mergeSnapshots, TelemetrySnapshot.gauges, Gauges.latest]
  by_cases hm : 0 < t.memoryBytes <;>
    cases s.applyDedup <;> cases t.applyDedup <;> simp [mergeDedupSnapshots, hm]

/-- What a frozen snapshot leaves out are the gauges. -/
theorem mergeSnapshots_counters (s t : TelemetrySnapshot) :
    (mergeSnapshots s t .frozen).counters = (mergeSnapshots s t .live).counters := by
  simp only [mergeSnapshots, TelemetrySnapshot.counters]
  cases s.applyDedup <;> cases t.applyDedup <;> simp [mergeDedupSnapshots]

theorem foldl_latest (g h : Gauges) (ds : List TelemetryData) :
    ds.foldl (fun g d => g.latest d.gauges) (g.latest h) =
      g.latest (ds.foldl (fun g d => g.latest d.gauges) h) :=
  List.foldl_hom g.latest fun h d => Gauges.latest_assoc g h d.gauges

/-- **Merging the snapshot of the deltas is accumulating them.** -/
theorem mergeSnapshots_accumulateAll {s : TelemetrySnapshot}
    (hs : Labelled.Sorted s.providerInitRate) (ds : List TelemetryData) :
    mergeSnapshots s (TelemetrySnapshot.accumulateAll {} ds) .live = s.accumulateAll ds := by
  refine TelemetrySnapshot.ext_readings (fun c => ?_) ?_ ?_ ?_ ?_
  · have hzero : TelemetrySnapshot.scalar {} c = 0 := by cases c <;> rfl
    rw [mergeSnapshots_scalar, TelemetrySnapshot.accumulateAll_scalar,
      TelemetrySnapshot.accumulateAll_scalar, hzero, zero_add]
  · rw [TelemetrySnapshot.accumulateAll_buckets s, ← Counters.zipAdd_addAll,
      ← TelemetrySnapshot.accumulateAll_buckets {}]
    rfl
  · rw [TelemetrySnapshot.accumulateAll_rates s, ← Counters.zipAdd_addAll,
      ← TelemetrySnapshot.accumulateAll_rates {}]
    rfl
  · rw [TelemetrySnapshot.accumulateAll_provider s, ← Labelled.join_addAll hs,
      ← TelemetrySnapshot.accumulateAll_provider {}]
    rfl
  · rw [mergeSnapshots_gauges, TelemetrySnapshot.accumulateAll_gauges,
      TelemetrySnapshot.accumulateAll_gauges, ← foldl_latest]
    rfl

/-! ### Merging deltas -/

/-- What a list of rates reports for the known reason `i`. -/
def rateSum (i : Nat) (rates : List ResolveRate) : Nat :=
  (rates.map fun rate => if index? REASON_COUNT rate.reason = some i then rate.count.toNat else 0).sum

/-- What a list of provider init rates reports for the labels `k`. -/
def providerSum (k : Labels) (rates : List ProviderInitRate) : Nat :=
  (rates.map fun pir => if pir.labels = k then pir.count.toNat else 0).sum

/-- The sums over the deltas fit the counters of one delta. -/
structure Fits (ds : List TelemetryData) : Prop where
  scalar : ∀ c, (ds.map fun d => (d.scalar c).toNat).sum < 2 ^ 32
  rate : ∀ i, (ds.map fun d => rateSum i d.resolveRate).sum < 2 ^ 32
  provider : ∀ k, (ds.map fun d => providerSum k d.providerInitRate).sum < 2 ^ 32

theorem toNat_add_of_fits {a b : UInt32} (h : a.toNat + b.toNat < 2 ^ 32) :
    (a + b).toNat = a.toNat + b.toNat := by
  rw [UInt32.toNat_add, Nat.mod_eq_of_lt h]

theorem sum_ofNat {D : Type*} (f : D → Nat) (ds : List D) :
    (ds.map fun d => UInt64.ofNat (f d)).sum = UInt64.ofNat (ds.map f).sum := by
  induction ds with
  | nil => rfl
  | cons d ds ih => rw [List.map_cons, List.sum_cons, ih, List.map_cons, List.sum_cons,
      UInt64.ofNat_add]

theorem toUInt64_eq (a : UInt32) : a.toUInt64 = UInt64.ofNat a.toNat := by
  simp

namespace TelemetryData

theorem merge_scalar (a d : TelemetryData) (c : Scalar) :
    (a.merge d).scalar c = a.scalar c + d.scalar c := by
  simp only [merge, scalar]
  cases c with
  | latencySum | latencyCount =>
      cases a.resolveLatency <;> cases d.resolveLatency <;> simp [mergeLatency]
  | appliesTotal | appliesDeduped | applyDedupOverflow | sweeps =>
      cases a.applyDedup <;> cases d.applyDedup <;> simp [mergeDedup]
  | flushSucceeded | flushFailed => cases a.flush <;> cases d.flush <;> simp [mergeFlush]
  | published | batchesSucceeded | batchesFailed | eventsRejected =>
      cases a.events <;> cases d.events <;> simp [mergeEvents]

theorem merge_buckets (a d : TelemetryData) :
    (a.merge d).bucketIncrements = a.bucketIncrements ++ d.bucketIncrements := by
  simp only [merge, bucketIncrements]
  cases a.resolveLatency <;> cases d.resolveLatency <;> simp [mergeLatency]

theorem merge_gauges (a d : TelemetryData) : (a.merge d).gauges = a.gauges.latest d.gauges := by
  simp only [merge, gauges, Gauges.latest]
  cases a.applyDedup <;> cases d.applyDedup <;> rfl

end TelemetryData

/-- `merge_telemetry` along a list of deltas. -/
def mergeAll (ds : List TelemetryData) : Option TelemetryData :=
  ds.foldl (fun acc d => some (mergeTelemetry acc d)) none

theorem mergeAll_eq (ds : List TelemetryData) :
    (mergeAll ds).getD {} = ds.foldl TelemetryData.merge {} :=
  (List.foldl_hom (fun acc : Option TelemetryData => acc.getD {}) fun _ _ => rfl).symm

theorem foldl_merge_scalar {ds : List TelemetryData} (hfits : Fits ds) (c : Scalar) :
    ((ds.foldl TelemetryData.merge {}).scalar c).toNat =
      (ds.map fun d => (d.scalar c).toNat).sum := by
  have hzero : (TelemetryData.scalar {} c).toNat = 0 := by cases c <;> rfl
  have hstep : ∀ a d : TelemetryData, (a.scalar c).toNat + (d.scalar c).toNat < 2 ^ 32 →
      ((a.merge d).scalar c).toNat = (a.scalar c).toNat + (d.scalar c).toNat := by
    intro a d h
    rw [TelemetryData.merge_scalar, toNat_add_of_fits h]
  have h := Counters.foldl_fits (f := fun d : TelemetryData => (d.scalar c).toNat) hstep ds {}
    (by rw [hzero, Nat.zero_add]; exact hfits.scalar c)
  rwa [hzero, Nat.zero_add] at h

theorem foldl_merge_buckets (ds : List TelemetryData) :
    ∀ a : TelemetryData, (ds.foldl TelemetryData.merge a).bucketIncrements =
      a.bucketIncrements ++ ds.flatMap (·.bucketIncrements) := by
  induction ds with
  | nil => simp
  | cons d ds ih =>
      intro a
      rw [List.foldl_cons, ih, TelemetryData.merge_buckets, List.flatMap_cons, List.append_assoc]

theorem foldl_merge_gauges (ds : List TelemetryData) :
    (ds.foldl TelemetryData.merge {}).gauges =
      ds.foldl (fun g d => g.latest d.gauges) Gauges.unread :=
  (List.foldl_hom TelemetryData.gauges fun a d => (TelemetryData.merge_gauges a d).symm).symm

theorem foldl_merge_rates (ds : List TelemetryData) :
    (ds.foldl TelemetryData.merge {}).resolveRate =
      (ds.flatMap (·.resolveRate)).foldl mergeRate [] := by
  rw [List.foldl_flatMap]
  exact (List.foldl_hom TelemetryData.resolveRate fun _ _ => rfl).symm

theorem foldl_merge_provider (ds : List TelemetryData) :
    (ds.foldl TelemetryData.merge {}).providerInitRate =
      Labelled.addAll (ds.flatMap (·.providerInitRate)) [] := by
  rw [Labelled.addAll, List.foldl_flatMap]
  exact (List.foldl_hom TelemetryData.providerInitRate fun _ _ => rfl).symm

/-! ### Rates -/

theorem mergeRate_reasons (rates : List ResolveRate) (dr : ResolveRate) (r : Int32) :
    r ∈ (mergeRate rates dr).map (·.reason) ↔ r ∈ rates.map (·.reason) ∨ r = dr.reason := by
  rw [mergeRate]
  cases h : updateFirst (fun ar => ar.reason = dr.reason)
      (fun ar => { ar with count := ar.count + dr.count }) rates with
  | none => simp
  | some rates' =>
      rw [Option.getD_some, map_updateFirst ResolveRate.reason h fun _ => rfl]
      obtain ⟨l₁, e, l₂, -, he, rfl, -⟩ := updateFirst_eq_some h
      have he' : e.reason = dr.reason := by simpa using he
      simp only [List.map_append, List.map_cons, List.mem_append, List.mem_cons, he']
      tauto

theorem mergeRate_sum (i : Nat) (rates : List ResolveRate) (dr : ResolveRate)
    (h : rateSum i rates + rateSum i [dr] < 2 ^ 32) :
    rateSum i (mergeRate rates dr) = rateSum i rates + rateSum i [dr] := by
  rw [mergeRate]
  cases hu : updateFirst (fun ar => ar.reason = dr.reason)
      (fun ar => { ar with count := ar.count + dr.count }) rates with
  | none => simp [rateSum]
  | some rates' =>
      have hδ : rateSum i [dr] =
          if index? REASON_COUNT dr.reason = some i then dr.count.toNat else 0 := by simp [rateSum]
      rw [hδ] at h ⊢
      refine sum_updateFirst (fun e he hfits => ?_) hu h
      have he' : e.reason = dr.reason := by simpa using he
      simp only [he'] at hfits ⊢
      by_cases hi : index? REASON_COUNT dr.reason = some i
      · simp only [hi, if_true] at hfits ⊢
        exact toNat_add_of_fits hfits
      · simp [hi]

theorem foldl_mergeRate_reasons (rs : List ResolveRate) (r : Int32) :
    ∀ rates, r ∈ (rs.foldl mergeRate rates).map (·.reason) ↔
      r ∈ rates.map (·.reason) ∨ r ∈ rs.map (·.reason) := by
  induction rs with
  | nil => simp
  | cons dr rs ih =>
      intro rates
      rw [List.foldl_cons, ih, mergeRate_reasons, List.map_cons, List.mem_cons, or_assoc]

theorem foldl_mergeRate_sum (i : Nat) (rs : List ResolveRate) (h : rateSum i rs < 2 ^ 32) :
    rateSum i (rs.foldl mergeRate []) = rateSum i rs := by
  have hsum : (rs.map fun dr => rateSum i [dr]).sum = rateSum i rs := by simp [rateSum]
  have hfold := Counters.foldl_fits (g := fun dr => rateSum i [dr]) (mergeRate_sum i) rs []
    (by rw [hsum]; simpa [rateSum] using h)
  rw [hfold, hsum]
  simp [rateSum]

theorem sumAt_rateIncrements (i : Nat) (rates : List ResolveRate) :
    Counters.sumAt i (rates.flatMap ResolveRate.increments) = UInt64.ofNat (rateSum i rates) := by
  induction rates with
  | nil => rfl
  | cons rate rates ih =>
      rw [List.flatMap_cons, Counters.sumAt_append, ih]
      simp only [rateSum, List.map_cons, List.sum_cons, UInt64.ofNat_add, ResolveRate.increments]
      congr 1
      cases hi : index? REASON_COUNT rate.reason with
      | none => rfl
      | some j =>
          by_cases hij : j = i
          · simp [Counters.sumAt, hij]
          · simp [Counters.sumAt, hij]

theorem mem_rateIncrements (i : Nat) (rates : List ResolveRate) :
    (∃ e ∈ rates.flatMap ResolveRate.increments, e.1 = i) ↔
      ∃ r ∈ rates.map (·.reason), index? REASON_COUNT r = some i := by
  simp only [List.mem_flatMap, List.mem_map, ResolveRate.increments, Option.mem_toList,
    Option.map_eq_some_iff]
  constructor
  · rintro ⟨_, ⟨rate, hmem, j, hj, rfl⟩, rfl⟩
    exact ⟨_, ⟨rate, hmem, rfl⟩, hj⟩
  · rintro ⟨_, ⟨rate, hmem, rfl⟩, hi⟩
    exact ⟨_, ⟨rate, hmem, i, hi, rfl⟩, rfl⟩

/-! ### Provider inits -/

theorem addTo_sum (k : Labels) (l : List ProviderInitRate) (e : ProviderInitRate)
    (h : providerSum k l + providerSum k [e] < 2 ^ 32) :
    providerSum k (Labelled.addTo l e) = providerSum k l + providerSum k [e] := by
  rw [Labelled.addTo]
  cases hu : updateFirst (fun x : ProviderInitRate => x.labels = e.labels) (Labelled.bump e) l with
  | none =>
      rw [Option.getD_none, providerSum, ((Labelled.insertSorted_perm e l).map _).sum_eq]
      simp only [providerSum, List.map_cons, List.sum_cons, List.map_nil, List.sum_nil]
      omega
  | some l' =>
      have hδ : providerSum k [e] = if e.labels = k then e.count.toNat else 0 := by
        simp [providerSum]
      rw [hδ] at h ⊢
      refine sum_updateFirst (fun x hx hfits => ?_) hu h
      have hx' : x.labels = e.labels := by simpa using hx
      simp only [Labelled.bump, hx'] at hfits ⊢
      by_cases hk : e.labels = k
      · simp only [hk, if_true] at hfits ⊢
        exact toNat_add_of_fits hfits
      · simp [hk]

theorem addAll_labels (ps : List ProviderInitRate) (k : Labels) :
    (∃ x ∈ Labelled.addAll ps [], x.labels = k) ↔ ∃ x ∈ ps, x.labels = k := by
  rw [← Labelled.lookup_isSome, Labelled.lookup_addAll]
  by_cases hk : ∃ x ∈ ps, x.labels = k
  · simp [hk]
  · simp [hk, Labelled.lookup]

theorem addAll_sum (k : Labels) (ps : List ProviderInitRate) (h : providerSum k ps < 2 ^ 32) :
    providerSum k (Labelled.addAll ps []) = providerSum k ps := by
  have hsum : (ps.map fun e => providerSum k [e]).sum = providerSum k ps := by simp [providerSum]
  have hfold := Counters.foldl_fits (g := fun e => providerSum k [e]) (addTo_sum k) ps []
    (by rw [hsum]; simpa [providerSum] using h)
  rw [Labelled.addAll, hfold, hsum]
  simp [providerSum]

theorem sumAt_providerIncrements (k : Labels) (ps : List ProviderInitRate) :
    Labelled.sumAt k (ps.map ProviderInitRate.snapshot) = UInt64.ofNat (providerSum k ps) := by
  induction ps with
  | nil => rfl
  | cons e ps ih =>
      rw [List.map_cons, Labelled.sumAt_cons, ih]
      by_cases hk : e.labels = k <;> simp [ProviderInitRate.snapshot, providerSum, hk]

/-! ### The three together -/

/-- Accumulate what the deltas merge to, where there is any. -/
def TelemetrySnapshot.accumulateMerged (s : TelemetrySnapshot) (ds : List TelemetryData) :
    TelemetrySnapshot :=
  (mergeAll ds).elim s s.accumulateDelta

theorem sum_flatMap {D E : Type*} (f : D → List E) (w : E → Nat) (ds : List D) :
    ((ds.flatMap f).map w).sum = (ds.map fun d => ((f d).map w).sum).sum := by
  induction ds with
  | nil => rfl
  | cons d ds ih => simp [ih]

/-- **Accumulating the merged delta is accumulating the deltas.** -/
theorem accumulateMerged_eq (s : TelemetrySnapshot) (hs : Labelled.Sorted s.providerInitRate)
    {ds : List TelemetryData} (hfits : Fits ds) : s.accumulateMerged ds = s.accumulateAll ds := by
  have hmerged : s.accumulateMerged ds = s.accumulateDelta (ds.foldl TelemetryData.merge {}) := by
    rw [← mergeAll_eq, TelemetrySnapshot.accumulateMerged]
    cases mergeAll ds <;> rfl
  rw [hmerged]
  -- field by field: sums that fit are the sums of the parts
  refine TelemetrySnapshot.ext_readings (fun c => ?_) ?_ ?_ ?_ ?_
  · have hsum := sum_ofNat (fun d : TelemetryData => (d.scalar c).toNat) ds
    simp only [← toUInt64_eq] at hsum
    rw [accumulateDelta_scalar, TelemetrySnapshot.accumulateAll_scalar, toUInt64_eq,
      foldl_merge_scalar hfits, hsum]
  · rw [accumulateDelta_buckets, TelemetrySnapshot.accumulateAll_buckets, foldl_merge_buckets]
    rfl
  · rw [accumulateDelta_rates, TelemetrySnapshot.accumulateAll_rates]
    have hflat : ds.flatMap (·.rateIncrements) =
        (ds.flatMap (·.resolveRate)).flatMap ResolveRate.increments := List.flatMap_assoc.symm
    rw [hflat, TelemetryData.rateIncrements, foldl_merge_rates]
    refine Counters.addAll_congr (fun i => ?_) (fun i => ?_) _
    · simp only [mem_rateIncrements, foldl_mergeRate_reasons]
      simp
    · rw [sumAt_rateIncrements, sumAt_rateIncrements, foldl_mergeRate_sum]
      rw [rateSum, sum_flatMap]
      exact hfits.rate i
  · rw [accumulateDelta_provider, TelemetrySnapshot.accumulateAll_provider]
    have hflat : ds.flatMap (·.providerIncrements) =
        (ds.flatMap (·.providerInitRate)).map ProviderInitRate.snapshot := List.map_flatMap.symm
    rw [hflat, TelemetryData.providerIncrements, foldl_merge_provider]
    refine Labelled.addAll_congr hs (fun k => ?_) (fun k => ?_)
    · simpa [ProviderInitRate.snapshot] using addAll_labels (ds.flatMap (·.providerInitRate)) k
    · rw [sumAt_providerIncrements, sumAt_providerIncrements, addAll_sum]
      rw [providerSum, sum_flatMap]
      exact hfits.provider k
  · rw [accumulateDelta_gauges, TelemetrySnapshot.accumulateAll_gauges, foldl_merge_gauges,
      ← foldl_latest]
    rfl

/-- **The three accumulators agree**: merging the deltas first, accumulating them one after
another, and merging the snapshot that they make of the empty one.  A frozen snapshot adds the
same counters and no gauges. -/
theorem accumulators_agree (s : TelemetrySnapshot) (hs : Labelled.Sorted s.providerInitRate)
    (ds : List TelemetryData) (hfits : Fits ds) :
    s.accumulateMerged ds = s.accumulateAll ds ∧
      mergeSnapshots s (TelemetrySnapshot.accumulateAll {} ds) .live = s.accumulateAll ds ∧
      (mergeSnapshots s (TelemetrySnapshot.accumulateAll {} ds) .frozen).counters =
        (s.accumulateAll ds).counters := by
  refine ⟨accumulateMerged_eq s hs hfits, mergeSnapshots_accumulateAll hs ds, ?_⟩
  rw [mergeSnapshots_counters, mergeSnapshots_accumulateAll hs]

/-- Two reports: the second has a span outside the buckets, an unknown reason and a new label. -/
def Sample.deltas : List TelemetryData :=
  [{ resolveLatency := some ⟨9, 2, [⟨3, [1, 0, 1]⟩], 0.1⟩
     resolveRate := [⟨2, 1⟩]
     memoryBytes := 64
     providerInitRate := [⟨.empty, 1⟩] },
   { resolveLatency := some ⟨5, 1, [⟨-1, [7]⟩, ⟨172, [1, 1, 1]⟩], 0.1⟩
     resolveRate := [⟨1, -1⟩, ⟨3, 1⟩]
     applyDedup := some ⟨4, 1, 0, 1, 8, 16⟩
     providerInitRate :=
       [⟨⟨[toLex ("encryption", "true")], List.pairwise_singleton _ _⟩, 2⟩, ⟨.empty, 1⟩] }]

theorem Sample.deltas_fit : Fits Sample.deltas where
  scalar c := by cases c <;> decide
  rate i := by
    simp only [Sample.deltas, rateSum, List.map_cons, List.map_nil, List.sum_cons, List.sum_nil]
    split_ifs <;> decide
  provider k := by
    simp only [Sample.deltas, providerSum, List.map_cons, List.map_nil, List.sum_cons,
      List.sum_nil]
    split_ifs <;> decide

def Sample.snapshot : TelemetrySnapshot := { providerInitRate := [⟨.empty, 5⟩] }

theorem accumulators_agree_deltas :
    Sample.snapshot.accumulateMerged Sample.deltas = Sample.snapshot.accumulateAll Sample.deltas ∧
      mergeSnapshots Sample.snapshot (TelemetrySnapshot.accumulateAll {} Sample.deltas) .live =
        Sample.snapshot.accumulateAll Sample.deltas ∧
      (mergeSnapshots Sample.snapshot
          (TelemetrySnapshot.accumulateAll {} Sample.deltas) .frozen).counters =
        (Sample.snapshot.accumulateAll Sample.deltas).counters :=
  accumulators_agree Sample.snapshot (List.pairwise_singleton _ _) Sample.deltas
    Sample.deltas_fit

end ConfidenceResolver
