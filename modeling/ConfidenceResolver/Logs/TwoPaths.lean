import ConfidenceResolver.Logs.Conservation
import ConfidenceResolver.Logs.ResolveLogger

/-!
# Logs — two ways to log resolves

Many resolves logged to one `ResolveLogger` and reported by one checkpoint, against the messages
that `build_resolve_log` makes of each.

* `counter_foldl`: what a run of updates adds to a counter.
* `variantCounts_built`, `ruleCounts_built`, `assignmentCounts_built`: the messages of values count
  their updates.
* `paths_agree`: the reports agree in all counts, and in the schemas of a credential that has at
  most `SCHEMA_SAMPLE_COUNT` of them; of more a sample is reported.
* `schemas_sampled`: one credential with more schemas than that.
-/

namespace ConfidenceResolver

namespace ResolveLogger

open Saturating

/-! ### Counters after updates -/

/-- The updates to the counters of a flag. -/
def updatesOf (flag : String) (values : List ResolvedValue) : List FlagUpdate :=
  (values.filter fun v => v.inner.flag = flag).flatMap fun v => flagUpdates v.inner

theorem get?_increment (counters : HashMap String UInt32) (key k : String) :
    ((increment counters key).get? k).getD 0 =
      (counters.get? k).getD 0 + if key = k then 1 else 0 := by
  rw [increment, HashMap.get?_upsert]
  by_cases h : key = k <;> simp [h]

/-- The counter that an update adds to. -/
def FlagResolveInfo.counter (info : FlagResolveInfo) : FlagUpdate → UInt32
  | .variant key => (info.variantResolveInfo.get? key).getD 0
  | .count rule => ((info.ruleResolveInfo.get? rule).getD {}).count
  | .assignment rule assignmentId =>
      (((info.ruleResolveInfo.get? rule).getD {}).assignmentCounts.get? assignmentId).getD 0

theorem counter_apply (info : FlagResolveInfo) (u v : FlagUpdate) :
    (info.apply u).counter v = info.counter v + if u = v then 1 else 0 := by
  cases u with
  | variant key =>
      cases v with
      | variant key' => simp [FlagResolveInfo.apply, FlagResolveInfo.counter, get?_increment]
      | count rule => simp [FlagResolveInfo.apply, FlagResolveInfo.counter]
      | assignment rule id => simp [FlagResolveInfo.apply, FlagResolveInfo.counter]
  | count rule =>
      cases v with
      | variant key' => simp [FlagResolveInfo.apply, FlagResolveInfo.counter]
      | count rule' =>
          by_cases h : rule = rule' <;>
            simp [FlagResolveInfo.apply, FlagResolveInfo.counter, HashMap.get?_upsert, h]
      | assignment rule' id =>
          by_cases h : rule = rule' <;>
            simp [FlagResolveInfo.apply, FlagResolveInfo.counter, HashMap.get?_upsert, h]
  | assignment rule id =>
      cases v with
      | variant key' => simp [FlagResolveInfo.apply, FlagResolveInfo.counter]
      | count rule' =>
          by_cases h : rule = rule' <;>
            simp [FlagResolveInfo.apply, FlagResolveInfo.counter, HashMap.get?_upsert, h]
      | assignment rule' id' =>
          by_cases h : rule = rule' <;>
            simp [FlagResolveInfo.apply, FlagResolveInfo.counter, HashMap.get?_upsert, h,
              get?_increment]

/-- **A run of updates** adds to a counter as often as it is named. -/
theorem counter_foldl (us : List FlagUpdate) (v : FlagUpdate) :
    ∀ info : FlagResolveInfo,
      (us.foldl .apply info).counter v = info.counter v + UInt32.ofNat (us.count v) := by
  induction us with
  | nil => simp
  | cons u us ih =>
      intro info
      rw [List.foldl_cons, ih, counter_apply, List.count_cons, UInt32.add_assoc]
      by_cases h : u = v <;> simp [h, UInt32.add_comm]

/-! ### The report of a checkpoint -/

/-- The state after a sequence of `log_resolve` calls. -/
def logAll (resolves : List LoggedResolve) : ResolveInfoState :=
  resolves.foldl .log {}

theorem flagResolveInfo_logAll (resolves : List LoggedResolve) :
    (logAll resolves).flagResolveInfo = (resolves.flatMap (·.values)).foldl
      (fun flags value => flags.upsert value.inner.flag {} fun info => info.log value.inner)
      .empty := by
  rw [logAll, List.foldl_flatMap]
  exact (List.foldl_hom ResolveInfoState.flagResolveInfo fun _ _ => rfl).symm

/-- What the logger holds for a flag. -/
theorem getD_logAll (resolves : List LoggedResolve) (flag : String) :
    ((logAll resolves).flagResolveInfo.get? flag).getD {} =
      (updatesOf flag (resolves.flatMap (·.values))).foldl .apply {} := by
  rw [flagResolveInfo_logAll, HashMap.getD_foldl_upsert, updatesOf, List.foldl_flatMap]
  simp only [FlagResolveInfo.log_eq]

theorem toInt_load (count : UInt32) : (load count).toInt = count.toNat :=
  Int64.toInt_ofNat_of_lt (lt_trans count.toNat_lt (by decide))

/-- The counters that are found, as counts. -/
theorem total_load (o : Option UInt32) : total (o.toList.map load) = ((o.getD 0).toNat : Int) := by
  cases o <;> simp [toInt_load]

theorem filter_report (state : ResolveInfoState) (flag : String) :
    (report state).flagResolveInfo.filter (fun i => i.flag = flag) =
      (state.flagResolveInfo.get? flag).toList.map (toPbFlag flag) :=
  HashMap.filter_map_entries _ toPbFlag (·.flag) (fun _ _ => rfl) flag

theorem variantCounts_report (state : ResolveInfoState) (flag key : String) :
    total (variantCounts flag key (report state).flagResolveInfo) =
      ((((state.flagResolveInfo.get? flag).getD {}).counter (.variant key)).toNat : Int) := by
  rw [variantCounts, filter_report]
  cases state.flagResolveInfo.get? flag with
  | none => simp [FlagResolveInfo.counter]
  | some info =>
      have hentries := HashMap.filter_map_entries info.variantResolveInfo
        (fun k count => (⟨k, load count⟩ : VariantResolveInfo)) (·.variant) (fun _ _ => rfl) key
      rw [FlagResolveInfo.counter, Option.getD_some, ← total_load]
      simp only [Option.toList_some, List.map_cons, List.map_nil, List.flatMap_cons,
        List.flatMap_nil, List.append_nil, toPbFlag, hentries, List.map_map, Function.comp_def]

theorem ruleInfos_report (state : ResolveInfoState) (flag rule : String) :
    ruleInfos flag rule (report state).flagResolveInfo =
      ((state.flagResolveInfo.get? flag).bind (·.ruleResolveInfo.get? rule)).toList.map
        (toPbRule rule) := by
  rw [ruleInfos, filter_report]
  cases state.flagResolveInfo.get? flag with
  | none => rfl
  | some info =>
      have hentries := HashMap.filter_map_entries info.ruleResolveInfo toPbRule (·.rule)
        (fun _ _ => rfl) rule
      simpa [toPbFlag] using hentries

theorem ruleCounts_report (state : ResolveInfoState) (flag rule : String) :
    total (ruleCounts flag rule (report state).flagResolveInfo) =
      ((((state.flagResolveInfo.get? flag).getD {}).counter (.count rule)).toNat : Int) := by
  rw [ruleCounts, ruleInfos_report, FlagResolveInfo.counter]
  cases state.flagResolveInfo.get? flag with
  | none => simp
  | some info =>
      rw [Option.bind_some, Option.getD_some]
      cases info.ruleResolveInfo.get? rule <;> simp [toPbRule, toInt_load]

theorem assignmentCounts_report (state : ResolveInfoState) (flag rule assignmentId : String) :
    total (assignmentCounts flag rule assignmentId (report state).flagResolveInfo) =
      ((((state.flagResolveInfo.get? flag).getD {}).counter
        (.assignment rule assignmentId)).toNat : Int) := by
  rw [assignmentCounts, assignmentGroups, ruleInfos_report, FlagResolveInfo.counter]
  cases state.flagResolveInfo.get? flag with
  | none => simp
  | some info =>
      rw [Option.bind_some, Option.getD_some]
      cases info.ruleResolveInfo.get? rule with
      | none => simp
      | some info =>
          have hentries := HashMap.filter_map_entries info.assignmentCounts
            (fun k count => (⟨k, load count⟩ : AssignmentResolveInfo)) (·.assignmentId)
            (fun _ _ => rfl) assignmentId
          rw [Option.getD_some, ← total_load]
          simp only [Option.toList_some, List.map_cons, List.map_nil, List.flatten_cons,
            List.flatten_nil, List.append_nil, toPbRule, RuleResolveInfo.countsOf, hentries,
            List.map_map, Function.comp_def]

/-! ### The messages of the resolves -/

/-- The rules that a value hits, with their assignment ids. -/
def hits (af : AssignedFlag) : List (String × String) :=
  af.fallthroughAssignments.map (fun fallthrough => (fallthrough.rule, fallthrough.assignmentId)) ++
    if af.rule ≠ "" then [(af.rule, af.assignmentId)] else []

/-- The variant that a value counts for. -/
def variantKey (af : AssignedFlag) : String := if af.rule ≠ "" then af.variant else ""

theorem flagInfoOf_eq (af : AssignedFlag) :
    flagInfoOf af = ⟨af.flag, [⟨variantKey af, 1⟩], (hits af).map fun h => oneRule h.1 h.2⟩ := by
  have hkey : (if af.variant = "" then "" else af.variant) = af.variant := by
    by_cases h : af.variant = "" <;> simp [h]
  by_cases hrule : af.rule = "" <;> simp [flagInfoOf, variantKey, hits, hrule, hkey]

theorem count_flagUpdates (af : AssignedFlag) (u : FlagUpdate) :
    (flagUpdates af).count u =
      [FlagUpdate.variant (variantKey af)].count u +
        ((hits af).flatMap fun h => hitUpdates h.1 h.2).count u := by
  by_cases hrule : af.rule = ""
  · simp [flagUpdates, variantKey, hits, hrule, List.flatMap_map, Nat.add_comm]
  · rw [flagUpdates, variantKey, hits, if_pos hrule, if_pos hrule, if_pos hrule,
      List.flatMap_append, List.flatMap_map, List.count_append, List.count_append, List.count_cons]
    simp only [List.count_cons, List.count_nil, List.flatMap_cons, List.flatMap_nil,
      List.append_nil]
    omega

section Hits

variable (hs : List (String × String))

theorem count_hits_variant (key : String) :
    (hs.flatMap fun h => hitUpdates h.1 h.2).count (.variant key) = 0 := by
  induction hs with
  | nil => rfl
  | cons h hs ih =>
      rw [List.flatMap_cons, List.count_append, ih]
      simp [hitUpdates]

theorem count_hits_rule (rule : String) :
    total (((hs.map fun h => oneRule h.1 h.2).filter fun r => r.rule = rule).map (·.count)) =
      ((hs.flatMap fun h => hitUpdates h.1 h.2).count (.count rule) : Int) := by
  induction hs with
  | nil => rfl
  | cons h hs ih =>
      rw [List.flatMap_cons, List.count_append, Nat.cast_add, ← ih]
      by_cases hrule : h.1 = rule <;> simp [hitUpdates, oneRule, hrule]

theorem count_hits_assignment (rule assignmentId : String) :
    total (((hs.map fun h => oneRule h.1 h.2).filter fun r => r.rule = rule).map
        (·.countsOf assignmentId)).flatten =
      ((hs.flatMap fun h => hitUpdates h.1 h.2).count (.assignment rule assignmentId) : Int) := by
  induction hs with
  | nil => rfl
  | cons h hs ih =>
      rw [List.flatMap_cons, List.count_append, Nat.cast_add, ← ih]
      by_cases hrule : h.1 = rule <;> by_cases hid : h.2 = assignmentId <;>
        simp [hitUpdates, oneRule, hrule, hid, RuleResolveInfo.countsOf]

end Hits

section Built

/-- The flag infos that `build_resolve_log` writes. -/
def builtInfos (values : List ResolvedValue) : List ConfidenceResolver.FlagResolveInfo :=
  values.map fun v => flagInfoOf v.inner

theorem updatesOf_cons (flag : String) (v : ResolvedValue) (values : List ResolvedValue) :
    updatesOf flag (v :: values) =
      (if v.inner.flag = flag then flagUpdates v.inner else []) ++ updatesOf flag values := by
  by_cases h : v.inner.flag = flag <;> simp [updatesOf, h]

/-- **The messages of values** count their updates, variant by variant, -/
theorem variantCounts_built (flag key : String) (values : List ResolvedValue) :
    total (variantCounts flag key (builtInfos values)) =
      ((updatesOf flag values).count (.variant key) : Int) := by
  induction values with
  | nil => rfl
  | cons v values ih =>
      rw [updatesOf_cons, List.count_append, Nat.cast_add, ← ih]
      by_cases hflag : v.inner.flag = flag
      · rw [if_pos hflag, count_flagUpdates, count_hits_variant]
        by_cases hkey : variantKey v.inner = key <;>
          simp [builtInfos, variantCounts, flagInfoOf_eq, hflag, hkey]
      · simp [builtInfos, variantCounts, flagInfoOf_eq, hflag]

theorem ruleInfos_built_cons (flag rule : String) (v : ResolvedValue)
    (values : List ResolvedValue) :
    ruleInfos flag rule (builtInfos (v :: values)) =
      (if v.inner.flag = flag then
        ((hits v.inner).map fun h => oneRule h.1 h.2).filter fun r => r.rule = rule else []) ++
        ruleInfos flag rule (builtInfos values) := by
  by_cases hflag : v.inner.flag = flag <;>
    simp [builtInfos, ruleInfos, flagInfoOf_eq, hflag]

/-- rule by rule, -/
theorem ruleCounts_built (flag rule : String) (values : List ResolvedValue) :
    total (ruleCounts flag rule (builtInfos values)) =
      ((updatesOf flag values).count (.count rule) : Int) := by
  induction values with
  | nil => rfl
  | cons v values ih =>
      rw [updatesOf_cons, List.count_append, Nat.cast_add, ← ih, ruleCounts, ruleInfos_built_cons,
        List.map_append, total_append]
      by_cases hflag : v.inner.flag = flag
      · rw [if_pos hflag, if_pos hflag, count_flagUpdates, count_hits_rule]
        simp [ruleCounts]
      · rw [if_neg hflag, if_neg hflag]
        rfl

/-- and assignment by assignment. -/
theorem assignmentCounts_built (flag rule assignmentId : String) (values : List ResolvedValue) :
    total (assignmentCounts flag rule assignmentId (builtInfos values)) =
      ((updatesOf flag values).count (.assignment rule assignmentId) : Int) := by
  induction values with
  | nil => rfl
  | cons v values ih =>
      rw [updatesOf_cons, List.count_append, Nat.cast_add, ← ih, assignmentCounts,
        assignmentGroups, ruleInfos_built_cons, List.map_append, List.flatten_append, total_append]
      by_cases hflag : v.inner.flag = flag
      · rw [if_pos hflag, if_pos hflag, count_flagUpdates, count_hits_assignment]
        simp [assignmentCounts, assignmentGroups]
      · rw [if_neg hflag, if_neg hflag]
        rfl

end Built

/-! ### Schemas -/

/-- The schemas logged for a credential, each with the pick of its insertion. -/
def loggedSchemas (clientCredential : String) (resolves : List LoggedResolve) :
    List (Nat × DerivedClientSchema) :=
  (resolves.filter fun r => r.clientCredential = clientCredential).map fun r => (r.pick, r.schema)

theorem schemasOf_report (resolves : List LoggedResolve) (clientCredential : String) :
    schemasOf clientCredential (report (logAll resolves)).clientResolveInfo =
      ((loggedSchemas clientCredential resolves).foldl (fun set e => set.insert e.1 e.2)
        (BoundedSet.new : BoundedSet _ schemaSampleCount)).iter.map toPbSchemaInstance := by
  have hstate : (logAll resolves).clientResolveInfo = resolves.foldl
      (fun clients r => clients.upsert r.clientCredential {} fun info =>
        ⟨info.schemas.insert r.pick r.schema⟩) .empty :=
    (List.foldl_hom ResolveInfoState.clientResolveInfo fun _ _ => rfl).symm
  have hset : ((((logAll resolves).clientResolveInfo.get? clientCredential).getD {}).schemas) =
      (loggedSchemas clientCredential resolves).foldl (fun set e => set.insert e.1 e.2) .new := by
    rw [hstate, HashMap.getD_foldl_upsert, loggedSchemas, List.foldl_map]
    exact (List.foldl_hom ClientResolveInfo.schemas fun _ _ => rfl).symm
  have hentries := HashMap.filter_map_entries (logAll resolves).clientResolveInfo toPbClient
    (·.clientCredential) (fun _ _ => rfl) clientCredential
  rw [schemasOf, report, buildClientResolveInfo, hentries, ← hset]
  cases (logAll resolves).clientResolveInfo.get? clientCredential with
  | none => rfl
  | some info => simp [toPbClient]

/-- The clients of a report, with credential and schema. -/
def clientSchemas (infos : List ConfidenceResolver.ClientResolveInfo) :
    List (String × String × EvaluationContextSchemaInstance) :=
  infos.flatMap fun c => c.schema.map fun s => (c.client, c.clientCredential, s)

theorem mem_clientSchemas {infos : List ConfidenceResolver.ClientResolveInfo}
    (h : ∀ c ∈ infos, c.client = extractClient c.clientCredential) (client credential : String)
    (s : EvaluationContextSchemaInstance) :
    (client, credential, s) ∈ clientSchemas infos ↔
      client = extractClient credential ∧ s ∈ schemasOf credential infos := by
  simp only [clientSchemas, schemasOf, List.mem_flatMap, List.mem_map, List.mem_filter,
    decide_eq_true_eq, Prod.mk.injEq]
  constructor
  · rintro ⟨c, hc, s, hs, rfl, rfl, rfl⟩
    exact ⟨h c hc, c, ⟨hc, rfl⟩, hs⟩
  · rintro ⟨rfl, c, ⟨hc, rfl⟩, hs⟩
    exact ⟨c, hc, s, hs, h c hc, rfl, rfl⟩

/-- The messages of one resolve. -/
def built (r : LoggedResolve) : WriteFlagLogsRequest where
  flagResolveInfo := (buildResolveLog r.schema r.clientCredential r.values).1
  clientResolveInfo := [(buildResolveLog r.schema r.clientCredential r.values).2]

theorem schemasOf_built (r : LoggedResolve) (credential : String) :
    schemasOf credential (built r).clientResolveInfo =
      if r.clientCredential = credential then [toPbSchemaInstance r.schema] else [] := by
  by_cases h : r.clientCredential = credential <;> simp [built, buildResolveLog, schemasOf, h]

/-- What the resolves log for a credential, as messages. -/
theorem mem_schemasOf_built (resolves : List LoggedResolve) (credential : String)
    (s : EvaluationContextSchemaInstance) :
    (∃ r ∈ resolves, s ∈ schemasOf credential (built r).clientResolveInfo) ↔
      s ∈ ((loggedSchemas credential resolves).map (·.2)).map toPbSchemaInstance := by
  simp only [schemasOf_built, loggedSchemas, List.map_map, List.mem_map, List.mem_filter,
    decide_eq_true_eq, Function.comp_apply]
  constructor
  · rintro ⟨r, hr, hs⟩
    by_cases h : r.clientCredential = credential
    · rw [if_pos h, List.mem_singleton] at hs
      exact ⟨r, ⟨hr, h⟩, hs.symm⟩
    · rw [if_neg h] at hs
      cases hs
  · rintro ⟨r, ⟨hr, h⟩, rfl⟩
    exact ⟨r, hr, by simp [h]⟩

/-! ### Agreement -/

/-- No counter is added to `2 ^ 32` times. -/
def Fits (resolves : List LoggedResolve) : Prop :=
  ∀ flag u, (updatesOf flag (resolves.flatMap (·.values))).count u < 2 ^ 32

/-- A credential has at most `SCHEMA_SAMPLE_COUNT` schemas. -/
def Samples (resolves : List LoggedResolve) (credential : String) : Prop :=
  ((loggedSchemas credential resolves).map (·.2)).toFinset.card ≤ schemaSampleCount

/-- The two ways agree: counts are the sums, schemas the union or a sample of it. -/
structure Agrees (resolves : List LoggedResolve) : Prop where
  variants : ∀ flag variant,
    total (variantCounts flag variant (report (logAll resolves)).flagResolveInfo) =
      (resolves.map fun r => total (variantCounts flag variant (built r).flagResolveInfo)).sum
  rules : ∀ flag rule,
    total (ruleCounts flag rule (report (logAll resolves)).flagResolveInfo) =
      (resolves.map fun r => total (ruleCounts flag rule (built r).flagResolveInfo)).sum
  assignments : ∀ flag rule assignmentId,
    total (assignmentCounts flag rule assignmentId (report (logAll resolves)).flagResolveInfo) =
      (resolves.map fun r =>
        total (assignmentCounts flag rule assignmentId (built r).flagResolveInfo)).sum
  schemas : ∀ client credential s, Samples resolves credential →
    ((client, credential, s) ∈ clientSchemas (report (logAll resolves)).clientResolveInfo ↔
      ∃ r ∈ resolves, (client, credential, s) ∈ clientSchemas (built r).clientResolveInfo)
  sampled : ∀ client credential s,
    (client, credential, s) ∈ clientSchemas (report (logAll resolves)).clientResolveInfo →
      ∃ r ∈ resolves, (client, credential, s) ∈ clientSchemas (built r).clientResolveInfo
  bounded : ∀ credential,
    (schemasOf credential (report (logAll resolves)).clientResolveInfo).length ≤ schemaSampleCount

theorem client_report (state : ResolveInfoState) :
    ∀ c ∈ (report state).clientResolveInfo, c.client = extractClient c.clientCredential := by
  intro c hc
  obtain ⟨e, -, rfl⟩ := List.mem_map.mp hc
  rfl

theorem client_built (r : LoggedResolve) :
    ∀ c ∈ (built r).clientResolveInfo, c.client = extractClient c.clientCredential := by
  intro c hc
  rw [List.mem_singleton.mp hc]
  rfl

theorem flatMap_built (resolves : List LoggedResolve) :
    (resolves.flatMap fun r => (built r).flagResolveInfo) =
      builtInfos (resolves.flatMap (·.values)) := by
  rw [builtInfos, List.map_flatMap]
  rfl

/-- The counter that is reported, where it fits. -/
theorem counter_logAll {resolves : List LoggedResolve} (hfits : Fits resolves) (flag : String)
    (u : FlagUpdate) :
    ((((logAll resolves).flagResolveInfo.get? flag).getD {}).counter u).toNat =
      (updatesOf flag (resolves.flatMap (·.values))).count u := by
  have hzero : ({} : FlagResolveInfo).counter u = 0 := by cases u <;> rfl
  rw [getD_logAll, counter_foldl, hzero, UInt32.zero_add]
  exact UInt32.toNat_ofNat_of_lt' (hfits flag u)

theorem length_schemas_report (resolves : List LoggedResolve) (credential : String) :
    (schemasOf credential (report (logAll resolves)).clientResolveInfo).length ≤
      schemaSampleCount := by
  rw [schemasOf_report, List.length_map]
  exact BoundedSet.length_iter _

/-- **The two ways to log agree**, as long as the counters fit. -/
theorem paths_agree {resolves : List LoggedResolve} (hfits : Fits resolves) : Agrees resolves where
  variants flag variant := by
    rw [variantCounts_report, counter_logAll hfits, ← variantCounts_built, ← flatMap_built,
      variantCounts_flatMap, total_flatMap]
  rules flag rule := by
    rw [ruleCounts_report, counter_logAll hfits, ← ruleCounts_built, ← flatMap_built,
      ruleCounts_flatMap, total_flatMap]
  assignments flag rule assignmentId := by
    rw [assignmentCounts_report, counter_logAll hfits, ← assignmentCounts_built, ← flatMap_built,
      assignmentCounts, assignmentGroups_flatMap, flatten_flatMap, total_flatMap]
    rfl
  schemas client credential s hsamples := by
    simp only [mem_clientSchemas (client_report _), mem_clientSchemas (client_built _)]
    have hmem : s ∈ schemasOf credential (report (logAll resolves)).clientResolveInfo ↔
        ∃ r ∈ resolves, s ∈ schemasOf credential (built r).clientResolveInfo := by
      have hfill := (BoundedSet.iter_fill (loggedSchemas credential resolves) hsamples).2
      rw [mem_schemasOf_built, schemasOf_report]
      simp only [List.mem_map] at hfill ⊢
      simp only [hfill]
    rw [hmem]
    constructor
    · rintro ⟨hc, r, hr, hs⟩
      exact ⟨r, hr, hc, hs⟩
    · rintro ⟨r, hr, hc, hs⟩
      exact ⟨hc, r, hr, hs⟩
  sampled client credential s h := by
    simp only [mem_clientSchemas (client_report _), mem_clientSchemas (client_built _)] at h ⊢
    obtain ⟨hc, hs⟩ := h
    rw [schemasOf_report] at hs
    obtain ⟨schema, hschema, rfl⟩ := List.mem_map.mp hs
    have hlogged := BoundedSet.iter_subset _ hschema
    have hmem : schema ∈ (loggedSchemas credential resolves).map (·.2) :=
      hlogged.elim (fun h => absurd h List.not_mem_nil) id
    obtain ⟨r, hr, hs⟩ := (mem_schemasOf_built resolves credential _).mpr (List.mem_map_of_mem hmem)
    exact ⟨r, hr, hc, hs⟩
  bounded := length_schemas_report resolves

/-! ### Two sequences -/

namespace Sample

/-- A value of a rule, after a rule that fell through. -/
def value : ResolvedValue where
  flag := ⟨"flags/button", .active, [], [], [], none⟩
  inner :=
    { flag := "flags/button", variant := "flags/button/variants/on",
      rule := "flags/button/rules/everyone", reason := .match, assignmentId := "treatment",
      fallthroughAssignments := [⟨"flags/button/rules/holdback", "holdback", "user", ""⟩] }

/-- The same flag resolved twice. -/
def twice : List LoggedResolve :=
  [{ resolve with values := [value] }, { resolve with values := [value] }]

/-- A context with a field of its own. -/
def nthSchema (n : Nat) : DerivedClientSchema :=
  ⟨[(String.ofList (List.replicate n 'x'), .string)], []⟩

/-- One resolve more than there are samples, each with a schema of its own. -/
def many : List LoggedResolve :=
  (List.range 51).map fun n => { resolve with schema := nthSchema n }

end Sample

theorem paths_agree_twice : Agrees Sample.twice :=
  paths_agree fun flag u => by
    have hlength : (updatesOf flag (Sample.twice.flatMap (·.values))).length ≤ 10 := by
      by_cases hflag : "flags/button" = flag <;>
        simp [Sample.twice, Sample.value, updatesOf, flagUpdates, hitUpdates, hflag]
    exact (List.count_le_length.trans hlength).trans_lt (by decide)

theorem Sample.nthSchema_injective :
    Function.Injective fun n => toPbSchemaInstance (Sample.nthSchema n) := by
  intro m n h
  have hnames : String.ofList (List.replicate m 'x') = String.ofList (List.replicate n 'x') := by
    simpa [toPbSchemaInstance, Sample.nthSchema] using h
  simpa using congrArg List.length (String.ofList_injective hnames)

/-- **One credential with too many schemas**: the checkpoint reports a sample of them. -/
theorem schemas_sampled :
    Fits Sample.many ∧ ¬ ∀ client credential s,
      ((client, credential, s) ∈ clientSchemas (report (logAll Sample.many)).clientResolveInfo ↔
        ∃ r ∈ Sample.many,
          (client, credential, s) ∈ clientSchemas (built r).clientResolveInfo) := by
  constructor
  · intro flag u
    have hvalues : Sample.many.flatMap (·.values) = [] := by
      simp [Sample.many, Sample.resolve, List.flatMap_map]
    rw [hvalues]
    exact Nat.two_pow_pos 32
  · intro h
    let credential := Sample.resolve.clientCredential
    have hall : (List.range 51).map (fun n => toPbSchemaInstance (Sample.nthSchema n)) ⊆
        schemasOf credential (report (logAll Sample.many)).clientResolveInfo := by
      intro s hs
      obtain ⟨n, hn, rfl⟩ := List.mem_map.mp hs
      have hbuilt : ∃ r ∈ Sample.many, (extractClient credential, credential,
          toPbSchemaInstance (Sample.nthSchema n)) ∈ clientSchemas (built r).clientResolveInfo := by
        refine ⟨{ Sample.resolve with schema := Sample.nthSchema n }, List.mem_map_of_mem hn, ?_⟩
        rw [mem_clientSchemas (client_built _)]
        exact ⟨rfl, by simp [schemasOf_built, credential]⟩
      have hreport := (h _ _ _).mpr hbuilt
      rw [mem_clientSchemas (client_report _)] at hreport
      exact hreport.2
    have hnodup : ((List.range 51).map fun n => toPbSchemaInstance (Sample.nthSchema n)).Nodup :=
      List.nodup_range.map Sample.nthSchema_injective
    have hle := (hnodup.subperm hall).length_le.trans (length_schemas_report _ _)
    rw [List.length_map, List.length_range] at hle
    exact absurd hle (by decide)

end ResolveLogger

end ConfidenceResolver
