import ConfidenceResolver.Logs.Aggregate

/-!
# Logs — what aggregation conserves

Counts are read by key: those of a variant of a flag, of a rule of a flag, and of an assignment
id of a rule of a flag.

* `variantCounts_aggregate`, `ruleCounts_aggregate`, `assignmentCounts_aggregate`: the result lists
  the running sums of the inputs.  Those of an assignment are taken over the rule infos, one
  replacing the other.
* `Conservable`: nothing saturates, and no rule info replaces a count.
* `aggregate_conserves`: then, and for counts only then, the totals are conserved.
* `assignment_count_dropped`: two messages about one rule with different assignment ids.
-/

namespace ConfidenceResolver

open Saturating

/-! ### Counts by key -/

/-- The counts of a variant of a flag, in order. -/
def variantCounts (flag variant : String) (infos : List FlagResolveInfo) : List Int64 :=
  (((infos.filter fun i => i.flag = flag).flatMap (·.variantResolveInfo)).filter
    fun v => v.variant = variant).map (·.count)

/-- The rule infos of a rule of a flag, in order. -/
def ruleInfos (flag rule : String) (infos : List FlagResolveInfo) : List RuleResolveInfo :=
  ((infos.filter fun i => i.flag = flag).flatMap (·.ruleResolveInfo)).filter fun r => r.rule = rule

def ruleCounts (flag rule : String) (infos : List FlagResolveInfo) : List Int64 :=
  (ruleInfos flag rule infos).map (·.count)

/-- The counts of an assignment id in a rule info. -/
def RuleResolveInfo.countsOf (assignmentId : String) (info : RuleResolveInfo) : List Int64 :=
  (info.assignmentResolveInfo.filter fun a => a.assignmentId = assignmentId).map (·.count)

/-- The counts of an assignment id of a rule of a flag, grouped by rule info. -/
def assignmentGroups (flag rule assignmentId : String) (infos : List FlagResolveInfo) :
    List (List Int64) :=
  (ruleInfos flag rule infos).map (·.countsOf assignmentId)

def assignmentCounts (flag rule assignmentId : String) (infos : List FlagResolveInfo) :
    List Int64 :=
  (assignmentGroups flag rule assignmentId infos).flatten

/-- The schemas of a client credential. -/
def schemasOf (clientCredential : String) (infos : List ClientResolveInfo) :
    List EvaluationContextSchemaInstance :=
  (infos.filter fun c => c.clientCredential = clientCredential).flatMap (·.schema)

/-! ### The result by key -/

/-- What the flag map holds for a flag after the messages. -/
def flagInfo (flag : String) (infos : List FlagResolveInfo) : VariantRuleResolveInfo :=
  (infos.filter fun i => i.flag = flag).foldl updateRuleVariantInfo .new

/-- What the rule map of a flag holds for a rule after the messages. -/
def ruleInfo (flag rule : String) (infos : List FlagResolveInfo) : RuleResolveInfoCount :=
  (ruleInfos flag rule infos).foldl updateRule ⟨0, .empty⟩

/-- The infos of all messages. -/
def allInfos (ms : List WriteFlagLogsRequest) : List FlagResolveInfo :=
  ms.flatMap (·.flagResolveInfo)

theorem flagResolveMap_eq (ms : List WriteFlagLogsRequest) :
    (ms.foldl Aggregation.add {}).flagResolveMap = (allInfos ms).foldl
      (fun map f => map.upsert f.flag .new fun flagInfo => updateRuleVariantInfo flagInfo f)
      .empty := by
  rw [allInfos, List.foldl_flatMap]
  exact (List.foldl_hom Aggregation.flagResolveMap fun _ _ => rfl).symm

/-- The infos of a flag in the result: one, if any message has one. -/
theorem filter_aggregate (ms : List WriteFlagLogsRequest) (flag : String) :
    (aggregateBatch ms).flagResolveInfo.filter (fun i => i.flag = flag) =
      (if ∃ i ∈ allInfos ms, i.flag = flag then [flagInfo flag (allInfos ms)] else []).map
        (·.toInfo flag) := by
  have hentries := HashMap.filter_map_entries (ms.foldl Aggregation.add {}).flagResolveMap
    (fun k info => info.toInfo k) (·.flag) (fun _ _ => rfl) flag
  rw [aggregateBatch, Aggregation.result, hentries, flagResolveMap_eq, HashMap.get?_foldl_upsert]
  by_cases h : ∃ i ∈ allInfos ms, i.flag = flag
  · simp [h, flagInfo]
  · simp [h]

theorem flagInfo_variants (flag : String) (infos : List FlagResolveInfo) :
    (flagInfo flag infos).variantResolveInfo =
      ((infos.filter fun i => i.flag = flag).flatMap (·.variantResolveInfo)).foldl
        (fun variants v => variants.upsert v.variant 0 fun count => saturatingAdd count v.count)
        .empty := by
  rw [flagInfo, List.foldl_flatMap]
  exact (List.foldl_hom VariantRuleResolveInfo.variantResolveInfo fun _ _ => rfl).symm

theorem flagInfo_rules (flag : String) (infos : List FlagResolveInfo) :
    (flagInfo flag infos).ruleResolveInfo =
      ((infos.filter fun i => i.flag = flag).flatMap (·.ruleResolveInfo)).foldl
        (fun rules r => rules.upsert r.rule ⟨0, .empty⟩ fun known => updateRule known r)
        .empty := by
  rw [flagInfo, List.foldl_flatMap]
  exact (List.foldl_hom VariantRuleResolveInfo.ruleResolveInfo fun _ _ => rfl).symm

/-- The total of a list that holds a value or nothing. -/
theorem total_toList (o : Option Int64) : total o.toList = (o.getD 0).toInt := by
  cases o <;> simp

/-- The counts of a variant in the result: one, if any message has one. -/
theorem variantCounts_result (ms : List WriteFlagLogsRequest) (flag variant : String) :
    variantCounts flag variant (aggregateBatch ms).flagResolveInfo =
      ((flagInfo flag (allInfos ms)).variantResolveInfo.get? variant).toList := by
  rw [variantCounts, filter_aggregate]
  by_cases h : ∃ i ∈ allInfos ms, i.flag = flag
  · rw [if_pos h]
    have hentries := HashMap.filter_entries (flagInfo flag (allInfos ms)).variantResolveInfo variant
    simp only [List.map_cons, List.map_nil, List.flatMap_cons, List.flatMap_nil, List.append_nil,
      VariantRuleResolveInfo.toInfo, List.filter_map, Function.comp_def, hentries, List.map_map]
    exact List.map_id _
  · have hnil : (allInfos ms).filter (fun i => i.flag = flag) = [] := by simpa using h
    simp [h, flagInfo, hnil, VariantRuleResolveInfo.new]

/-- **A variant's count** in the result is the running sum of its counts. -/
theorem variantCounts_aggregate (ms : List WriteFlagLogsRequest) (flag variant : String) :
    total (variantCounts flag variant (aggregateBatch ms).flagResolveInfo) =
      (saturatingSum (variantCounts flag variant (allInfos ms))).toInt := by
  rw [variantCounts_result, total_toList, flagInfo_variants, HashMap.getD_foldl_upsert,
    saturatingSum, variantCounts, List.foldl_map]

/-- The rule infos of a rule of a flag in the result: one, if any message has one. -/
theorem ruleInfos_aggregate (ms : List WriteFlagLogsRequest) (flag rule : String) :
    ruleInfos flag rule (aggregateBatch ms).flagResolveInfo =
      (if ∃ r ∈ ruleInfos flag rule (allInfos ms), True then
        [ruleInfo flag rule (allInfos ms)] else []).map (·.toInfo rule) := by
  rw [ruleInfos, filter_aggregate]
  by_cases h : ∃ i ∈ allInfos ms, i.flag = flag
  · rw [if_pos h]
    have hentries := HashMap.filter_entries (flagInfo flag (allInfos ms)).ruleResolveInfo rule
    simp only [List.map_cons, List.map_nil, List.flatMap_cons, List.flatMap_nil, List.append_nil,
      VariantRuleResolveInfo.toInfo, List.filter_map, Function.comp_def, RuleResolveInfoCount.toInfo,
      hentries, List.map_map]
    rw [flagInfo_rules, HashMap.get?_foldl_upsert]
    have hany : (∃ r ∈ (List.filter (fun i => decide (i.flag = flag)) (allInfos ms)).flatMap
        (·.ruleResolveInfo), r.rule = rule) ↔ ∃ r ∈ ruleInfos flag rule (allInfos ms), True := by
      simp [ruleInfos]
    by_cases hr : ∃ r ∈ ruleInfos flag rule (allInfos ms), True
    · rw [if_pos (hany.mpr hr), if_pos hr]
      simp [ruleInfo, ruleInfos]
    · rw [if_neg fun hr' => hr (hany.mp hr'), if_neg hr]
      simp
  · have hnil : (allInfos ms).filter (fun i => i.flag = flag) = [] := by simpa using h
    simp [h, ruleInfos, hnil]

/-- The aggregated info of a rule, if any message has one. -/
def ruleInfo? (flag rule : String) (infos : List FlagResolveInfo) : Option RuleResolveInfoCount :=
  if ∃ r ∈ ruleInfos flag rule infos, True then some (ruleInfo flag rule infos) else none

theorem ruleInfos_result (ms : List WriteFlagLogsRequest) (flag rule : String) :
    ruleInfos flag rule (aggregateBatch ms).flagResolveInfo =
      (ruleInfo? flag rule (allInfos ms)).toList.map (·.toInfo rule) := by
  rw [ruleInfos_aggregate, ruleInfo?]
  by_cases h : ∃ r ∈ ruleInfos flag rule (allInfos ms), True
  · rw [if_pos h, if_pos h]
    rfl
  · rw [if_neg h, if_neg h]
    rfl

/-- Nothing is aggregated for a rule that no message has. -/
theorem ruleInfo_of_none {flag rule : String} {infos : List FlagResolveInfo}
    (h : ruleInfo? flag rule infos = none) : ruleInfo flag rule infos = ⟨0, .empty⟩ := by
  have hnone : ¬ ∃ r ∈ ruleInfos flag rule infos, True := by simpa [ruleInfo?] using h
  have hnil : ruleInfos flag rule infos = [] :=
    List.eq_nil_iff_forall_not_mem.mpr fun r hr => hnone ⟨r, hr, trivial⟩
  rw [ruleInfo, hnil, List.foldl_nil]

theorem ruleInfo_of_some {flag rule : String} {infos : List FlagResolveInfo}
    {info : RuleResolveInfoCount} (h : ruleInfo? flag rule infos = some info) :
    ruleInfo flag rule infos = info := by
  rw [ruleInfo?] at h
  simp only [Option.ite_none_right_eq_some, Option.some.injEq] at h
  exact h.2

theorem ruleCounts_result (ms : List WriteFlagLogsRequest) (flag rule : String) :
    ruleCounts flag rule (aggregateBatch ms).flagResolveInfo =
      ((ruleInfo? flag rule (allInfos ms)).map (·.count)).toList := by
  rw [ruleCounts, ruleInfos_result]
  cases ruleInfo? flag rule (allInfos ms) <;> rfl

theorem assignmentGroups_result (ms : List WriteFlagLogsRequest)
    (flag rule assignmentId : String) :
    assignmentGroups flag rule assignmentId (aggregateBatch ms).flagResolveInfo =
      ((ruleInfo? flag rule (allInfos ms)).map (·.assignmentCount.get? assignmentId)).toList.map
        Option.toList := by
  rw [assignmentGroups, ruleInfos_result]
  cases ruleInfo? flag rule (allInfos ms) with
  | none => rfl
  | some info =>
      have hentries := HashMap.filter_entries info.assignmentCount assignmentId
      simp only [Option.toList_some, Option.map_some, List.map_cons, List.map_nil,
        RuleResolveInfo.countsOf, RuleResolveInfoCount.toInfo, List.filter_map, Function.comp_def,
        hentries, List.map_map]
      exact congrArg (fun counts => [counts]) (List.map_id _)

/-- **A rule's count** in the result is the running sum of its counts. -/
theorem ruleCounts_aggregate (ms : List WriteFlagLogsRequest) (flag rule : String) :
    total (ruleCounts flag rule (aggregateBatch ms).flagResolveInfo) =
      (saturatingSum (ruleCounts flag rule (allInfos ms))).toInt := by
  have hsum : saturatingSum (ruleCounts flag rule (allInfos ms)) =
      (ruleInfo flag rule (allInfos ms)).count := by
    rw [saturatingSum, ruleCounts, List.foldl_map, ruleInfo]
    have hstep : ∀ known info, saturatingAdd (RuleResolveInfoCount.count known) info.count =
        (updateRule known info).count := fun _ _ => rfl
    exact @List.foldl_hom _ _ _ RuleResolveInfoCount.count updateRule
      (fun count info => saturatingAdd count info.count) _ ⟨0, .empty⟩ hstep
  rw [hsum, ruleCounts_result, total_toList]
  cases h : ruleInfo? flag rule (allInfos ms) with
  | none => simp [ruleInfo_of_none h]
  | some info => simp [ruleInfo_of_some h]

/-- One rule info, seen at an assignment id: only the ids that it lists are known. -/
theorem updateRule_get? (known : RuleResolveInfoCount) (info : RuleResolveInfo)
    (assignmentId : String) :
    (updateRule known info).assignmentCount.get? assignmentId =
      (info.countsOf assignmentId).getLast?.map
        (saturatingAdd ((known.assignmentCount.get? assignmentId).getD 0)) := by
  rw [updateRule, HashMap.get?_foldl_insert, RuleResolveInfo.countsOf, List.getLast?_map,
    HashMap.get?_empty, Option.or_none, Option.map_map]
  refine Option.map_congr fun a ha => ?_
  have hmem := List.mem_of_getLast? (Option.mem_def.mp ha)
  have hid : a.assignmentId = assignmentId := by simpa using (List.mem_filter.mp hmem).2
  simp [hid]

theorem carriedSum_ruleInfo (flag rule assignmentId : String) (infos : List FlagResolveInfo) :
    carriedSum (assignmentGroups flag rule assignmentId infos) =
      ((ruleInfo flag rule infos).assignmentCount.get? assignmentId).getD 0 := by
  rw [carriedSum, assignmentGroups, List.foldl_map, ruleInfo]
  have hstep : ∀ (known : RuleResolveInfoCount) info,
      carry ((known.assignmentCount.get? assignmentId).getD 0) (info.countsOf assignmentId) =
        ((updateRule known info).assignmentCount.get? assignmentId).getD 0 :=
    fun known info => by rw [updateRule_get?, carry]
  exact @List.foldl_hom _ _ _
    (fun known : RuleResolveInfoCount => (known.assignmentCount.get? assignmentId).getD 0)
    updateRule (fun known info => carry known (info.countsOf assignmentId)) _ ⟨0, .empty⟩ hstep

/-- **An assignment's count** in the result is the running sum over the rule infos, one replacing
the other. -/
theorem assignmentCounts_aggregate (ms : List WriteFlagLogsRequest)
    (flag rule assignmentId : String) :
    total (assignmentCounts flag rule assignmentId (aggregateBatch ms).flagResolveInfo) =
      (carriedSum (assignmentGroups flag rule assignmentId (allInfos ms))).toInt := by
  rw [carriedSum_ruleInfo, assignmentCounts, assignmentGroups_result]
  cases h : ruleInfo? flag rule (allInfos ms) with
  | none => simp [ruleInfo_of_none h]
  | some info =>
      rw [ruleInfo_of_some h, ← total_toList]
      simp

/-- An id that is forgotten is missing from the last rule info. -/
theorem assignmentGroups_forgotten {flag rule assignmentId : String}
    {infos : List FlagResolveInfo}
    (h : (ruleInfo? flag rule infos).map (·.assignmentCount.get? assignmentId) = some none) :
    ∃ pre, assignmentGroups flag rule assignmentId infos = pre ++ [[]] := by
  obtain ⟨info, hinfo, hget⟩ := Option.map_eq_some_iff.mp h
  have hlast := ruleInfo_of_some hinfo
  rw [assignmentGroups]
  rw [ruleInfo] at hlast
  rcases List.eq_nil_or_concat' (ruleInfos flag rule infos) with hnil | ⟨pre, last, hpre⟩
  · simp [ruleInfo?, hnil] at hinfo
  · rw [hpre, List.foldl_append, List.foldl_cons, List.foldl_nil] at hlast
    rw [← hlast, updateRule_get?, Option.map_eq_none_iff, List.getLast?_eq_none_iff] at hget
    exact ⟨pre.map (·.countsOf assignmentId), by rw [hpre]; simp [hget]⟩

/-! ### Events and schemas -/

theorem flagAssigned_aggregate (ms : List WriteFlagLogsRequest) :
    (aggregateBatch ms).flagAssigned = ms.flatMap (·.flagAssigned) := by
  have h : ∀ a : Aggregation,
      (ms.foldl Aggregation.add a).flagAssigned = a.flagAssigned ++ ms.flatMap (·.flagAssigned) := by
    induction ms with
    | nil => simp
    | cons m ms ih =>
        intro a
        rw [List.foldl_cons, ih, List.flatMap_cons, ← List.append_assoc]
        rfl
  exact h {}

theorem mem_foldl_insert {S : Type*} [DecidableEq S] (s : S) (l : List S) :
    ∀ set : List S, s ∈ l.foldl (fun set x => set.insert x) set ↔ s ∈ set ∨ s ∈ l := by
  induction l with
  | nil => simp
  | cons x l ih =>
      intro set
      rw [List.foldl_cons, ih, List.mem_insert_iff, List.mem_cons, or_comm (a := s = x), or_assoc]

/-- The schemas that the schema map holds for a client credential. -/
def mapSchemas (clientCredential : String) (map : HashMap String SchemaItem) :
    List EvaluationContextSchemaInstance :=
  ((map.get? clientCredential).map (·.schemas)).getD []

theorem mem_mapSchemas_foldl (clientCredential : String) (s : EvaluationContextSchemaInstance)
    (cs : List ClientResolveInfo) :
    ∀ map, s ∈ mapSchemas clientCredential (cs.foldl (fun map c =>
        map.insert c.clientCredential (updateSchemas (map.get? c.clientCredential) c)) map) ↔
      s ∈ mapSchemas clientCredential map ∨ s ∈ schemasOf clientCredential cs := by
  induction cs with
  | nil => simp [schemasOf]
  | cons c cs ih =>
      intro map
      rw [List.foldl_cons, ih]
      by_cases hc : c.clientCredential = clientCredential
      · simp only [mapSchemas, HashMap.get?_insert, hc, if_true, Option.map_some, Option.getD_some,
          updateSchemas, mem_foldl_insert, schemasOf, List.filter_cons, decide_true,
          List.flatMap_cons, List.mem_append, or_assoc]
      · simp only [mapSchemas, HashMap.get?_insert, hc, if_false, schemasOf, List.filter_cons,
          decide_false, Bool.false_eq_true]

theorem schemaMap_eq (ms : List WriteFlagLogsRequest) :
    (ms.foldl Aggregation.add {}).schemaMap = (ms.flatMap (·.clientResolveInfo)).foldl
      (fun map c =>
        map.insert c.clientCredential (updateSchemas (map.get? c.clientCredential) c))
      .empty := by
  rw [List.foldl_flatMap]
  exact (List.foldl_hom Aggregation.schemaMap fun _ _ => rfl).symm

/-- **A client's schemas** in the result are those of the inputs together. -/
theorem schemas_aggregate (ms : List WriteFlagLogsRequest) (clientCredential : String)
    (s : EvaluationContextSchemaInstance) :
    s ∈ schemasOf clientCredential (aggregateBatch ms).clientResolveInfo ↔
      ∃ m ∈ ms, s ∈ schemasOf clientCredential m.clientResolveInfo := by
  have hout : schemasOf clientCredential (aggregateBatch ms).clientResolveInfo =
      mapSchemas clientCredential (ms.foldl Aggregation.add {}).schemaMap := by
    rw [schemasOf, mapSchemas, aggregateBatch, Aggregation.result]
    simp only [List.filter_map, Function.comp_def, HashMap.filter_entries]
    cases (ms.foldl Aggregation.add {}).schemaMap.get? clientCredential <;> simp
  rw [hout, schemaMap_eq, mem_mapSchemas_foldl]
  simp only [mapSchemas, HashMap.get?_empty, Option.map_none, Option.getD_none, List.not_mem_nil,
    false_or, schemasOf, List.mem_flatMap, List.mem_filter]
  constructor
  · rintro ⟨c, ⟨⟨m, hm, hc⟩, hcred⟩, hs⟩
    exact ⟨m, hm, c, ⟨hc, hcred⟩, hs⟩
  · rintro ⟨m, hm, c, ⟨hc, hcred⟩, hs⟩
    exact ⟨c, ⟨⟨m, hm, hc⟩, hcred⟩, hs⟩

/-! ### Conservation -/

/-- What aggregation is to conserve. -/
structure Conserves (ms : List WriteFlagLogsRequest) : Prop where
  variants : ∀ flag variant,
    total (variantCounts flag variant (aggregateBatch ms).flagResolveInfo) =
      (ms.map fun m => total (variantCounts flag variant m.flagResolveInfo)).sum
  rules : ∀ flag rule,
    total (ruleCounts flag rule (aggregateBatch ms).flagResolveInfo) =
      (ms.map fun m => total (ruleCounts flag rule m.flagResolveInfo)).sum
  assignments : ∀ flag rule assignmentId,
    total (assignmentCounts flag rule assignmentId (aggregateBatch ms).flagResolveInfo) =
      (ms.map fun m => total (assignmentCounts flag rule assignmentId m.flagResolveInfo)).sum
  flagAssigned : (aggregateBatch ms).flagAssigned = ms.flatMap (·.flagAssigned)
  schemas : ∀ clientCredential s,
    s ∈ schemasOf clientCredential (aggregateBatch ms).clientResolveInfo ↔
      ∃ m ∈ ms, s ∈ schemasOf clientCredential m.clientResolveInfo

/-- Nothing saturates; and of an assignment id, a rule info has at most its last count not zero,
and once a rule info of the rule has such a count all later ones list the id. -/
structure Conservable (infos : List FlagResolveInfo) : Prop where
  variants : ∀ flag variant, Unsaturated (variantCounts flag variant infos)
  rules : ∀ flag rule, Unsaturated (ruleCounts flag rule infos)
  assignments : ∀ flag rule assignmentId, Carried (assignmentGroups flag rule assignmentId infos) ∧
    Unsaturated (assignmentCounts flag rule assignmentId infos)

/-- No count is below zero. -/
structure Counts (infos : List FlagResolveInfo) : Prop where
  variants : ∀ i ∈ infos, ∀ v ∈ i.variantResolveInfo, 0 ≤ v.count.toInt
  rules : ∀ i ∈ infos, ∀ r ∈ i.ruleResolveInfo, 0 ≤ r.count.toInt
  assignments : ∀ i ∈ infos, ∀ r ∈ i.ruleResolveInfo, ∀ a ∈ r.assignmentResolveInfo,
    0 ≤ a.count.toInt

section Parts

variable {P : Type*} (f : P → List FlagResolveInfo) (parts : List P) (flag key : String)

theorem variantCounts_flatMap :
    variantCounts flag key (parts.flatMap f) = parts.flatMap fun p => variantCounts flag key (f p) := by
  simp [variantCounts, List.filter_flatMap, List.flatMap_assoc, List.map_flatMap]

theorem ruleInfos_flatMap :
    ruleInfos flag key (parts.flatMap f) = parts.flatMap fun p => ruleInfos flag key (f p) := by
  simp [ruleInfos, List.filter_flatMap, List.flatMap_assoc]

theorem ruleCounts_flatMap :
    ruleCounts flag key (parts.flatMap f) = parts.flatMap fun p => ruleCounts flag key (f p) := by
  rw [ruleCounts, ruleInfos_flatMap, List.map_flatMap]
  rfl

theorem assignmentGroups_flatMap (rule : String) :
    assignmentGroups flag rule key (parts.flatMap f) =
      parts.flatMap fun p => assignmentGroups flag rule key (f p) := by
  rw [assignmentGroups, ruleInfos_flatMap, List.map_flatMap]
  rfl

end Parts

section Totals

variable (ms : List WriteFlagLogsRequest) (flag rule key : String)

theorem total_variantCounts :
    total (variantCounts flag key (allInfos ms)) =
      (ms.map fun m => total (variantCounts flag key m.flagResolveInfo)).sum := by
  rw [allInfos, variantCounts_flatMap, total_flatMap]

theorem total_ruleCounts :
    total (ruleCounts flag rule (allInfos ms)) =
      (ms.map fun m => total (ruleCounts flag rule m.flagResolveInfo)).sum := by
  rw [allInfos, ruleCounts_flatMap, total_flatMap]

theorem total_assignmentCounts :
    total (assignmentCounts flag rule key (allInfos ms)) =
      (ms.map fun m => total (assignmentCounts flag rule key m.flagResolveInfo)).sum := by
  rw [allInfos, assignmentCounts, assignmentGroups_flatMap, flatten_flatMap, total_flatMap]
  rfl

end Totals

/-- **Where nothing saturates or is replaced** the totals are conserved. -/
theorem Conservable.conserves {ms : List WriteFlagLogsRequest} (h : Conservable (allInfos ms)) :
    Conserves ms where
  variants flag variant := by
    rw [variantCounts_aggregate, saturatingSum_eq (h.variants flag variant), total_variantCounts]
  rules flag rule := by
    rw [ruleCounts_aggregate, saturatingSum_eq (h.rules flag rule), total_ruleCounts]
  assignments flag rule assignmentId := by
    obtain ⟨hcarried, hfits⟩ := h.assignments flag rule assignmentId
    rw [assignmentCounts_aggregate, carriedSum_eq hcarried hfits, ← total_assignmentCounts]
    rfl
  flagAssigned := flagAssigned_aggregate ms
  schemas := schemas_aggregate ms

/-- **For counts** the totals are conserved only there. -/
theorem Conserves.conservable {ms : List WriteFlagLogsRequest} (hcounts : Counts (allInfos ms))
    (h : Conserves ms) : Conservable (allInfos ms) where
  variants flag variant := by
    have heq := h.variants flag variant
    rw [variantCounts_aggregate, ← total_variantCounts] at heq
    refine unsaturated_of_eq (fun c hc => ?_) heq
    simp only [variantCounts, List.mem_map, List.mem_filter, List.mem_flatMap] at hc
    obtain ⟨v, ⟨⟨i, ⟨hi, -⟩, hv⟩, -⟩, rfl⟩ := hc
    exact hcounts.variants i hi v hv
  rules flag rule := by
    have heq := h.rules flag rule
    rw [ruleCounts_aggregate, ← total_ruleCounts] at heq
    refine unsaturated_of_eq (fun c hc => ?_) heq
    simp only [ruleCounts, ruleInfos, List.mem_map, List.mem_filter, List.mem_flatMap] at hc
    obtain ⟨r, ⟨⟨i, ⟨hi, -⟩, hr⟩, -⟩, rfl⟩ := hc
    exact hcounts.rules i hi r hr
  assignments flag rule assignmentId := by
    have heq := h.assignments flag rule assignmentId
    rw [assignmentCounts_aggregate, ← total_assignmentCounts] at heq
    refine carried_of_eq (fun c hc => ?_) heq
    simp only [assignmentGroups, RuleResolveInfo.countsOf, ruleInfos, List.mem_flatten,
      List.mem_map, List.mem_filter, List.mem_flatMap] at hc
    obtain ⟨_, ⟨r, ⟨⟨i, ⟨hi, -⟩, hr⟩, -⟩, rfl⟩, hc⟩ := hc
    obtain ⟨a, ha, rfl⟩ := List.mem_map.mp hc
    exact hcounts.assignments i hi r hr a (List.mem_filter.mp ha).1

/-- The same totals, events and schemas. -/
structure SameTotals (m m' : WriteFlagLogsRequest) : Prop where
  variants : ∀ flag variant, total (variantCounts flag variant m.flagResolveInfo) =
    total (variantCounts flag variant m'.flagResolveInfo)
  rules : ∀ flag rule, total (ruleCounts flag rule m.flagResolveInfo) =
    total (ruleCounts flag rule m'.flagResolveInfo)
  assignments : ∀ flag rule assignmentId,
    total (assignmentCounts flag rule assignmentId m.flagResolveInfo) =
      total (assignmentCounts flag rule assignmentId m'.flagResolveInfo)
  flagAssigned : m.flagAssigned = m'.flagAssigned
  schemas : ∀ clientCredential s, s ∈ schemasOf clientCredential m.clientResolveInfo ↔
    s ∈ schemasOf clientCredential m'.clientResolveInfo

theorem sum_flatten {M A : Type*} [AddCommMonoid M] (f : A → M) (parts : List (List A)) :
    (parts.map fun part => (part.map f).sum).sum = (parts.flatten.map f).sum := by
  induction parts with
  | nil => rfl
  | cons part parts ih => simp [ih]

/-- **Two stages**: aggregating parts and then the results conserves what one stage does. -/
theorem Conserves.twoStages {parts : List (List WriteFlagLogsRequest)}
    (hparts : ∀ part ∈ parts, Conserves part) (hsecond : Conserves (parts.map aggregateBatch))
    (hone : Conserves parts.flatten) :
    SameTotals (aggregateBatch (parts.map aggregateBatch)) (aggregateBatch parts.flatten) where
  variants flag variant := by
    rw [hsecond.variants, hone.variants, ← sum_flatten, List.map_map]
    exact congrArg List.sum (List.map_congr_left fun part h => (hparts part h).variants flag variant)
  rules flag rule := by
    rw [hsecond.rules, hone.rules, ← sum_flatten, List.map_map]
    exact congrArg List.sum (List.map_congr_left fun part h => (hparts part h).rules flag rule)
  assignments flag rule assignmentId := by
    rw [hsecond.assignments, hone.assignments, ← sum_flatten, List.map_map]
    exact congrArg List.sum
      (List.map_congr_left fun part h => (hparts part h).assignments flag rule assignmentId)
  flagAssigned := by
    rw [hsecond.flagAssigned, hone.flagAssigned, List.flatMap_map]
    simp only [flagAssigned_aggregate]
    rw [List.flatten_eq_flatMap, List.flatMap_assoc]
    rfl
  schemas clientCredential s := by
    simp only [schemas_aggregate, List.mem_map, List.mem_flatten]
    constructor
    · rintro ⟨_, ⟨part, hpart, rfl⟩, hs⟩
      obtain ⟨m, hm, hs⟩ := (schemas_aggregate part clientCredential s).mp hs
      exact ⟨m, ⟨part, hpart, hm⟩, hs⟩
    · rintro ⟨m, ⟨part, hpart, hm⟩, hs⟩
      exact ⟨_, ⟨part, hpart, rfl⟩, (schemas_aggregate part clientCredential s).mpr ⟨m, hm, hs⟩⟩

theorem allInfos_flatten (parts : List (List WriteFlagLogsRequest)) :
    allInfos parts.flatten = parts.flatMap allInfos := by
  rw [allInfos, List.flatten_eq_flatMap, List.flatMap_assoc]
  rfl

theorem allInfos_aggregated (parts : List (List WriteFlagLogsRequest)) :
    allInfos (parts.map aggregateBatch) =
      parts.flatMap fun part => (aggregateBatch part).flagResolveInfo := by
  rw [allInfos, List.flatMap_map]

/-- What holds of all messages and of each part holds of the results of the parts. -/
theorem Conservable.results {parts : List (List WriteFlagLogsRequest)}
    (hparts : ∀ part ∈ parts, Conservable (allInfos part))
    (h : Conservable (allInfos parts.flatten)) :
    Conservable (allInfos (parts.map aggregateBatch)) where
  variants flag variant := by
    have hfits := h.variants flag variant
    rw [allInfos_flatten, variantCounts_flatMap] at hfits
    rw [allInfos_aggregated, variantCounts_flatMap]
    simp only [variantCounts_result]
    refine unsaturated_summaries parts (fun part hpart => ?_) hfits
    rw [← variantCounts_result, variantCounts_aggregate,
      saturatingSum_eq ((hparts part hpart).variants flag variant)]
  rules flag rule := by
    have hfits := h.rules flag rule
    rw [allInfos_flatten, ruleCounts_flatMap] at hfits
    rw [allInfos_aggregated, ruleCounts_flatMap]
    simp only [ruleCounts_result]
    refine unsaturated_summaries parts (fun part hpart => ?_) hfits
    rw [← ruleCounts_result, ruleCounts_aggregate,
      saturatingSum_eq ((hparts part hpart).rules flag rule)]
  assignments flag rule assignmentId := by
    obtain ⟨hcarried, hfits⟩ := h.assignments flag rule assignmentId
    -- the summary of a part adds up to what the part has
    have hpart : ∀ part ∈ parts,
        total (assignmentCounts flag rule assignmentId (aggregateBatch part).flagResolveInfo) =
          total (assignmentCounts flag rule assignmentId (allInfos part)) := by
      intro part hpart
      obtain ⟨hcarried, hfits⟩ := (hparts part hpart).assignments flag rule assignmentId
      rw [assignmentCounts_aggregate, carriedSum_eq hcarried hfits]
      rfl
    rw [allInfos_flatten, assignmentGroups_flatMap] at hcarried
    rw [assignmentCounts, allInfos_flatten, assignmentGroups_flatMap, flatten_flatMap] at hfits
    rw [assignmentCounts, allInfos_aggregated, assignmentGroups_flatMap, flatten_flatMap]
    simp only [assignmentCounts, assignmentGroups_result] at hpart ⊢
    constructor
    · refine carried_summaries parts (fun part hmem c hc => ?_)
        (fun part _ => assignmentGroups_forgotten) hcarried
      have := hpart part hmem
      simpa [hc] using this
    · have hjoin : ∀ o : Option (Option Int64),
          (o.toList.map Option.toList).flatten = o.join.toList := by
        rintro (_ | _ | _) <;> rfl
      simp only [hjoin] at hpart ⊢
      exact unsaturated_summaries parts hpart hfits

/-- **Aggregation conserves counts** where nothing saturates and no rule info replaces a count, and
for counts only there; then aggregating parts and their results gives the same totals as one
aggregation. -/
theorem aggregate_conserves (ms : List WriteFlagLogsRequest) :
    (Conservable (allInfos ms) → Conserves ms) ∧
      (Counts (allInfos ms) → Conserves ms → Conservable (allInfos ms)) ∧
      ∀ parts : List (List WriteFlagLogsRequest), ms = parts.flatten →
        Conservable (allInfos ms) → (∀ part ∈ parts, Conservable (allInfos part)) →
        SameTotals (aggregateBatch (parts.map aggregateBatch)) (aggregateBatch ms) := by
  refine ⟨Conservable.conserves, Conserves.conservable, ?_⟩
  rintro parts rfl hall hparts
  exact Conserves.twoStages (fun part h => (hparts part h).conserves)
    (Conservable.results hparts hall).conserves hall.conserves

section Sample

/-- One resolve of a rule with the given assignment id. -/
def sampleLog (assignmentId : String) : WriteFlagLogsRequest where
  flagResolveInfo := [⟨"flags/button", [⟨"flags/button/variants/on", 1⟩],
    [⟨"flags/button/rules/everyone", 1, [⟨assignmentId, 1⟩]⟩]⟩]

/-- The counts of a key are `1, 1`, or there are none. -/
theorem unsaturated_ones {cs : List Int64} (h : cs = [1, 1] ∨ cs = []) : Unsaturated cs := by
  rcases h with rfl | rfl
  · exact unsaturated_of_le (by simp [NonNegative]) (by decide)
  · exact unsaturated_nil

theorem ruleInfos_sampleLogs (flag rule : String) :
    ruleInfos flag rule (allInfos [sampleLog "treatment", sampleLog "treatment"]) =
      if "flags/button" = flag ∧ "flags/button/rules/everyone" = rule then
        [⟨rule, 1, [⟨"treatment", 1⟩]⟩, ⟨rule, 1, [⟨"treatment", 1⟩]⟩] else [] := by
  by_cases hflag : "flags/button" = flag <;> by_cases hrule : "flags/button/rules/everyone" = rule <;>
    simp [ruleInfos, allInfos, sampleLog, hflag, hrule]

theorem conservable_sampleLogs :
    Conservable (allInfos [sampleLog "treatment", sampleLog "treatment"]) where
  variants flag variant := by
    refine unsaturated_ones ?_
    by_cases hflag : "flags/button" = flag <;>
      by_cases hvariant : "flags/button/variants/on" = variant <;>
        simp [variantCounts, allInfos, sampleLog, hflag, hvariant]
  rules flag rule := by
    refine unsaturated_ones ?_
    rw [ruleCounts, ruleInfos_sampleLogs]
    split <;> simp
  assignments flag rule assignmentId := by
    rw [assignmentCounts, assignmentGroups, ruleInfos_sampleLogs]
    by_cases hid : "treatment" = assignmentId
    · split
      · refine ⟨⟨by simp [RuleResolveInfo.countsOf, hid], fun pre post hpre => ?_⟩, ?_⟩
        · have hmem : [] ∈ pre ++ [] :: post := by simp
          rw [← hpre] at hmem
          simp [RuleResolveInfo.countsOf, hid] at hmem
        · exact unsaturated_ones (by simp [RuleResolveInfo.countsOf, hid])
      · exact ⟨⟨by simp, fun pre post hpre => by simp at hpre⟩, unsaturated_nil⟩
    · split
      · refine ⟨⟨by simp [RuleResolveInfo.countsOf, hid], fun pre post hpre => ?_⟩, ?_⟩
        · have hnil : ∀ cs ∈ pre, cs = [] := by
            intro cs hcs
            have hmem : cs ∈ pre ++ [] :: post := List.mem_append_left _ hcs
            rw [← hpre] at hmem
            simpa [RuleResolveInfo.countsOf, hid] using hmem
          simpa using fun c cs hcs hc => by simp [hnil cs hcs] at hc
        · exact unsaturated_ones (by simp [RuleResolveInfo.countsOf, hid])
      · exact ⟨⟨by simp, fun pre post hpre => by simp at hpre⟩, unsaturated_nil⟩

/-- **Two resolves with the same assignment** are conserved. -/
theorem aggregate_conserves_sample :
    Conserves [sampleLog "treatment", sampleLog "treatment"] :=
  (aggregate_conserves _).1 conservable_sampleLogs

/-- **Two resolves of a rule with different assignments**: the first one's count is dropped. -/
theorem assignment_count_dropped :
    ¬ Conserves [sampleLog "control", sampleLog "treatment"] := by
  intro h
  have hcount := h.assignments "flags/button" "flags/button/rules/everyone" "control"
  revert hcount
  decide

end Sample

end ConfidenceResolver
