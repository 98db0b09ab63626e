import ConfidenceResolver.Materialization.Sticky
import ConfidenceResolver.Materialization.SuspendResume

/-!
# Materialization — writing and reading back

The writes of a request go to the store, and the next request reads them back.

* `updateRecords`: the store after the writes.
* `resolveMatched_stable`: a rule that reads what it wrote comes to the same assignment.
* `write_read_stable`: a flag whose rules read back their own writes has the same value again, and
  writes nothing that is not stored.
* `shared_name_unstable`, `self_reference_unstable`: rules that share a name read each other's
  records; and a targeting that fails on its own is not consulted until there is a record.
-/

namespace ConfidenceResolver

/-! ### The store -/

/-- The store after the writes: a write replaces the record of its key. -/
def updateRecords (records writes : List MaterializationRecord) : List MaterializationRecord :=
  writes ++ records.filter fun q => !writes.any fun w => w.isFor q.unit q.materialization q.rule

theorem findRecord_eq_none {R : List MaterializationRecord} {u m k : String} :
    findRecord R u m k = none ↔ ∀ q ∈ R, q.key ≠ (u, m, k) := by
  simp [findRecord, ← MaterializationRecord.isFor_iff]

theorem findRecord_updateRecords (R W : List MaterializationRecord) (u m k : String) :
    findRecord (updateRecords R W) u m k = (findRecord W u m k).or (findRecord R u m k) := by
  rw [findRecord, updateRecords, List.find?_append]
  rcases hW : findRecord W u m k with _ | w
  · rw [show W.find? _ = none from hW, Option.none_or, Option.none_or, List.find?_filter]
    -- no write has the key, so the filter keeps the record
    rw [findRecord]
    congr 1
    funext q
    by_cases hq : q.isFor u m k = true
    · have hkey := MaterializationRecord.isFor_iff.mp hq
      have hany : (W.any fun w => w.isFor q.unit q.materialization q.rule) = false := by
        rw [List.any_eq_false]
        intro w hw h
        exact findRecord_eq_none.mp hW w hw ((MaterializationRecord.isFor_iff.mp h).trans hkey)
      rw [hany, hq]
      rfl
    · simp [hq]
  · rw [show W.find? _ = some w from hW]
    rfl

theorem findRecord_append (W W' : List MaterializationRecord) (u m k : String) :
    findRecord (W ++ W') u m k = (findRecord W u m k).or (findRecord W' u m k) :=
  List.find?_append

theorem findRecord_of_rule {W : List MaterializationRecord} {u m k : String}
    (h : ∀ q ∈ W, q.rule ≠ k) : findRecord W u m k = none :=
  findRecord_eq_none.mpr fun q hq e => h q hq (congrArg (fun key => key.2.2) e)

/-- A record is found under its key, if no other record has it. -/
theorem findRecord_of_mem {W : List MaterializationRecord} {q : MaterializationRecord}
    (h : (W.map MaterializationRecord.key).Nodup) (hq : q ∈ W) :
    findRecord W q.unit q.materialization q.rule = some q := by
  induction W with
  | nil => cases hq
  | cons w W ih =>
      obtain ⟨hw, hW⟩ := List.nodup_cons.mp h
      by_cases hk : w.isFor q.unit q.materialization q.rule = true
      · rcases List.mem_cons.mp hq with rfl | hq
        · simp [findRecord, hk]
        · have hkey : q.key = w.key := (MaterializationRecord.isFor_iff.mp hk).symm
          exact absurd (List.mem_map.mpr ⟨q, hq, hkey⟩) hw
      · rcases List.mem_cons.mp hq with rfl | hq
        · exact absurd (MaterializationRecord.isFor_iff.mpr rfl) hk
        · simp only [findRecord, List.find?_cons, hk]
          exact ih hW hq

/-- The two sets of records agree on every materialization that is not in `ms`. -/
def AgreeOutside (ms : List String) (R R' : List MaterializationRecord) : Prop :=
  ∀ u m k, m ∉ ms → findRecord R u m k = findRecord R' u m k

theorem agreeOutside_updateRecords {ms : List String} {R W : List MaterializationRecord}
    (h : ∀ q ∈ W, q.materialization ∈ ms) : AgreeOutside ms R (updateRecords R W) := by
  intro u m k hm
  have hnone : findRecord W u m k = none := by
    refine findRecord_eq_none.mpr fun q hq hk => hm ?_
    have hkm : q.materialization = m := congrArg (fun key => key.2.1) hk
    exact hkm ▸ h q hq
  rw [findRecord_updateRecords, hnone, Option.none_or]

/-- The materializations a flag's rules write to. -/
def Flag.materializations (flag : Flag) : List String := flag.rules.filterMap Rule.writes

/-- The names of the rules that write. -/
def writingRules (rules : List Rule) : List String :=
  (rules.filter fun rule => rule.materializationSpec.isSome).map Rule.name

namespace AccountResolver

variable {r : AccountResolver} {ms : List String} {R R' : List MaterializationRecord}
  {b : MaterializationRecords} {rule : Rule} {a : Segment} {spec : AssignmentSpec}
  {unit : Option String} {value : ResolvedValue} {p : Progress}
  {W : List MaterializationRecord} {A : Set (String × String × String)}

/-! ### Targeting on other materializations -/

/-- No segment that `a` refers to, directly or through others, has a criterion on a materialized
segment in `ms`; nor has `a`. -/
def Unmaterialized (r : AccountResolver) (ms : List String) (a : Segment) : Prop :=
  ∀ b, Relation.ReflTransGen r.state.References a b → ∀ t id m, b.targeting = some t →
    t.criteria.lookup id = some (some (.materializedSegment m)) → m ∉ ms

theorem Unmaterialized.scope (h : r.Unmaterialized ms a) (ha : a ∈ r.state.segments.values)
    (unit : Option String) :
    Scope r unit {b | Relation.ReflTransGen r.state.References a b} {k | k.1 ∉ ms} testErrors where
  mem hb := by
    rcases Relation.ReflTransGen.cases_tail hb with rfl | ⟨d, -, hd⟩
    · exact ha
    · exact hd.mem
  closed hb hd := hb.tail hd
  fails _ _ _ h := evaluateAttribute_error h
  asks hb ht hc _ _ := h _ hb _ _ _ ht hc
  panic := .inr (.inr (.inl rfl))
  salt := .inr (.inr (.inr rfl))

/-- A test that asks for no materialization in `ms`. -/
theorem Built.observes_outside {y : ResolveM Tribool}
    (hy : Built materializationOracle {k | k.1 ∉ ms} testErrors y) (h : AgreeOutside ms R R') :
    Observes {.complete R, .complete R'} testErrors y := by
  have he : (y (.complete R)).1 = (y (.complete R')).1 := by
    refine hy.congr ⟨R, rfl⟩ ⟨R', rfl⟩ fun k hk => ?_
    show isIncluded R k.2 k.1 = isIncluded R' k.2 k.1
    rw [Bool.eq_iff_iff, isIncluded_eq_true, isIncluded_eq_true]
    simp only [h k.2 k.1 _ hk]
  refine (hy.yields_complete R).observes_pair (he ▸ hy.yields_complete R') fun e h' => ?_
  rcases hy.complete_cases R with ⟨t, hc⟩ | ⟨e', h₁, hc⟩ <;> rw [hc] at h' <;> cases h'
  exact h₁

/-! ### One rule -/

/-- The rule reads what it writes, its targeting does not depend on it, and where the segment
matches, the targeting does not fail on its own. -/
structure ReadsBack (r : AccountResolver) (ms : List String) (R : List MaterializationRecord)
    (rule : Rule) : Prop where
  same : ∀ s, rule.materializationSpec = some s → s.readMaterialization = s.writeMaterialization
  unmaterialized : ∀ a, r.state.segments.get rule.segment = some a → r.Unmaterialized ms a
  targeting : ∀ a spec u, r.ruleGuard rule = .go a spec (some u) →
    (r.segmentMatch (some u) a (.complete R)).1 = .ok (some true) →
      ∃ t, (r.targetingMatchFresh (some u) a (.complete R)).1 = .ok t

/-- Where references are acyclic, the targeting of a segment that matches holds on its own. -/
theorem targetingMatchFresh_of_acyclic (hc : r.state.Acyclic) (ha : a ∈ r.state.segments.values)
    {c : MaterializationContext} (h : (r.segmentMatch unit a c).1 = .ok (some true)) :
    ∃ t, (r.targetingMatchFresh unit a c).1 = .ok t := by
  rw [segmentMatch_eq_and hc ha] at h
  rcases Test.and_cases (r.targetingMatchFresh unit a) (r.bitsetMatch unit a) c with
    ⟨e, s', h₁, h₂⟩ | ⟨s', h₁, h₂⟩ | ⟨t, s', h₁, -, -⟩
  · rw [h₂] at h
    cases h
  · rw [h₂] at h
    cases h
  · exact ⟨t, by rw [h₁]⟩

/-- A rule that reads has a record to read where it writes. -/
theorem writes_of_reads {m : String} {mode : MaterializationReadMode}
    (hsame : ∀ s, rule.materializationSpec = some s → s.readMaterialization = s.writeMaterialization)
    (h : rule.reads = some (m, mode)) : rule.writes = some m := by
  rcases hs : rule.materializationSpec with _ | s
  · simp [Rule.reads, hs] at h
  · by_cases he : s.readMaterialization = ""
    · simp [Rule.reads, hs, he] at h
    · simp only [Rule.reads, hs, Option.bind_some, he, if_false, Option.some.injEq,
        Prod.mk.injEq] at h
      simp [Rule.writes, hs, ← hsame s hs, h.1]

/-- The sticky match of what was assigned gives the assigned value. -/
theorem tryWithVariantMatch_of_apply {id u v : String} {ranges : List BucketRange}
    (h : applyAssignment rule a id (.variant v) u value = .ok p) :
    (value.tryWithVariantMatch rule a ⟨id, some (.variant v), ranges⟩ u).map Progress.done =
      .ok p := by
  simp only [applyAssignment] at h
  simp only [ResolvedValue.tryWithVariantMatch]
  split at h
  · exact h
  · cases h

theorem segmentMatch_outside (hu : r.Unmaterialized ms a) (ha : a ∈ r.state.segments.values)
    (unit : Option String) (h : AgreeOutside ms R R') :
    Observes {.complete R, .complete R'} testErrors (r.segmentMatch unit a) :=
  Built.observes_outside (segmentMatch_built (hu.scope ha unit) .refl) h

theorem targetingMatchFresh_outside (hu : r.Unmaterialized ms a)
    (ha : a ∈ r.state.segments.values) (unit : Option String) (h : AgreeOutside ms R R') :
    Observes {.complete R, .complete R'} testErrors (r.targetingMatchFresh unit a) :=
  Built.observes_outside (targetingMatchFresh_built (hu.scope ha unit) .refl) h

/-- Where a rule matched and was assigned, what is known of it with another record of its own. -/
theorem stickyTargeting_known (ha : a ∈ r.state.segments.values) {m u : String}
    {mode : MaterializationReadMode} (hread : rule.reads = some (m, mode))
    (hfresh : (r.segmentMatch (some u) a (.complete R)).1 = .ok (some true) →
      ∃ t, (r.targetingMatchFresh (some u) a (.complete R)).1 = .ok t)
    (h : Yields (.complete R) (r.matchRule rule a spec (some u)) (.ok (.segment (some true) false))
      A) :
    ∃ t, stickyTargetingResult mode (r.targetingMatchFresh (some u) a (.complete R)).1 =
        .ok (some t) ∧
      (t ≠ some true → (r.segmentMatch (some u) a (.complete R)).1 = .ok (some true)) := by
  have hseg : matchSegmentResult false (r.segmentMatch (some u) a (.complete R)).1 =
      .ok (.segment (some true) false) →
        (r.segmentMatch (some u) a (.complete R)).1 = .ok (some true) :=
    fun h => (matchSegmentResult_eq_segment h).1
  rcases (matchRule_complete_cases ha h).2 with ⟨hr, -⟩ | ⟨_, _, -, hu, -⟩ |
      ⟨m', mode', u', hr, hu, -, hres⟩ | ⟨m', mode', u', hr, hu, -, hres⟩
  · rw [hread] at hr
    cases hr
  · cases hu
  · rw [hread] at hr
    cases hr
    cases hu
    split at hres
    · cases hres
    · have hs := hseg hres.symm
      obtain ⟨t, ht⟩ := hfresh hs
      rw [ht, stickyTargetingResult]
      split
      · exact ⟨some true, rfl, fun h => absurd rfl h⟩
      · exact ⟨t, rfl, fun _ => hs⟩
  · rw [hread] at hr
    cases hr
    cases hu
    rcases hT : stickyTargetingResult mode (r.targetingMatchFresh (some u) a (.complete R)).1 with
      e | _ | t <;> rw [hT] at hres
    · cases hres
    · cases hres
    · refine ⟨t, rfl, fun hne => ?_⟩
      rcases t with _ | _ | _
      · exact hseg hres.symm
      · exact hseg hres.symm
      · exact absurd rfl hne

/-- What is observed alike with both sets of records is the same. -/
theorem complete_eq_of_observes {y : ResolveM Tribool}
    (h : Observes {.complete R, .complete R'} testErrors y) :
    (y (.complete R')).1 = (y (.complete R)).1 := by
  obtain ⟨res, A', hobs, -⟩ := h
  exact (hobs _ (.inr rfl)).fresh.1.trans (hobs _ (.inl rfl)).fresh.1.symm

/-- With the record it had, a rule does what it did. -/
theorem resolveMatched_same (hu : r.Unmaterialized ms a) (ha : a ∈ r.state.segments.values)
    (hR : AgreeOutside ms R R')
    (hsame : ∀ m mode u, rule.reads = some (m, mode) → unit = some u →
      findRecord R u m rule.name = findRecord R' u m rule.name)
    (h : Does (.complete R) (r.resolveMatched rule a spec unit false value) p W A) :
    Does (.complete R') (r.resolveMatched rule a spec unit false value) p W A := by
  refine (resolveMatched_framed (by simp) (matchRule_pair ?_ (fun u _ => ?_) hsame) false
    value).transfer h
  · exact segmentMatch_outside hu ha unit hR
  · exact targetingMatchFresh_outside hu ha (some u) hR

/-- Only an assignment writes: the segment of a rule that wrote has matched. -/
theorem resolveMatched_wrote (ha : a ∈ r.state.segments.values)
    (h : Does (.complete R) (r.resolveMatched rule a spec unit false value) p W A) (hW : W ≠ []) :
    ∃ u id kind ranges, unit = some u ∧
      Yields (.complete R) (r.matchRule rule a spec unit) (.ok (.segment (some true) false)) A ∧
      Does (.complete R) (r.assignRule rule a spec unit value) p W ∅ ∧
      r.matchedAssignment rule spec unit = .ok (some ⟨id, some kind, ranges⟩) ∧
      applyAssignment rule a id kind u value = .ok p ∧
      W = rule.writesFor unit kind.variantName := by
  obtain ⟨mt, hy, hd⟩ := resolveMatched_does_inv (by simp) ha h
  rcases matchRule_complete_known ha hy with ⟨assignment, u, rfl⟩ | rfl | ⟨_ | _, rfl⟩
  · exact absurd (does_lift hd).2.1 hW
  · exact absurd (does_pure hd).2.1 hW
  · exact absurd (does_pure hd).2.1 hW
  · rcases (assignRule_inv (by simp) hd).2 with ⟨-, h, -⟩ | ⟨id, kind, ranges, hm, hk, hwrite⟩
    · exact absurd h hW
    · rcases unit with _ | u
      · exact absurd hwrite hW
      · exact ⟨u, id, kind, ranges, rfl, hy, hd, hm, hk, hwrite⟩

/-- With the record of what it assigned, a rule gives it again: by the record, if that is of a
variant and the targeting holds, and by the bucket otherwise. -/
theorem resolveMatched_reread {id m u : String} {kind : AssignmentKind}
    {ranges : List BucketRange} {mode : MaterializationReadMode} (hu : r.Unmaterialized ms a)
    (ha : a ∈ r.state.segments.values) (hR : AgreeOutside ms R R')
    (hread : rule.reads = some (m, mode))
    (hfresh : (r.segmentMatch (some u) a (.complete R)).1 = .ok (some true) →
      ∃ t, (r.targetingMatchFresh (some u) a (.complete R)).1 = .ok t)
    (hy : Yields (.complete R) (r.matchRule rule a spec (some u))
      (.ok (.segment (some true) false)) A)
    (hassign : Does (.complete R) (r.assignRule rule a spec (some u) value) p W ∅)
    (hm : r.matchedAssignment rule spec (some u) = .ok (some ⟨id, some kind, ranges⟩))
    (hk : applyAssignment rule a id kind u value = .ok p)
    (hrec : findRecord R' u m rule.name = some ⟨u, m, rule.name, kind.variantName⟩) :
    ∃ W' A', Does (.complete R') (r.resolveMatched rule a spec (some u) false value) p W' A' ∧
      W' ⊆ W := by
  have hafter := (afterMatch_framed (r := r) (B := {.complete R, .complete R'}) (by simp) rule a
    spec (some u) false value (.segment (some true) false)).transfer hassign
  have hagain : Yields (.complete R') (r.matchRule rule a spec (some u))
        (.ok (.segment (some true) false)) ∅ →
      ∃ W' A', Does (.complete R') (r.resolveMatched rule a spec (some u) false value) p W' A' ∧
        W' ⊆ W :=
    fun hy' => ⟨_, _, hy'.does.bind hafter (noClash_nil_left _), fun _ h => h⟩
  obtain ⟨t, hT, hmatched⟩ := stickyTargeting_known ha hread hfresh hy
  have hy' : Yields (.complete R') (r.matchRule rule a spec (some u)) _ ∅ :=
    matchRule_yields_present hread (by rw [hrec]; rfl) (targetingMatchFresh_yields_complete ha R')
      (segmentMatch_yields_complete ha R')
  rw [complete_eq_of_observes (segmentMatch_outside hu ha (some u) hR),
    complete_eq_of_observes (targetingMatchFresh_outside hu ha (some u) hR), hT] at hy'
  -- where the targeting holds the record is used, if it has a variant; otherwise the match is the
  -- one of before
  by_cases ht : t = some true
  · subst ht
    by_cases hv : kind.variantName = ""
    · rw [stickyResult, selectAssignment_eq hrec, if_pos hv] at hy'
      exact hagain hy'
    · obtain ⟨v, rfl⟩ : ∃ v, kind = .variant v := by
        rcases kind with v | _ | _
        · exact ⟨v, rfl⟩
        · exact absurd rfl hv
        · exact absurd rfl hv
      have hsel := select_of_matched hrec hv hm (isVariant_iff.mpr rfl)
      rw [stickyResult, hsel] at hy'
      have hsticky : Does (.complete R') (r.afterMatch rule a spec (some u) false value
          (.sticky ⟨id, some (.variant v), ranges⟩ u)) p [] ∅ := by
        have htry : (value.tryWithVariantMatch rule a ⟨id, some (.variant v), ranges⟩ u).map
            Progress.done = .ok p := tryWithVariantMatch_of_apply hk
        rw [afterMatch, htry]
        exact (Yields.pure _ p).does
      exact ⟨_, _, hy'.does.bind hsticky (noClash_nil_left _), List.nil_subset W⟩
  · refine hagain ?_
    rw [hmatched ht] at hy'
    rcases t with _ | _ | _
    · exact hy'
    · exact hy'
    · exact absurd rfl ht

/-- **A rule reads back what it wrote.**  With its writes stored, the rule does what it did, but
that it need not write again. -/
theorem resolveMatched_stable (hg : r.ruleGuard rule = .go a spec unit)
    (hback : r.ReadsBack ms R rule) (hR : AgreeOutside ms R R')
    (hown : ∀ m mode u, rule.reads = some (m, mode) → unit = some u →
      findRecord R' u m rule.name = (findRecord W u m rule.name).or (findRecord R u m rule.name))
    (h : Does (.complete R) (r.resolveMatched rule a spec unit false value) p W A) :
    ∃ W' A', Does (.complete R') (r.resolveMatched rule a spec unit false value) p W' A' ∧
      W' ⊆ W := by
  have ha := ruleGuard_mem hg
  have hu := hback.unmaterialized a (ruleGuard_go hg).2.2.1
  by_cases hW : W = []
  · refine ⟨W, A, resolveMatched_same hu ha hR (fun m mode u hm hunit => ?_) h, fun _ h => h⟩
    rw [hown m mode u hm hunit, hW]
    rfl
  obtain ⟨u, id, kind, ranges, rfl, hy, hassign, hm, hk, hwrite⟩ := resolveMatched_wrote ha h hW
  rcases hread : rule.reads with _ | ⟨m, mode⟩
  · refine ⟨W, A, resolveMatched_same hu ha hR (fun m mode u hm _ => ?_) h, fun _ h => h⟩
    rw [hread] at hm
    cases hm
  · -- the rule has its own record now
    simp only [Rule.writesFor, writes_of_reads hback.same hread] at hwrite
    refine resolveMatched_reread hu ha hR hread (hback.targeting a spec u hg) hy hassign hm hk ?_
    rw [hown m mode u hread rfl, hwrite]
    simp [findRecord, MaterializationRecord.isFor]

theorem resolveRule_stable (hback : r.ReadsBack ms R rule) (hR : AgreeOutside ms R R')
    (hown : ∀ m mode u, rule.reads = some (m, mode) →
      findRecord R' u m rule.name = (findRecord W u m rule.name).or (findRecord R u m rule.name))
    (h : Does (.complete R) (r.resolveRule rule false value) p W A) :
    ∃ W' A', Does (.complete R') (r.resolveRule rule false value) p W' A' ∧ W' ⊆ W := by
  rcases hg : r.ruleGuard rule with _ | _ | ⟨a, spec, unit⟩ <;>
    simp only [resolveRule, hg] at h ⊢
  · obtain ⟨rfl, rfl, -⟩ := does_pure h
    exact ⟨[], ∅, (Yields.pure _ _).does, fun _ h => h⟩
  · obtain ⟨rfl, rfl, -⟩ := does_pure h
    exact ⟨[], ∅, (Yields.pure _ _).does, fun _ h => h⟩
  · exact resolveMatched_stable hg hback hR (fun m mode u hm _ => hown m mode u hm) h

/-! ### The rules of a flag -/

/-- A rule writes one record at most, of its own name and materialization. -/
theorem resolveRule_writes (hb : b ≠ .unsupported) {hasMissing : Bool}
    (h : Does b (r.resolveRule rule hasMissing value) p W A) :
    W = [] ∨ ∃ q, W = [q] ∧ q.rule = rule.name ∧ rule.writes = some q.materialization := by
  rcases hg : r.ruleGuard rule with _ | _ | ⟨a, spec, unit⟩ <;> rw [resolveRule, hg] at h
  · exact .inl (does_pure h).2.1
  · exact .inl (does_pure h).2.1
  · obtain ⟨mt, -, hd⟩ := resolveMatched_does_inv hb (ruleGuard_mem hg) h
    rcases mt with ⟨assignment, u⟩ | missing | ⟨_ | _ | _, missing⟩
    · exact .inl (does_lift hd).2.1
    · exact .inl (does_pure hd).2.1
    · exact .inl (does_pure hd).2.1
    · exact .inl (does_pure hd).2.1
    · rw [afterMatch] at hd
      split at hd
      · exact .inl (does_pure hd).2.1
      · rcases (assignRule_inv hb hd).2 with ⟨-, h, -⟩ | ⟨id, kind, ranges, -, -, hw⟩
        · exact .inl h
        · rcases unit with _ | u
          · exact .inl hw
          · rcases hm : rule.writes with _ | m <;> simp only [Rule.writesFor, hm] at hw
            · exact .inl hw
            · exact .inr ⟨_, hw, rfl, rfl⟩

theorem mem_writingRules {rules : List Rule} (hr : rule ∈ rules) {m : String}
    (h : rule.writes = some m) : rule.name ∈ writingRules rules := by
  refine List.mem_map_of_mem (List.mem_filter.mpr ⟨hr, ?_⟩)
  rcases hs : rule.materializationSpec with _ | s
  · simp [Rule.writes, hs] at h
  · rfl

theorem writingRules_cons {rules : List Rule} {m : String} (h : rule.writes = some m) :
    writingRules (rule :: rules) = rule.name :: writingRules rules := by
  have hs : rule.materializationSpec.isSome = true := by
    rcases hs : rule.materializationSpec with _ | s
    · simp [Rule.writes, hs] at h
    · rfl
  simp [writingRules, hs]

theorem writingRules_sublist (rule : Rule) (rules : List Rule) :
    (writingRules rules).Sublist (writingRules (rule :: rules)) :=
  ((List.sublist_cons_self rule rules).filter _).map _

/-- The writes of a run are of its rules, and of distinct keys. -/
theorem runRules_writes (hb : b ≠ .unsupported) {rules : List Rule} :
    ∀ {hasMissing : Bool} {value : ResolvedValue} {p : Progress} {W : List MaterializationRecord}
      {A : Set (String × String × String)}, Does b (r.runRules rules hasMissing value) p W A →
      (∀ q ∈ W, q.rule ∈ writingRules rules ∧ q.materialization ∈ rules.filterMap Rule.writes) ∧
        (W.map MaterializationRecord.key).Nodup := by
  induction rules with
  | nil =>
      intro hasMissing value p W A h
      obtain ⟨-, rfl, -⟩ := does_pure h
      simp
  | cons rule rules ih =>
      intro hasMissing value p W A h
      obtain ⟨p₁, W₁, A₁, W₂, A₂, h₁, h₂, hn, rfl, -⟩ := runRules_does_inv hb h
      have hrest : (∀ q ∈ W₂, q.rule ∈ writingRules rules ∧
          q.materialization ∈ rules.filterMap Rule.writes) ∧
            (W₂.map MaterializationRecord.key).Nodup := by
        rcases p₁ with ⟨m, v⟩ | v
        · exact ih h₂
        · obtain ⟨-, rfl, -⟩ := does_pure h₂
          simp
      have hcons : ∀ {q : MaterializationRecord}, q ∈ W₂ → q.rule ∈ writingRules (rule :: rules) ∧
          q.materialization ∈ (rule :: rules).filterMap Rule.writes := by
        intro q hq
        obtain ⟨h₃, h₄⟩ := hrest.1 q hq
        refine ⟨(writingRules_sublist rule rules).subset h₃, ?_⟩
        exact ((List.sublist_cons_self rule rules).filterMap _).subset h₄
      -- a rule writes once at most, under its own name
      rcases resolveRule_writes hb h₁ with rfl | ⟨q, rfl, hqr, hqm⟩
      · exact ⟨fun _ => hcons, hrest.2⟩
      · refine ⟨fun q' hq => ?_, ?_⟩
        · rcases List.mem_cons.mp hq with rfl | hq
          · refine ⟨hqr ▸ mem_writingRules List.mem_cons_self hqm, ?_⟩
            exact List.mem_filterMap.mpr ⟨rule, List.mem_cons_self, hqm⟩
          · exact hcons hq
        · refine List.nodup_cons.mpr ⟨fun hk => ?_, hrest.2⟩
          obtain ⟨q', hq', hk⟩ := List.mem_map.mp hk
          exact hn q List.mem_cons_self q' hq' hk.symm

/-- **A run reads back what it wrote.**  The induction carries that the records stored for the
rules still to come are their own writes. -/
theorem runRules_stable (hR : AgreeOutside ms R R') {rules : List Rule} :
    ∀ {value : ResolvedValue} {p : Progress} {W : List MaterializationRecord}
      {A : Set (String × String × String)}, (∀ rule ∈ rules, r.ReadsBack ms R rule) →
      (writingRules rules).Nodup →
      (∀ k ∈ writingRules rules, ∀ u m,
        findRecord R' u m k = (findRecord W u m k).or (findRecord R u m k)) →
      Does (.complete R) (r.runRules rules false value) p W A →
      ∃ W' A', Does (.complete R') (r.runRules rules false value) p W' A' ∧ W' ⊆ W := by
  induction rules with
  | nil =>
      intro value p W A _ _ _ h
      obtain ⟨rfl, rfl, -⟩ := does_pure h
      exact ⟨[], ∅, (Yields.pure _ _).does, fun _ h => h⟩
  | cons rule rules ih =>
      intro value p W A hback hnodup hown h
      obtain ⟨p₁, W₁, A₁, W₂, A₂, h₁, h₂, hn, rfl, -⟩ := runRules_does_inv (by simp) h
      -- the rules to come write under other names
      have hW₂ : ∀ q ∈ W₂, q.rule ∈ writingRules rules := by
        rcases p₁ with ⟨m, v⟩ | v
        · exact fun q hq => ((runRules_writes (by simp) h₂).1 q hq).1
        · obtain ⟨-, rfl, -⟩ := does_pure h₂
          exact fun q hq => by cases hq
      have hnames : ∀ {m}, rule.writes = some m → rule.name ∉ writingRules rules := by
        intro m hm
        rw [writingRules_cons hm] at hnodup
        exact (List.nodup_cons.mp hnodup).1
      have hnodup' : (writingRules rules).Nodup :=
        hnodup.sublist (writingRules_sublist rule rules)
      obtain ⟨W₁', A₁', h₃, hsub₁⟩ := resolveRule_stable (hback rule List.mem_cons_self) hR
        (fun m mode u hm => by
          have hw := writes_of_reads (hback rule List.mem_cons_self).same hm
          have hnone : findRecord W₂ u m rule.name = none :=
            findRecord_of_rule fun q hq e => hnames hw (e ▸ hW₂ q hq)
          rw [hown _ (mem_writingRules List.mem_cons_self hw), findRecord_append, hnone,
            Option.or_none]) h₁
      have hown' : ∀ k ∈ writingRules rules, ∀ u m,
          findRecord R' u m k = (findRecord W₂ u m k).or (findRecord R u m k) := by
        intro k hk u m
        have hk' : k ∈ writingRules (rule :: rules) := (writingRules_sublist rule rules).subset hk
        have hnone : findRecord W₁ u m k = none := by
          rcases resolveRule_writes (by simp) h₁ with rfl | ⟨q, rfl, hq, hm⟩
          · rfl
          · refine findRecord_of_rule fun q' hq' e => hnames hm ?_
            rwa [← hq, ← List.mem_singleton.mp hq', e]
        rw [hown k hk', findRecord_append, hnone, Option.none_or]
      rcases p₁ with ⟨m, v⟩ | v
      · obtain rfl := (resolveRule_complete h₁).2 m v rfl
        obtain ⟨W₂', A₂', h₄, hsub₂⟩ := ih (fun rule' hr => hback rule' (List.mem_cons_of_mem _ hr))
          hnodup' hown' h₂
        refine ⟨_, _, h₃.bind h₄ fun q hq q' hq' => hn q (hsub₁ hq) q' (hsub₂ hq'), ?_⟩
        exact List.append_subset.mpr ⟨List.subset_append_of_subset_left _ hsub₁,
          List.subset_append_of_subset_right _ hsub₂⟩
      · obtain ⟨rfl, rfl, -⟩ := does_pure h₂
        refine ⟨_, _, h₃.bind (Yields.pure _ _).does (noClash_nil_right _), ?_⟩
        rw [List.append_nil, List.append_nil]
        exact hsub₁

/-! ### A flag -/

/-- **Writing and reading back is stable.**  A flag whose writing rules have distinct names and
read back their writes has its value again with its writes stored; and all that it writes then is
stored already. -/
theorem write_read_stable {flag : Flag} (hnodup : (writingRules flag.rules).Nodup)
    (hback : ∀ rule ∈ flag.rules, r.ReadsBack flag.materializations R rule)
    {val : ResolvedValue} {c : MaterializationContext}
    (h : r.resolveFlag flag (.complete R) = (.ok val, c)) :
    ∃ c', r.resolveFlag flag (.complete (updateRecords R c.toWrite)) = (.ok val, c') ∧
      ∀ q ∈ c'.toWrite, findRecord (updateRecords R c.toWrite) q.unit q.materialization q.rule =
        some q := by
  by_cases hf : flag.state = .archived
  · simp only [resolveFlag, resolveFlagInternal, if_pos hf] at h ⊢
    cases h
    exact ⟨_, rfl, fun q hq => by cases hq⟩
  have hp : r.Passes (.complete R) flag := by
    by_contra hn
    obtain ⟨e, -, he⟩ := resolveFlag_fatal (b := .complete R) (by simp) hf
      (c := .complete R) rfl fun h => hn h.1
    rw [h] at he
    cases he
  obtain ⟨p, W, A, hd⟩ := hp
  obtain ⟨c₁, hrun, -, hw, -⟩ := hd.fresh
  have hres := (resolveFlag_of_ok hf hrun).symm.trans h
  obtain ⟨hval, rfl⟩ := Prod.mk.inj hres
  rw [hw]
  obtain ⟨hmem, hkeys⟩ := runRules_writes (by simp) hd
  obtain ⟨W', A', hd', hsub⟩ := runRules_stable
    (agreeOutside_updateRecords fun q hq => (hmem q hq).2) hback hnodup
    (fun k _ u m => findRecord_updateRecords R W u m k) hd
  obtain ⟨c', hrun', -, hw', -⟩ := hd'.fresh
  refine ⟨c', (resolveFlag_of_ok hf hrun').trans (by rw [hval]), fun q hq => ?_⟩
  rw [findRecord_updateRecords, findRecord_of_mem hkeys (hsub (hw' ▸ hq))]
  rfl

end AccountResolver

/-! ### A rule that reads and writes -/

/-- Two assignments of the variant, to the halves of the buckets. -/
def Sample.halves : List Assignment :=
  [⟨"a", some (.variant "on"), [⟨0, 50⟩]⟩, ⟨"b", some (.variant "on"), [⟨50, 100⟩]⟩]

theorem Sample.keeping_references (assignments : List Assignment) {a b : Segment}
    (ha : a ∈ (Sample.keepingResolver assignments).state.segments.values) :
    ¬ (Sample.keepingResolver assignments).state.References a b := by
  rintro ⟨t, id, name, ht, -⟩
  obtain rfl := List.mem_singleton.mp ha
  cases ht

theorem Sample.keeping_acyclic (assignments : List Assignment) :
    (Sample.keepingResolver assignments).state.Acyclic := by
  intro a h
  obtain ⟨d, -, hd⟩ := Relation.TransGen.tail'_iff.mp h
  obtain ⟨d', hd', -⟩ := Relation.TransGen.head'_iff.mp h
  exact Sample.keeping_references assignments hd.mem hd'

theorem Sample.keeping_readsBack (assignments : List Assignment) (ms : List String)
    (R : List MaterializationRecord) :
    (Sample.keepingResolver assignments).ReadsBack ms R (Sample.keeping assignments) where
  same s hs := by
    cases hs
    rfl
  unmaterialized a ha b hb t id m ht _ := by
    have hmem := (NamedMap.get_some ha).1
    rcases Relation.ReflTransGen.cases_head hb with rfl | ⟨d, hd, -⟩
    · obtain rfl := List.mem_singleton.mp hmem
      cases ht
    · exact absurd hd (Sample.keeping_references assignments hmem)
  targeting a spec u hg h := AccountResolver.targetingMatchFresh_of_acyclic
    (Sample.keeping_acyclic assignments) (AccountResolver.ruleGuard_mem hg) h

theorem write_read_stable_halves :
    ∃ val c c', (Sample.keepingResolver Sample.halves).resolveFlag
        (Sample.keepingFlag Sample.halves) (.complete []) = (.ok val, c) ∧
      c.toWrite = [Sample.stored] ∧
      (Sample.keepingResolver Sample.halves).resolveFlag (Sample.keepingFlag Sample.halves)
        (.complete (updateRecords [] c.toWrite)) = (.ok val, c') := by
  have h : (Sample.keepingResolver Sample.halves).resolveFlag (Sample.keepingFlag Sample.halves)
      (.complete []) = (.ok _, _) := rfl
  obtain ⟨c', h', -⟩ := AccountResolver.write_read_stable (by decide)
    (fun rule hr => List.mem_singleton.mp hr ▸ Sample.keeping_readsBack _ _ _) h
  exact ⟨_, _, c', h, rfl, h'⟩

/-! ### Rules that do not read back what they wrote -/

/-- Two rules of one name: the unit's bucket is in the range of the second only. -/
def Sample.sharedName : Flag :=
  Sample.flag "flags/f"
    [Sample.keeping Sample.oneRange, Sample.keeping [⟨"b", some (.variant "on"), [⟨50, 100⟩]⟩]]

def Sample.sharedNameResolver : AccountResolver where
  __ := Sample.resolver [Sample.sharedName] [Sample.segment] (by decide)
    Sample.segment_nodup
  natives := Sample.hashing

/-- A segment of the units that are not both in itself and in what is not recognised. -/
def Sample.selfReference : Segment :=
  ⟨"segments/s", some
    ⟨[("self", some (.segment "segments/s")), ("other", some (.attribute ⟨"account", none⟩))],
      some (.not (.and [.ref "self", .ref "other"]))⟩⟩

def Sample.selfReferring : Flag :=
  Sample.flag "flags/f" [Sample.sticky (Sample.rule "flags/f/rules/1" (.variant "on"))]

def Sample.selfReferenceResolver : AccountResolver :=
  Sample.resolver [Sample.selfReferring] [Sample.selfReference] (by decide) (by decide)

/-- **Two ways to lose a write.**  The record that a rule wrote is read by another rule of its
name, whose assignment of the variant is another one.  And a segment that refers to itself is cut
off where it is visited again, but not in the targeting check of a unit with a record, which then
fails on a rule that is not recognised. -/
theorem write_read_unstable :
    (Sample.sharedNameResolver.flagWrites (.complete []) Sample.sharedName = [Sample.stored] ∧
      (Sample.sharedNameResolver.flagValue (.complete []) Sample.sharedName).map
        (·.assignmentId) = some "b" ∧
      (Sample.sharedNameResolver.flagValue (.complete (updateRecords [] [Sample.stored]))
        Sample.sharedName).map (·.assignmentId) = some "a") ∧
    (Sample.selfReferenceResolver.flagWrites (.complete []) Sample.selfReferring =
        [Sample.stored] ∧
      (Sample.selfReferenceResolver.flagValue (.complete []) Sample.selfReferring).map
        (·.variant) = some "on" ∧
      (Sample.selfReferenceResolver.flagValue (.complete (updateRecords [] [Sample.stored]))
        Sample.selfReferring).map (·.variant) = some "") := by
  refine ⟨⟨?_, ?_, ?_⟩, ?_, ?_, ?_⟩
  all_goals decide

end ConfidenceResolver
