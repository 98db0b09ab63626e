import ConfidenceResolver.Materialization.Frames

/-!
# Materialization — the match of a rule, without and with records

What `matchRule` yields in each mode, case by case, and how the modes compare:

* `matchRule_refines`: a match that a first pass decides, it has with every set of records;
* `matchRule_quiet`: so does a rule that a first pass skips without asking for a record;
* `matchRule_agree`: two sets of records that agree on what a first pass asks for match alike.
-/

namespace ConfidenceResolver

namespace AccountResolver

variable {r : AccountResolver} {b : MaterializationRecords} {rule : Rule} {a : Segment}
  {spec : AssignmentSpec} {unit : Option String} {u m : String} {mode : MaterializationReadMode}
  {A : Set (String × String × String)}

/-! ### What a match yields -/

/-- What `matchSegment` makes of the segment's match. -/
def matchSegmentResult (missing : Bool) :
    Except ResolveError Tribool → Except ResolveError RuleMatch
  | .ok matched => .ok (.segment matched missing)
  | .error .unrecognizedRule => .ok (.skip missing)
  | .error e => .error e

theorem matchSegment_yields {res : Except ResolveError Tribool} (missing : Bool)
    (h : Yields b (r.segmentMatch unit a) res A) :
    Yields b (r.matchSegment a unit missing) (matchSegmentResult missing res) A := by
  have h' := recognized_yields h
  rw [← Set.union_empty A]
  rcases res with e | t
  · cases e
    case unrecognizedRule => exact h'.bind (Yields.pure b _)
    all_goals
      rw [Set.union_empty]
      exact h'.bind_error
  · exact h'.bind (Yields.pure b _)

theorem matchRule_of_not_reads (h : rule.reads = none) :
    r.matchRule rule a spec unit = r.matchSegment a unit false := by
  rw [matchRule, h]

theorem matchRule_of_no_unit (h : rule.reads = some (m, mode)) :
    r.matchRule rule a spec none = pure (.skip false) := by
  rw [matchRule, h]

/-- In a first pass a rule that reads a materialization misses it. -/
theorem matchRule_yields_discovery (h : rule.reads = some (m, mode))
    {res : Except ResolveError Tribool} (hs : Yields .discovery (r.segmentMatch (some u) a) res A) :
    Yields .discovery (r.matchRule rule a spec (some u)) (matchSegmentResult true res)
      ({(u, m, rule.name)} ∪ A) := by
  rw [matchRule, h]
  exact (hasRuleMaterialization_yields_discovery m u rule.name).bind (matchSegment_yields true hs)

/-- A unit without a record, in a pass with records. -/
theorem matchRule_yields_absent {records : List MaterializationRecord}
    (h : rule.reads = some (m, mode)) (hr : findRecord records u m rule.name = none)
    {res : Except ResolveError Tribool}
    (hs : Yields (.complete records) (r.segmentMatch (some u) a) res ∅) :
    Yields (.complete records) (r.matchRule rule a spec (some u))
      (if mode.materializationMustMatch then .ok (.skip false)
        else matchSegmentResult false res) ∅ := by
  have hh := hasRuleMaterialization_yields_complete records m u rule.name
  rw [hr] at hh
  rw [matchRule, h, ← Set.union_empty ∅]
  refine hh.bind ?_
  by_cases hmust : mode.materializationMustMatch
  · simp only [hmust, if_true, Option.isSome_none]
    exact Yields.pure _ _
  · simp only [hmust, Bool.false_eq_true, if_false, Option.isSome_none]
    exact matchSegment_yields false hs

/-- What the record of a unit makes of the result of the targeting check. -/
def stickyResult (r : AccountResolver) (records : List MaterializationRecord) (rule : Rule)
    (spec : AssignmentSpec) (u m : String) (segment : Except ResolveError Tribool) :
    Except ResolveError (Option Tribool) → Except ResolveError RuleMatch
  | .error e => .error e
  | .ok none => .ok (.skip false)
  | .ok (some (some true)) =>
      .ok ((selectAssignment r.natives (.complete records) m u rule.name spec.assignments
        rule.segment spec.bucketCount).elim (.segment (some true) false) (.sticky · u))
  | .ok (some _) => matchSegmentResult false segment

/-- The result of the targeting check of a unit with a record. -/
def stickyTargetingResult (mode : MaterializationReadMode) (res : Except ResolveError Tribool) :
    Except ResolveError (Option Tribool) :=
  if mode.segmentTargetingCanBeIgnored then .ok (some (some true)) else recognizedResult res

theorem stickyTargeting_yields {res : Except ResolveError Tribool}
    (h : Yields b (r.targetingMatchFresh (some u) a) res ∅) :
    Yields b (r.stickyTargeting a u mode) (stickyTargetingResult mode res) ∅ := by
  unfold stickyTargeting stickyTargetingResult
  split
  · exact Yields.pure _ _
  · exact recognized_yields h

/-- A unit with a record, in a pass with records. -/
theorem matchRule_yields_present {records : List MaterializationRecord}
    (h : rule.reads = some (m, mode)) (hr : (findRecord records u m rule.name).isSome)
    {res res' : Except ResolveError Tribool}
    (ht : Yields (.complete records) (r.targetingMatchFresh (some u) a) res ∅)
    (hs : Yields (.complete records) (r.segmentMatch (some u) a) res' ∅) :
    Yields (.complete records) (r.matchRule rule a spec (some u))
      (r.stickyResult records rule spec u m res' (stickyTargetingResult mode res)) ∅ := by
  have hh := hasRuleMaterialization_yields_complete records m u rule.name
  rw [hr] at hh
  rw [matchRule, h, ← Set.union_empty ∅]
  refine hh.bind ?_
  have ht' : Yields (.complete records) (r.stickyTargeting a u mode) _ ∅ :=
    stickyTargeting_yields ht
  rw [← Set.union_empty ∅]
  rcases hres : stickyTargetingResult mode res with e | _ | _ | _ | _ <;> rw [hres] at ht'
  · rw [Set.union_empty]
    exact ht'.bind_error
  · exact ht'.bind (Yields.pure _ _)
  · exact ht'.bind (matchSegment_yields false hs)
  · exact ht'.bind (matchSegment_yields false hs)
  · exact ht'.bind (selectSticky_yields rule spec u m)

/-! ### A first pass and the passes with records -/

theorem matchSegmentResult_eq_segment {missing missing' : Bool} {t : Tribool}
    {res : Except ResolveError Tribool}
    (h : matchSegmentResult missing res = .ok (.segment t missing')) :
    res = .ok t ∧ missing = missing' := by
  rcases res with e | t'
  · cases e <;> cases h
  · cases h
    exact ⟨rfl, rfl⟩

theorem matchSegmentResult_eq_skip {missing missing' : Bool} {res : Except ResolveError Tribool}
    (h : matchSegmentResult missing res = .ok (.skip missing')) :
    res = .error .unrecognizedRule ∧ missing = missing' := by
  rcases res with e | t'
  · cases e <;> cases h
    exact ⟨rfl, rfl⟩
  · cases h

theorem matchSegmentResult_ne_sticky {missing : Bool} {assignment : Assignment}
    {res : Except ResolveError Tribool} :
    matchSegmentResult missing res ≠ .ok (.sticky assignment u) := by
  rcases res with e | t'
  · cases e <;> exact fun h => by cases h
  · exact fun h => by cases h

section Modes

variable (ha : a ∈ r.state.segments.values)
include ha

theorem segmentMatch_yields_discovery : Yields .discovery (r.segmentMatch unit a)
    (r.segmentMatch unit a .discovery).1 (r.segmentMatch unit a .discovery).2.asked :=
  (segmentMatch_built (Scope.all r unit) ha).yields_discovery

theorem segmentMatch_yields_complete (records : List MaterializationRecord) :
    Yields (.complete records) (r.segmentMatch unit a)
      (r.segmentMatch unit a (.complete records)).1 ∅ :=
  (segmentMatch_built (Scope.all r unit) ha).yields_complete records

theorem targetingMatchFresh_yields_complete (records : List MaterializationRecord) :
    Yields (.complete records) (r.targetingMatchFresh unit a)
      (r.targetingMatchFresh unit a (.complete records)).1 ∅ :=
  (targetingMatchFresh_built (Scope.all r unit) ha).yields_complete records

/-- What a first pass yields for a rule. -/
theorem matchRule_discovery_cases {res : Except ResolveError RuleMatch}
    (h : Yields .discovery (r.matchRule rule a spec unit) res A) :
    (rule.reads = none ∧ res = matchSegmentResult false (r.segmentMatch unit a .discovery).1 ∧
      A = (r.segmentMatch unit a .discovery).2.asked) ∨
    (∃ m mode, rule.reads = some (m, mode) ∧ unit = none ∧ res = .ok (.skip false) ∧ A = ∅) ∨
    (∃ m mode u, rule.reads = some (m, mode) ∧ unit = some u ∧
      res = matchSegmentResult true (r.segmentMatch unit a .discovery).1 ∧
      A = {(u, m, rule.name)} ∪ (r.segmentMatch unit a .discovery).2.asked) := by
  rcases hr : rule.reads with _ | ⟨m, mode⟩
  · rw [matchRule_of_not_reads hr] at h
    obtain ⟨h₁, h₂⟩ := h.unique (matchSegment_yields false (segmentMatch_yields_discovery ha))
    exact .inl ⟨rfl, h₁, h₂⟩
  · rcases unit with _ | u
    · rw [matchRule_of_no_unit hr] at h
      obtain ⟨h₁, h₂⟩ := h.unique (Yields.pure _ _)
      exact .inr (.inl ⟨m, mode, rfl, rfl, h₁, h₂⟩)
    · obtain ⟨h₁, h₂⟩ := h.unique
        (matchRule_yields_discovery hr (segmentMatch_yields_discovery ha))
      exact .inr (.inr ⟨m, mode, u, rfl, rfl, h₁, h₂⟩)

/-- **A decided match is final.** -/
theorem matchRule_refines {t : Bool}
    (h : Yields .discovery (r.matchRule rule a spec unit) (.ok (.segment (some t) false)) A)
    (records : List MaterializationRecord) :
    Yields (.complete records) (r.matchRule rule a spec unit)
      (.ok (.segment (some t) false)) ∅ := by
  rcases matchRule_discovery_cases ha h with ⟨hr, hres, -⟩ | ⟨m, mode, -, -, hres, -⟩ |
      ⟨m, mode, u, -, -, hres, -⟩
  · obtain ⟨hs, -⟩ := matchSegmentResult_eq_segment hres.symm
    have href := (segmentMatch_built (Scope.all r unit) ha).refines (s := .discovery)
      (t := .complete records) rfl ⟨records, rfl⟩
    rw [hs] at href
    rw [matchRule_of_not_reads hr]
    have hs : Yields _ (r.segmentMatch unit a) _ ∅ := segmentMatch_yields_complete ha records
    have := matchSegment_yields false hs
    rw [href] at this
    exact this
  · cases hres
  · exact absurd (matchSegmentResult_eq_segment hres.symm).2 (by simp)

/-- **A rule skipped without a question is skipped with every set of records.** -/
theorem matchRule_quiet {missing : Bool}
    (h : Yields .discovery (r.matchRule rule a spec unit) (.ok (.skip missing)) ∅)
    (records : List MaterializationRecord) :
    missing = false ∧
      Yields (.complete records) (r.matchRule rule a spec unit) (.ok (.skip false)) ∅ := by
  rcases matchRule_discovery_cases ha h with ⟨hr, hres, hA⟩ | ⟨m, mode, hr, rfl, hres, -⟩ |
      ⟨m, mode, u, -, -, -, hA⟩
  · obtain ⟨hs, rfl⟩ := matchSegmentResult_eq_skip hres.symm
    have hq := (segmentMatch_built (Scope.all r unit) ha).quiet (s := .discovery)
      (t := .complete records) rfl ⟨records, rfl⟩ hA.symm
    rw [hs] at hq
    rw [matchRule_of_not_reads hr]
    have hs : Yields _ (r.segmentMatch unit a) _ ∅ := segmentMatch_yields_complete ha records
    have := matchSegment_yields false hs
    rw [hq] at this
    exact ⟨rfl, this⟩
  · cases hres
    rw [matchRule_of_no_unit hr]
    exact ⟨rfl, Yields.pure _ _⟩
  · rw [Set.singleton_union] at hA
    exact absurd hA.symm (Set.insert_nonempty _ _).ne_empty

/-- What a pass with records yields for a rule. -/
theorem matchRule_complete_cases {R : List MaterializationRecord}
    {res : Except ResolveError RuleMatch}
    (h : Yields (.complete R) (r.matchRule rule a spec unit) res A) :
    A = ∅ ∧
    ((rule.reads = none ∧
      res = matchSegmentResult false (r.segmentMatch unit a (.complete R)).1) ∨
    (∃ m mode, rule.reads = some (m, mode) ∧ unit = none ∧ res = .ok (.skip false)) ∨
    (∃ m mode u, rule.reads = some (m, mode) ∧ unit = some u ∧
      findRecord R u m rule.name = none ∧
      res = if mode.materializationMustMatch then .ok (.skip false)
        else matchSegmentResult false (r.segmentMatch unit a (.complete R)).1) ∨
    (∃ m mode u, rule.reads = some (m, mode) ∧ unit = some u ∧
      (findRecord R u m rule.name).isSome ∧
      res = r.stickyResult R rule spec u m (r.segmentMatch unit a (.complete R)).1
        (stickyTargetingResult mode (r.targetingMatchFresh unit a (.complete R)).1))) := by
  rcases hr : rule.reads with _ | ⟨m, mode⟩
  · rw [matchRule_of_not_reads hr] at h
    obtain ⟨h₁, h₂⟩ := h.unique (matchSegment_yields false (segmentMatch_yields_complete ha R))
    exact ⟨h₂, .inl ⟨rfl, h₁⟩⟩
  · rcases unit with _ | u
    · rw [matchRule_of_no_unit hr] at h
      obtain ⟨h₁, h₂⟩ := h.unique (Yields.pure _ _)
      exact ⟨h₂, .inr (.inl ⟨m, mode, rfl, rfl, h₁⟩)⟩
    · rcases hf : findRecord R u m rule.name with _ | record
      · obtain ⟨h₁, h₂⟩ :=
          h.unique (matchRule_yields_absent hr hf (segmentMatch_yields_complete ha R))
        exact ⟨h₂, .inr (.inr (.inl ⟨m, mode, u, rfl, rfl, hf, h₁⟩))⟩
      · obtain ⟨h₁, h₂⟩ := h.unique (matchRule_yields_present hr (by rw [hf]; rfl)
          (targetingMatchFresh_yields_complete ha R) (segmentMatch_yields_complete ha R))
        exact ⟨h₂, .inr (.inr (.inr ⟨m, mode, u, rfl, rfl, by rw [hf]; rfl, h₁⟩))⟩

/-- A pass with records misses no materialization. -/
theorem matchRule_complete_known {R : List MaterializationRecord} {mt : RuleMatch}
    (h : Yields (.complete R) (r.matchRule rule a spec unit) (.ok mt) A) :
    (∃ assignment u, mt = .sticky assignment u) ∨ mt = .skip false ∨
      ∃ t, mt = .segment (some t) false := by
  -- with complete records the segment is decided, or an unrecognized rule in it skips this one
  have hseg : .ok mt = matchSegmentResult false (r.segmentMatch unit a (.complete R)).1 →
      mt = .skip false ∨ ∃ t, mt = .segment (some t) false := by
    intro h'
    rcases (segmentMatch_built (Scope.all r unit) ha).complete_cases R with
      ⟨t, ht⟩ | ⟨e, -, he⟩
    · rw [ht] at h'
      cases h'
      exact .inr ⟨t, rfl⟩
    · rw [he] at h'
      cases e <;> cases h'
      exact .inl rfl
  rcases (matchRule_complete_cases ha h).2 with ⟨-, hres⟩ | ⟨m, mode, -, -, hres⟩ |
      ⟨m, mode, u, -, -, -, hres⟩ | ⟨m, mode, u, -, -, -, hres⟩
  · exact .inr (hseg hres)
  · cases hres
    exact .inr (.inl rfl)
  · split at hres
    · cases hres
      exact .inr (.inl rfl)
    · exact .inr (hseg hres)
  · rcases ht : stickyTargetingResult mode (r.targetingMatchFresh unit a (.complete R)).1 with
      e | _ | _ | _ | _ <;> rw [ht] at hres
    · cases hres
    · cases hres
      exact .inr (.inl rfl)
    · exact .inr (hseg hres)
    · exact .inr (hseg hres)
    · simp only [stickyResult] at hres
      rcases hsel : selectAssignment r.natives (.complete R) m u rule.name spec.assignments
        rule.segment spec.bucketCount with _ | assignment <;> rw [hsel] at hres <;> cases hres
      · exact .inr (.inr ⟨true, rfl⟩)
      · exact .inl ⟨assignment, u, rfl⟩

end Modes

/-! ### Two sets of records -/

/-- The keys of `A` cover the record of a key: a key without a rule covers every rule. -/
def Covers (A : Set (String × String × String)) (u m k : String) : Prop :=
  (u, m, "") ∈ A ∨ (u, m, k) ∈ A

/-- The two sets of records agree on all records that the keys of `A` cover. -/
def Agree (A : Set (String × String × String)) (R R' : List MaterializationRecord) : Prop :=
  ∀ u m k, Covers A u m k → findRecord R u m k = findRecord R' u m k

theorem Agree.mono {A' : Set (String × String × String)} {R R' : List MaterializationRecord}
    (h : Agree A' R R') (hA : A ⊆ A') : Agree A R R' :=
  fun u m k hk => h u m k (hk.imp (hA ·) (hA ·))

theorem isIncluded_eq_true {R : List MaterializationRecord} {u m : String} :
    isIncluded R u m = true ↔ ∃ k, (findRecord R u m k).isSome := by
  simp only [isIncluded, List.any_eq_true, Bool.and_eq_true, decide_eq_true_eq]
  constructor
  · rintro ⟨q, hq, rfl, rfl⟩
    exact ⟨q.rule, List.find?_isSome.mpr ⟨q, hq, MaterializationRecord.isFor_iff.mpr rfl⟩⟩
  · rintro ⟨k, hk⟩
    obtain ⟨q, hq, h⟩ := List.find?_isSome.mp hk
    have := MaterializationRecord.isFor_iff.mp h
    simp only [MaterializationRecord.key, Prod.mk.injEq] at this
    exact ⟨q, hq, this.1, this.2.1⟩

theorem Agree.isIncluded {R R' : List MaterializationRecord} (h : Agree A R R')
    (hk : (u, m, "") ∈ A) : isIncluded R u m = isIncluded R' u m := by
  rw [Bool.eq_iff_iff, isIncluded_eq_true, isIncluded_eq_true]
  simp only [h u m _ (.inl hk)]

/-- The two sets of records agree on who is included in the materializations that `A` asks for. -/
def AgreeIncluded (A : Set (String × String × String)) (R R' : List MaterializationRecord) : Prop :=
  ∀ u m, (u, m, "") ∈ A → isIncluded R u m = isIncluded R' u m

theorem AgreeIncluded.mono {A' : Set (String × String × String)} {R R' : List MaterializationRecord}
    (h : AgreeIncluded A' R R') (hA : A ⊆ A') : AgreeIncluded A R R' :=
  fun u m hk => h u m (hA hk)

/-- A test whose questions were asked for has one result on records that agree on the answers. -/
theorem Built.observes_included {S : Set (String × String)} {E : Set ResolveError}
    {y : ResolveM Tribool} (hy : Built materializationOracle S E y)
    {R R' : List MaterializationRecord} {t : Tribool} (ht : (y .discovery).1 = .ok t)
    (h : AgreeIncluded (y .discovery).2.asked R R') :
    Observes {.complete R, .complete R'} E y := by
  have he : (y (.complete R)).1 = (y (.complete R')).1 :=
    hy.covered (s := .discovery) rfl ⟨R, rfl⟩ ⟨R', rfl⟩ ht fun k hk => h k.2 k.1 hk
  refine (hy.yields_complete R).observes_pair (he ▸ hy.yields_complete R') fun e h' => ?_
  rcases hy.complete_cases R with ⟨t, hc⟩ | ⟨e', h₁, hc⟩ <;> rw [hc] at h' <;> cases h'
  exact h₁

/-- No attribute criterion of the state fails to evaluate on the context. -/
def AttributesEvaluate (r : AccountResolver) : Prop :=
  ∀ a ∈ r.state.segments.values, ∀ t id c, a.targeting = some t →
    t.criteria.lookup id = some (some (.attribute c)) →
    ∃ matched, evaluateAttribute r.natives c (r.getAttributeValue c.attributeName) = .ok matched

/-- Where the attributes evaluate, a segment's match fails only on the account's name or on an
empty bloom filter. -/
theorem Scope.evaluating (h : r.AttributesEvaluate) (unit : Option String) :
    Scope r unit {a | a ∈ r.state.segments.values} Set.univ
      {e | e = .panic ∨ e = .internal .accountSalt} where
  mem h := h
  closed _ h := h.mem
  fails ha ht hc he := by
    obtain ⟨matched, hm⟩ := h _ ha _ _ _ ht hc
    rw [hm] at he
    cases he
  asks _ _ _ _ _ := trivial
  panic := .inl rfl
  salt := .inr rfl

theorem matchSegmentResult_ok_of_evaluating (h : r.AttributesEvaluate)
    (ha : a ∈ r.state.segments.values) {missing : Bool} {mt : RuleMatch}
    (hm : matchSegmentResult missing (r.segmentMatch unit a .discovery).1 = .ok mt) :
    ∃ t, (r.segmentMatch unit a .discovery).1 = .ok t := by
  rcases he : (r.segmentMatch unit a .discovery).1 with e | t
  · rw [he] at hm
    rcases (segmentMatch_built (Scope.evaluating h unit) ha).open_error (s := .discovery) rfl he
      with rfl | rfl <;> cases hm
  · exact ⟨t, rfl⟩

/-- On two sets of records, from what the rule consults: its segment's match, the targeting check,
and its own record. -/
theorem matchRule_pair {R R' : List MaterializationRecord}
    (hs : Observes {.complete R, .complete R'} testErrors (r.segmentMatch unit a))
    (ht : ∀ u, unit = some u →
      Observes {.complete R, .complete R'} testErrors (r.targetingMatchFresh (some u) a))
    (hown : ∀ m mode u, rule.reads = some (m, mode) → unit = some u →
      findRecord R u m rule.name = findRecord R' u m rule.name) :
    Observes {.complete R, .complete R'} matchErrors (r.matchRule rule a spec unit) := by
  refine matchRule_observes hs fun m mode u hm hu => ⟨?_, ht u hu, ?_⟩
  · exact (hasRuleMaterialization_yields_complete R m u rule.name).observes_pair
      (hown m mode u hm hu ▸ hasRuleMaterialization_yields_complete R' m u rule.name)
      fun e h' => by cases h'
  · have hsel : selectAssignment r.natives (.complete R) m u rule.name spec.assignments
        rule.segment spec.bucketCount = selectAssignment r.natives (.complete R') m u
        rule.name spec.assignments rule.segment spec.bucketCount := by
      simp only [selectAssignment, hown m mode u hm hu]
    exact (selectSticky_yields rule spec u m).observes_pair
      (hsel ▸ selectSticky_yields rule spec u m) fun e h' => by cases h'

/-- **What a first pass asks for decides the match.**  References are acyclic, so that the
targeting check of a unit with a record asks nothing that the segment's match does not. -/
theorem matchRule_included (hc : r.state.Acyclic) (he : r.AttributesEvaluate)
    (ha : a ∈ r.state.segments.values) {mt : RuleMatch}
    (h : Yields .discovery (r.matchRule rule a spec unit) (.ok mt) A)
    {R R' : List MaterializationRecord} (hR : AgreeIncluded A R R')
    (hown : ∀ m mode u, rule.reads = some (m, mode) → unit = some u → (u, m, rule.name) ∈ A →
      findRecord R u m rule.name = findRecord R' u m rule.name) :
    Observes {.complete R, .complete R'} matchErrors (r.matchRule rule a spec unit) := by
  -- the segment asks only for inclusions, and on these the two record sets agree
  have hseg : ∀ t, (r.segmentMatch unit a .discovery).1 = .ok t →
      AgreeIncluded (r.segmentMatch unit a .discovery).2.asked R R' →
      Observes {.complete R, .complete R'} testErrors (r.segmentMatch unit a) :=
    fun t ht hA => Built.observes_included (segmentMatch_built (Scope.all r unit) ha) ht hA
  rcases matchRule_discovery_cases ha h with ⟨hr, hres, rfl⟩ | ⟨m, mode, hr, rfl, -, -⟩ |
      ⟨m, mode, u, hr, rfl, hres, rfl⟩
  · obtain ⟨t, ht⟩ := matchSegmentResult_ok_of_evaluating he ha hres.symm
    exact matchRule_observes (hseg t ht hR) fun m mode u hm => by rw [hr] at hm; cases hm
  · exact matchRule_of_no_unit hr ▸ Observes.pure _
  · obtain ⟨t, ht⟩ := matchSegmentResult_ok_of_evaluating he ha hres.symm
    have hR' := hR.mono Set.subset_union_right
    refine matchRule_pair (hseg t ht hR') (fun u' hu => ?_)
      fun m' mode' u' hm hu => hown m' mode' u' hm hu ?_
    · -- the targeting half of the segment's match ran in the first pass
      cases hu
      have hy := targetingMatchFresh_built (Scope.all r (some u)) ha
      rw [segmentMatch_eq_and hc ha] at ht hR'
      rcases Test.and_cases (r.targetingMatchFresh (some u) a) (r.bitsetMatch (some u) a)
          .discovery with ⟨e, s', h₁, h₂⟩ | ⟨s', h₁, h₂⟩ | ⟨t', s', h₁, -, h₂⟩
      · rw [h₂] at ht
        cases ht
      · rw [h₂] at hR'
        exact Built.observes_included hy (by rw [h₁]) (by rw [h₁]; exact hR')
      · refine Built.observes_included hy (by rw [h₁]) (hR'.mono ?_)
        have ho : materializationOracle.Open s' := by
          have := (hy.open_run (s := .discovery) rfl).1
          rw [h₁] at this
          exact this
        have hbit : Built materializationOracle Set.univ testErrors (r.bitsetMatch (some u) a) :=
          bitsetMatch_built (.inr (.inr (.inr rfl))) a
        rw [h₁, h₂]
        exact (hbit.open_run ho).2
    · rw [hr] at hm
      cases hm
      cases hu
      exact .inl rfl

/-- So records that agree on all that it asks for match alike. -/
theorem matchRule_agree (hc : r.state.Acyclic) (he : r.AttributesEvaluate)
    (ha : a ∈ r.state.segments.values) {mt : RuleMatch}
    (h : Yields .discovery (r.matchRule rule a spec unit) (.ok mt) A)
    {R R' : List MaterializationRecord} (hR : Agree A R R') :
    Observes {.complete R, .complete R'} matchErrors (r.matchRule rule a spec unit) :=
  matchRule_included hc he ha h (fun _ _ hk => hR.isIncluded hk)
    fun m _ u _ _ hk => hR u m rule.name (.inr hk)

end AccountResolver

end ConfidenceResolver
