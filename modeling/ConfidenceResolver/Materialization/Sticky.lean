import ConfidenceResolver.Materialization.SuspendResume

/-!
# Materialization — the stored variant of a unit

A rule that reads a materialization gives a unit its stored variant.  Where several of the rule's
assignments are of that variant, the unit's bucket picks one of them; where it picks none, the
rule falls back to the assignment of the bucket.

* `selectAssignment_eq`: the assignment that a record selects.
* `sticky_iff`: when exactly the flag resolves to the stored variant.
* `stored_variant_dropped`: two assignments of the variant without a range do not keep it.
-/

namespace ConfidenceResolver

namespace AccountResolver

variable {r : AccountResolver} {R : List MaterializationRecord} {b : MaterializationRecords}
  {rule : Rule} {a : Segment} {spec : AssignmentSpec} {unit : Option String} {u m v : String}
  {q : MaterializationRecord}

/-! ### Buckets -/

/-- The bucket of a unit among those of a rule. -/
def unitBucket (r : AccountResolver) (rule : Rule) (spec : AssignmentSpec) (u : String) :
    Option Int :=
  (bucketKey rule.segment u).bind fun key =>
    (bucket (r.natives.murmur3 key) (asU64 spec.bucketCount)).map fun b => asI32 b

/-- The assignment of a unit, where the rule is no full rollout. -/
theorem matchedAssignment_eq (r : AccountResolver) (rule : Rule) (u : String)
    (hfull : hasOnlyOneFullVariant spec = false) :
    (∃ b, r.unitBucket rule spec u = some b ∧
      r.matchedAssignment rule spec (some u) = .ok (spec.assignments.find? (·.covers b))) ∨
    (r.unitBucket rule spec u = none ∧
      ∃ e, r.matchedAssignment rule spec (some u) = .error e) := by
  simp only [matchedAssignment, unitBucket, hfull, Bool.false_eq_true, if_false]
  rcases bucketKey rule.segment u with _ | key
  · exact .inr ⟨rfl, _, rfl⟩
  · rcases hb : bucket (r.natives.murmur3 key) (asU64 spec.bucketCount) with _ | b
    · simp only [Option.bind_some, hb]
      exact .inr ⟨rfl, _, rfl⟩
    · simp only [Option.bind_some, hb]
      exact .inl ⟨_, rfl, rfl⟩

/-- **The assignment that a record selects.** -/
theorem selectAssignment_eq (hq : findRecord R u m rule.name = some q) :
    selectAssignment r.natives (.complete R) m u rule.name spec.assignments rule.segment
      spec.bucketCount =
      if q.variant = "" then none
      else if (spec.assignments.filter (·.isVariant q.variant)).length ≤ 1 then
        (spec.assignments.filter (·.isVariant q.variant)).head?
      else (r.unitBucket rule spec u).bind fun b =>
        spec.assignments.find? fun a => a.isVariant q.variant && a.covers b := by
  by_cases hv : q.variant = ""
  · simp [selectAssignment, hq, hv]
  · by_cases hlen : (spec.assignments.filter (·.isVariant q.variant)).length ≤ 1
    · simp [selectAssignment, hq, hv, hlen]
    · simp only [selectAssignment, hq, hv, hlen, unitBucket, Option.bind_eq_bind, Option.bind_some,
        if_false]
      rcases bucketKey rule.segment u with _ | key
      · rfl
      · rcases hb : bucket (r.natives.murmur3 key) (asU64 spec.bucketCount) with _ | b
        · simp [hb]
        · simp [hb]

/-- A full rollout has one assignment. -/
theorem hasOnlyOneFullVariant_length (h : hasOnlyOneFullVariant spec = true) :
    ∃ x, spec.assignments = [x] := by
  rcases hs : spec.assignments with _ | ⟨x, _ | ⟨y, ys⟩⟩
  · simp [hasOnlyOneFullVariant, hs] at h
  · exact ⟨x, rfl⟩
  · simp [hasOnlyOneFullVariant, hs] at h

/-- The first element with a property, if it has another one too. -/
theorem find?_and {α : Type} {xs : List α} {x : α} {f g : α → Bool} (h : xs.find? g = some x)
    (hf : f x = true) : (xs.find? fun y => f y && g y) = some x := by
  obtain ⟨hg, as, bs, rfl, has⟩ := List.find?_eq_some_iff_append.mp h
  refine List.find?_eq_some_iff_append.mpr ⟨by simp [hf, hg], as, bs, rfl, fun y hy => ?_⟩
  simp only [Bool.not_eq_true', Bool.and_eq_false_iff]
  exact .inr (by simpa using has y hy)

theorem isVariant_iff {x : Assignment} : x.isVariant v = true ↔ x.assignment = some (.variant v) := by
  simp [Assignment.isVariant]

/-! ### Runs that go on -/

/-- A rule that goes on sets no variant. -/
theorem resolveRule_next_variant (hb : b ≠ .unsupported) {hasMissing m' : Bool}
    {value v' : ResolvedValue} {W : List MaterializationRecord}
    {A : Set (String × String × String)}
    (h : Does b (r.resolveRule rule hasMissing value) (.next m' v') W A) :
    v'.inner.variant = value.inner.variant := by
  rcases hg : r.ruleGuard rule with _ | _ | ⟨a, spec, unit⟩ <;> rw [resolveRule, hg] at h
  · obtain ⟨h, -⟩ := does_pure h
    cases h
    rfl
  · obtain ⟨h, -⟩ := does_pure h
    cases h
  · obtain ⟨mt, -, hd⟩ := resolveMatched_does_inv hb (ruleGuard_mem hg) h
    rcases mt with ⟨assignment, u⟩ | missing | ⟨_ | _ | _, missing⟩
    · obtain ⟨hv, -⟩ := does_lift hd
      rcases hw : value.tryWithVariantMatch rule a assignment u with e | w <;> rw [hw] at hv <;>
        cases hv
    · obtain ⟨h, -⟩ := does_pure hd
      cases h
      rfl
    · obtain ⟨h, -⟩ := does_pure hd
      cases h
      rfl
    · obtain ⟨h, -⟩ := does_pure hd
      cases h
      rfl
    · rw [afterMatch] at hd
      split at hd
      · obtain ⟨h, -⟩ := does_pure hd
        cases h
        rfl
      · rcases (assignRule_inv hb hd).2 with ⟨h, -⟩ | ⟨id, kind, ranges, -, hk, -⟩
        · cases h
          rfl
        · -- of the assignments only a fallthrough goes on, and it leaves the variant as it is
          rcases kind with w | _ | _
          · simp only [applyAssignment] at hk
            split at hk <;> cases hk
          · cases hk
            rfl
          · cases hk

theorem runRules_next_variant (hb : b ≠ .unsupported) {rules : List Rule} :
    ∀ {hasMissing m' : Bool} {value v' : ResolvedValue} {W : List MaterializationRecord}
      {A : Set (String × String × String)},
      Does b (r.runRules rules hasMissing value) (.next m' v') W A →
      v'.inner.variant = value.inner.variant := by
  induction rules with
  | nil =>
      intro hasMissing m' value v' W A h
      obtain ⟨h, -⟩ := does_pure h
      cases h
      rfl
  | cons rule rules ih =>
      intro hasMissing m' value v' W A h
      obtain ⟨p₁, W₁, A₁, W₂, A₂, h₁, h₂, -⟩ := runRules_does_inv hb h
      rcases p₁ with ⟨m₁, v₁⟩ | v₁
      · exact (ih h₂).trans (resolveRule_next_variant hb h₁)
      · obtain ⟨h, -⟩ := does_pure h₂
        cases h

/-- When the assignment of a matched rule ends the flag, and with what. -/
theorem assignRule_done_iff (hb : b ≠ .unsupported) (rule : Rule) (a : Segment)
    (spec : AssignmentSpec) (unit : Option String) (value val : ResolvedValue)
    {c : MaterializationContext} (hc : c.records = b) :
    (∃ c', r.assignRule rule a spec unit value c = (.ok (.done val), c')) ↔
      ∃ id kind ranges, r.matchedAssignment rule spec unit = .ok (some ⟨id, some kind, ranges⟩) ∧
        applyAssignment rule a id kind (unit.getD "") value = .ok (.done val) ∧
        NoClash c.toWrite (rule.writesFor unit kind.variantName) := by
  constructor
  · rintro ⟨c', h⟩
    obtain ⟨W, A, hd, hn, -⟩ := Framed.does_of_ok
      (assignRule_framed (fun h => hb h.symm) rule a spec unit value) hc h
    rcases (assignRule_inv hb hd).2 with ⟨h, -⟩ | ⟨id, kind, ranges, hm, hk, rfl⟩
    · cases h
    · exact ⟨id, kind, ranges, hm, hk, hn⟩
  · rintro ⟨id, kind, ranges, hm, hk, hn⟩
    obtain ⟨c', h₁, -⟩ := (writeAssignment_does hb rule unit kind.variantName c hc).1 hn
    refine ⟨c', ?_⟩
    rw [assignRule, hm]
    refine (Eff.bind_of_ok (Eff.lift_apply _ c)).trans ((Eff.bind_of_ok h₁).trans ?_)
    rw [hk]
    rfl

/-- A run goes on behind the rules that went on. -/
theorem runRules_append {rules rules' : List Rule} :
    ∀ {hasMissing m' : Bool} {value v' : ResolvedValue} {c c' : MaterializationContext},
      r.runRules rules hasMissing value c = (.ok (.next m' v'), c') →
      r.runRules (rules ++ rules') hasMissing value c = r.runRules rules' m' v' c' := by
  induction rules with
  | nil =>
      intro hasMissing m' value v' c c' h
      cases h
      rfl
  | cons rule rules ih =>
      intro hasMissing m' value v' c c' h
      obtain ⟨p, c₁, h₁, h₂⟩ := Eff.bind_ok_inv h
      refine Eq.trans (Eff.bind_of_ok h₁) ?_
      rcases p with ⟨m₁, v₁⟩ | v₁
      · exact ih h₂
      · cases h₂

/-! ### The stored variant -/

/-- In a pass from `c` the flag resolves to the variant `v` by the rule, to which the pass comes
with `c₁` and `value`. -/
def ResolvesBy (r : AccountResolver) (flag : Flag) (rule : Rule) (value : ResolvedValue)
    (c c₁ : MaterializationContext) (v : String) : Prop :=
  ∃ val c', r.resolveRule rule false value c₁ = (.ok (.done val), c') ∧
    r.resolveFlag flag c = (.ok val, c') ∧
    val.inner.reason = .match ∧ val.inner.rule = rule.name ∧ val.inner.variant = v

/-- The unit keeps the stored variant `v`: the rule has one assignment of the variant, or the
unit's bucket is in a range of one of them.  An empty variant stores nothing, and then the unit's
bucket has to give an assignment without a variant, with no write of the pass in the way. -/
def KeepsVariant (r : AccountResolver) (rule : Rule) (spec : AssignmentSpec) (u v : String)
    (w : List MaterializationRecord) : Prop :=
  (v ≠ "" ∧ ((spec.assignments.filter (·.isVariant v)).length = 1 ∨
    ∃ b, r.unitBucket rule spec u = some b ∧
      ∃ x ∈ spec.assignments, x.isVariant v = true ∧ x.covers b = true)) ∨
  (v = "" ∧ ∃ id kind ranges,
    r.matchedAssignment rule spec (some u) = .ok (some ⟨id, some kind, ranges⟩) ∧
      kind ≠ .fallthrough ∧ kind.variantName = "" ∧ NoClash w (rule.writesFor (some u) ""))

/-- A record of a variant selects an assignment of the variant exactly when the variant is kept. -/
theorem select_isSome_iff (hq : findRecord R u m rule.name = some q) (hv : q.variant ≠ "")
    (hass : ∃ x ∈ spec.assignments, x.isVariant q.variant = true)
    (w : List MaterializationRecord) :
    (∃ x, selectAssignment r.natives (.complete R) m u rule.name spec.assignments rule.segment
      spec.bucketCount = some x) ↔ r.KeepsVariant rule spec u q.variant w := by
  rw [selectAssignment_eq hq, if_neg hv]
  simp only [KeepsVariant, hv, ne_eq, not_false_eq_true, true_and, false_and, or_false]
  obtain ⟨x, hx, hxv⟩ := hass
  have hne : x ∈ spec.assignments.filter (·.isVariant q.variant) := List.mem_filter.mpr ⟨hx, hxv⟩
  by_cases hlen : (spec.assignments.filter (·.isVariant q.variant)).length ≤ 1
  · have hpos := List.length_pos_of_mem hne
    simp only [if_pos hlen]
    refine ⟨fun _ => .inl (by omega), fun _ => ?_⟩
    obtain ⟨y, ys, hy⟩ := List.exists_cons_of_length_pos hpos
    exact ⟨y, by rw [hy]; rfl⟩
  · simp only [if_neg hlen]
    constructor
    · rintro ⟨y, hy⟩
      obtain ⟨b, hb, hy⟩ := Option.bind_eq_some_iff.mp hy
      have hp := List.find?_some hy
      rw [Bool.and_eq_true] at hp
      exact .inr ⟨b, hb, y, List.mem_of_find?_eq_some hy, hp.1, hp.2⟩
    · rintro (h | ⟨b, hb, y, hy, hyv, hyc⟩)
      · omega
      · rw [hb, Option.bind_some]
        refine Option.isSome_iff_exists.mp (List.find?_isSome.mpr ⟨y, hy, ?_⟩)
        rw [hyv, hyc]
        rfl

/-- What is selected is an assignment of the variant. -/
theorem select_isVariant (hq : findRecord R u m rule.name = some q) {x : Assignment}
    (h : selectAssignment r.natives (.complete R) m u rule.name spec.assignments rule.segment
      spec.bucketCount = some x) : x.isVariant q.variant = true ∧ q.variant ≠ "" := by
  rw [selectAssignment_eq hq] at h
  by_cases hv : q.variant = ""
  · rw [if_pos hv] at h
    cases h
  · rw [if_neg hv] at h
    refine ⟨?_, hv⟩
    split at h
    · exact (List.mem_filter.mp (List.mem_of_head? h)).2
    · obtain ⟨b, -, h⟩ := Option.bind_eq_some_iff.mp h
      have hp := List.find?_some h
      exact (Bool.and_eq_true_iff.mp hp).1

/-- The rule's match of a unit with a record, where the targeting is ignored. -/
theorem matchRule_of_record (ha : a ∈ r.state.segments.values) (spec : AssignmentSpec)
    {mode : MaterializationReadMode} (hread : rule.reads = some (m, mode))
    (hignored : mode.segmentTargetingCanBeIgnored = true)
    (hq : findRecord R u m rule.name = some q) :
    Yields (.complete R) (r.matchRule rule a spec (some u))
      (.ok ((selectAssignment r.natives (.complete R) m u rule.name spec.assignments rule.segment
        spec.bucketCount).elim (.segment (some true) false) (.sticky · u))) ∅ := by
  have h : Yields (.complete R) (r.matchRule rule a spec (some u)) _ ∅ :=
    matchRule_yields_present hread (by rw [hq]; rfl) (targetingMatchFresh_yields_complete ha R)
      (segmentMatch_yields_complete ha R)
  rw [stickyTargetingResult, if_pos hignored] at h
  exact h

/-- What an assignment of a stored variant resolves to. -/
theorem tryWithVariantMatch_eq (rule : Rule) (a : Segment) (u : String) {value : ResolvedValue}
    {x : Assignment} (hx : x.isVariant v = true) (hv : ∃ w ∈ value.flag.variants, w.name = v) :
    ∃ w, w.name = v ∧ value.tryWithVariantMatch rule a x u =
      .ok (value.withVariantMatch rule a w x.assignmentId u) := by
  obtain ⟨w, hw, hwv⟩ := hv
  rw [ResolvedValue.tryWithVariantMatch, isVariant_iff.mp hx]
  dsimp only
  rcases hfind : value.flag.variants.find? fun w => w.name = v with _ | w'
  · exact absurd hwv (by simpa using List.find?_eq_none.mp hfind w hw)
  · exact ⟨w', by simpa using List.find?_some hfind, by rw [hfind]⟩

/-- **What the rule assigns, its record selects.** -/
theorem select_of_matched (hq : findRecord R u m rule.name = some q) (hv : q.variant ≠ "")
    {x : Assignment} (hm : r.matchedAssignment rule spec (some u) = .ok (some x))
    (hx : x.isVariant q.variant = true) :
    selectAssignment r.natives (.complete R) m u rule.name spec.assignments rule.segment
      spec.bucketCount = some x := by
  rw [selectAssignment_eq hq, if_neg hv]
  by_cases hfull : hasOnlyOneFullVariant spec = true
  · obtain ⟨y, hy⟩ := hasOnlyOneFullVariant_length hfull
    rw [matchedAssignment, if_pos hfull, hy] at hm
    cases hm
    simp [hy, hx]
  · rcases matchedAssignment_eq r rule u (by simpa using hfull) with
      ⟨b, hb, h⟩ | ⟨-, e, h⟩
    · rw [hm] at h
      have hfind : spec.assignments.find? (·.covers b) = some x := by
        injection h with h
        exact h.symm
      have hmem := List.mem_of_find?_eq_some hfind
      by_cases hlen : (spec.assignments.filter (·.isVariant q.variant)).length ≤ 1
      · -- the assignment is the only one of its variant
        rw [if_pos hlen]
        have hxm : x ∈ spec.assignments.filter (·.isVariant q.variant) :=
          List.mem_filter.mpr ⟨hmem, hx⟩
        rcases hf : spec.assignments.filter (·.isVariant q.variant) with _ | ⟨y, _ | ⟨z, zs⟩⟩ <;>
          rw [hf] at hxm hlen
        · cases hxm
        · rw [List.mem_singleton.mp hxm, hf]
          rfl
        · simp at hlen
      · rw [if_neg hlen, hb, Option.bind_some]
        exact find?_and hfind hx
    · rw [hm] at h
      cases h

/-- The value of an assignment that ends a flag. -/
theorem applyAssignment_done {id : String} {kind : AssignmentKind} {value val : ResolvedValue}
    (h : applyAssignment rule a id kind u value = .ok (.done val))
    (hempty : value.inner.variant = "") :
    kind ≠ .fallthrough ∧ val.inner.reason = .match ∧ val.inner.rule = rule.name ∧
      val.inner.variant = kind.variantName := by
  rcases kind with w | _ | _
  · simp only [applyAssignment] at h
    split at h
    · next w' hw =>
        cases h
        have hname : w'.name = w := by simpa using List.find?_some hw
        exact ⟨by simp, rfl, rfl, hname⟩
    · cases h
  · cases h
  · cases h
    exact ⟨by simp, rfl, rfl, hempty⟩

/-- An assignment without a variant name ends the flag, unless it is a fallthrough. -/
theorem applyAssignment_of_empty (rule : Rule) (a : Segment) (u id : String)
    {kind : AssignmentKind} {value : ResolvedValue} (hkind : kind ≠ .fallthrough)
    (hname : kind.variantName = "") (hv : ∃ w ∈ value.flag.variants, w.name = "") :
    ∃ val, applyAssignment rule a id kind u value = .ok (.done val) := by
  rcases kind with w | _ | _
  · obtain rfl : w = "" := hname
    obtain ⟨w, hw, hwv⟩ := hv
    simp only [applyAssignment]
    rcases hfind : value.flag.variants.find? fun w => w.name = "" with _ | w'
    · exact absurd hwv (by simpa using List.find?_eq_none.mp hfind w hw)
    · exact ⟨_, by rw [hfind]⟩
  · exact absurd rfl hkind
  · exact ⟨_, rfl⟩

/-- What a rule ends a flag with is the result of the pass that comes to it. -/
theorem resolvesBy_iff {flag : Flag} {before after : List Rule} {value : ResolvedValue}
    {c c₁ : MaterializationContext} (hf : flag.state ≠ .archived)
    (hrules : flag.rules = before ++ rule :: after)
    (hbefore : r.runRules before false (.new flag) c = (.ok (.next false value), c₁)) :
    r.ResolvesBy flag rule value c c₁ v ↔
      ∃ val c', r.resolveRule rule false value c₁ = (.ok (.done val), c') ∧
        val.inner.reason = .match ∧ val.inner.rule = rule.name ∧ val.inner.variant = v := by
  have hend : ∀ {val c'}, r.resolveRule rule false value c₁ = (.ok (.done val), c') →
      r.resolveFlag flag c = (.ok val, c') := by
    intro val c' h
    refine resolveFlag_of_ok hf (p := .done val) ?_
    rw [runFlag, hrules, runRules_append hbefore]
    exact Eff.bind_of_ok h
  constructor
  · rintro ⟨val, c', h, -, hval⟩
    exact ⟨val, c', h, hval⟩
  · rintro ⟨val, c', h, hval⟩
    exact ⟨val, c', h, hend h, hval⟩

/-- A rule whose unit has a record goes on with what the record selects. -/
theorem resolveRule_of_record {mode : MaterializationReadMode} {c : MaterializationContext}
    (hc : c.records = .complete R) (hg : r.ruleGuard rule = .go a spec (some u))
    (hread : rule.reads = some (m, mode)) (hignored : mode.segmentTargetingCanBeIgnored = true)
    (hq : findRecord R u m rule.name = some q) (value : ResolvedValue) :
    ∃ c', c'.records = .complete R ∧ c'.toWrite = c.toWrite ∧
      r.resolveRule rule false value c = r.afterMatch rule a spec (some u) false value
        ((selectAssignment r.natives (.complete R) m u rule.name spec.assignments rule.segment
          spec.bucketCount).elim (.segment (some true) false) (.sticky · u)) c' := by
  obtain ⟨hrun, hrecords, hwrites, -⟩ :=
    matchRule_of_record (ruleGuard_mem hg) spec hread hignored hq c hc
  refine ⟨_, hrecords, hwrites, ?_⟩
  rw [resolveRule, hg]
  exact Eff.bind_of_ok (Eff.run_eq hrun)

/-- A rule that assigns the unit by its bucket: with an empty variant stored, when it assigns one
without a variant and can write it. -/
theorem assignRule_empty_iff {value : ResolvedValue} {c : MaterializationContext}
    (hc : c.records = .complete R) (hvariant : ∃ w ∈ value.flag.variants, w.name = "")
    (hempty : value.inner.variant = "") :
    (∃ val c', r.assignRule rule a spec (some u) value c = (.ok (.done val), c') ∧
        val.inner.reason = .match ∧ val.inner.rule = rule.name ∧ val.inner.variant = "") ↔
      r.KeepsVariant rule spec u "" c.toWrite := by
  have hdone := fun val => assignRule_done_iff (by simp) rule a spec (some u) value val hc (r := r)
  constructor
  · rintro ⟨val, c', h, -, -, hv⟩
    obtain ⟨id, kind, ranges, hm, hk, hn⟩ := (hdone val).mp ⟨c', h⟩
    obtain ⟨hkind, -, -, hname⟩ := applyAssignment_done hk hempty
    have hnone : kind.variantName = "" := hname.symm.trans hv
    rw [hnone] at hn
    exact .inr ⟨rfl, id, kind, ranges, hm, hkind, hnone, hn⟩
  · rintro (⟨hne, -⟩ | ⟨-, id, kind, ranges, hm, hkind, hname, hn⟩)
    · exact absurd rfl hne
    · obtain ⟨val, hk⟩ := applyAssignment_of_empty rule a u id hkind hname hvariant
      obtain ⟨c', h⟩ := (hdone val).mpr ⟨id, kind, ranges, hm, hk, hname ▸ hn⟩
      obtain ⟨-, hreason, hrule, hv⟩ := applyAssignment_done hk hempty
      exact ⟨val, c', h, hreason, hrule, hv.trans hname⟩

/-- Where the record of a variant selects nothing, the bucket does not assign the variant. -/
theorem assignRule_ne_stored {value : ResolvedValue} {c : MaterializationContext}
    (hc : c.records = .complete R) (hempty : value.inner.variant = "")
    (hq : findRecord R u m rule.name = some q) (hne : q.variant ≠ "")
    (hsel : selectAssignment r.natives (.complete R) m u rule.name spec.assignments rule.segment
      spec.bucketCount = none) {val : ResolvedValue} {c' : MaterializationContext}
    (h : r.assignRule rule a spec (some u) value c = (.ok (.done val), c')) :
    val.inner.variant ≠ q.variant := by
  intro hv
  obtain ⟨id, kind, ranges, hm, hk, -⟩ :=
    (assignRule_done_iff (by simp) rule a spec (some u) value val hc).mp ⟨c', h⟩
  have hname : kind.variantName = q.variant :=
    (applyAssignment_done hk hempty).2.2.2.symm.trans hv
  have hkind : kind = .variant q.variant := by
    rcases kind with w | _ | _
    · exact congrArg AssignmentKind.variant hname
    · exact absurd hname.symm hne
    · exact absurd hname.symm hne
  -- an assignment of the stored variant would have been selected
  have hselected := select_of_matched hq hne hm (isVariant_iff.mpr (congrArg some hkind))
  rw [hsel] at hselected
  cases hselected

/-- **The stored variant of a unit.**  The flag resolves to it by the rule exactly when the unit
keeps it.  So it does not when several assignments are of the variant and the unit's bucket is in
a range of none of them. -/
theorem sticky_iff {flag : Flag} {before after : List Rule} {value : ResolvedValue}
    {hasMissing : Bool} {mode : MaterializationReadMode} {c c₁ : MaterializationContext}
    (hf : flag.state ≠ .archived) (hrules : flag.rules = before ++ rule :: after)
    (hc : c.records = .complete R)
    (hbefore : r.runRules before false (.new flag) c = (.ok (.next hasMissing value), c₁))
    (hg : r.ruleGuard rule = .go a spec (some u)) (hread : rule.reads = some (m, mode))
    (hignored : mode.segmentTargetingCanBeIgnored = true)
    (hq : findRecord R u m rule.name = some q) (hvariant : ∃ w ∈ flag.variants, w.name = q.variant)
    (hass : ∃ x ∈ spec.assignments, x.isVariant q.variant = true) :
    r.ResolvesBy flag rule value c c₁ q.variant ↔
      r.KeepsVariant rule spec u q.variant c₁.toWrite := by
  obtain ⟨W, A, hd, -, hc₁, -⟩ :=
    Framed.does_of_ok (runRules_framed_one (by simp) before false (.new flag)) hc hbefore
  -- with complete records nothing is missing, and the rules before have not set a variant
  obtain rfl : hasMissing = false := by
    have := (runRules_complete hd).2
    rcases hasMissing with _ | _
    · rfl
    · cases this
  have hflag : value.flag = flag := (runRules_flag (by simp) hd).1
  have hempty : value.inner.variant = "" := runRules_next_variant (by simp) hd
  rw [← hflag] at hvariant
  obtain ⟨c₂, hc₂, hwrites, hrule⟩ := resolveRule_of_record hc₁ hg hread hignored hq value
  rw [resolvesBy_iff hf hrules hbefore, hrule, ← hwrites]
  rcases hsel : selectAssignment r.natives (.complete R) m u rule.name spec.assignments
    rule.segment spec.bucketCount with _ | x
  · -- nothing is selected: the rule assigns the unit by its bucket
    simp only [Option.elim_none, afterMatch, Bool.or_self, Bool.false_eq_true, if_false]
    by_cases hne : q.variant = ""
    · rw [hne] at hvariant ⊢
      exact assignRule_empty_iff hc₂ hvariant hempty
    · refine iff_of_false ?_ fun hkeeps => ?_
      · rintro ⟨val, c', h, -, -, hv⟩
        exact assignRule_ne_stored hc₂ hempty hq hne hsel h hv
      · obtain ⟨x, hx⟩ := (select_isSome_iff hq hne hass c₂.toWrite).mpr hkeeps
        rw [hsel] at hx
        cases hx
  · obtain ⟨hxv, hne⟩ := select_isVariant hq hsel
    obtain ⟨w, hw, htry⟩ := tryWithVariantMatch_eq rule a u hxv hvariant
    simp only [Option.elim_some, afterMatch, htry]
    exact ⟨fun _ => (select_isSome_iff hq hne hass c₂.toWrite).mp ⟨x, hsel⟩,
      fun _ => ⟨_, _, rfl, rfl, rfl, hw⟩⟩

end AccountResolver

/-! ### A unit outside the ranges -/

/-- The unit `u` of the segment `s` has the bucket 86 of 100. -/
def Sample.hashing : Natives where
  __ := Sample.natives
  murmur3 key := if key = "s|u" then 0x80fffcaaa3ad997be41e982b14aadaa5 else 0

/-- A rule that reads and writes `m` and ignores the targeting of units with a record. -/
def Sample.keeping (assignments : List Assignment) : Rule where
  __ := Sample.rule "flags/f/rules/1" (.variant "on")
  assignmentSpec := some ⟨100, assignments⟩
  materializationSpec := some
    { readMaterialization := "m", writeMaterialization := "m"
      mode := some { materializationMustMatch := false, segmentTargetingCanBeIgnored := true } }

def Sample.keepingFlag (assignments : List Assignment) : Flag :=
  Sample.flag "flags/f" [Sample.keeping assignments]

def Sample.keepingResolver (assignments : List Assignment) : AccountResolver where
  __ := Sample.resolver [Sample.keepingFlag assignments] [Sample.segment] (by simp)
    Sample.segment_nodup
  natives := Sample.hashing

/-- The unit's record. -/
def Sample.stored : MaterializationRecord := ⟨"u", "m", "flags/f/rules/1", "on"⟩

/-- One assignment of the variant, to a range without the unit's bucket. -/
def Sample.oneRange : List Assignment := [⟨"a", some (.variant "on"), [⟨0, 10⟩]⟩]

/-- Two assignments of the variant, to ranges without the unit's bucket. -/
def Sample.twoRanges : List Assignment :=
  [⟨"a", some (.variant "on"), [⟨0, 10⟩]⟩, ⟨"b", some (.variant "on"), [⟨10, 20⟩]⟩]

theorem sticky_iff_oneRange :
    (Sample.keepingResolver Sample.oneRange).ResolvesBy (Sample.keepingFlag Sample.oneRange)
      (Sample.keeping Sample.oneRange) (.new (Sample.keepingFlag Sample.oneRange))
      (.complete [Sample.stored]) (.complete [Sample.stored]) "on" :=
  (AccountResolver.sticky_iff (R := [Sample.stored]) (q := Sample.stored)
    (show FlagState.active ≠ .archived by decide) (List.nil_append _).symm rfl rfl rfl rfl rfl rfl
    ⟨⟨"on", none⟩, List.mem_cons_self, rfl⟩ ⟨_, List.mem_cons_self, rfl⟩).mpr
    (.inl ⟨by decide, .inl rfl⟩)

/-- **A stored variant is dropped.**  The unit's record stores the variant of two assignments of
the rule; its bucket is in neither range, and the flag has no match. -/
theorem stored_variant_dropped :
    findRecord [Sample.stored] "u" "m" (Sample.keeping Sample.twoRanges).name =
        some Sample.stored ∧
      (Sample.keepingResolver Sample.twoRanges).ruleGuard (Sample.keeping Sample.twoRanges) =
        .go Sample.segment ⟨100, Sample.twoRanges⟩ (some "u") ∧
      (Sample.keeping Sample.twoRanges).reads = some ("m", ⟨false, true⟩) ∧
      (Sample.keepingFlag Sample.twoRanges).variants.map Variant.name = ["on"] ∧
      (∀ x ∈ Sample.twoRanges, x.isVariant "on" = true) ∧
      (Sample.keepingResolver Sample.twoRanges).flagValue (.complete [Sample.stored])
        (Sample.keepingFlag Sample.twoRanges) =
          some { flag := "flags/f", reason := .noSegmentMatch } := by
  refine ⟨?_, rfl, rfl, rfl, ?_, ?_⟩
  · decide
  · decide
  · decide

end ConfidenceResolver
