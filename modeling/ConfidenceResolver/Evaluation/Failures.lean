import ConfidenceResolver.Materialization.Frames

/-!
# Evaluation — failures that do not occur

A failure that the segments of a state do not have, and that is none of the errors of the rule loop,
does not occur when a flag is resolved.

* `Foreign`: a failure that only the match of a segment can have.
* `resolveFlag_avoids`: from the segments to the flag.
-/

namespace ConfidenceResolver

/-- The places in the loop over the rules that fail. -/
def ruleSites : List Site :=
  [.zeroBuckets, .variantSalt, .assignedVariant, .stickyVariant, .duplicateWrite]

/-- A failure that is none of the errors of the loop over the rules. -/
structure Foreign (e : ResolveError) : Prop where
  missing : .missingMaterializations ≠ e
  unsupported : .materializationsUnsupported ≠ e
  sites : ∀ site ∈ ruleSites, .internal site ≠ e

theorem foreign_panic : Foreign .panic where
  missing := nofun
  unsupported := nofun
  sites := fun _ _ => nofun

theorem foreign_recursionBound : Foreign (.internal .recursionBound) where
  missing := nofun
  unsupported := nofun
  sites := by decide

variable {e : ResolveError}

theorem Foreign.isUnitInMaterialization (he : Foreign e) (m u : String) :
    Eff.Avoids e (MaterializationContext.isUnitInMaterialization m u) := by
  intro c
  rw [MaterializationContext.isUnitInMaterialization]
  cases c.records with
  | discovery => exact ok_ne_error
  | unsupported => exact fun h => he.unsupported (Except.error.inj h)
  | complete records => exact ok_ne_error

theorem Foreign.hasRuleMaterialization (he : Foreign e) (m u k : String) :
    Eff.Avoids e (MaterializationContext.hasRuleMaterialization m u k) := by
  intro c
  rw [MaterializationContext.hasRuleMaterialization]
  cases c.records with
  | discovery => exact ok_ne_error
  | unsupported => exact fun h => he.unsupported (Except.error.inj h)
  | complete records => exact ok_ne_error

theorem Foreign.addToWrite (he : Foreign e) (u m k v : String) :
    Eff.Avoids e (MaterializationContext.addToWrite u m k v) := by
  intro c
  rw [MaterializationContext.addToWrite]
  split_ifs
  · exact fun h => he.unsupported (Except.error.inj h)
  · exact fun h => he.sites .duplicateWrite (by decide) (Except.error.inj h)
  · exact ok_ne_error

namespace AccountResolver

variable {r : AccountResolver}

theorem recognized_avoids {x : ResolveM Tribool} (hx : Eff.Avoids e x) :
    Eff.Avoids e (recognized x) := by
  intro c
  have hc := hx c
  rw [recognized]
  split
  · exact ok_ne_error
  · exact ok_ne_error
  · next hrun =>
      rw [hrun] at hc
      exact fun h => hc (congrArg Except.error (Except.error.inj h))

/-- The segments of the state do not fail with `e`, from the loop over the rules. -/
def SegmentsAvoid (r : AccountResolver) (e : ResolveError) : Prop :=
  ∀ (unit : Option String), ∀ a ∈ r.state.segments.values,
    Eff.Avoids e (r.segmentMatch unit a) ∧ Eff.Avoids e (r.targetingMatchFresh unit a)

section Rule

variable (he : Foreign e) (hr : r.SegmentsAvoid e)

include hr

theorem matchSegment_avoids {a : Segment} (ha : a ∈ r.state.segments.values)
    (unit : Option String) (missing : Bool) : Eff.Avoids e (r.matchSegment a unit missing) := by
  refine (recognized_avoids (hr unit a ha).1).bind fun t => ?_
  cases t <;> exact .pure _

theorem matchSticky_avoids (rule : Rule) {a : Segment} (ha : a ∈ r.state.segments.values)
    (spec : AssignmentSpec) (unit m : String) (mode : MaterializationReadMode) :
    Eff.Avoids e (r.matchSticky rule a spec unit m mode) := by
  have htargeting : Eff.Avoids e (r.stickyTargeting a unit mode) := by
    rw [stickyTargeting]
    split_ifs
    · exact .pure _
    · exact recognized_avoids (hr (some unit) a ha).2
  refine htargeting.bind fun t => ?_
  rcases t with _ | _ | _ | _
  · exact .pure _
  · exact matchSegment_avoids hr ha _ _
  · exact matchSegment_avoids hr ha _ _
  · intro c
    simp only [selectSticky]
    split <;> exact ok_ne_error

include he

theorem matchRule_avoids (rule : Rule) {a : Segment} (ha : a ∈ r.state.segments.values)
    (spec : AssignmentSpec) (unit : Option String) :
    Eff.Avoids e (r.matchRule rule a spec unit) := by
  rw [matchRule]
  rcases rule.reads with _ | ⟨m, mode⟩
  · exact matchSegment_avoids hr ha _ _
  · rcases unit with _ | u
    · exact .pure _
    · refine (he.hasRuleMaterialization m u rule.name).bind fun t => ?_
      rcases t with _ | _ | _
      · exact matchSegment_avoids hr ha _ _
      · dsimp only
        split
        · exact .pure _
        · exact matchSegment_avoids hr ha _ _
      · exact matchSticky_avoids hr rule ha spec u m mode

omit hr

theorem writeAssignment_avoids (rule : Rule) (unit : Option String) (variantName : String) :
    Eff.Avoids e (writeAssignment rule unit variantName) := by
  rw [writeAssignment.eq_def]
  split
  · exact he.addToWrite _ _ _ _
  · exact .pure _

theorem matchedAssignment_ne (rule : Rule) (spec : AssignmentSpec) (unit : Option String) :
    r.matchedAssignment rule spec unit ≠ .error e := by
  rw [matchedAssignment.eq_def]
  split
  · exact ok_ne_error
  · split
    · exact ok_ne_error
    · split
      · exact fun h => he.sites .variantSalt (by decide) (Except.error.inj h)
      · split
        · exact fun h => he.sites .zeroBuckets (by decide) (Except.error.inj h)
        · exact ok_ne_error

theorem applyAssignment_ne (rule : Rule) (a : Segment) (assignmentId unit : String)
    (assignment : AssignmentKind) (value : ResolvedValue) :
    applyAssignment rule a assignmentId assignment unit value ≠ .error e := by
  rw [applyAssignment.eq_def]
  split
  · exact ok_ne_error
  · exact ok_ne_error
  · split
    · exact ok_ne_error
    · exact fun h => he.sites .assignedVariant (by decide) (Except.error.inj h)

theorem tryWithVariantMatch_ne (rule : Rule) (a : Segment) (assignment : Assignment)
    (unit : String) (value : ResolvedValue) :
    value.tryWithVariantMatch rule a assignment unit ≠ .error e := by
  rw [ResolvedValue.tryWithVariantMatch]
  split
  · split
    · exact ok_ne_error
    · exact fun h => he.sites .stickyVariant (by decide) (Except.error.inj h)
  · exact fun h => he.sites .stickyVariant (by decide) (Except.error.inj h)

theorem assignRule_avoids (rule : Rule) (a : Segment) (spec : AssignmentSpec)
    (unit : Option String) (value : ResolvedValue) :
    Eff.Avoids e (r.assignRule rule a spec unit value) := by
  refine Eff.Avoids.bind (.lift (matchedAssignment_ne he rule spec unit)) fun assigned => ?_
  split
  · exact (writeAssignment_avoids he _ _ _).bind fun _ =>
      .lift (applyAssignment_ne he _ _ _ _ _ _)
  · exact .pure _

theorem afterMatch_avoids (rule : Rule) (a : Segment) (spec : AssignmentSpec)
    (unit : Option String) (hasMissing : Bool) (value : ResolvedValue) (m : RuleMatch) :
    Eff.Avoids e (r.afterMatch rule a spec unit hasMissing value m) := by
  rcases m with ⟨assignment, u⟩ | missing | ⟨_ | _ | _, missing⟩
  · refine .lift fun h => ?_
    have hne := tryWithVariantMatch_ne he rule a assignment u value
    rcases htry : value.tryWithVariantMatch rule a assignment u with e' | v <;> rw [htry] at h hne
    · exact hne (congrArg Except.error (Except.error.inj h))
    · exact absurd h ok_ne_error
  · exact .pure _
  · exact .pure _
  · exact .pure _
  · rw [afterMatch]
    split_ifs
    · exact .pure _
    · exact assignRule_avoids he rule a spec unit value

include hr

theorem resolveRule_avoids (rule : Rule) (hasMissing : Bool) (value : ResolvedValue) :
    Eff.Avoids e (r.resolveRule rule hasMissing value) := by
  rw [resolveRule]
  cases hguard : r.ruleGuard rule with
  | skip => exact .pure _
  | targetingKeyError => exact .pure _
  | go a spec unit =>
      exact (matchRule_avoids he hr rule (ruleGuard_mem hguard) spec unit).bind fun m =>
        afterMatch_avoids he rule a spec unit hasMissing value m

theorem resolveRules_avoids (rules : List Rule) : ∀ (hasMissing : Bool) (value : ResolvedValue),
    Eff.Avoids e (r.resolveRules rules hasMissing value) := by
  induction rules with
  | nil =>
      rintro (_ | _) value
      · exact .pure _
      · exact .throw he.missing
  | cons rule rules ih =>
      intro hasMissing value
      refine (resolveRule_avoids he hr rule hasMissing value).bind fun p => ?_
      cases p with
      | next hasMissing value => exact ih hasMissing value
      | done value => exact .pure _

/-- **A flag**: what its segments avoid, it avoids. -/
theorem resolveFlag_avoids (flag : Flag) : Eff.Avoids e (r.resolveFlag flag) := by
  have hinternal : Eff.Avoids e (r.resolveFlagInternal flag) := by
    rw [resolveFlagInternal]
    split_ifs
    · exact .pure _
    · exact resolveRules_avoids he hr flag.rules false _
  intro c
  have hc := hinternal c
  rw [resolveFlag]
  split
  · exact ok_ne_error
  · exact ok_ne_error
  · exact hc

end Rule

end AccountResolver

end ConfidenceResolver
