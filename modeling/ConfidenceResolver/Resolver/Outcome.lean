import ConfidenceResolver.Resolver.Resolve

/-!
# Resolver — what a flag resolves to

The loop over a flag's rules starts with a value of which no rule has matched, and notes
fallthrough assignments in it; it ends with that value, with a match, or with a reason.

* `Outcome`: the values that a flag resolves to.
* `resolveFlag_outcome`: every result of `resolve_flag` is one.
* `resolveEach_names`: the results of a pass, each under its flag's name.
-/

namespace ConfidenceResolver

open Eff

/-- The value of a flag of which no rule has matched; `falls` are the fallthrough assignments noted
so far. -/
def ResolvedValue.unmatched (flag : Flag) (falls : List FallthroughAssignment) : ResolvedValue :=
  ⟨flag, { flag := flag.name, reason := .noSegmentMatch, fallthroughAssignments := falls }⟩

/-- The values that a flag resolves to. -/
inductive Outcome (flag : Flag) : ResolvedValue → Prop where
  | unmatched (falls : List FallthroughAssignment) : Outcome flag (.unmatched flag falls)
  | keyError (falls : List FallthroughAssignment) :
    Outcome flag ((ResolvedValue.unmatched flag falls).error .targetingKeyError)
  | clientDefault (falls : List FallthroughAssignment) (rule : Rule) (segment : Segment)
      (assignmentId unit : String) :
    Outcome flag
      ((ResolvedValue.unmatched flag falls).withClientDefaultMatch rule segment assignmentId unit)
  | variant (falls : List FallthroughAssignment) (rule : Rule) (segment : Segment)
      (variant : Variant) (assignmentId unit : String) (h : variant ∈ flag.variants) :
    Outcome flag
      ((ResolvedValue.unmatched flag falls).withVariantMatch rule segment variant assignmentId unit)
  | failed (reason : ResolveReason)
      (h : reason ∈ [ResolveReason.flagArchived, .materializationNotSupported,
        .unrecognizedTargetingRule]) :
    Outcome flag ((ResolvedValue.new flag).error reason)

theorem Outcome.flag_eq {flag : Flag} {value : ResolvedValue} (h : Outcome flag value) :
    value.flag = flag ∧ value.inner.flag = flag.name := by
  cases h <;> exact ⟨rfl, rfl⟩

/-- The state of the loop after a rule. -/
def ProgressOutcome (flag : Flag) : Progress → Prop
  | .next _ value => ∃ falls, value = .unmatched flag falls
  | .done value => Outcome flag value

namespace AccountResolver

variable (r : AccountResolver) {flag : Flag} (falls : List FallthroughAssignment)

theorem tryWithVariantMatch_outcome (rule : Rule) (segment : Segment) (assignment : Assignment)
    (unit : String) (value : ResolvedValue)
    (h : (ResolvedValue.unmatched flag falls).tryWithVariantMatch rule segment assignment unit =
      .ok value) : Outcome flag value := by
  rw [ResolvedValue.tryWithVariantMatch] at h
  rcases hkind : assignment.assignment with _ | ⟨name⟩ | _ | _ <;>
    simp only [hkind, reduceCtorEq] at h
  rcases hfind : (ResolvedValue.unmatched flag falls).flag.variants.find? fun v => v.name = name
    with _ | variant <;> rw [hfind] at h
  · cases h
  · cases h
    exact .variant falls rule segment variant _ unit (List.mem_of_find?_eq_some hfind)

theorem applyAssignment_outcome (rule : Rule) (segment : Segment) (assignmentId unit : String)
    (assignment : AssignmentKind) (p : Progress)
    (h : applyAssignment rule segment assignmentId assignment unit (.unmatched flag falls) = .ok p) :
    ProgressOutcome flag p := by
  cases assignment with
  | fallthrough =>
      cases h
      exact ⟨_, rfl⟩
  | clientDefault =>
      cases h
      exact .clientDefault falls rule segment assignmentId unit
  | variant name =>
      rw [applyAssignment] at h
      rcases hfind : (ResolvedValue.unmatched flag falls).flag.variants.find? fun v => v.name = name
        with _ | variant <;> rw [hfind] at h
      · cases h
      · cases h
        exact .variant falls rule segment variant assignmentId unit
          (List.mem_of_find?_eq_some hfind)

theorem assignRule_outcome (rule : Rule) (segment : Segment) (spec : AssignmentSpec)
    (unit : Option String) :
    Returns (ProgressOutcome flag) (r.assignRule rule segment spec unit (.unmatched flag falls)) := by
  refine (returns_true _).bind fun assignment _ => ?_
  rcases assignment with _ | ⟨assignmentId, _ | assignment, ranges⟩
  · exact .pure ⟨falls, rfl⟩
  · exact .pure ⟨falls, rfl⟩
  · exact (returns_true _).bind fun _ _ => .lift fun p h =>
      applyAssignment_outcome falls rule segment assignmentId _ assignment p h

theorem afterMatch_outcome (rule : Rule) (segment : Segment) (spec : AssignmentSpec)
    (unit : Option String) (hasMissing : Bool) (m : RuleMatch) :
    Returns (ProgressOutcome flag)
      (r.afterMatch rule segment spec unit hasMissing (.unmatched flag falls) m) := by
  rcases m with ⟨assignment, u⟩ | missing | ⟨_ | _ | _, missing⟩
  · refine .lift fun p h => ?_
    rcases htry : (ResolvedValue.unmatched flag falls).tryWithVariantMatch rule segment assignment u
      with e | value <;> rw [htry] at h
    · cases h
    · cases h
      exact tryWithVariantMatch_outcome falls rule segment assignment u value htry
  · exact .pure ⟨falls, rfl⟩
  · exact .pure ⟨falls, rfl⟩
  · exact .pure ⟨falls, rfl⟩
  · rw [afterMatch]
    by_cases hmissing : (hasMissing || missing) = true
    · rw [if_pos hmissing]
      exact .pure ⟨falls, rfl⟩
    · rw [if_neg hmissing]
      exact r.assignRule_outcome falls rule segment spec unit

/-- **One rule**. -/
theorem resolveRule_outcome (rule : Rule) (hasMissing : Bool) :
    Returns (ProgressOutcome flag) (r.resolveRule rule hasMissing (.unmatched flag falls)) := by
  rw [resolveRule]
  cases r.ruleGuard rule with
  | skip => exact .pure ⟨falls, rfl⟩
  | targetingKeyError => exact .pure (.keyError falls)
  | go segment spec unit =>
      exact (returns_true _).bind fun m _ => r.afterMatch_outcome falls rule segment spec unit _ m

/-- **The loop** over the rules. -/
theorem resolveRules_outcome (rules : List Rule) :
    ∀ (hasMissing : Bool) (falls : List FallthroughAssignment),
      Returns (Outcome flag) (r.resolveRules rules hasMissing (.unmatched flag falls)) := by
  induction rules with
  | nil =>
      intro hasMissing falls
      cases hasMissing
      · exact .pure (.unmatched falls)
      · exact returns_throw _
  | cons rule rules ih =>
      intro hasMissing falls
      refine (r.resolveRule_outcome falls rule hasMissing).bind fun p hp => ?_
      cases p with
      | next hasMissing value =>
          obtain ⟨falls, rfl⟩ := hp
          exact ih hasMissing falls
      | done value => exact .pure hp

/-- **Every result** of `resolve_flag` is an outcome. -/
theorem resolveFlag_outcome (flag : Flag) : Returns (Outcome flag) (r.resolveFlag flag) := by
  have hinternal : Returns (Outcome flag) (r.resolveFlagInternal flag) := by
    rw [resolveFlagInternal]
    by_cases harchived : flag.state = .archived
    · rw [if_pos harchived]
      exact .pure (.failed _ (by simp))
    · rw [if_neg harchived]
      exact r.resolveRules_outcome flag.rules false []
  intro c value c' h
  rw [resolveFlag] at h
  rcases hrun : r.resolveFlagInternal flag c with ⟨e | v, c₁⟩ <;> rw [hrun] at h
  · cases e <;> cases h
    · exact .failed _ (by simp)
    · exact .failed _ (by simp)
  · cases h
    exact hinternal c value c' hrun

/-- **A pass**: the results, each under its flag's name, in the order of the flags. -/
theorem resolveEach_names (flags : List Flag) :
    Returns (fun assigned => (assigned.map (·.flag)).Sublist (flags.map Flag.name))
      (r.resolveEach flags) := by
  induction flags with
  | nil => exact .pure (.refl _)
  | cons flag flags ih =>
      intro c assigned c' h
      simp only [resolveEach] at h
      rcases hrun : r.resolveFlag flag c with ⟨e | value, c₁⟩ <;> rw [hrun] at h
      · cases e <;> try cases h
        exact (ih c₁ assigned c' h).cons _
      · have hname := (r.resolveFlag_outcome flag c value c₁ hrun).flag_eq.2
        obtain ⟨rest, c₂, hrest, hcons⟩ := bind_ok_inv h
        cases hcons
        rw [List.map_cons, List.map_cons, hname]
        exact (ih c₁ rest c' hrest).cons_cons _

end AccountResolver

end ConfidenceResolver
