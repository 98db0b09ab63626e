import ConfidenceResolver.Resolver.Segment

/-!
# Resolver — a flag

The loop over a flag's rules.  A rule is checked (`ruleGuard`), matched against the materialized
record and the segment (`matchRule`), and, when it matches, assigned (`assignRule`).  A rule whose
match is not known yet is passed by, and the flag ends with `missingMaterializations` unless a
later rule returns.
-/

namespace ConfidenceResolver

/-- `TARGETING_KEY`: the selector of a rule that has none. -/
def defaultTargetingKey : String := "targeting_key"

/-! ### Resolved values -/

/-- `ResolvedValue`. -/
structure ResolvedValue where
  flag : Flag
  inner : AssignedFlag

namespace ResolvedValue

/-- `ResolvedValue::new`. -/
def new (flag : Flag) : ResolvedValue :=
  ⟨flag, { flag := flag.name, reason := .noSegmentMatch }⟩

/-- `ResolvedValue::error`. -/
def error (value : ResolvedValue) (reason : ResolveReason) : ResolvedValue :=
  ⟨value.flag, { value.inner with
    reason := reason, variant := "", rule := "", segment := "", assignmentId := "",
    targetingKey := "" }⟩

/-- `attribute_fallthrough_rule`. -/
def attributeFallthroughRule (value : ResolvedValue) (rule : Rule) (assignmentId unit : String) :
    ResolvedValue :=
  ⟨value.flag, { value.inner with
    fallthroughAssignments := value.inner.fallthroughAssignments ++
      [⟨rule.name, assignmentId, unit, rule.targetingKeySelector⟩] }⟩

/-- `with_client_default_match`. -/
def withClientDefaultMatch (value : ResolvedValue) (rule : Rule) (segment : Segment)
    (assignmentId unit : String) : ResolvedValue :=
  ⟨value.flag, { value.inner with
    reason := .match, rule := rule.name, segment := segment.name, assignmentId := assignmentId,
    targetingKey := unit, targetingKeySelector := rule.targetingKeySelector }⟩

/-- `with_variant_match`. -/
def withVariantMatch (value : ResolvedValue) (rule : Rule) (segment : Segment)
    (variant : Variant) (assignmentId unit : String) : ResolvedValue :=
  ⟨value.flag, { value.inner with
    reason := .match, rule := rule.name, segment := segment.name, variant := variant.name,
    assignmentId := assignmentId, targetingKey := unit,
    targetingKeySelector := rule.targetingKeySelector }⟩

/-- `try_with_variant_match`. -/
def tryWithVariantMatch (value : ResolvedValue) (rule : Rule) (segment : Segment)
    (assignment : Assignment) (unit : String) : Except ResolveError ResolvedValue :=
  match assignment.assignment with
  | some (.variant variantName) =>
      match value.flag.variants.find? fun v => v.name = variantName with
      | some variant =>
          .ok (value.withVariantMatch rule segment variant assignment.assignmentId unit)
      | none => .error (.internal .stickyVariant)
  | _ => .error (.internal .stickyVariant)

/-- `should_apply`. -/
def shouldApply (value : ResolvedValue) : Bool :=
  value.inner.reason = .match || !value.inner.fallthroughAssignments.isEmpty

end ResolvedValue

/-! ### The parts of a rule -/

/-- The materialization a rule reads, and how. -/
def Rule.reads (rule : Rule) : Option (String × MaterializationReadMode) :=
  rule.materializationSpec.bind fun spec =>
    if spec.readMaterialization = "" then none
    else some (spec.readMaterialization, spec.mode.getD ⟨false, false⟩)

/-- The materialization a rule writes to: the field's value, also where it is empty. -/
def Rule.writes (rule : Rule) : Option String :=
  rule.materializationSpec.map MaterializationSpec.writeMaterialization

/-- The variant name that is stored for an assignment. -/
def AssignmentKind.variantName : AssignmentKind → String
  | .variant name => name
  | .fallthrough | .clientDefault => ""

/-- What is known about a rule before it is matched: it is passed by, it ends the flag with a
targeting-key error, or it is to be matched. -/
inductive RuleGuard where
  | skip
  | targetingKeyError
  | go (segment : Segment) (spec : AssignmentSpec) (unit : Option String)

/-- How a rule matches.  `missing` is what the rule adds to `has_missing_materializations`. -/
inductive RuleMatch where
  | sticky (assignment : Assignment) (unit : String)
  | skip (missing : Bool)
  | segment (matched : Tribool) (missing : Bool)

/-- The state of the loop after a rule: it goes on, or it returns. -/
inductive Progress where
  | next (hasMissing : Bool) (value : ResolvedValue)
  | done (value : ResolvedValue)

namespace AccountResolver

variable (r : AccountResolver)

/-- The unit of a rule that has an assignment spec or not, as far as the targeting key tells. -/
def unitGuard (rule : Rule) : Except Unit (Option (Option String)) :=
  let blank := rule.targetingKeySelector = ""
  match r.getTargetingKey (if blank then defaultTargetingKey else rule.targetingKeySelector) with
  | .ok (some u) => .ok (some (some u))
  | .ok none => if blank then .ok (some none) else .ok none
  | .error _ =>
      -- only a full rollout without a selector needs no key
      if blank && rule.assignmentSpec.elim false hasOnlyOneFullVariant then .ok (some none)
      else .error ()

/-- The checks at the head of the loop over the rules. -/
def ruleGuard (rule : Rule) : RuleGuard :=
  if !rule.enabled then .skip
  else if !r.enabledForEnvironment rule then .skip
  else
    match r.state.segments.get rule.segment with
    | none => .skip
    | some segment =>
        match r.unitGuard rule with
        | .error _ => .targetingKeyError
        | .ok none => .skip
        | .ok (some unit) =>
            match rule.assignmentSpec with
            | none => .skip
            | some spec => .go segment spec unit

/-- A test, with `none` for a rule that is not recognised. -/
def recognized (x : ResolveM Tribool) : ResolveM (Option Tribool) := fun c =>
  match x c with
  | (.ok t, c') => (.ok (some t), c')
  | (.error .unrecognizedRule, c') => (.ok none, c')
  | (.error e, c') => (.error e, c')

/-- The call of `segment_match` in the loop. -/
def matchSegment (segment : Segment) (unit : Option String) (missing : Bool) :
    ResolveM RuleMatch := do
  match ← recognized (r.segmentMatch unit segment) with
  | some matched => return .segment matched missing
  | none => return .skip missing

/-- The targeting check of a unit that has a record. -/
def stickyTargeting (segment : Segment) (unit : String) (mode : MaterializationReadMode) :
    ResolveM (Option Tribool) :=
  if mode.segmentTargetingCanBeIgnored then pure (some (some true))
  else recognized (r.targetingMatchFresh (some unit) segment)

/-- The assignment selected by the record; where there is none the rule still counts as matched,
and its ranges are used. -/
def selectSticky (rule : Rule) (spec : AssignmentSpec) (unit materialization : String) :
    ResolveM RuleMatch := fun c =>
  match selectAssignment r.natives c.records materialization unit rule.name spec.assignments
    rule.segment spec.bucketCount with
  | some assignment => (.ok (.sticky assignment unit), c)
  | none => (.ok (.segment (some true) false), c)

/-- The match of a unit that has a record. -/
def matchSticky (rule : Rule) (segment : Segment) (spec : AssignmentSpec) (unit : String)
    (materialization : String) (mode : MaterializationReadMode) : ResolveM RuleMatch := do
  match ← r.stickyTargeting segment unit mode with
  | none => return .skip false
  | some (some true) => r.selectSticky rule spec unit materialization
  | some _ => r.matchSegment segment (some unit) false

/-- The match of a rule that passed its guard. -/
def matchRule (rule : Rule) (segment : Segment) (spec : AssignmentSpec) (unit : Option String) :
    ResolveM RuleMatch :=
  match rule.reads with
  | none => r.matchSegment segment unit false
  | some (materialization, mode) =>
      match unit with
      | none => pure (.skip false)
      | some u => do
          match ← MaterializationContext.hasRuleMaterialization materialization u rule.name with
          | some true => r.matchSticky rule segment spec u materialization mode
          | some false =>
              if mode.materializationMustMatch then return .skip false
              else r.matchSegment segment unit false
          | none => r.matchSegment segment unit true

/-- The assignment of a matched rule.  Without a unit only a full rollout has one. -/
def matchedAssignment (rule : Rule) (spec : AssignmentSpec) (unit : Option String) :
    Except ResolveError (Option Assignment) :=
  if hasOnlyOneFullVariant spec then .ok spec.assignments.head?
  else
    match unit with
    | none => .ok none
    | some u =>
        match bucketKey rule.segment u with
        | none => .error (.internal .variantSalt)
        | some key =>
            match bucket (r.natives.murmur3 key) (asU64 spec.bucketCount) with
            | none => .error (.internal .zeroBuckets)
            | some b => .ok (spec.assignments.find? (·.covers (asI32 b)))

/-- The write of an assignment; none without a unit. -/
def writeAssignment (rule : Rule) (unit : Option String) (variantName : String) : ResolveM Unit :=
  match unit, rule.writes with
  | some u, some materialization =>
      MaterializationContext.addToWrite u materialization rule.name variantName
  | _, _ => pure ()

/-- What an assignment makes of the resolved value. -/
def applyAssignment (rule : Rule) (segment : Segment) (assignmentId : String)
    (assignment : AssignmentKind) (unit : String) (value : ResolvedValue) :
    Except ResolveError Progress :=
  match assignment with
  | .fallthrough => .ok (.next false (value.attributeFallthroughRule rule assignmentId unit))
  | .clientDefault => .ok (.done (value.withClientDefaultMatch rule segment assignmentId unit))
  | .variant variantName =>
      match value.flag.variants.find? fun v => v.name = variantName with
      | some variant => .ok (.done (value.withVariantMatch rule segment variant assignmentId unit))
      | none => .error (.internal .assignedVariant)

/-- The assignment of a matched rule, when no materialization is missing. -/
def assignRule (rule : Rule) (segment : Segment) (spec : AssignmentSpec) (unit : Option String)
    (value : ResolvedValue) : ResolveM Progress := do
  match ← Eff.lift (r.matchedAssignment rule spec unit) with
  | some ⟨assignmentId, some assignment, _⟩ =>
      writeAssignment rule unit assignment.variantName
      Eff.lift (applyAssignment rule segment assignmentId assignment (unit.getD "") value)
  | _ => return .next false value

/-- What the loop does with the match of a rule.  A rule that matches is assigned only if no
materialization is missing. -/
def afterMatch (rule : Rule) (segment : Segment) (spec : AssignmentSpec) (unit : Option String)
    (hasMissing : Bool) (value : ResolvedValue) : RuleMatch → ResolveM Progress
  | .sticky assignment u =>
      Eff.lift ((value.tryWithVariantMatch rule segment assignment u).map .done)
  | .skip missing => pure (.next (hasMissing || missing) value)
  | .segment (some true) missing =>
      if hasMissing || missing then pure (.next true value)
      else r.assignRule rule segment spec unit value
  | .segment (some false) missing => pure (.next (hasMissing || missing) value)
  | .segment none _ => pure (.next true value)

/-- The body of the loop for a rule that passed its guard. -/
def resolveMatched (rule : Rule) (segment : Segment) (spec : AssignmentSpec)
    (unit : Option String) (hasMissing : Bool) (value : ResolvedValue) : ResolveM Progress :=
  r.matchRule rule segment spec unit >>=
    r.afterMatch rule segment spec unit hasMissing value

/-- The body of the loop over the rules. -/
def resolveRule (rule : Rule) (hasMissing : Bool) (value : ResolvedValue) : ResolveM Progress :=
  match r.ruleGuard rule with
  | .skip => pure (.next hasMissing value)
  | .targetingKeyError => pure (.done (value.error .targetingKeyError))
  | .go segment spec unit => r.resolveMatched rule segment spec unit hasMissing value

/-- The loop over the rules. -/
def resolveRules : List Rule → Bool → ResolvedValue → ResolveM ResolvedValue
  | [], hasMissing, value =>
      if hasMissing then Eff.throw .missingMaterializations else pure value
  | rule :: rules, hasMissing, value => do
      match ← r.resolveRule rule hasMissing value with
      | .next hasMissing value => resolveRules rules hasMissing value
      | .done value => return value

/-- `resolve_flag_internal`. -/
def resolveFlagInternal (flag : Flag) : ResolveM ResolvedValue :=
  if flag.state = .archived then pure ((ResolvedValue.new flag).error .flagArchived)
  else r.resolveRules flag.rules false (.new flag)

/-- `resolve_flag`: two of the errors become reasons. -/
def resolveFlag (flag : Flag) : ResolveM ResolvedValue := fun c =>
  match r.resolveFlagInternal flag c with
  | (.error .materializationsUnsupported, c') =>
      (.ok ((ResolvedValue.new flag).error .materializationNotSupported), c')
  | (.error .unrecognizedRule, c') =>
      (.ok ((ResolvedValue.new flag).error .unrecognizedTargetingRule), c')
  | res => res

end AccountResolver

end ConfidenceResolver
