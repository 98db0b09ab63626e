import ConfidenceResolver.Proto.Targeting

/-!
# Proto — flags, rules and the resolver's messages

The parts of `confidence.flags.admin.v1` and `confidence.flags.resolver.v1` that resolving reads
or writes.
-/

namespace ConfidenceResolver

/-- `Segment`. -/
structure Segment where
  name : String
  targeting : Option Targeting

/-- `Flag.State`, an open enumeration. -/
inductive FlagState where
  | unspecified
  | active
  | archived
  | other (n : Int)
deriving DecidableEq

/-- `Rule.BucketRange`: `lower` inclusive, `upper` exclusive. -/
structure BucketRange where
  lower : Int
  upper : Int
deriving DecidableEq

/-- `rule::assignment::Assignment`. -/
inductive AssignmentKind where
  | variant (variant : String)
  | fallthrough
  | clientDefault
deriving DecidableEq

/-- `rule::Assignment`. -/
structure Assignment where
  assignmentId : String
  assignment : Option AssignmentKind
  bucketRanges : List BucketRange
deriving DecidableEq

/-- `rule::AssignmentSpec`. -/
structure AssignmentSpec where
  bucketCount : Int
  assignments : List Assignment
deriving DecidableEq

/-- `MaterializationReadMode`. -/
structure MaterializationReadMode where
  materializationMustMatch : Bool
  segmentTargetingCanBeIgnored : Bool
deriving DecidableEq

/-- `MaterializationSpec`. -/
structure MaterializationSpec where
  writeMaterialization : String
  readMaterialization : String
  mode : Option MaterializationReadMode
deriving DecidableEq

/-- `Flag.Rule`. -/
structure Rule where
  name : String
  segment : String
  assignmentSpec : Option AssignmentSpec
  targetingKeySelector : String
  enabled : Bool
  environments : List String
  materializationSpec : Option MaterializationSpec
deriving DecidableEq

/-- `Flag.Variant`. -/
structure Variant where
  name : String
  value : Option Struct

/-- `Flag`. -/
structure Flag where
  name : String
  state : FlagState
  variants : List Variant
  rules : List Rule
  clients : List String
  schema : Option StructFlagSchema

/-- `ResolveReason`. -/
inductive ResolveReason where
  | unspecified
  | match
  | noSegmentMatch
  | noTreatmentMatch
  | flagArchived
  | targetingKeyError
  | error
  | unrecognizedTargetingRule
  | materializationNotSupported
  | typeMismatch
  | flagNotFound
deriving DecidableEq

/-- `events.FallthroughAssignment`. -/
structure FallthroughAssignment where
  rule : String
  assignmentId : String
  targetingKey : String
  targetingKeySelector : String
deriving DecidableEq

/-- `ResolveTokenV1.AssignedFlag`. -/
structure AssignedFlag where
  flag : String
  targetingKey : String := ""
  targetingKeySelector : String := ""
  segment : String := ""
  variant : String := ""
  rule : String := ""
  reason : ResolveReason := .unspecified
  fallthroughAssignments : List FallthroughAssignment := []
  assignmentId : String := ""
deriving DecidableEq

/-- `MaterializationRecord`: a query when its `variant` is empty, else a stored variant. -/
structure MaterializationRecord where
  unit : String
  materialization : String
  rule : String
  variant : String
deriving DecidableEq

/-- `ResolveFlagsRequest`. -/
structure ResolveFlagsRequest where
  flags : List String
  apply : Bool

/-- `ResolvedFlag`. -/
structure ResolvedFlag where
  flag : String
  variant : String := ""
  value : Option Struct := none
  flagSchema : Option StructFlagSchema := none
  reason : ResolveReason
  shouldApply : Bool
  assignmentOrigin : String

end ConfidenceResolver
