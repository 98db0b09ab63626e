import ConfidenceResolver.Proto.Flags
import ConfidenceResolver.Proto.Telemetry

/-!
# Proto — flag logs

`WriteFlagLogsRequest` and its parts: assignment events, resolve counts, and the schemas of the
evaluation contexts seen.
-/

namespace ConfidenceResolver

/-! ### Assignment events -/

/-- `events.ClientInfo`. -/
structure ClientInfo where
  client : String
  clientCredential : String
  sdk : Option Sdk
deriving DecidableEq

/-- `FlagAssigned.AppliedFlag.assignment`; a default reason is an open enumeration. -/
inductive AppliedAssignment where
  | assignmentInfo (segment variant : String)
  | defaultAssignment (reason : Int32)
deriving DecidableEq

/-- `FlagAssigned.AppliedFlag`. -/
structure AppliedFlag where
  flag : String
  targetingKey : String
  targetingKeySelector : String
  assignmentId : String
  rule : String
  fallthroughAssignments : List FallthroughAssignment
  applyTime : Option Timestamp
  assignment : Option AppliedAssignment
deriving DecidableEq

/-- `events.FlagAssigned`. -/
structure FlagAssigned where
  resolveId : String
  clientInfo : Option ClientInfo
  flags : List AppliedFlag
deriving DecidableEq

/-! ### Resolve counts -/

/-- `VariantResolveInfo`. -/
structure VariantResolveInfo where
  variant : String
  count : Int64
deriving DecidableEq

/-- `AssignmentResolveInfo`. -/
structure AssignmentResolveInfo where
  assignmentId : String
  count : Int64
deriving DecidableEq

/-- `RuleResolveInfo`. -/
structure RuleResolveInfo where
  rule : String
  count : Int64
  assignmentResolveInfo : List AssignmentResolveInfo
deriving DecidableEq

/-- `FlagResolveInfo`. -/
structure FlagResolveInfo where
  flag : String
  variantResolveInfo : List VariantResolveInfo
  ruleResolveInfo : List RuleResolveInfo
deriving DecidableEq

/-! ### Schemas -/

/-- `ContextFieldSemanticType`, with `unset` for `type: None`. -/
inductive ContextFieldSemanticType where
  | unset
  | country (format : Int32)
  | enumType (values : List String)
  | entityReference (entity : String)
  | version
  | date
  | timestamp
deriving DecidableEq

/-- `EvaluationContextSchemaInstance`: two maps by field path, in the order of their keys. -/
structure EvaluationContextSchemaInstance where
  schema : List (String × Int32)
  semanticTypes : List (String × ContextFieldSemanticType)
deriving DecidableEq

/-- `ClientResolveInfo`. -/
structure ClientResolveInfo where
  client : String
  clientCredential : String
  schema : List EvaluationContextSchemaInstance
deriving DecidableEq

/-- `WriteFlagLogsRequest`, with prost's defaults. -/
structure WriteFlagLogsRequest where
  telemetryData : Option TelemetryData := none
  flagAssigned : List FlagAssigned := []
  flagResolveInfo : List FlagResolveInfo := []
  clientResolveInfo : List ClientResolveInfo := []

end ConfidenceResolver
