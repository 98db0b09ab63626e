import ConfidenceResolver.Proto.Logs
import ConfidenceResolver.Resolver.Resolve
import ConfidenceResolver.Support.ByteQueue

/-!
# Logs — assignment events

`assign_logger.rs`: the event of a `log_assign`, and the queue of events that is flushed into
`WriteFlagLogsRequest`s of a bounded size.
-/

namespace ConfidenceResolver

/-! ### Events -/

/-- `DefaultAssignmentReason`. -/
inductive DefaultAssignmentReason where
  | unspecified
  | noSegmentMatch
  | noTreatmentMatch
  | flagArchived

def DefaultAssignmentReason.toInt32 : DefaultAssignmentReason → Int32
  | .unspecified => 0
  | .noSegmentMatch => 1
  | .noTreatmentMatch => 2
  | .flagArchived => 3

/-- The default reason that `build_flag_assigned` writes for a resolve reason. -/
def defaultReason : ResolveReason → DefaultAssignmentReason
  | .noSegmentMatch => .noSegmentMatch
  | .noTreatmentMatch => .noTreatmentMatch
  | .flagArchived => .flagArchived
  | _ => .unspecified

/-- The applied flag that `build_flag_assigned` writes. -/
def appliedFlag (flag : FlagToApply) : AppliedFlag :=
  let f := flag.assignedFlag
  { flag := f.flag
    targetingKey := f.targetingKey
    targetingKeySelector := f.targetingKeySelector
    assignmentId := f.assignmentId
    rule := f.rule
    fallthroughAssignments := f.fallthroughAssignments
    applyTime := some flag.skewAdjustedAppliedTime
    assignment :=
      if f.variant ≠ "" then some (.assignmentInfo f.segment f.variant)
      else some (.defaultAssignment (defaultReason f.reason).toInt32) }

/-- `build_flag_assigned`. -/
def buildFlagAssigned (resolveId : String) (assignedFlags : List FlagToApply) (client : Client)
    (sdk : Option Sdk) : FlagAssigned where
  resolveId := resolveId
  clientInfo := some ⟨client.clientName, client.clientCredentialName, sdk⟩
  flags := assignedFlags.map appliedFlag

/-! ### The logger -/

/-- `prost::length_delimiter_len`: the bytes of a varint. -/
def lengthDelimiterLen (len : Nat) : Nat := Nat.log2 len / 7 + 1

/-- The bytes of a message in a repeated field of an id below 16, given its `encoded_len`.  Sums
saturate at `usize::MAX`. -/
def fieldLen (usizeMax len : Nat) : Nat :=
  ByteQueue.add usizeMax (ByteQueue.add usizeMax len (lengthDelimiterLen len)) 1

/-- `usize::MAX`, and `encoded_len` of the messages as the library computes it. -/
structure AssignSizes where
  usizeMax : Nat
  flagAssigned : FlagAssigned → Nat
  request : WriteFlagLogsRequest → Nat

/-- `AssignLogger`: the queue `assigned` and the locked state. -/
abbrev AssignLogger := ByteQueue FlagAssigned

namespace AssignLogger

variable (sizes : AssignSizes)

/-- `AssignLogger::encoded_len`. -/
def encodedLen (assigned : FlagAssigned) : Nat :=
  fieldLen sizes.usizeMax (sizes.flagAssigned assigned)

/-- `log_assigns`. -/
def logAssigns (logger : AssignLogger) (resolveId : String) (assignedFlags : List FlagToApply)
    (client : Client) (sdk : Option Sdk) : AssignLogger :=
  logger.push (buildFlagAssigned resolveId assignedFlags client sdk)

/-- `checkpoint_fill_with_limit`: the logger and the request after it, and what it returns. -/
def checkpointFillWithLimit (logger : AssignLogger) (req : WriteFlagLogsRequest)
    (limitBytes : Nat) (requireFull : Bool) : AssignLogger × WriteFlagLogsRequest × Nat :=
  let (logger, events, written) := logger.flush sizes.usizeMax (encodedLen sizes)
    (sizes.request req) limitBytes requireFull
  (logger, { req with flagAssigned := req.flagAssigned ++ events }, written)

/-- `checkpoint_fill`. -/
def checkpointFill (logger : AssignLogger) (req : WriteFlagLogsRequest) :
    AssignLogger × WriteFlagLogsRequest × Nat :=
  logger.checkpointFillWithLimit sizes req sizes.usizeMax false

/-- `checkpoint`. -/
def checkpoint (logger : AssignLogger) : AssignLogger × WriteFlagLogsRequest :=
  let (logger, req, _) := logger.checkpointFill sizes {}
  (logger, req)

/-- `checkpoint_with_limit`. -/
def checkpointWithLimit (logger : AssignLogger) (limitBytes : Nat) (requireFull : Bool) :
    AssignLogger × WriteFlagLogsRequest :=
  let (logger, req, _) := logger.checkpointFillWithLimit sizes {} limitBytes requireFull
  (logger, req)

end AssignLogger

end ConfidenceResolver
