import ConfidenceResolver.Proto.Logs
import ConfidenceResolver.Support.HashMap
import ConfidenceResolver.Support.Saturating
import ConfidenceResolver.Telemetry.Snapshot

/-!
# Logs — aggregating messages

`aggregate_batch` and `update_rule_variant_info` of `flag_logger.rs`: many `WriteFlagLogsRequest`s
become one.  Counts are `i64` and saturate.
-/

namespace ConfidenceResolver

/-- `SchemaItem`. -/
structure SchemaItem where
  client : String
  schemas : List EvaluationContextSchemaInstance

/-- `RuleResolveInfoCount`. -/
structure RuleResolveInfoCount where
  count : Int64
  assignmentCount : HashMap String Int64

/-- `VariantRuleResolveInfo`. -/
structure VariantRuleResolveInfo where
  ruleResolveInfo : HashMap String RuleResolveInfoCount
  variantResolveInfo : HashMap String Int64

/-- `VariantRuleResolveInfo::new`. -/
def VariantRuleResolveInfo.new : VariantRuleResolveInfo := ⟨.empty, .empty⟩

/-- One rule info of `update_rule_variant_info`: the assignments that it lists replace those known
so far, with the known counts added. -/
def updateRule (known : RuleResolveInfoCount) (ruleInfo : RuleResolveInfo) :
    RuleResolveInfoCount where
  count := saturatingAdd known.count ruleInfo.count
  assignmentCount := ruleInfo.assignmentResolveInfo.foldl
    (fun counts aa => counts.insert aa.assignmentId
      (saturatingAdd ((known.assignmentCount.get? aa.assignmentId).getD 0) aa.count))
    .empty

/-- `update_rule_variant_info`. -/
def updateRuleVariantInfo (flagInfo : VariantRuleResolveInfo) (info : FlagResolveInfo) :
    VariantRuleResolveInfo where
  ruleResolveInfo := info.ruleResolveInfo.foldl
    (fun rules ruleInfo => rules.upsert ruleInfo.rule ⟨0, .empty⟩ fun known =>
      updateRule known ruleInfo)
    flagInfo.ruleResolveInfo
  variantResolveInfo := info.variantResolveInfo.foldl
    (fun variants variantInfo => variants.upsert variantInfo.variant 0 fun count =>
      saturatingAdd count variantInfo.count)
    flagInfo.variantResolveInfo

/-- The schemas of one more client info; the client is that of the first. -/
def updateSchemas (item : Option SchemaItem) (c : ClientResolveInfo) : SchemaItem where
  client := (item.map (·.client)).getD c.client
  schemas := c.schema.foldl (fun schemas schema => schemas.insert schema)
    ((item.map (·.schemas)).getD [])

/-- The four accumulators of `aggregate_batch`, with the first sdk. -/
structure Aggregation where
  schemaMap : HashMap String SchemaItem := .empty
  flagResolveMap : HashMap String VariantRuleResolveInfo := .empty
  flagAssigned : List FlagAssigned := []
  firstSdk : Option Sdk := none
  aggTelemetry : Option TelemetryData := none

/-- The body of the loop over the messages. -/
def Aggregation.add (a : Aggregation) (message : WriteFlagLogsRequest) : Aggregation where
  firstSdk := a.firstSdk.or (message.telemetryData.bind (·.sdk))
  aggTelemetry :=
    match message.telemetryData with
    | none => a.aggTelemetry
    | some td => some (mergeTelemetry a.aggTelemetry td)
  schemaMap := message.clientResolveInfo.foldl
    (fun map c => map.insert c.clientCredential (updateSchemas (map.get? c.clientCredential) c))
    a.schemaMap
  flagResolveMap := message.flagResolveInfo.foldl
    (fun map f => map.upsert f.flag .new fun flagInfo => updateRuleVariantInfo flagInfo f)
    a.flagResolveMap
  flagAssigned := a.flagAssigned ++ message.flagAssigned

/-- The rule infos of a flag. -/
def RuleResolveInfoCount.toInfo (rule : String) (info : RuleResolveInfoCount) : RuleResolveInfo :=
  ⟨rule, info.count, info.assignmentCount.entries.map fun (assignmentId, count) =>
    ⟨assignmentId, count⟩⟩

/-- The entry of a flag. -/
def VariantRuleResolveInfo.toInfo (flag : String) (info : VariantRuleResolveInfo) :
    FlagResolveInfo where
  flag := flag
  variantResolveInfo := info.variantResolveInfo.entries.map fun (variant, count) =>
    ⟨variant, count⟩
  ruleResolveInfo := info.ruleResolveInfo.entries.map fun (rule, info) => info.toInfo rule

/-- The telemetry of the result, with the first sdk attached. -/
def Aggregation.telemetryData (a : Aggregation) : Option TelemetryData :=
  match a.aggTelemetry, a.firstSdk with
  | some td, sdk => some { td with sdk := td.sdk.or sdk }
  | none, some sdk => some { sdk := some sdk }
  | none, none => none

def Aggregation.result (a : Aggregation) : WriteFlagLogsRequest where
  telemetryData := a.telemetryData
  flagAssigned := a.flagAssigned
  flagResolveInfo := a.flagResolveMap.entries.map fun (flag, info) => info.toInfo flag
  clientResolveInfo := a.schemaMap.entries.map fun (credential, item) =>
    ⟨item.client, credential, item.schemas⟩

/-- `aggregate_batch`. -/
def aggregateBatch (messageBatch : List WriteFlagLogsRequest) : WriteFlagLogsRequest :=
  (messageBatch.foldl Aggregation.add {}).result

end ConfidenceResolver
