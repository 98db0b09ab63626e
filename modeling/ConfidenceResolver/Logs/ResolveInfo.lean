import ConfidenceResolver.Logs.BoundedSet
import ConfidenceResolver.Proto.Logs
import ConfidenceResolver.Resolver.Flag
import ConfidenceResolver.Support.HashMap

/-!
# Logs — resolve counts

What `resolve_logger.rs` counts of a resolve, in its two forms: `log_resolve` adds to the counters
of a `ResolveInfoState`, which a checkpoint reports; `build_resolve_log` writes the counts of one
resolve as messages.

Counters are `AtomicU32`.  The evaluation context enters through its schema only, so it is the
schema that is given here.
-/

namespace ConfidenceResolver

/-- `SCHEMA_SAMPLE_COUNT`. -/
def schemaSampleCount : Nat := 50

/-- `evaluation_context_schema_field.Kind`. -/
inductive SchemaFieldKind where
  | unspecified
  | null
  | number
  | string
  | bool
deriving DecidableEq

def SchemaFieldKind.toInt32 : SchemaFieldKind → Int32
  | .unspecified => 0
  | .null => 1
  | .number => 2
  | .string => 3
  | .bool => 4

/-- `DerivedClientSchema`: two maps by field path, in the order of their keys. -/
structure DerivedClientSchema where
  fields : List (String × SchemaFieldKind)
  semanticTypes : List (String × ContextFieldSemanticType)
deriving DecidableEq

/-- `to_pb_schema_instance`. -/
def toPbSchemaInstance (schema : DerivedClientSchema) : EvaluationContextSchemaInstance :=
  ⟨schema.fields.map fun (path, kind) => (path, kind.toInt32), schema.semanticTypes⟩

/-- `extract_client`: the first two segments. -/
def extractClient (credential : String) : String :=
  match split '/' credential with
  | a :: b :: _ => a ++ "/" ++ b
  | _ => credential

/-- What one `log_resolve` is given: a schema, a credential and the values; and the pick that the
bounded set would draw. -/
structure LoggedResolve where
  schema : DerivedClientSchema
  clientCredential : String
  values : List ResolvedValue
  pick : Nat

/-! ### Counters -/

namespace ResolveLogger

/-- `resolve_logger::RuleResolveInfo`. -/
structure RuleResolveInfo where
  count : UInt32 := 0
  assignmentCounts : HashMap String UInt32 := .empty

/-- `resolve_logger::FlagResolveInfo`. -/
structure FlagResolveInfo where
  variantResolveInfo : HashMap String UInt32 := .empty
  ruleResolveInfo : HashMap String RuleResolveInfo := .empty

/-- `resolve_logger::ClientResolveInfo`. -/
structure ClientResolveInfo where
  schemas : BoundedSet DerivedClientSchema schemaSampleCount := .new

/-- `ResolveInfoState`. -/
structure ResolveInfoState where
  flagResolveInfo : HashMap String FlagResolveInfo := .empty
  clientResolveInfo : HashMap String ClientResolveInfo := .empty

/-- `increment`. -/
def increment (counters : HashMap String UInt32) (key : String) : HashMap String UInt32 :=
  counters.upsert key 0 (· + 1)

/-- One more resolve with an assignment id. -/
def RuleResolveInfo.hit (info : RuleResolveInfo) (assignmentId : String) : RuleResolveInfo :=
  ⟨info.count + 1, increment info.assignmentCounts assignmentId⟩

/-- One more resolve of a rule. -/
def FlagResolveInfo.hit (info : FlagResolveInfo) (rule assignmentId : String) : FlagResolveInfo :=
  { info with
    ruleResolveInfo := info.ruleResolveInfo.upsert rule {} fun info => info.hit assignmentId }

/-- What the body of the loop in `log_resolve` does to the counters of the flag. -/
def FlagResolveInfo.log (info : FlagResolveInfo) (af : AssignedFlag) : FlagResolveInfo :=
  let info := af.fallthroughAssignments.foldl
    (fun info fallthrough => info.hit fallthrough.rule fallthrough.assignmentId) info
  if af.rule ≠ "" then
    let variantKey := if af.variant = "" then "" else af.variant
    { info with variantResolveInfo := increment info.variantResolveInfo variantKey }.hit
      af.rule af.assignmentId
  else
    { info with variantResolveInfo := increment info.variantResolveInfo "" }

/-- The update that `log_resolve` makes to the state. -/
def ResolveInfoState.log (state : ResolveInfoState) (r : LoggedResolve) : ResolveInfoState where
  clientResolveInfo := state.clientResolveInfo.upsert r.clientCredential {} fun info =>
    ⟨info.schemas.insert r.pick r.schema⟩
  flagResolveInfo := r.values.foldl
    (fun flags value => flags.upsert value.inner.flag {} fun info => info.log value.inner)
    state.flagResolveInfo

/-! ### Updates

The additions to single counters that a `log_resolve` is made of. -/

/-- An addition to a counter of a flag. -/
inductive FlagUpdate where
  | variant (key : String)
  | count (rule : String)
  | assignment (rule assignmentId : String)
deriving DecidableEq

def FlagResolveInfo.apply (info : FlagResolveInfo) : FlagUpdate → FlagResolveInfo
  | .variant key => { info with variantResolveInfo := increment info.variantResolveInfo key }
  | .count rule =>
      { info with
        ruleResolveInfo := info.ruleResolveInfo.upsert rule {} fun info =>
          { info with count := info.count + 1 } }
  | .assignment rule assignmentId =>
      { info with
        ruleResolveInfo := info.ruleResolveInfo.upsert rule {} fun info =>
          { info with assignmentCounts := increment info.assignmentCounts assignmentId } }

/-- An addition to a counter, or a schema. -/
inductive Update where
  | schema (clientCredential : String) (schema : DerivedClientSchema) (pick : Nat)
  | flag (flag : String) (update : FlagUpdate)

def ResolveInfoState.apply (state : ResolveInfoState) : Update → ResolveInfoState
  | .schema clientCredential schema pick =>
      { state with
        clientResolveInfo := state.clientResolveInfo.upsert clientCredential {} fun info =>
          ⟨info.schemas.insert pick schema⟩ }
  | .flag flag update =>
      { state with
        flagResolveInfo := state.flagResolveInfo.upsert flag {} fun info => info.apply update }

/-- The updates of one resolve of a rule. -/
def hitUpdates (rule assignmentId : String) : List FlagUpdate :=
  [.count rule, .assignment rule assignmentId]

/-- The updates of a value, to the counters of its flag. -/
def flagUpdates (af : AssignedFlag) : List FlagUpdate :=
  (af.fallthroughAssignments.flatMap fun fallthrough =>
      hitUpdates fallthrough.rule fallthrough.assignmentId) ++
    if af.rule ≠ "" then .variant af.variant :: hitUpdates af.rule af.assignmentId
    else [.variant ""]

/-- The updates of a `log_resolve`. -/
def updates (r : LoggedResolve) : List Update :=
  .schema r.clientCredential r.schema r.pick ::
    r.values.flatMap fun value => (flagUpdates value.inner).map (.flag value.inner.flag)

theorem FlagResolveInfo.hit_eq (info : FlagResolveInfo) (rule assignmentId : String) :
    info.hit rule assignmentId = (hitUpdates rule assignmentId).foldl .apply info := by
  simp [hitUpdates, FlagResolveInfo.apply, FlagResolveInfo.hit, HashMap.upsert_upsert,
    RuleResolveInfo.hit]

theorem FlagResolveInfo.log_eq (info : FlagResolveInfo) (af : AssignedFlag) :
    info.log af = (flagUpdates af).foldl .apply info := by
  have hkey : (if af.variant = "" then "" else af.variant) = af.variant := by
    by_cases h : af.variant = "" <;> simp [h]
  rw [flagUpdates, List.foldl_append, List.foldl_flatMap, FlagResolveInfo.log]
  simp only [hkey, FlagResolveInfo.hit_eq]
  by_cases hrule : af.rule = ""
  · simp [hrule, FlagResolveInfo.apply]
  · simp [hrule, FlagResolveInfo.apply]

/-- Updates of one flag, one after the other. -/
theorem foldl_flag (state : ResolveInfoState) (flag : String) (us : List FlagUpdate)
    (h : us ≠ []) :
    (us.map (Update.flag flag)).foldl .apply state =
      { state with
        flagResolveInfo := state.flagResolveInfo.upsert flag {} fun info =>
          us.foldl .apply info } := by
  induction us using List.reverseRecOn with
  | nil => exact absurd rfl h
  | append_singleton us u ih =>
      by_cases hus : us = []
      · subst hus
        rfl
      · rw [List.map_append, List.foldl_append, ih hus]
        simp [ResolveInfoState.apply, HashMap.upsert_upsert]

theorem flagUpdates_ne_nil (af : AssignedFlag) : flagUpdates af ≠ [] := by
  by_cases hrule : af.rule = "" <;> simp [flagUpdates, hrule]

/-- **`log_resolve` is its updates**, one after the other. -/
theorem ResolveInfoState.log_eq (state : ResolveInfoState) (r : LoggedResolve) :
    state.log r = (updates r).foldl .apply state := by
  have hvalues : ∀ (values : List ResolvedValue) (state : ResolveInfoState),
      (values.flatMap fun value => (flagUpdates value.inner).map
          (Update.flag value.inner.flag)).foldl .apply state =
        { state with
          flagResolveInfo := values.foldl
            (fun flags value => flags.upsert value.inner.flag {} fun info => info.log value.inner)
            state.flagResolveInfo } := by
    intro values
    induction values with
    | nil => exact fun _ => rfl
    | cons value values ih =>
        intro state
        rw [List.flatMap_cons, List.foldl_append, foldl_flag _ _ _ (flagUpdates_ne_nil _), ih,
          List.foldl_cons]
        simp only [FlagResolveInfo.log_eq]
  rw [updates, List.foldl_cons, hvalues]
  rfl

/-! ### Reports -/

/-- A counter as an `i64`. -/
def load (count : UInt32) : Int64 := Int64.ofNat count.toNat

/-- `to_pb_rule`. -/
def toPbRule (rule : String) (info : RuleResolveInfo) : ConfidenceResolver.RuleResolveInfo :=
  ⟨rule, load info.count, info.assignmentCounts.entries.map fun e => ⟨e.1, load e.2⟩⟩

/-- One flag of `build_flag_resolve_info`. -/
def toPbFlag (flag : String) (info : FlagResolveInfo) : ConfidenceResolver.FlagResolveInfo :=
  ⟨flag, info.variantResolveInfo.entries.map fun e => ⟨e.1, load e.2⟩,
    info.ruleResolveInfo.entries.map fun e => toPbRule e.1 e.2⟩

/-- `build_flag_resolve_info`. -/
def buildFlagResolveInfo (state : ResolveInfoState) : List ConfidenceResolver.FlagResolveInfo :=
  state.flagResolveInfo.entries.map fun e => toPbFlag e.1 e.2

/-- One client of `build_client_resolve_info`. -/
def toPbClient (credential : String) (info : ClientResolveInfo) :
    ConfidenceResolver.ClientResolveInfo :=
  ⟨extractClient credential, credential, info.schemas.iter.map toPbSchemaInstance⟩

/-- `build_client_resolve_info`. -/
def buildClientResolveInfo (state : ResolveInfoState) :
    List ConfidenceResolver.ClientResolveInfo :=
  state.clientResolveInfo.entries.map fun e => toPbClient e.1 e.2

/-- What a checkpoint reports of the state that it takes. -/
def report (state : ResolveInfoState) : WriteFlagLogsRequest where
  flagResolveInfo := buildFlagResolveInfo state
  clientResolveInfo := buildClientResolveInfo state

end ResolveLogger

/-! ### Messages of one resolve -/

/-- The rule info of one resolve of a rule. -/
def oneRule (rule assignmentId : String) : RuleResolveInfo := ⟨rule, 1, [⟨assignmentId, 1⟩]⟩

/-- The flag info that `build_resolve_log` writes for a value. -/
def flagInfoOf (af : AssignedFlag) : FlagResolveInfo :=
  let fallthroughs := af.fallthroughAssignments.map fun fallthrough =>
    oneRule fallthrough.rule fallthrough.assignmentId
  if af.rule ≠ "" then
    let variantKey := if af.variant = "" then "" else af.variant
    ⟨af.flag, [⟨variantKey, 1⟩], fallthroughs ++ [oneRule af.rule af.assignmentId]⟩
  else
    ⟨af.flag, [⟨"", 1⟩], fallthroughs⟩

/-- `build_resolve_log`. -/
def buildResolveLog (schema : DerivedClientSchema) (clientCredential : String)
    (values : List ResolvedValue) : List FlagResolveInfo × ClientResolveInfo :=
  (values.map fun value => flagInfoOf value.inner,
    ⟨extractClient clientCredential, clientCredential, [toPbSchemaInstance schema]⟩)

end ConfidenceResolver
