import Mathlib.Data.Finmap
import ConfidenceResolver.Resolver.Flag

/-!
# Resolver — a request

`resolve_flags`.  A request is resolved in one pass, or suspended: in the deferred mode a pass
that needs materializations ends with the records to read and a continuation, and a second
request resumes it with the records.  The continuation holds the flags that the first pass
resolved and the writes that it scheduled.

The state's flags are a hash map, so the order in which they are visited is a parameter.
-/

namespace ConfidenceResolver

/-- `MAX_NO_OF_FLAGS_TO_BATCH_RESOLVE`. -/
def maxFlags : Nat := 5000

/-! ### Messages -/

/-- `ResolveProcessState`: the continuation. -/
structure ResolveProcessState where
  resolveRequest : Option ResolveFlagsRequest
  resolvedFlags : List AssignedFlag
  materializationsToWrite : List MaterializationRecord

/-- The protobuf encoding of a continuation, as the library documents it. -/
structure Wire (Bytes : Type) where
  encode : ResolveProcessState → Bytes
  decode : Bytes → Option ResolveProcessState
  decode_encode : ∀ s, decode (encode s) = some s

/-- `ResolveProcessRequest.resolve`. -/
inductive ResolveProcessRequest (Bytes : Type) where
  | unset
  | deferredMaterializations (request : ResolveFlagsRequest)
  | staticMaterializations (request : Option ResolveFlagsRequest)
      (materializations : List MaterializationRecord)
  | withoutMaterializations (request : ResolveFlagsRequest)
  | resume (materializations : List MaterializationRecord) (state : Bytes)

/-- `ResolveFlagsResponse`; the token is absent where the field is left empty. -/
structure ResolveFlagsResponse (Bytes : Type) where
  resolvedFlags : List ResolvedFlag
  resolveToken : Option Bytes
  resolveId : String

/-- `ResolveProcessResponse.result`. -/
inductive ResolveProcessResponse (Bytes : Type) where
  | resolved (response : ResolveFlagsResponse Bytes)
      (materializationsToWrite : List MaterializationRecord)
  | suspended (materializationsToRead : List MaterializationRecord) (state : Bytes)

/-- `ResolveTokenV1`, with its empty evaluation context left out. -/
structure ResolveToken where
  resolveId : String
  assignments : Finmap fun _ : String => AssignedFlag

/-- `FlagToApply`. -/
structure FlagToApply where
  assignedFlag : AssignedFlag
  skewAdjustedAppliedTime : Timestamp
deriving DecidableEq

/-- The calls of a request to its host. -/
inductive HostCall where
  | logAssign (resolveId : String) (assignedFlags : List FlagToApply) (client : Client)
      (sdk : Option Sdk)
  | logResolve (resolveId : String) (context : Struct) (values : List ResolvedValue)
      (client : Client)

/-- What a request takes from its host: the time, the random id, and the encryption of tokens. -/
structure Host (Bytes : Type) where
  currentTime : Timestamp
  resolveId : String
  encryptResolveToken : ResolveToken → Bytes

/-- The errors of a request. -/
inductive ProcessError where
  | internal (site : Site)
  | decodeState
  | tooManyFlags (count : Nat)
  | resolve (e : ResolveError)
  | encryptToken
deriving DecidableEq

/-- `From<ResolveError> for String`, with the code of a site as `code`. -/
def ResolveError.text (code : Site → String) : ResolveError → String
  | .internal site => "internal error [" ++ code site ++ "]"
  | .message text => text
  | .missingMaterializations => "Missing materializations"
  | .materializationsUnsupported => "Materializations not supported"
  | .unrecognizedRule => "Unrecognized rule"
  | .panic => "attempt to calculate the remainder with a divisor of zero"

/-- The text of an error; `decodeState` is followed by the decoder's own text. -/
def ProcessError.text (code : Site → String) : ProcessError → String
  | .internal site => "internal error [" ++ code site ++ "]"
  | .decodeState => "Failed to decode continuation state: "
  | .tooManyFlags count =>
      "max " ++ toString maxFlags ++
        " flags allowed in a single resolve request, this request would return " ++
        toString count ++ " flags."
  | .resolve e => e.text code
  | .encryptToken => "Failed to encrypt resolve token"

/-! ### The value of a flag -/

/-- `HashMap::insert` on the fields of a struct. -/
def Struct.insert (s : Struct) (key : String) (v : Value) : Struct :=
  (key, v) :: s.filter fun field => field.1 ≠ key

mutual

/-- `fill_schema_nulls`. -/
def fillSchemaNulls (value : Struct) : StructFlagSchema → Struct
  | [] => value
  | (name, schema) :: rest => fillSchemaNulls (fillSchemaNull value name schema) rest

/-- One field of `fill_schema_nulls`. -/
def fillSchemaNull (value : Struct) (name : String) : FlagSchema → Struct
  | .structSchema sub =>
      match value.lookup name with
      | none => Struct.insert value name .null
      | some (.struct fields) => Struct.insert value name (.struct (fillSchemaNulls fields sub))
      | some _ => value
  | _ =>
      match value.lookup name with
      | none => Struct.insert value name .null
      | some _ => value

end

/-- `TryFrom<&ResolvedValue> for ResolvedFlag`. -/
def ResolvedValue.toResolvedFlag (value : ResolvedValue) : Except ProcessError ResolvedFlag :=
  let resolvedFlag : ResolvedFlag :=
    { flag := value.flag.name
      reason := value.inner.reason
      shouldApply := value.shouldApply
      assignmentOrigin := value.inner.rule }
  if value.inner.rule ≠ "" ∨ value.inner.segment ≠ "" then
    if value.inner.variant ≠ "" then
      match value.flag.variants.find? fun v => v.name = value.inner.variant with
      | none => .error (.internal .resolvedVariant)
      | some variant =>
          .ok { resolvedFlag with
            variant := variant.name
            value := some (fillSchemaNulls (variant.value.getD []) (value.flag.schema.getD []))
            flagSchema := value.flag.schema }
    else .ok { resolvedFlag with variant := "", value := some [], flagSchema := some [] }
  else .ok resolvedFlag

namespace AccountResolver

variable {Bytes : Type} (r : AccountResolver)

/-- `ResolvedValue::from_assigned`. -/
def fromAssigned (assigned : AssignedFlag) : Except ProcessError ResolvedValue :=
  match r.state.flags.get assigned.flag with
  | none => .error (.internal .unknownFlag)
  | some flag => .ok ⟨flag, assigned⟩

/-! ### The passes -/

/-- The continuation and the context a request starts with. -/
def start (wire : Wire Bytes) :
    ResolveProcessRequest Bytes → Except ProcessError (ResolveProcessState × MaterializationContext)
  | .unset => .error (.internal .emptyRequest)
  | .deferredMaterializations request => .ok (⟨some request, [], []⟩, .discovery)
  | .staticMaterializations none _ => .error (.internal .staticRequest)
  | .staticMaterializations (some request) materializations =>
      .ok (⟨some request, [], []⟩, .complete materializations)
  | .withoutMaterializations request => .ok (⟨some request, [], []⟩, .unsupported)
  | .resume materializations state =>
      match wire.decode state with
      | none => .error .decodeState
      | some st =>
          .ok ({ st with materializationsToWrite := [] },
            { MaterializationContext.complete materializations with
              toWrite := st.materializationsToWrite })

/-- A flag the request asks for and the client may see. -/
def isRequested (request : ResolveFlagsRequest) (flag : Flag) : Bool :=
  flag.state = .active && flag.clients.contains r.client.clientName &&
    (request.flags.isEmpty || request.flags.contains flag.name)

/-- The flags to resolve, in the order they are visited. -/
def flagsToResolve (visit : List Flag) (request : ResolveFlagsRequest)
    (resolved : List AssignedFlag) : List Flag :=
  visit.filter fun flag =>
    r.isRequested request flag && !resolved.any fun rf => rf.flag = flag.name

/-- The loop over the flags to resolve.  A flag that misses materializations is left out. -/
def resolveEach : List Flag → ResolveM (List AssignedFlag)
  | [] => pure []
  | flag :: flags => fun c =>
      match r.resolveFlag flag c with
      | (.ok value, c') => (resolveEach flags >>= fun rest => pure (value.inner :: rest)) c'
      | (.error .missingMaterializations, c') => resolveEach flags c'
      | (.error e, c') => (.error e, c')

/-- The token of a deferred apply. -/
def resolveToken (resolveId : String) (values : List ResolvedValue) : ResolveToken where
  resolveId := resolveId
  assignments := (values.filter (·.shouldApply)).foldl
    (fun assignments value => assignments.insert value.inner.flag value.inner) ∅

/-- The response and the host calls of a request whose flags are all resolved. -/
def respond (host : Host Bytes) (request : ResolveFlagsRequest) (resolved : List AssignedFlag) :
    Except ProcessError (ResolveFlagsResponse Bytes × List HostCall) := do
  let values ← resolved.mapM r.fromAssigned
  let resolvedFlags ← values.mapM ResolvedValue.toResolvedFlag
  let logResolve := HostCall.logResolve host.resolveId r.context values r.client
  if r.disableExposureCollection then return (⟨resolvedFlags, none, host.resolveId⟩, [logResolve])
  else if request.apply then
    let flagsToApply := (values.filter (·.shouldApply)).map fun value =>
      ⟨value.inner, host.currentTime⟩
    return (⟨resolvedFlags, none, host.resolveId⟩,
      [.logAssign host.resolveId flagsToApply r.client r.state.sdk, logResolve])
  else if r.canEncrypt then
    return (⟨resolvedFlags, some (host.encryptResolveToken (resolveToken host.resolveId values)),
      host.resolveId⟩, [logResolve])
  else .error .encryptToken

/-- The part of `resolve_flags` behind the choice of the context. -/
def resolvePass (wire : Wire Bytes) (host : Host Bytes) (visit : List Flag)
    (request : ResolveFlagsRequest) (state : ResolveProcessState) (c : MaterializationContext) :
    Except ProcessError (ResolveProcessResponse Bytes × List HostCall) :=
  let flags := r.flagsToResolve visit request state.resolvedFlags
  if flags.length > maxFlags then .error (.tooManyFlags flags.length)
  else
    match r.resolveEach flags c with
    | (.error e, _) => .error (.resolve e)
    | (.ok assigned, c') =>
        let resolved := state.resolvedFlags ++ assigned
        if c'.toRead.isEmpty then
          (r.respond host request resolved).map fun (response, calls) =>
            (.resolved response c'.toWrite, calls)
        else
          .ok (.suspended c'.toRead (wire.encode
            ⟨state.resolveRequest, resolved, c'.toWrite⟩), [])

/-- `resolve_flags`, on a state whose flags are visited in the order `visit`. -/
def resolveFlags (wire : Wire Bytes) (host : Host Bytes) (visit : List Flag)
    (request : ResolveProcessRequest Bytes) :
    Except ProcessError (ResolveProcessResponse Bytes × List HostCall) :=
  match start wire request with
  | .error e => .error e
  | .ok (state, c) =>
      match state.resolveRequest with
      | none => .error (.internal .missingRequest)
      | some resolveRequest => r.resolvePass wire host visit resolveRequest state c

end AccountResolver

end ConfidenceResolver
