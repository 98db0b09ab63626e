import ConfidenceResolver.Apply.ApplyFlags
import ConfidenceResolver.Hosts.Shutdown
import ConfidenceResolver.Logs.ContextSchema
import ConfidenceResolver.Resolver.FromProto
import ConfidenceResolver.Resolver.GetResolver
import ConfidenceResolver.Telemetry.Prometheus

/-!
# Hosts — the functions that the guest exports

`wasm/rust-guest`: one instance of the resolver behind its exported functions.  An instance is
single threaded, so it is a state machine: a host makes one call after the other, and the statics
are its state.

* `Statics`: the statics.  `Config`: those of them that an answer depends on.
* `resolveFlags`, `applyFlags`: the answers, with the calls to the instance as the resolver's host.
* `Statics.hostCall`: what these calls do to the loggers.
* `turn`, `run`: a call, and the calls of a host with what came of each.

A call that traps leaves the statics as they are: what can panic comes before the calls to the host.
The random generator is left out, and with it `init_thread`: what is drawn is given with the call
that draws it, and may be anything, as it depends on all that was drawn before, also for the
loggers.
-/

namespace ConfidenceResolver.WasmGuest

/-! ### Requests -/

/-- `ResolveFlagsRequest`, with what the resolver is looked up by. -/
structure ResolveRequest extends ResolveFlagsRequest where
  clientSecret : String
  evaluationContext : Option Struct

/-- `ResolveProcessState`. -/
structure ProcessState where
  resolveRequest : Option ResolveRequest
  resolvedFlags : List AssignedFlag
  materializationsToWrite : List MaterializationRecord

/-- `ResolveProcessRequest`. -/
inductive ProcessRequest (Bytes : Type) where
  | unset
  | deferredMaterializations (request : ResolveRequest)
  | staticMaterializations (request : Option ResolveRequest)
      (materializations : List MaterializationRecord)
  | withoutMaterializations (request : ResolveRequest)
  | resume (materializations : List MaterializationRecord) (state : Bytes)

/-- `ApplyFlagsRequest`, with the secret. -/
structure ApplyRequest (Bytes : Type) extends ApplyFlagsRequest Bytes where
  clientSecret : String

/-- `SetResolverStateRequest`. -/
structure SetResolverStateRequest (Bytes : Type) where
  state : Bytes
  accountId : String
  sdk : Option Sdk
  enableApplyDedup : Bool
  disableExposureCollection : Bool

/-- What the guest has from its libraries and from the crates it is linked with.  A hash map is
visited in an order of its own. -/
structure Library (Bytes : Type) where
  natives : Natives
  gzip : GzipLibrary
  checks : TextChecks
  chrono : Chrono
  sizes : AssignSizes
  /-- The upper bounds of the latency buckets, as they are written. -/
  upper : Nat → Option ℚ
  decodeResolverState : Bytes → Except String ResolverStatePb
  /-- The text of the code at which `from_proto` fails. -/
  fromProtoError : ResolverStatePb → String
  encodeState : ProcessState → Bytes
  decodeState : Bytes → Except String ProcessState
  decode_encode : ∀ s, decodeState (encodeState s) = .ok s
  encodeToken : ResolveToken → Bytes
  decodeToken : Bytes → Option (Option ResolveToken)
  visit : ResolverState → List Flag
  code : Site → String
  applyCode : ApplySite → String

/-- What a call reads besides its request: the time, and what it draws at random. -/
structure Readings where
  currentTime : Timestamp
  resolveId : String
  pick : Nat

variable {Bytes : Type}

/-- The request as the resolver has it. -/
def ProcessRequest.toResolver : ProcessRequest Bytes → ResolveProcessRequest Bytes
  | .unset => .unset
  | .deferredMaterializations request => .deferredMaterializations request.toResolveFlagsRequest
  | .staticMaterializations request materializations =>
      .staticMaterializations (request.map (·.toResolveFlagsRequest)) materializations
  | .withoutMaterializations request => .withoutMaterializations request.toResolveFlagsRequest
  | .resume materializations state => .resume materializations state

def ProcessState.toResolver (s : ProcessState) : ResolveProcessState where
  resolveRequest := s.resolveRequest.map (·.toResolveFlagsRequest)
  resolvedFlags := s.resolvedFlags
  materializationsToWrite := s.materializationsToWrite

/-- A continuation of the resolver, which carries the secret and the context of its request on. -/
def ResolveRequest.continuation (request : ResolveRequest) (s : ResolveProcessState) :
    ProcessState where
  resolveRequest := s.resolveRequest.map fun r => { request with toResolveFlagsRequest := r }
  resolvedFlags := s.resolvedFlags
  materializationsToWrite := s.materializationsToWrite

@[simp] theorem toResolver_continuation (request : ResolveRequest) (s : ResolveProcessState) :
    (request.continuation s).toResolver = s := by
  obtain ⟨resolveRequest, resolvedFlags, materializationsToWrite⟩ := s
  cases resolveRequest <;> rfl

/-- The continuations of a request. -/
def Library.wire (lib : Library Bytes) (request : ResolveRequest) : Wire Bytes where
  encode s := lib.encodeState (request.continuation s)
  decode bytes := (lib.decodeState bytes).toOption.map (·.toResolver)
  decode_encode s := by simp [lib.decode_encode, Except.toOption]

/-! ### The statics -/

/-- The statics of an instance. -/
structure Statics extends Guest where
  disableExposureCollection : Bool

/-- The statics that an answer depends on. -/
structure Config where
  resolverState : Option ResolverState
  disableExposureCollection : Bool

namespace Statics

/-- The statics of a new instance. -/
def new : Statics where
  assignLogger := .empty
  resolveLogger := {}
  telemetry := .new
  lastFlushed := {}
  applyDedup := .new 120 100000
  lastDedupSnapshot := {}
  applyDedupEnabled := false
  resolverState := none
  disableExposureCollection := false

def config (g : Statics) : Config := ⟨g.resolverState, g.disableExposureCollection⟩

end Statics

/-! ### Answers -/

/-- What a function answers: a value, or the text of an error; a trap is the outer `none`. -/
abbrev Answer := ExceptT String Option

namespace Answer

variable {α : Type}

def of (x : Except String α) : Answer α := ExceptT.mk (some x)

def trap : Answer α := ExceptT.mk none

theorem bind_eq_pure {β : Type} {x : Answer α} {f : α → Answer β} {b : β} :
    (x >>= f) = pure b ↔ ∃ a, x = pure a ∧ f a = pure b := by
  rcases x with _ | (text | a)
  · refine iff_of_false (fun h => ?_) fun ⟨_, h, _⟩ => ?_ <;> cases h
  · refine iff_of_false (fun h => ?_) fun ⟨_, h, _⟩ => ?_ <;> cases h
  · constructor
    · exact fun h => ⟨a, rfl, h⟩
    · rintro ⟨a', h, hf⟩
      cases h
      exact hf

theorem adapt_eq_pure {f : String → String} {x : Answer α} {a : α} :
    ExceptT.adapt f x = pure a ↔ x = pure a := by
  rcases x with _ | (text | a') <;> constructor <;> intro h <;> cases h <;> rfl

@[simp] theorem of_eq_pure {x : Except String α} {a : α} : of x = pure a ↔ x = .ok a := by
  constructor
  · intro h
    cases h
    rfl
  · rintro rfl
    rfl

end Answer

/-- The end of a request: a panic of the resolver is a trap. -/
def Library.finish {α : Type} (lib : Library Bytes) : Except ProcessError α → Answer α
  | .ok a => pure a
  | .error (.resolve .panic) => .trap
  | .error e => .of (.error (e.text lib.code))

theorem Library.finish_eq_pure {α : Type} {lib : Library Bytes} {x : Except ProcessError α} {a : α}
    (h : lib.finish x = pure a) : x = .ok a := by
  rcases x with e | a'
  · rcases e with _ | _ | _ | (_ | _ | _ | _ | _ | _) | _ <;> cases h
  · cases h
    rfl

/-- `get_resolver_state`. -/
def Statics.getResolverState (g : Statics) : Answer ResolverState :=
  .of (g.resolverState.elim (.error "Resolver state not set") .ok)

/-- `get_resolver` with a key of zeros, and `with_disable_exposure_collection`. -/
def Library.getResolver (lib : Library Bytes) (g : Statics) (state : ResolverState)
    (clientSecret : String) (evaluationContext : Struct) : Answer AccountResolver := do
  let resolver ← ExceptT.mk (state.getResolver lib.natives clientSecret evaluationContext true)
  return { resolver with disableExposureCollection := g.disableExposureCollection }

/-- The request that a call of `resolve_flags` is about. -/
def Library.resolveRequest (lib : Library Bytes) :
    ProcessRequest Bytes → Except String ResolveRequest
  | .unset => .error "request is required"
  | .deferredMaterializations request => .ok request
  | .staticMaterializations request _ => request.elim (.error "resolve_request is required") .ok
  | .withoutMaterializations request => .ok request
  | .resume _ state => do
      let cont ← (lib.decodeState state).mapError ("Failed to decode continuation state: " ++ ·)
      cont.resolveRequest.elim (.error "continuation missing resolve_request") .ok

/-- `resolve_flags`. -/
def Library.resolveFlags (lib : Library Bytes) (g : Statics) (r : Readings)
    (request : ProcessRequest Bytes) : Answer (ResolveProcessResponse Bytes × List HostCall) := do
  let state ← g.getResolverState
  let resolveRequest ← Answer.of (lib.resolveRequest request)
  let evaluationContext := resolveRequest.evaluationContext.getD []
  let resolver ← lib.getResolver g state resolveRequest.clientSecret evaluationContext
  lib.finish (resolver.resolveFlags (lib.wire resolveRequest)
    ⟨r.currentTime, r.resolveId, lib.encodeToken⟩ (lib.visit state) request.toResolver)

/-- The instance as the host of an apply: tokens are not encrypted. -/
def Library.applyHost (lib : Library Bytes) (r : Readings) : ApplyHost Bytes Bytes where
  currentTime := r.currentTime
  decryptResolveToken := .ok
  decodeResolveToken := lib.decodeToken

/-- The text of a failed apply. -/
def applyText (text : String) : String := "apply_flags: " ++ text

/-- `apply_flags`. -/
def Library.applyFlags (lib : Library Bytes) (g : Statics) (r : Readings)
    (request : ApplyRequest Bytes) : Answer (List HostCall) := do
  let state ← g.getResolverState
  let resolver ← ExceptT.adapt applyText (lib.getResolver g state request.clientSecret [])
  Answer.of ((resolver.applyFlags lib.chrono (lib.applyHost r) request.toApplyFlagsRequest).mapError
    fun e => applyText (e.text lib.applyCode))

/-- The state that `set_resolver_state` stores. -/
def Library.newState (lib : Library Bytes) (request : SetResolverStateRequest Bytes) :
    Except String ResolverState := do
  let pb ← (lib.decodeResolverState request.state).mapError
    ("Failed to decode resolver state: " ++ ·)
  (ResolverState.fromProto lib.gzip pb request.accountId request.sdk).elim
    (.error (lib.fromProtoError pb)) .ok

/-! ### What a call changes -/

namespace Statics

/-- The stores of `set_resolver_state`. -/
def setResolverState (g : Statics) (request : SetResolverStateRequest Bytes)
    (newState : ResolverState) : Statics :=
  { g with
    applyDedupEnabled := request.enableApplyDedup
    disableExposureCollection := request.disableExposureCollection
    resolverState := some newState }

/-- `log_assign`, with what `log_assigns` is called with. -/
def logAssign (g : Statics) (resolveId : String) (assignedFlags : List FlagToApply)
    (client : Client) (sdk : Option Sdk) : Statics :=
  let (applyDedup, logged) :=
    ConfidenceResolver.logAssign g.applyDedup g.applyDedupEnabled assignedFlags
  { g with
    applyDedup := applyDedup
    assignLogger := logged.elim g.assignLogger fun flags =>
      g.assignLogger.logAssigns resolveId flags client sdk }

/-- `log_resolve`. -/
def logResolve (g : Statics) (lib : Library Bytes) (context : Struct) (values : List ResolvedValue)
    (client : Client) (pick : Nat) : Statics :=
  { g with
    resolveLogger := g.resolveLogger.log
      ⟨getSchema lib.checks context, client.clientCredentialName, values, pick⟩ }

/-- A call to the instance as the resolver's host. -/
def hostCall (lib : Library Bytes) (pick : Nat) (g : Statics) : HostCall → Statics
  | .logAssign resolveId assignedFlags client sdk => g.logAssign resolveId assignedFlags client sdk
  | .logResolve _ context values client => g.logResolve lib context values client pick

/-- An addition to the telemetry. -/
def measure (g : Statics) (call : ConfidenceResolver.Call) : Statics :=
  { g with telemetry := { g.telemetry with cells := addAll g.telemetry.cells call.additions } }

/-- `register_resolve`. -/
def registerResolve (g : Statics) (reason : Int32) (latencyUs : UInt32) : Statics :=
  (g.measure (.observe latencyUs)).measure
    (.markResolve ((ResolveReason.tryFrom reason).getD .unspecified))

/-- `flush_logs`. -/
def flushLogs (g : Statics) (lib : Library Bytes) (now : Int64) : Statics × WriteFlagLogsRequest :=
  let guest := g.sweepApplyDedup now
  let (assignLogger, request, _) :=
    guest.assignLogger.checkpointFill lib.sizes (ResolveLogger.report guest.resolveLogger)
  ({ g with toGuest := { guest with assignLogger := assignLogger, resolveLogger := {} } }, request)

/-- `prometheus_snapshot`. -/
def prometheusSnapshot (g : Statics) (lib : Library Bytes) (resolverId : String)
    (config : PrometheusConfig) (memory : UInt64) : String :=
  let snap := g.telemetry.snapshot memory
  let snap :=
    if g.applyDedupEnabled then { snap with applyDedup := some g.applyDedup.telemetrySnapshot }
    else snap
  snap.toPrometheus lib.upper resolverId config

end Statics

/-! ### Calls -/

/-- A call of a host to an exported function. -/
inductive Call (Bytes : Type) where
  | setResolverState (request : SetResolverStateRequest Bytes)
  | resolveFlags (request : ProcessRequest Bytes) (readings : Readings)
  | registerResolve (reason : Int32) (latencyUs : UInt32)
  | flushLogs (now : Int64)
  | boundedFlushLogs (now : Int64) (memory : UInt64 × UInt64)
  | boundedFlushAssign (now : Int64)
  | prometheusSnapshot (resolverId : String) (config : PrometheusConfig) (memory : UInt64)
  | applyFlags (request : ApplyRequest Bytes) (readings : Readings)

/-- What a function returns. -/
inductive Reply (Bytes : Type) where
  | void
  | resolve (response : ResolveProcessResponse Bytes)
  | logs (request : WriteFlagLogsRequest)
  | text (text : String)

/-- A call, what it answered, and the calls that it made to the instance as the resolver's host. -/
structure Turn (Bytes : Type) where
  call : Call Bytes
  answer : Option (Except String (Reply Bytes))
  hostCalls : List HostCall := []

namespace Statics

variable (lib : Library Bytes) (g : Statics)

/-- The end of a call of the resolver. -/
def served (call : Call Bytes) (pick : Nat) :
    Answer (Reply Bytes × List HostCall) → Statics × Turn Bytes
  | none => (g, ⟨call, none, []⟩)
  | some (.error text) => (g, ⟨call, some (.error text), []⟩)
  | some (.ok (reply, calls)) =>
      (calls.foldl (hostCall lib pick) g, ⟨call, some (.ok reply), calls⟩)

/-- A call that returns logs. -/
def flushed (call : Call Bytes) (out : Statics × WriteFlagLogsRequest) : Statics × Turn Bytes :=
  (out.1, ⟨call, some (.ok (.logs out.2)), []⟩)

/-- One call. -/
def turn (call : Call Bytes) : Statics × Turn Bytes :=
  match call with
  | .setResolverState request =>
      match lib.newState request with
      | .error text => (g, ⟨call, some (.error text), []⟩)
      | .ok newState => (g.setResolverState request newState, ⟨call, some (.ok .void), []⟩)
  | .resolveFlags request r =>
      g.served lib call r.pick ((lib.resolveFlags g r request).map fun (response, calls) =>
        (.resolve response, calls))
  | .registerResolve reason latencyUs =>
      (g.registerResolve reason latencyUs, ⟨call, some (.ok .void), []⟩)
  | .flushLogs now => flushed call (g.flushLogs lib now)
  | .boundedFlushLogs now memory =>
      let (guest, request) := g.toGuest.boundedFlushLogs lib.sizes now memory
      flushed call ({ g with toGuest := guest }, request)
  | .boundedFlushAssign now =>
      let (guest, request) := g.toGuest.boundedFlushAssign lib.sizes now
      flushed call ({ g with toGuest := guest }, request)
  | .prometheusSnapshot resolverId config memory =>
      (g, ⟨call, some (.ok (.text (g.prometheusSnapshot lib resolverId config memory))), []⟩)
  | .applyFlags request r =>
      g.served lib call r.pick ((lib.applyFlags g r request).map fun calls => (.void, calls))

end Statics

/-- What a call comes to. -/
inductive TurnOf (lib : Library Bytes) (g : Statics) :
    Call Bytes → Statics × Turn Bytes → Prop where
  | stored {request : SetResolverStateRequest Bytes} {newState : ResolverState}
      (h : lib.newState request = .ok newState) :
    TurnOf lib g (.setResolverState request)
      (g.setResolverState request newState, ⟨.setResolverState request, some (.ok .void), []⟩)
  | failed {call : Call Bytes} {answer : Option (Except String (Reply Bytes))}
      (h : ∀ reply, answer ≠ some (.ok reply)) : TurnOf lib g call (g, ⟨call, answer, []⟩)
  | resolved {request : ProcessRequest Bytes} {r : Readings}
      {response : ResolveProcessResponse Bytes} {calls : List HostCall}
      (h : lib.resolveFlags g r request = pure (response, calls)) :
    TurnOf lib g (.resolveFlags request r)
      (calls.foldl (Statics.hostCall lib r.pick) g,
        ⟨.resolveFlags request r, some (.ok (.resolve response)), calls⟩)
  | applied {request : ApplyRequest Bytes} {r : Readings} {calls : List HostCall}
      (h : lib.applyFlags g r request = pure calls) :
    TurnOf lib g (.applyFlags request r)
      (calls.foldl (Statics.hostCall lib r.pick) g,
        ⟨.applyFlags request r, some (.ok .void), calls⟩)
  | registered (reason : Int32) (latencyUs : UInt32) :
    TurnOf lib g (.registerResolve reason latencyUs)
      (g.registerResolve reason latencyUs,
        ⟨.registerResolve reason latencyUs, some (.ok .void), []⟩)
  | flushLogs (now : Int64) :
    TurnOf lib g (.flushLogs now) (Statics.flushed (.flushLogs now) (g.flushLogs lib now))
  | boundedFlushLogs (now : Int64) (memory : UInt64 × UInt64) :
    TurnOf lib g (.boundedFlushLogs now memory)
      (Statics.flushed (.boundedFlushLogs now memory)
        ({ g with toGuest := (g.toGuest.boundedFlushLogs lib.sizes now memory).1 },
          (g.toGuest.boundedFlushLogs lib.sizes now memory).2))
  | boundedFlushAssign (now : Int64) :
    TurnOf lib g (.boundedFlushAssign now)
      (Statics.flushed (.boundedFlushAssign now)
        ({ g with toGuest := (g.toGuest.boundedFlushAssign lib.sizes now).1 },
          (g.toGuest.boundedFlushAssign lib.sizes now).2))
  | rendered (resolverId : String) (config : PrometheusConfig) (memory : UInt64) :
    TurnOf lib g (.prometheusSnapshot resolverId config memory)
      (g, ⟨.prometheusSnapshot resolverId config memory,
        some (.ok (.text (g.prometheusSnapshot lib resolverId config memory))), []⟩)

theorem turnOf (lib : Library Bytes) (g : Statics) (call : Call Bytes) :
    TurnOf lib g call (g.turn lib call) := by
  cases call with
  | setResolverState request =>
      rw [Statics.turn]
      cases hstate : lib.newState request with
      | error text => exact .failed (by simp)
      | ok newState => exact .stored hstate
  | resolveFlags request r =>
      rw [Statics.turn]
      rcases hanswer : lib.resolveFlags g r request with _ | (text | ⟨response, calls⟩)
      · exact .failed (by simp)
      · exact .failed (by simp)
      · exact .resolved hanswer
  | applyFlags request r =>
      rw [Statics.turn]
      rcases hanswer : lib.applyFlags g r request with _ | (text | calls)
      · exact .failed (by simp)
      · exact .failed (by simp)
      · exact .applied hanswer
  | registerResolve reason latencyUs => exact .registered reason latencyUs
  | flushLogs now => exact .flushLogs now
  | boundedFlushLogs now memory => exact .boundedFlushLogs now memory
  | boundedFlushAssign now => exact .boundedFlushAssign now
  | prometheusSnapshot resolverId config memory => exact .rendered resolverId config memory

/-- An instance, and its calls so far. -/
structure Run (Bytes : Type) where
  statics : Statics
  turns : List (Turn Bytes)

namespace Run

def start : Run Bytes := ⟨.new, []⟩

def step (lib : Library Bytes) (r : Run Bytes) (call : Call Bytes) : Run Bytes :=
  ⟨(r.statics.turn lib call).1, r.turns ++ [(r.statics.turn lib call).2]⟩

def run (lib : Library Bytes) (r : Run Bytes) (calls : List (Call Bytes)) : Run Bytes :=
  calls.foldl (step lib) r

/-- What every call keeps holds of a whole run. -/
theorem run_induction {lib : Library Bytes} {P : Run Bytes → Prop}
    (hstep : ∀ r call, P r → P (r.step lib call)) {r : Run Bytes} (h : P r)
    (calls : List (Call Bytes)) : P (r.run lib calls) := by
  induction calls generalizing r with
  | nil => exact h
  | cons call calls ih => exact ih (hstep r call h)

end Run

end ConfidenceResolver.WasmGuest
