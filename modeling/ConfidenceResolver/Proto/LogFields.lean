import ConfidenceResolver.Proto.Logs
import ConfidenceResolver.Support.Overwrite
import ConfidenceResolver.Telemetry.Increments

/-!
# Proto — the fields of a log request

An encoded `WriteFlagLogsRequest` is the list of its fields; those of an embedded message are a list
in turn.  Encodings are joined by appending them.  A reader takes all values of a repeated field,
joins the parts of an embedded message, and takes the last value of a scalar.

* `WriteFlagLogsRequest.encode`, `WriteFlagLogsRequest.decode`.
* `Appended`, `Overwritten`: what is read from joined encodings of a repeated field, and of a
  scalar.
* `WriteFlagLogsRequest.flagAssigned_appended` and its like,
  `WriteFlagLogsRequest.scalar_overwritten`.
-/

namespace ConfidenceResolver

/-! ### Fields -/

/-- The `uint32` fields of a message, by their numbers. -/
abbrev ScalarFields := List (Nat × UInt32)

/-- A scalar with the default value is left out. -/
def ScalarFields.encode (fields : ScalarFields) : ScalarFields := fields.filter (·.2 ≠ 0)

/-- The values of a scalar. -/
def ScalarFields.valuesAt (number : Nat) (fields : ScalarFields) : List UInt32 :=
  (fields.filter (·.1 = number)).map (·.2)

/-- The last value of a scalar wins. -/
def ScalarFields.read (number : Nat) (fields : ScalarFields) : UInt32 :=
  (fields.valuesAt number).getLast?.getD 0

/-- A singular field with the default value is left out. -/
def nonDefault {A : Type*} [DecidableEq A] (default value : A) : List A :=
  if value = default then [] else [value]

/-- A singular message is there if a part of it is; its parts are joined. -/
def embedded {F M : Type*} (decode : List F → M) (parts : List (List F)) : Option M :=
  if parts.isEmpty then none else some (decode parts.flatten)

inductive SdkField where
  | name (n : SdkName)
  | version (s : String)

inductive LatencyField where
  | scalar (number : Nat) (n : UInt32)
  | bucket (span : BucketSpan)
  | lnRatio (x : Float)

inductive TelemetryField where
  | sdk (fields : List SdkField)
  | resolveLatency (fields : List LatencyField)
  | resolveRate (rate : ResolveRate)
  | stateAge (lastStateUpdate : List UInt64)
  | memoryBytes (n : UInt64)
  | resolverVersion (s : String)
  | providerInitRate (rate : ProviderInitRate)
  | applyDedup (fields : ScalarFields)
  | flush (fields : ScalarFields)
  | events (fields : ScalarFields)

inductive LogField where
  | flagAssigned (event : FlagAssigned)
  | telemetryData (fields : List TelemetryField)
  | clientResolveInfo (info : ClientResolveInfo)
  | flagResolveInfo (info : FlagResolveInfo)

/-! The values of one field. -/

def SdkField.name? : SdkField → Option SdkName
  | .name n => n
  | .version _ => none

def SdkField.version? : SdkField → Option String
  | .version s => s
  | .name _ => none

def LatencyField.scalar? : LatencyField → Option (Nat × UInt32)
  | .scalar number n => some (number, n)
  | .bucket _ | .lnRatio _ => none

def LatencyField.bucket? : LatencyField → Option BucketSpan
  | .bucket span => span
  | .scalar _ _ | .lnRatio _ => none

def LatencyField.lnRatio? : LatencyField → Option Float
  | .lnRatio x => x
  | .scalar _ _ | .bucket _ => none

namespace TelemetryField

def sdk? : TelemetryField → Option (List SdkField)
  | .sdk fields => fields
  | _ => none

def resolveLatency? : TelemetryField → Option (List LatencyField)
  | .resolveLatency fields => fields
  | _ => none

def resolveRate? : TelemetryField → Option ResolveRate
  | .resolveRate rate => rate
  | _ => none

def stateAge? : TelemetryField → Option (List UInt64)
  | .stateAge lastStateUpdate => lastStateUpdate
  | _ => none

def memoryBytes? : TelemetryField → Option UInt64
  | .memoryBytes n => n
  | _ => none

def resolverVersion? : TelemetryField → Option String
  | .resolverVersion s => s
  | _ => none

def providerInitRate? : TelemetryField → Option ProviderInitRate
  | .providerInitRate rate => rate
  | _ => none

def applyDedup? : TelemetryField → Option ScalarFields
  | .applyDedup fields => fields
  | _ => none

def flush? : TelemetryField → Option ScalarFields
  | .flush fields => fields
  | _ => none

def events? : TelemetryField → Option ScalarFields
  | .events fields => fields
  | _ => none

end TelemetryField

namespace LogField

def flagAssigned? : LogField → Option FlagAssigned
  | .flagAssigned event => event
  | _ => none

def telemetryData? : LogField → Option (List TelemetryField)
  | .telemetryData fields => fields
  | _ => none

def clientResolveInfo? : LogField → Option ClientResolveInfo
  | .clientResolveInfo info => info
  | _ => none

def flagResolveInfo? : LogField → Option FlagResolveInfo
  | .flagResolveInfo info => info
  | _ => none

end LogField

/-! ### Messages -/

def Sdk.encode (m : Sdk) : List SdkField :=
  m.sdk.toList.map .name ++ (nonDefault "" m.version).map .version

def Sdk.decode (fields : List SdkField) : Sdk where
  sdk := (fields.filterMap SdkField.name?).getLast?
  version := (fields.filterMap SdkField.version?).getLast?.getD ""

def ResolveLatency.encode (m : ResolveLatency) : List LatencyField :=
  (ScalarFields.encode [(1, m.sum), (2, m.count)]).map (fun f => .scalar f.1 f.2) ++
    m.buckets.map .bucket ++ (if m.lnRatio == 0 then [] else [m.lnRatio]).map .lnRatio

def ResolveLatency.decode (fields : List LatencyField) : ResolveLatency where
  sum := ScalarFields.read 1 (fields.filterMap LatencyField.scalar?)
  count := ScalarFields.read 2 (fields.filterMap LatencyField.scalar?)
  buckets := fields.filterMap LatencyField.bucket?
  lnRatio := (fields.filterMap LatencyField.lnRatio?).getLast?.getD 0

def StateAge.encode (m : StateAge) : List UInt64 := nonDefault 0 m.lastStateUpdate

def StateAge.decode (fields : List UInt64) : StateAge := ⟨fields.getLast?.getD 0⟩

def ApplyDedupTelemetry.encode (m : ApplyDedupTelemetry) : ScalarFields :=
  ScalarFields.encode [(1, m.appliesTotal), (2, m.appliesDeduped), (3, m.applyDedupOverflow),
    (4, m.sweeps), (5, m.mapSize), (6, m.mapCapacity)]

def ApplyDedupTelemetry.decode (fields : ScalarFields) : ApplyDedupTelemetry :=
  ⟨fields.read 1, fields.read 2, fields.read 3, fields.read 4, fields.read 5, fields.read 6⟩

def FlushTelemetry.encode (m : FlushTelemetry) : ScalarFields :=
  ScalarFields.encode [(1, m.succeeded), (2, m.failed)]

def FlushTelemetry.decode (fields : ScalarFields) : FlushTelemetry := ⟨fields.read 1, fields.read 2⟩

def EventsTelemetry.encode (m : EventsTelemetry) : ScalarFields :=
  ScalarFields.encode [(1, m.published), (2, m.batchesSucceeded), (3, m.batchesFailed),
    (4, m.eventsRejected)]

def EventsTelemetry.decode (fields : ScalarFields) : EventsTelemetry :=
  ⟨fields.read 1, fields.read 2, fields.read 3, fields.read 4⟩

def TelemetryData.encode (m : TelemetryData) : List TelemetryField :=
  m.sdk.toList.map (fun s => .sdk s.encode) ++
    m.resolveLatency.toList.map (fun l => .resolveLatency l.encode) ++
    m.resolveRate.map .resolveRate ++
    m.stateAge.toList.map (fun a => .stateAge a.encode) ++
    (nonDefault 0 m.memoryBytes).map .memoryBytes ++
    (nonDefault "" m.resolverVersion).map .resolverVersion ++
    m.providerInitRate.map .providerInitRate ++
    m.applyDedup.toList.map (fun d => .applyDedup d.encode) ++
    m.flush.toList.map (fun f => .flush f.encode) ++
    m.events.toList.map (fun e => .events e.encode)

def TelemetryData.decode (fields : List TelemetryField) : TelemetryData where
  sdk := embedded Sdk.decode (fields.filterMap TelemetryField.sdk?)
  resolveLatency := embedded ResolveLatency.decode (fields.filterMap TelemetryField.resolveLatency?)
  resolveRate := fields.filterMap TelemetryField.resolveRate?
  stateAge := embedded StateAge.decode (fields.filterMap TelemetryField.stateAge?)
  memoryBytes := (fields.filterMap TelemetryField.memoryBytes?).getLast?.getD 0
  resolverVersion := (fields.filterMap TelemetryField.resolverVersion?).getLast?.getD ""
  providerInitRate := fields.filterMap TelemetryField.providerInitRate?
  applyDedup := embedded ApplyDedupTelemetry.decode (fields.filterMap TelemetryField.applyDedup?)
  flush := embedded FlushTelemetry.decode (fields.filterMap TelemetryField.flush?)
  events := embedded EventsTelemetry.decode (fields.filterMap TelemetryField.events?)

def WriteFlagLogsRequest.encode (m : WriteFlagLogsRequest) : List LogField :=
  m.flagAssigned.map .flagAssigned ++
    m.telemetryData.toList.map (fun td => .telemetryData td.encode) ++
    m.clientResolveInfo.map .clientResolveInfo ++ m.flagResolveInfo.map .flagResolveInfo

def WriteFlagLogsRequest.decode (fields : List LogField) : WriteFlagLogsRequest where
  flagAssigned := fields.filterMap LogField.flagAssigned?
  telemetryData := embedded TelemetryData.decode (fields.filterMap LogField.telemetryData?)
  clientResolveInfo := fields.filterMap LogField.clientResolveInfo?
  flagResolveInfo := fields.filterMap LogField.flagResolveInfo?

/-! ### Joined encodings -/

section Joined

variable {F M N A : Type*} {encode : M → List F} {decode : List F → M}

/-- A repeated part of a message: the parts of joined encodings are appended. -/
def Appended (encode : M → List F) (decode : List F → M) (part : M → List A) : Prop :=
  ∀ ms : List M, part (decode (ms.flatMap encode)) = ms.flatMap part

/-- A scalar of a message: it is overwritten by each one that is not zero. -/
def Overwritten (encode : M → List F) (decode : List F → M) (scalar : M → UInt32) : Prop :=
  ∀ ms : List M, (scalar (decode (ms.flatMap encode))).toNat =
    Overwrite.last (ms.map fun m => (scalar m).toNat)

/-- The values of a field in joined encodings. -/
theorem filterMap_joined {field : F → Option A} {part : M → List A}
    (h : ∀ m, (encode m).filterMap field = part m) (ms : List M) :
    (ms.flatMap encode).filterMap field = ms.flatMap part := by
  rw [List.filterMap_flatMap, funext h]

/-- The parts of a singular message in joined encodings. -/
theorem singular_joined {G : Type*} {field : F → Option (List G)} {part : N → Option M}
    {encode : N → List F} {encodePart : M → List G}
    (h : ∀ n, (encode n).filterMap field = (part n).toList.map encodePart) (ns : List N) :
    (ns.flatMap encode).filterMap field = (ns.filterMap part).map encodePart := by
  rw [filterMap_joined h]
  induction ns with
  | nil => rfl
  | cons n ns ih =>
      cases hn : part n with
      | none => simp [hn, ih]
      | some m => simp [hn, ih]

/-- What is read from the joined parts of a singular message. -/
theorem embedded_map (ms : List M) :
    embedded decode (ms.map encode) =
      if ms.isEmpty then none else some (decode (ms.flatMap encode)) := by
  rw [embedded, List.isEmpty_map, ← List.flatMap_def]

/-- A repeated part of a singular message is appended. -/
theorem Appended.singular {part : M → List A} (h : Appended encode decode part)
    (message : N → Option M) (ns : List N) :
    ((embedded decode ((ns.filterMap message).map encode)).map part).getD [] =
      ns.flatMap fun n => ((message n).map part).getD [] := by
  have hparts : (ns.flatMap fun n => ((message n).map part).getD []) =
      (ns.filterMap message).flatMap part := by
    induction ns with
    | nil => rfl
    | cons n ns ih =>
        cases hn : message n with
        | none => simp [hn, ih]
        | some m => simp [hn, ih]
  rw [hparts, embedded_map]
  cases hms : ns.filterMap message with
  | nil => rfl
  | cons m ms => exact h (m :: ms)

/-- A scalar of a singular message is overwritten. -/
theorem Overwritten.singular {scalar : M → UInt32} (h : Overwritten encode decode scalar)
    (message : N → Option M) (ns : List N) :
    (((embedded decode ((ns.filterMap message).map encode)).map scalar).getD
        0).toNat =
      Overwrite.last (ns.map fun n => (((message n).map scalar).getD 0).toNat) := by
  have hparts : Overwrite.last (ns.map fun n => (((message n).map scalar).getD 0).toNat) =
      Overwrite.last ((ns.filterMap message).map fun m => (scalar m).toNat) := by
    rw [Overwrite.last_eq_getLast, Overwrite.last_eq_getLast]
    congr 2
    induction ns with
    | nil => rfl
    | cons n ns ih =>
        cases hn : message n with
        | none => simpa [hn] using ih
        | some m => simp only [List.map_cons, List.filterMap_cons, hn, List.filter_cons, ih]; rfl
  rw [hparts, embedded_map]
  cases hms : ns.filterMap message with
  | nil => rfl
  | cons m ms => exact h (m :: ms)

end Joined

/-! Scalars. -/

theorem filter_nonDefault (n : UInt32) : [n].filter (· ≠ 0) = nonDefault 0 n := by
  by_cases hn : n = 0
  · simp [hn, nonDefault]
  · simp [hn, nonDefault]

/-- The values of a scalar in one encoding. -/
theorem ScalarFields.valuesAt_encode {fields : ScalarFields} {number : Nat} {n : UInt32}
    (h : fields.valuesAt number = [n]) : fields.encode.valuesAt number = nonDefault 0 n := by
  rw [← filter_nonDefault, ← h, valuesAt, valuesAt, encode, List.filter_map, List.filter_filter,
    List.filter_filter]
  congr 1
  exact List.filter_congr fun f _ => Bool.and_comm _ _

/-- The last value of a scalar in joined encodings. -/
theorem ScalarFields.read_joined {M : Type*} {encode : M → ScalarFields} {number : Nat}
    {scalar : M → UInt32} (h : ∀ m, (encode m).valuesAt number = nonDefault 0 (scalar m))
    (ms : List M) :
    (ScalarFields.read number (ms.flatMap encode)).toNat =
      Overwrite.last (ms.map fun m => (scalar m).toNat) := by
  have hvalues : ScalarFields.valuesAt number (ms.flatMap encode) =
      (ms.map scalar).filter (· ≠ 0) := by
    induction ms with
    | nil => rfl
    | cons m ms ih =>
        rw [valuesAt] at ih
        rw [List.flatMap_cons, valuesAt, List.filter_append, List.map_append, ih, ← valuesAt, h m,
          ← filter_nonDefault, List.map_cons, ← List.filter_append, List.singleton_append]
  have hnat : (ms.map fun m => (scalar m).toNat).filter (· ≠ 0) =
      ((ms.map scalar).filter (· ≠ 0)).map UInt32.toNat := by
    rw [List.filter_map, List.filter_map, List.map_map]
    congr 1
    refine List.filter_congr fun m _ => ?_
    simp [← UInt32.toNat_inj]
  rw [read, hvalues, Overwrite.last_eq_getLast, hnat, List.getLast?_map]
  cases ((ms.map scalar).filter (· ≠ 0)).getLast? with
  | none => rfl
  | some n => rfl

/-! The messages. -/

namespace ResolveLatency

theorem scalars_encode (m : ResolveLatency) :
    m.encode.filterMap LatencyField.scalar? = ScalarFields.encode [(1, m.sum), (2, m.count)] := by
  simp [encode, Function.comp_def, LatencyField.scalar?]

theorem buckets_encode (m : ResolveLatency) :
    m.encode.filterMap LatencyField.bucket? = m.buckets := by
  simp [encode, Function.comp_def, LatencyField.bucket?]

theorem buckets_appended : Appended encode decode (·.buckets) := by
  intro ms
  exact filterMap_joined buckets_encode ms

theorem sum_overwritten : Overwritten encode decode (·.sum) := by
  intro ms
  rw [decode, filterMap_joined scalars_encode]
  exact ScalarFields.read_joined (fun m => ScalarFields.valuesAt_encode rfl) ms

theorem count_overwritten : Overwritten encode decode (·.count) := by
  intro ms
  rw [decode, filterMap_joined scalars_encode]
  exact ScalarFields.read_joined (fun m => ScalarFields.valuesAt_encode rfl) ms

end ResolveLatency

namespace TelemetryData

theorem resolveRate_encode (m : TelemetryData) :
    m.encode.filterMap TelemetryField.resolveRate? = m.resolveRate := by
  simp [encode, Function.comp_def, TelemetryField.resolveRate?]

theorem resolveLatency_encode (m : TelemetryData) :
    m.encode.filterMap TelemetryField.resolveLatency? =
      m.resolveLatency.toList.map ResolveLatency.encode := by
  simp [encode, Function.comp_def, TelemetryField.resolveLatency?]

theorem applyDedup_encode (m : TelemetryData) :
    m.encode.filterMap TelemetryField.applyDedup? =
      m.applyDedup.toList.map ApplyDedupTelemetry.encode := by
  simp [encode, Function.comp_def, TelemetryField.applyDedup?]

theorem flush_encode (m : TelemetryData) :
    m.encode.filterMap TelemetryField.flush? = m.flush.toList.map FlushTelemetry.encode := by
  simp [encode, Function.comp_def, TelemetryField.flush?]

theorem events_encode (m : TelemetryData) :
    m.encode.filterMap TelemetryField.events? = m.events.toList.map EventsTelemetry.encode := by
  simp [encode, Function.comp_def, TelemetryField.events?]

/-- The buckets of the latency. -/
def buckets (m : TelemetryData) : List BucketSpan := (m.resolveLatency.map (·.buckets)).getD []

theorem resolveRate_appended : Appended encode decode (·.resolveRate) := by
  intro ms
  exact filterMap_joined resolveRate_encode ms

theorem resolveLatency_joined (ms : List TelemetryData) :
    (decode (ms.flatMap encode)).resolveLatency = embedded ResolveLatency.decode
      ((ms.filterMap (·.resolveLatency)).map ResolveLatency.encode) := by
  rw [decode, singular_joined resolveLatency_encode]

theorem applyDedup_joined (ms : List TelemetryData) :
    (decode (ms.flatMap encode)).applyDedup = embedded ApplyDedupTelemetry.decode
      ((ms.filterMap (·.applyDedup)).map ApplyDedupTelemetry.encode) := by
  rw [decode, singular_joined applyDedup_encode]

theorem flush_joined (ms : List TelemetryData) :
    (decode (ms.flatMap encode)).flush =
      embedded FlushTelemetry.decode ((ms.filterMap (·.flush)).map FlushTelemetry.encode) := by
  rw [decode, singular_joined flush_encode]

theorem events_joined (ms : List TelemetryData) :
    (decode (ms.flatMap encode)).events =
      embedded EventsTelemetry.decode ((ms.filterMap (·.events)).map EventsTelemetry.encode) := by
  rw [decode, singular_joined events_encode]

theorem buckets_appended : Appended encode decode buckets := by
  intro ms
  rw [buckets, resolveLatency_joined]
  exact ResolveLatency.buckets_appended.singular _ ms

/-- A scalar of an embedded message of scalars. -/
theorem overwritten_of_number {M : Type*} {encode : M → ScalarFields} {decode : ScalarFields → M}
    (scalar : M → UInt32) {number : Nat}
    (hread : ∀ fields, scalar (decode fields) = fields.read number)
    (hwrite : ∀ m, (encode m).valuesAt number = nonDefault 0 (scalar m)) :
    Overwritten encode decode scalar := by
  intro ms
  rw [hread]
  exact ScalarFields.read_joined hwrite ms

/-- **Every scalar is overwritten.** -/
theorem scalar_overwritten (k : Scalar) : Overwritten encode decode fun m => m.scalar k := by
  intro ms
  cases k with
  | latencySum =>
      simp only [scalar, resolveLatency_joined]
      exact ResolveLatency.sum_overwritten.singular _ ms
  | latencyCount =>
      simp only [scalar, resolveLatency_joined]
      exact ResolveLatency.count_overwritten.singular _ ms
  | appliesTotal =>
      simp only [scalar, applyDedup_joined]
      exact (overwritten_of_number ApplyDedupTelemetry.appliesTotal (fun _ => rfl)
        fun _ => ScalarFields.valuesAt_encode rfl).singular _ ms
  | appliesDeduped =>
      simp only [scalar, applyDedup_joined]
      exact (overwritten_of_number ApplyDedupTelemetry.appliesDeduped (fun _ => rfl)
        fun _ => ScalarFields.valuesAt_encode rfl).singular _ ms
  | applyDedupOverflow =>
      simp only [scalar, applyDedup_joined]
      exact (overwritten_of_number ApplyDedupTelemetry.applyDedupOverflow (fun _ => rfl)
        fun _ => ScalarFields.valuesAt_encode rfl).singular _ ms
  | sweeps =>
      simp only [scalar, applyDedup_joined]
      exact (overwritten_of_number ApplyDedupTelemetry.sweeps (fun _ => rfl)
        fun _ => ScalarFields.valuesAt_encode rfl).singular _ ms
  | flushSucceeded =>
      simp only [scalar, flush_joined]
      exact (overwritten_of_number FlushTelemetry.succeeded (fun _ => rfl)
        fun _ => ScalarFields.valuesAt_encode rfl).singular _ ms
  | flushFailed =>
      simp only [scalar, flush_joined]
      exact (overwritten_of_number FlushTelemetry.failed (fun _ => rfl)
        fun _ => ScalarFields.valuesAt_encode rfl).singular _ ms
  | published =>
      simp only [scalar, events_joined]
      exact (overwritten_of_number EventsTelemetry.published (fun _ => rfl)
        fun _ => ScalarFields.valuesAt_encode rfl).singular _ ms
  | batchesSucceeded =>
      simp only [scalar, events_joined]
      exact (overwritten_of_number EventsTelemetry.batchesSucceeded (fun _ => rfl)
        fun _ => ScalarFields.valuesAt_encode rfl).singular _ ms
  | batchesFailed =>
      simp only [scalar, events_joined]
      exact (overwritten_of_number EventsTelemetry.batchesFailed (fun _ => rfl)
        fun _ => ScalarFields.valuesAt_encode rfl).singular _ ms
  | eventsRejected =>
      simp only [scalar, events_joined]
      exact (overwritten_of_number EventsTelemetry.eventsRejected (fun _ => rfl)
        fun _ => ScalarFields.valuesAt_encode rfl).singular _ ms

end TelemetryData

namespace WriteFlagLogsRequest

theorem flagAssigned_encode (m : WriteFlagLogsRequest) :
    m.encode.filterMap LogField.flagAssigned? = m.flagAssigned := by
  simp [encode, Function.comp_def, LogField.flagAssigned?]

theorem telemetryData_encode (m : WriteFlagLogsRequest) :
    m.encode.filterMap LogField.telemetryData? =
      m.telemetryData.toList.map TelemetryData.encode := by
  simp [encode, Function.comp_def, LogField.telemetryData?]

theorem flagResolveInfo_encode (m : WriteFlagLogsRequest) :
    m.encode.filterMap LogField.flagResolveInfo? = m.flagResolveInfo := by
  simp [encode, Function.comp_def, LogField.flagResolveInfo?]

/-- The buckets, the rates and the scalars of the telemetry. -/
def buckets (m : WriteFlagLogsRequest) : List BucketSpan :=
  (m.telemetryData.map (·.buckets)).getD []

def rates (m : WriteFlagLogsRequest) : List ResolveRate :=
  (m.telemetryData.map (·.resolveRate)).getD []

def scalar (k : Scalar) (m : WriteFlagLogsRequest) : UInt32 :=
  (m.telemetryData.map (·.scalar k)).getD 0

theorem telemetryData_joined (ms : List WriteFlagLogsRequest) :
    (decode (ms.flatMap encode)).telemetryData = embedded TelemetryData.decode
      ((ms.filterMap (·.telemetryData)).map TelemetryData.encode) := by
  rw [decode, singular_joined telemetryData_encode]

theorem flagAssigned_appended : Appended encode decode (·.flagAssigned) := by
  intro ms
  exact filterMap_joined flagAssigned_encode ms

theorem flagResolveInfo_appended : Appended encode decode (·.flagResolveInfo) := by
  intro ms
  exact filterMap_joined flagResolveInfo_encode ms

theorem buckets_appended : Appended encode decode buckets := by
  intro ms
  rw [buckets, telemetryData_joined]
  exact TelemetryData.buckets_appended.singular _ ms

theorem rates_appended : Appended encode decode rates := by
  intro ms
  rw [rates, telemetryData_joined]
  exact TelemetryData.resolveRate_appended.singular _ ms

theorem scalar_overwritten (k : Scalar) : Overwritten encode decode (scalar k) := by
  intro ms
  rw [scalar, telemetryData_joined]
  exact (TelemetryData.scalar_overwritten k).singular _ ms

end WriteFlagLogsRequest

end ConfidenceResolver
