import ConfidenceResolver.Apply.ApplyDedup
import ConfidenceResolver.Hosts.InitTelemetry
import ConfidenceResolver.Logs.AssignLogger
import ConfidenceResolver.Logs.ResolveInfo
import ConfidenceResolver.Support.Batches
import ConfidenceResolver.Telemetry.Telescope

/-!
# Hosts — the last flush

What is left in the assign log when a provider has closed, every request having been accepted:
`shutdown` of the Rust provider makes one bounded flush; `close` of the Java one flushes full
batches of assign events until there is none, then makes one bounded flush.

* `Loggers`, `Guest`: what the flushes read.  `flushAll`, `boundedFlushAssign`, `boundedFlushLogs`.
* `drainAssigns_rest`: what the loop of `close` leaves.
* `shutdown_drains_iff`: when nothing is left.
-/

namespace ConfidenceResolver

open ByteQueue (Exact batch batches rest taken total)

/-- `LOG_TARGET_BYTES`, 4 MB. -/
def logTargetBytes : Nat := 4 * 1024 * 1024

/-! ### The Rust provider -/

/-- The loggers and the telemetry of a process. -/
structure Loggers where
  assignLogger : AssignLogger
  resolveLogger : ResolveLogger.ResolveInfoState
  telemetry : Telemetry
  lastFlushed : TelemetrySnapshot

/-- `flush_all`, `memory` being what the memory provider answers: the loggers after it, and the
requests sent. -/
def LogManager.flushAll (m : LogManager) (sizes : AssignSizes) (l : Loggers)
    (memory : UInt64 × UInt64) : Loggers × List WriteFlagLogsRequest :=
  let request := ResolveLogger.report l.resolveLogger
  let (assignLogger, request, _) :=
    l.assignLogger.checkpointFillWithLimit sizes request logTargetBytes false
  let (td, lastFlushed) := l.telemetry.deltaSnapshot l.lastFlushed memory
  let request := flushAllRequest m.sdk m.initLabels m.initState.claim.1 request td
  ({ l with assignLogger := assignLogger, resolveLogger := {}, lastFlushed := lastFlushed },
    if hasLogs request then [request] else [])

/-- `ConfidenceProvider::shutdown`, when the background task is done. -/
def shutdown (m : LogManager) (sizes : AssignSizes) (l : Loggers) (memory : UInt64 × UInt64) :
    Loggers × List WriteFlagLogsRequest :=
  m.flushAll sizes l memory

/-! ### The guest -/

/-- `delta.try_into().unwrap_or(u32::MAX)`. -/
def narrow (delta : UInt64) : UInt32 :=
  if delta.toNat < 2 ^ 32 then delta.toUInt32 else UInt32.ofNat (2 ^ 32 - 1)

/-- `to_proto_delta`. -/
def ApplyDedupSnapshot.toProtoDelta (s previous : ApplyDedupSnapshot) : ApplyDedupTelemetry where
  appliesTotal := narrow (s.appliesTotal - previous.appliesTotal)
  appliesDeduped := narrow (s.appliesDeduped - previous.appliesDeduped)
  applyDedupOverflow := narrow (s.applyDedupOverflow - previous.applyDedupOverflow)
  sweeps := narrow (s.sweeps - previous.sweeps)
  mapSize := s.mapSize
  mapCapacity := s.mapCapacity

/-- `delta_to_report`. -/
def ApplyDedupSnapshot.deltaToReport (s previous : ApplyDedupSnapshot) :
    Option ApplyDedupTelemetry :=
  let delta := s.toProtoDelta previous
  if 0 < delta.appliesTotal ∨ 0 < delta.appliesDeduped ∨ 0 < delta.applyDedupOverflow ∨
      0 < delta.sweeps ∨ s.mapSize ≠ previous.mapSize ∨ s.mapCapacity ≠ previous.mapCapacity then
    some delta
  else none

/-- `telemetry_snapshot`. -/
def ApplyDedup.telemetrySnapshot (d : ApplyDedup) : ApplyDedupSnapshot where
  appliesTotal := d.appliesTotal
  appliesDeduped := d.appliesDeduped
  applyDedupOverflow := d.applyDedupOverflow
  sweeps := d.sweeps
  mapSize := UInt32.ofNat d.seen.entries.length
  mapCapacity := UInt32.ofNat d.maxEntries

/-- The statics of the WASM guest. -/
structure Guest extends Loggers where
  applyDedup : ApplyDedup
  lastDedupSnapshot : ApplyDedupSnapshot
  applyDedupEnabled : Bool
  resolverState : Option ResolverState

namespace Guest

/-- `sweep_apply_dedup`. -/
def sweepApplyDedup (g : Guest) (now : Int64) : Guest :=
  { g with applyDedup := g.applyDedup.sweep now }

/-- The delta of the apply table, if it is on. -/
def dedupDelta (g : Guest) : Option ApplyDedupTelemetry :=
  if g.applyDedupEnabled then g.applyDedup.telemetrySnapshot.deltaToReport g.lastDedupSnapshot
  else none

/-- What `bounded_flush_logs` has in its request before the assign events. -/
def logsRequest (g : Guest) (memory : UInt64 × UInt64) : WriteFlagLogsRequest :=
  let td := (g.telemetry.deltaSnapshot g.lastFlushed memory).1
  let td := match g.resolverState with
    | some state => { td with sdk := state.sdk }
    | none => td
  let td := match g.dedupDelta with
    | some delta => { td with applyDedup := some delta }
    | none => td
  { ResolveLogger.report g.resolveLogger with telemetryData := some td }

/-- `bounded_flush_logs`. -/
def boundedFlushLogs (g : Guest) (sizes : AssignSizes) (now : Int64) (memory : UInt64 × UInt64) :
    Guest × WriteFlagLogsRequest :=
  let g := g.sweepApplyDedup now
  let (assignLogger, request, _) :=
    g.assignLogger.checkpointFillWithLimit sizes (g.logsRequest memory) logTargetBytes false
  ({ g with
      assignLogger := assignLogger
      resolveLogger := {}
      lastFlushed := (g.telemetry.deltaSnapshot g.lastFlushed memory).2
      lastDedupSnapshot :=
        if g.dedupDelta.isSome then g.applyDedup.telemetrySnapshot else g.lastDedupSnapshot },
    request)

/-- `bounded_flush_assign`. -/
def boundedFlushAssign (g : Guest) (sizes : AssignSizes) (now : Int64) :
    Guest × WriteFlagLogsRequest :=
  let g := g.sweepApplyDedup now
  let (assignLogger, request) := g.assignLogger.checkpointWithLimit sizes logTargetBytes true
  ({ g with assignLogger := assignLogger }, request)

theorem boundedFlushAssign_held (g : Guest) (sizes : AssignSizes) (now : Int64) :
    (g.boundedFlushAssign sizes now).2.flagAssigned ++
      (g.boundedFlushAssign sizes now).1.assignLogger.held = g.assignLogger.held :=
  ByteQueue.flush_held _ _ g.assignLogger _ _ _

end Guest

/-! ### The Java provider -/

/-- The loop of `close`, `clock` being the time at each call: the requests accepted, and the guest
after it. -/
def drainAssigns (sizes : AssignSizes) (clock : Nat → Int64) (g : Guest) :
    List WriteFlagLogsRequest × Guest :=
  if (g.boundedFlushAssign sizes (clock 0)).2.flagAssigned = [] then
    ([], (g.boundedFlushAssign sizes (clock 0)).1)
  else
    let next := drainAssigns sizes (fun k => clock (k + 1)) (g.boundedFlushAssign sizes (clock 0)).1
    ((g.boundedFlushAssign sizes (clock 0)).2 :: next.1, next.2)
termination_by g.assignLogger.held.length
decreasing_by
  next hne =>
    rw [← g.boundedFlushAssign_held sizes (clock 0), List.length_append]
    have := List.length_pos_iff.mpr hne
    omega

/-- `isEmptyLogRequest`. -/
def isEmptyLogRequest (request : WriteFlagLogsRequest) : Bool :=
  request.flagAssigned.length == 0 && request.clientResolveInfo.length == 0 &&
    request.flagResolveInfo.length == 0 && !request.telemetryData.isSome

/-- `WasmLocalResolver`. -/
structure WasmLocalResolver where
  guest : Guest
  closed : Bool

/-- `WasmLocalResolver.close`: the requests accepted by the sink, and the resolver after it. -/
def WasmLocalResolver.close (r : WasmLocalResolver) (sizes : AssignSizes) (clock : Nat → Int64)
    (memory : UInt64 × UInt64) : List WriteFlagLogsRequest × WasmLocalResolver :=
  if r.closed then ([], r)
  else
    let (sent, guest) := drainAssigns sizes clock r.guest
    let (guest, request) := guest.boundedFlushLogs sizes (clock (sent.length + 1)) memory
    (if isEmptyLogRequest request then sent else sent ++ [request], ⟨guest, true⟩)

/-! ### What is claimed -/

/-- A `usize` has 32 bits at least, and an empty message no bytes. -/
structure AssignSizes.Plausible (sizes : AssignSizes) : Prop where
  wide : 2 ^ 32 ≤ sizes.usizeMax + 1
  empty : sizes.request {} = 0

/-- The events fit behind a request, or it is empty and there is only one. -/
def FitBehind (sizes : AssignSizes) (request : WriteFlagLogsRequest)
    (events : List FlagAssigned) : Prop :=
  total (AssignLogger.encodedLen sizes) events ≤ logTargetBytes - sizes.request request ∨
    (sizes.request request = 0 ∧ events.length ≤ 1)

/-- The guest after `n` calls that sweep, but for its assign log. -/
def Guest.swept (g : Guest) (clock : Nat → Int64) (n : Nat) : Guest :=
  (List.range n).foldl (fun g k => g.sweepApplyDedup (clock k)) g

/-- The requests have the events that are not left, in their order. -/
def Accounted (events : List FlagAssigned) (sent : List WriteFlagLogsRequest)
    (left : AssignLogger) : Prop :=
  sent.flatMap (·.flagAssigned) ++ left.held = events

/-! ### One flush -/

section Flushes

variable {sizes : AssignSizes}

theorem encodedLen_pos (hsizes : sizes.Plausible) (e : FlagAssigned) :
    0 < AssignLogger.encodedLen sizes e := by
  have := hsizes.wide
  rw [AssignLogger.encodedLen, fieldLen, ByteQueue.add]
  omega

theorem logTargetBytes_pos : 0 < logTargetBytes := by decide

/-- A flush behind other data leaves nothing exactly when the events fit. -/
theorem checkpointFill_drained_iff (hsizes : sizes.Plausible) {logger : AssignLogger}
    (h : logger.Exact sizes.usizeMax (AssignLogger.encodedLen sizes))
    (request : WriteFlagLogsRequest) :
    (logger.checkpointFillWithLimit sizes request logTargetBytes false).1.held = [] ↔
      FitBehind sizes request logger.held :=
  ByteQueue.flush_drained_iff (encodedLen_pos hsizes) h fun _ => logTargetBytes_pos

/-- A bounded assign flush takes a batch, if there are 4 MB of events. -/
theorem boundedFlushAssign_taken (hsizes : sizes.Plausible) {g : Guest}
    (h : g.assignLogger.Exact sizes.usizeMax (AssignLogger.encodedLen sizes)) (now : Int64) :
    (g.boundedFlushAssign sizes now).2.flagAssigned =
        (if logTargetBytes ≤ total (AssignLogger.encodedLen sizes) g.assignLogger.held then
          batch (AssignLogger.encodedLen sizes) logTargetBytes g.assignLogger.held
        else []) ∧
      (g.boundedFlushAssign sizes now).1.assignLogger.Exact sizes.usizeMax
        (AssignLogger.encodedLen sizes) := by
  refine ⟨?_, h.flush (encodedLen_pos hsizes) true⟩
  have hflush : (g.boundedFlushAssign sizes now).2.flagAssigned =
      (g.assignLogger.flush sizes.usizeMax (AssignLogger.encodedLen sizes) (sizes.request {})
        logTargetBytes true).2.1 := rfl
  have htaken := ByteQueue.flush_events (encodedLen_pos hsizes) h
    (fun _ : sizes.request {} = 0 => logTargetBytes_pos) true
  rw [hflush, htaken, hsizes.empty, Nat.sub_zero]
  simp [taken]

/-- It takes nothing when there are less than 4 MB. -/
theorem boundedFlushAssign_eq_nil (hsizes : sizes.Plausible) {g : Guest}
    (h : g.assignLogger.Exact sizes.usizeMax (AssignLogger.encodedLen sizes)) (now : Int64) :
    (g.boundedFlushAssign sizes now).2.flagAssigned = [] ↔
      total (AssignLogger.encodedLen sizes) g.assignLogger.held < logTargetBytes := by
  rw [(boundedFlushAssign_taken hsizes h now).1]
  split
  · next hfull =>
      refine iff_of_false (fun hnil => ?_) (Nat.not_lt.mpr hfull)
      rw [ByteQueue.batch_eq_nil.mp hnil] at hfull
      exact Nat.not_lt.mpr hfull logTargetBytes_pos
  · next hless => exact iff_of_true rfl (Nat.lt_of_not_le hless)

/-! ### The loop of `close` -/

/-- The sweeps do not look at the assign log. -/
theorem swept_assignLogger (logger : AssignLogger) (clock : Nat → Int64) (n : Nat) (g : Guest) :
    Guest.swept { g with assignLogger := logger } clock n =
      { g.swept clock n with assignLogger := logger } := by
  induction n with
  | zero => rfl
  | succ n ih =>
      simp only [Guest.swept, List.range_succ, List.foldl_append] at ih ⊢
      rw [ih]
      rfl

theorem swept_succ (clock : Nat → Int64) (n : Nat) (g : Guest) :
    (g.sweepApplyDedup (clock 0)).swept (fun k => clock (k + 1)) n = g.swept clock (n + 1) := by
  rw [Guest.swept, Guest.swept, List.range_succ_eq_map, List.foldl_cons, List.foldl_map]

theorem Guest.swept_last (g : Guest) (clock : Nat → Int64) (n : Nat) :
    g.swept clock (n + 1) = (g.swept clock n).sweepApplyDedup (clock n) := by
  rw [Guest.swept, Guest.swept, List.range_succ, List.foldl_append]
  rfl

/-- **The loop** takes the batches, and leaves what is behind them.  It changes nothing else, apart
from the sweeps. -/
theorem drainAssigns_rest (hsizes : sizes.Plausible) (clock : Nat → Int64) (g : Guest)
    (h : g.assignLogger.Exact sizes.usizeMax (AssignLogger.encodedLen sizes)) :
    (drainAssigns sizes clock g).1.map (·.flagAssigned) =
        batches (AssignLogger.encodedLen sizes) logTargetBytes g.assignLogger.held ∧
      (drainAssigns sizes clock g).2.assignLogger.held =
        rest (AssignLogger.encodedLen sizes) logTargetBytes g.assignLogger.held ∧
      (drainAssigns sizes clock g).2.assignLogger.Exact sizes.usizeMax
        (AssignLogger.encodedLen sizes) ∧
      (drainAssigns sizes clock g).2 =
        { g.swept clock ((drainAssigns sizes clock g).1.length + 1) with
          assignLogger := (drainAssigns sizes clock g).2.assignLogger } := by
  induction clock, g using drainAssigns.induct sizes with
  | case1 clock g hempty =>
      have hexact := (boundedFlushAssign_taken hsizes h (clock 0)).2
      have hheld := g.boundedFlushAssign_held sizes (clock 0)
      rw [hempty, List.nil_append] at hheld
      obtain ⟨hbatches, hrest⟩ := ByteQueue.batches_rest_of_lt
        ((boundedFlushAssign_eq_nil hsizes h (clock 0)).mp hempty)
      rw [drainAssigns, if_pos hempty]
      exact ⟨hbatches.symm, hheld.trans hrest.symm, hexact, rfl⟩
  | case2 clock g hsome ih =>
      obtain ⟨htaken, hexact⟩ := boundedFlushAssign_taken hsizes h (clock 0)
      have hheld := g.boundedFlushAssign_held sizes (clock 0)
      obtain ⟨hsent, hleft, hexact', hguest⟩ := ih hexact
      -- a flush that gives something has a full batch
      have hmore : logTargetBytes ≤ total (AssignLogger.encodedLen sizes) g.assignLogger.held :=
        Nat.not_lt.mp fun hless => hsome ((boundedFlushAssign_eq_nil hsizes h (clock 0)).mpr hless)
      rw [if_pos hmore] at htaken
      rw [htaken] at hheld
      have hne : g.assignLogger.held ≠ [] := fun hnil =>
        hsome (htaken.trans (ByteQueue.batch_eq_nil.mpr hnil))
      obtain ⟨hbatches, hrest⟩ := ByteQueue.batches_rest_of_le hmore hheld hne
      rw [drainAssigns, if_neg hsome]
      refine ⟨?_, ?_, hexact', ?_⟩
      · rw [List.map_cons, hsent, htaken, hbatches]
      · rw [hleft, hrest]
      · have hswept := swept_assignLogger (g.boundedFlushAssign sizes (clock 0)).1.assignLogger
          (fun k => clock (k + 1)) ((drainAssigns sizes (fun k => clock (k + 1))
            (g.boundedFlushAssign sizes (clock 0)).1).1.length + 1) (g.sweepApplyDedup (clock 0))
        rw [List.length_cons, ← swept_succ]
        exact hguest.trans (congrArg (fun g' : Guest => { g' with
          assignLogger := (drainAssigns sizes (fun k => clock (k + 1))
            (g.boundedFlushAssign sizes (clock 0)).1).2.assignLogger }) hswept)

/-! ### Closing -/

/-- A flush of the guest leaves nothing exactly when the events fit behind the resolve logs and the
telemetry. -/
theorem boundedFlushLogs_drained_iff (hsizes : sizes.Plausible) {g : Guest}
    (h : g.assignLogger.Exact sizes.usizeMax (AssignLogger.encodedLen sizes)) (now : Int64)
    (memory : UInt64 × UInt64) :
    (g.boundedFlushLogs sizes now memory).1.assignLogger.held = [] ↔
      FitBehind sizes ((g.sweepApplyDedup now).logsRequest memory) g.assignLogger.held :=
  checkpointFill_drained_iff hsizes h _

theorem boundedFlushLogs_held (g : Guest) (now : Int64) (memory : UInt64 × UInt64) :
    (g.boundedFlushLogs sizes now memory).2.flagAssigned ++
      (g.boundedFlushLogs sizes now memory).1.assignLogger.held = g.assignLogger.held :=
  ByteQueue.flush_held _ _ g.assignLogger _ _ _

theorem isEmptyLogRequest_boundedFlushLogs (g : Guest) (now : Int64) (memory : UInt64 × UInt64) :
    isEmptyLogRequest (g.boundedFlushLogs sizes now memory).2 = false := by
  have htelemetry : (g.boundedFlushLogs sizes now memory).2.telemetryData.isSome = true := rfl
  rw [isEmptyLogRequest, htelemetry, Bool.not_true, Bool.and_false]

/-- The requests of the loop have the events that are not left. -/
theorem drainAssigns_accounted (sizes : AssignSizes) (clock : Nat → Int64) (g : Guest) :
    Accounted g.assignLogger.held (drainAssigns sizes clock g).1
      (drainAssigns sizes clock g).2.assignLogger := by
  induction clock, g using drainAssigns.induct sizes with
  | case1 clock g hempty =>
      have hheld := g.boundedFlushAssign_held sizes (clock 0)
      rw [hempty] at hheld
      rw [drainAssigns, if_pos hempty]
      exact hheld
  | case2 clock g hsome ih =>
      rw [drainAssigns, if_neg hsome, Accounted, List.flatMap_cons, List.append_assoc, ih]
      exact g.boundedFlushAssign_held sizes (clock 0)

theorem shutdown_accounted (m : LogManager) (l : Loggers) (memory : UInt64 × UInt64) :
    Accounted l.assignLogger.held (shutdown m sizes l memory).2
      (shutdown m sizes l memory).1.assignLogger := by
  have hheld := ByteQueue.flush_held sizes.usizeMax (AssignLogger.encodedLen sizes) l.assignLogger
    (sizes.request (ResolveLogger.report l.resolveLogger)) logTargetBytes false
  simp only [shutdown, LogManager.flushAll, hasLogs_flushAllRequest, if_true, Accounted,
    List.flatMap_cons, List.flatMap_nil, List.append_nil]
  exact hheld

theorem close_guest {r : WasmLocalResolver} (hopen : r.closed = false) (clock : Nat → Int64)
    (memory : UInt64 × UInt64) :
    (r.close sizes clock memory).2.guest = ((drainAssigns sizes clock r.guest).2.boundedFlushLogs
      sizes (clock ((drainAssigns sizes clock r.guest).1.length + 1)) memory).1 := by
  rw [WasmLocalResolver.close, hopen, if_neg Bool.false_ne_true]

theorem close_accounted {r : WasmLocalResolver} (hopen : r.closed = false) (clock : Nat → Int64)
    (memory : UInt64 × UInt64) :
    Accounted r.guest.assignLogger.held (r.close sizes clock memory).1
      (r.close sizes clock memory).2.guest.assignLogger := by
  have hdrain := drainAssigns_accounted sizes clock r.guest
  simp only [WasmLocalResolver.close, hopen, isEmptyLogRequest_boundedFlushLogs,
    Bool.false_eq_true, if_false, Accounted, List.flatMap_append, List.flatMap_cons,
    List.flatMap_nil, List.append_nil, List.append_assoc, boundedFlushLogs_held]
  exact hdrain

end Flushes

/-! ### Main results -/

/-- **When the last flush leaves nothing**: `shutdown` when all events fit behind the resolve logs,
`close` when those behind the batches fit behind the resolve logs and the telemetry. -/
theorem shutdown_drains_iff (sizes : AssignSizes) (hsizes : sizes.Plausible)
    (memory : UInt64 × UInt64) :
    (∀ (m : LogManager) (l : Loggers),
      l.assignLogger.Exact sizes.usizeMax (AssignLogger.encodedLen sizes) →
      Accounted l.assignLogger.held (shutdown m sizes l memory).2
          (shutdown m sizes l memory).1.assignLogger ∧
        ((shutdown m sizes l memory).1.assignLogger.held = [] ↔
          FitBehind sizes (ResolveLogger.report l.resolveLogger) l.assignLogger.held)) ∧
    ∀ (r : WasmLocalResolver) (clock : Nat → Int64), r.closed = false →
      r.guest.assignLogger.Exact sizes.usizeMax (AssignLogger.encodedLen sizes) →
      Accounted r.guest.assignLogger.held (r.close sizes clock memory).1
          (r.close sizes clock memory).2.guest.assignLogger ∧
        ((r.close sizes clock memory).2.guest.assignLogger.held = [] ↔
          FitBehind sizes
            ((r.guest.swept clock ((batches (AssignLogger.encodedLen sizes) logTargetBytes
              r.guest.assignLogger.held).length + 2)).logsRequest memory)
            (rest (AssignLogger.encodedLen sizes) logTargetBytes r.guest.assignLogger.held)) := by
  refine ⟨fun m l hexact => ⟨shutdown_accounted m l memory, ?_⟩,
    fun r clock hopen hexact => ⟨close_accounted hopen clock memory, ?_⟩⟩
  · exact checkpointFill_drained_iff hsizes hexact _
  · obtain ⟨hsent, hleft, hexact', hguest⟩ := drainAssigns_rest hsizes clock r.guest hexact
    have hcount := congrArg List.length hsent
    rw [List.length_map] at hcount
    have hlast := boundedFlushLogs_drained_iff hsizes hexact'
      (clock ((drainAssigns sizes clock r.guest).1.length + 1)) memory
    have hrequest : ((drainAssigns sizes clock r.guest).2.sweepApplyDedup
          (clock ((drainAssigns sizes clock r.guest).1.length + 1))).logsRequest memory =
        (r.guest.swept clock ((drainAssigns sizes clock r.guest).1.length + 2)).logsRequest
          memory := by
      rw [r.guest.swept_last clock (_ + 1), hguest]
      rfl
    rw [hleft, hrequest, hcount] at hlast
    rw [close_guest hopen, hcount]
    exact hlast

namespace Closing

/-! Lengths of the messages below: of an event without flags, and of a request with no more than a
version. -/

def stringLen (s : String) : Nat :=
  if s = "" then 0 else s.utf8ByteSize + lengthDelimiterLen s.utf8ByteSize + 1

def messageLen (len : Nat) : Nat := len + lengthDelimiterLen len + 1

def sizes : AssignSizes where
  usizeMax := 2 ^ 32 - 1
  flagAssigned e := stringLen e.resolveId +
    (e.clientInfo.map fun c => messageLen (stringLen c.client + stringLen c.clientCredential)).getD 0
  request r := (r.telemetryData.map fun td => messageLen (stringLen td.resolverVersion)).getD 0

theorem sizes_plausible : sizes.Plausible := ⟨by decide, rfl⟩

def event : FlagAssigned :=
  ⟨"r1", some ⟨"clients/web", "clients/web/clientCredentials/key", none⟩, []⟩

theorem encodedLen_event : AssignLogger.encodedLen sizes event = 56 := by decide

/-- An event that is all resolve id. -/
def identified (id : String) : FlagAssigned := ⟨id, none, []⟩

theorem encodedLen_identified {id : String} (h : id.utf8ByteSize = 3000000) :
    AssignLogger.encodedLen sizes (identified id) = 3000010 := by
  have hne : id ≠ "" := by
    rintro rfl
    cases h
  have hlen : sizes.flagAssigned (identified id) = 3000005 := by
    simp only [sizes, stringLen, identified]
    rw [if_neg hne, h]
    decide
  rw [AssignLogger.encodedLen, hlen]
  decide

theorem utf8ByteSize_replicate (n : Nat) :
    (String.ofList (List.replicate n 'r')).utf8ByteSize = n := by
  rw [String.utf8ByteSize_ofList]
  induction n with
  | zero => rfl
  | succ n ih => rw [List.replicate_succ, String.utf8Len_cons, ih]; rfl

/-- A log of `n` events. -/
def log (e : FlagAssigned) (n : Nat) : AssignLogger := ⟨List.replicate n e, [], 0⟩

theorem total_log (e : FlagAssigned) (n : Nat) : total (AssignLogger.encodedLen sizes)
    (log e n).held = n * AssignLogger.encodedLen sizes e := by
  simp [total, log, ByteQueue.held]

theorem log_length (e : FlagAssigned) (n : Nat) : (log e n).held.length = n := by
  simp [log, ByteQueue.held]

theorem log_exact {e : FlagAssigned} {n : Nat}
    (h : n * AssignLogger.encodedLen sizes e ≤ sizes.usizeMax) :
    (log e n).Exact sizes.usizeMax (AssignLogger.encodedLen sizes) where
  lengths _ hp := absurd hp List.not_mem_nil
  counted := rfl
  fits := (total_log e n).trans_le h

def manager : LogManager := .new ⟨none, "0.1.0"⟩ .empty

def loggers (e : FlagAssigned) (n : Nat) : Loggers := ⟨log e n, {}, .new, {}⟩

def guest (e : FlagAssigned) (n : Nat) : Guest :=
  ⟨loggers e n, .new 3600 100000, {}, false, none⟩

end Closing

/-- Three events of 3 MB are two batches, and one for the last flush. -/
theorem Closing.batches_log {e : FlagAssigned} (h : AssignLogger.encodedLen sizes e = 3000010) :
    batches (AssignLogger.encodedLen sizes) logTargetBytes (log e 3).held = [[e], [e]] ∧
      rest (AssignLogger.encodedLen sizes) logTargetBytes (log e 3).held = [e] := by
  constructor
  · simp [log, ByteQueue.held, List.replicate, batches, batch, ByteQueue.fitting, total, h,
      logTargetBytes]
  · simp [log, ByteQueue.held, List.replicate, rest, ByteQueue.fitting, total, h, logTargetBytes]

open Closing in
theorem shutdown_drains_sample :
    ∃ e : FlagAssigned,
      (shutdown manager sizes (loggers event 3) (0, 0)).1.assignLogger.held = [] ∧
      batches (AssignLogger.encodedLen sizes) logTargetBytes (guest e 3).assignLogger.held =
        [[e], [e]] ∧
      ((⟨guest e 3, false⟩ : WasmLocalResolver).close sizes (fun _ => 0)
        (0, 0)).2.guest.assignLogger.held = [] := by
  obtain ⟨hrust, hjava⟩ := shutdown_drains_iff sizes sizes_plausible (0, 0)
  have hlen := encodedLen_identified (utf8ByteSize_replicate 3000000)
  generalize identified (String.ofList (List.replicate 3000000 'r')) = e at hlen
  have hevents : (log event 3).Exact sizes.usizeMax (AssignLogger.encodedLen sizes) :=
    log_exact (by decide)
  have hlarge : (log e 3).Exact sizes.usizeMax (AssignLogger.encodedLen sizes) :=
    log_exact (by rw [hlen]; decide)
  obtain ⟨hbatches, hrest⟩ := batches_log hlen
  have hbehind : total (AssignLogger.encodedLen sizes) [e] = 3000010 := by
    rw [ByteQueue.total_cons, hlen]
    rfl
  refine ⟨e, (hrust manager (loggers event 3) hevents).2.mpr (.inl ?_), hbatches,
    (hjava ⟨guest e 3, false⟩ (fun _ => 0) rfl hlarge).2.mpr (.inl ?_)⟩
  · decide
  · have hheld : (guest e 3).assignLogger.held = (log e 3).held := rfl
    have hrequest : sizes.request (((guest e 3).swept (fun _ => 0)
        ([[e], [e]].length + 2)).logsRequest (0, 0)) = messageLen (stringLen VERSION) := rfl
    rw [hheld, hbatches, hrest, hbehind, hrequest]
    decide

/-- `shutdown` leaves a part of more than 4 MB. -/
theorem Closing.shutdown_log {n : Nat} (hmore : logTargetBytes < n * 56)
    (h : n * 56 ≤ sizes.usizeMax) :
    (shutdown manager sizes (loggers event n) (0, 0)).1.assignLogger.held ≠ [] := by
  intro hnil
  have hexact := log_exact (h.trans' (Nat.le_of_eq (congrArg (n * ·) encodedLen_event)))
  have hfits := (checkpointFill_drained_iff sizes_plausible hexact _).mp hnil
  rw [FitBehind, log_length, total_log, encodedLen_event] at hfits
  rcases hfits with hfit | ⟨_, hone⟩
  · exact absurd (hfit.trans (Nat.sub_le _ _)) (Nat.not_le.mpr hmore)
  · rw [logTargetBytes] at hmore
    omega

/-- Of 80000 events `shutdown` leaves some. -/
theorem shutdown_leaves_events :
    ∃ (sizes : AssignSizes) (m : LogManager) (l : Loggers) (memory : UInt64 × UInt64),
      sizes.Plausible ∧
      l.assignLogger.Exact sizes.usizeMax (AssignLogger.encodedLen sizes) ∧
      (shutdown m sizes l memory).1.assignLogger.held ≠ [] := by
  have hcountable : 80000 * 56 ≤ Closing.sizes.usizeMax := by decide
  have hmore : logTargetBytes < 80000 * 56 := by decide
  have hexact : (Closing.log Closing.event 80000).Exact Closing.sizes.usizeMax
      (AssignLogger.encodedLen Closing.sizes) :=
    Closing.log_exact (by rw [Closing.encodedLen_event]; exact hcountable)
  exact ⟨Closing.sizes, Closing.manager, Closing.loggers Closing.event 80000, (0, 0),
    Closing.sizes_plausible, hexact, Closing.shutdown_log hmore hcountable⟩

end ConfidenceResolver
