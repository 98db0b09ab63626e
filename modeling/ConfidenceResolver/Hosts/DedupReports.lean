import ConfidenceResolver.Hosts.Shutdown

/-!
# Hosts — the counters of the apply table

The table counts its applies, its duplicates, its overflows and its sweeps.  A host reports what was
added since the last report, the *baseline*, and moves the baseline only for a delta that it puts on
a request.  The WASM guest does so in `bounded_flush_logs`, the Cloudflare worker behind every
resolve and every apply.

The reported deltas always add up to the baseline (`Baseline.Exact`), so what is not reported yet is
the difference to the current counters.  This is an equation of `u64` counters; a delta is an exact
`u32` as long as what is added between two looks at the counters fits one.
-/

namespace ConfidenceResolver

/-- The counters of the apply table. -/
inductive DedupCounter where
  | appliesTotal
  | appliesDeduped
  | applyDedupOverflow
  | sweeps

def ApplyDedupSnapshot.counter (s : ApplyDedupSnapshot) : DedupCounter → UInt64
  | .appliesTotal => s.appliesTotal
  | .appliesDeduped => s.appliesDeduped
  | .applyDedupOverflow => s.applyDedupOverflow
  | .sweeps => s.sweeps

def ApplyDedupTelemetry.counter (t : ApplyDedupTelemetry) : DedupCounter → UInt32
  | .appliesTotal => t.appliesTotal
  | .appliesDeduped => t.appliesDeduped
  | .applyDedupOverflow => t.applyDedupOverflow
  | .sweeps => t.sweeps

/-- What the requests report of a counter, together. -/
def reportedTotal (reported : List ApplyDedupTelemetry) (x : DedupCounter) : UInt64 :=
  reported.foldl (fun total delta => total + (delta.counter x).toUInt64) 0

theorem reportedTotal_append (reported : List ApplyDedupTelemetry) (delta : ApplyDedupTelemetry)
    (x : DedupCounter) :
    reportedTotal (reported ++ [delta]) x = reportedTotal reported x + (delta.counter x).toUInt64 := by
  rw [reportedTotal, List.foldl_append]
  rfl

/-! ### A delta -/

theorem narrow_toUInt64 {delta : UInt64} (h : delta.toNat < 2 ^ 32) :
    (narrow delta).toUInt64 = delta := by
  rw [narrow, if_pos h]
  refine UInt64.toNat_inj.mp ?_
  rw [UInt32.toNat_toUInt64, UInt64.toNat_toUInt32, Nat.mod_eq_of_lt h]

theorem toProtoDelta_counter (s previous : ApplyDedupSnapshot) (x : DedupCounter) :
    (s.toProtoDelta previous).counter x = narrow (s.counter x - previous.counter x) := by
  cases x <;> rfl

theorem deltaToReport_some {s previous : ApplyDedupSnapshot} {delta : ApplyDedupTelemetry}
    (h : s.deltaToReport previous = some delta) : delta = s.toProtoDelta previous := by
  unfold ApplyDedupSnapshot.deltaToReport at h
  dsimp only at h
  split at h
  · exact (Option.some.inj h).symm
  · cases h

theorem narrow_eq_zero {delta : UInt64} (h : ¬ 0 < narrow delta) : delta = 0 := by
  have hzero : narrow delta = 0 := UInt32.not_lt.mp h |> UInt32.le_zero_iff.mp
  unfold narrow at hzero
  split at hzero
  · next hlt =>
      rw [← narrow_toUInt64 hlt, narrow, if_pos hlt, hzero]
      rfl
  · cases hzero

/-- Where there is nothing to report, the counters stand at the baseline. -/
theorem deltaToReport_none {s previous : ApplyDedupSnapshot} (h : s.deltaToReport previous = none)
    (x : DedupCounter) : s.counter x = previous.counter x := by
  unfold ApplyDedupSnapshot.deltaToReport at h
  dsimp only at h
  split at h
  · cases h
  · next hno =>
      have hx : ¬ 0 < (s.toProtoDelta previous).counter x := by
        intro hpos
        refine hno ?_
        cases x
        · exact .inl hpos
        · exact .inr (.inl hpos)
        · exact .inr (.inr (.inl hpos))
        · exact .inr (.inr (.inr (.inl hpos)))
      rw [toProtoDelta_counter] at hx
      rw [← UInt64.sub_add_cancel (s.counter x) (previous.counter x), narrow_eq_zero hx,
        UInt64.zero_add]

/-! ### The baseline -/

/-- What was added since the baseline fits a delta. -/
def ApplyDedup.Fits (d : ApplyDedup) (last : ApplyDedupSnapshot) : Prop :=
  ∀ x, (d.telemetrySnapshot.counter x - last.counter x).toNat < 2 ^ 32

/-- The baseline, and the deltas reported so far. -/
structure Baseline where
  last : ApplyDedupSnapshot
  reported : List ApplyDedupTelemetry

namespace Baseline

/-- A delta, if there is one, is put on a request. -/
def add (b : Baseline) (d : ApplyDedup) : Option ApplyDedupTelemetry → Baseline
  | some delta => ⟨d.telemetrySnapshot, b.reported ++ [delta]⟩
  | none => b

/-- The deltas add up to the baseline. -/
def Exact (b : Baseline) : Prop := ∀ x, reportedTotal b.reported x = b.last.counter x

/-- What is reported, and what is not reported yet, are the counters. -/
def Balanced (b : Baseline) (d : ApplyDedup) : Prop :=
  ∀ x, reportedTotal b.reported x + (d.telemetrySnapshot.counter x - b.last.counter x) =
    d.telemetrySnapshot.counter x

variable {b : Baseline} {d : ApplyDedup}

theorem Exact.balanced (h : b.Exact) (d : ApplyDedup) : b.Balanced d := by
  intro x
  rw [h x, UInt64.add_comm, UInt64.sub_add_cancel]

theorem exact_start : (Baseline.mk {} []).Exact := by
  intro x
  cases x <;> rfl

/-- Only without a delta are the reports the same. -/
theorem delta_eq_none {delta : Option ApplyDedupTelemetry}
    (h : (b.add d delta).reported = b.reported) : delta = none := by
  cases delta with
  | none => rfl
  | some t =>
      have := congrArg List.length h
      rw [add, List.length_append] at this
      exact absurd this (by simp)

/-- A report of the difference to the baseline. -/
theorem Exact.add (h : b.Exact) (hfits : d.Fits b.last) {delta : Option ApplyDedupTelemetry}
    (hdelta : ∀ t ∈ delta, d.telemetrySnapshot.deltaToReport b.last = some t) :
    (b.add d delta).Exact := by
  cases delta with
  | none => exact h
  | some t =>
      intro x
      have ht := deltaToReport_some (hdelta t rfl)
      rw [Baseline.add, reportedTotal_append, h x, ht, toProtoDelta_counter,
        narrow_toUInt64 (hfits x), UInt64.add_comm, UInt64.sub_add_cancel]

end Baseline

/-! ### The guest -/

/-- The calls of a host to the guest, and what happens to its loggers apart from the table. -/
inductive GuestCall where
  | setResolverState (state : ResolverState) (enableApplyDedup : Bool)
  | logAssign (assignedFlags : List FlagToApply)
  | measured (loggers : Loggers)
  | flushLogs (now : Int64)
  | boundedFlushLogs (now : Int64) (memory : UInt64 × UInt64)
  | boundedFlushAssign (now : Int64)

/-- A guest, and the deltas on the requests it has returned. -/
structure GuestRun where
  guest : Guest
  reported : List ApplyDedupTelemetry

namespace GuestRun

/-- A guest whose table is new. -/
def start (loggers : Loggers) (resolverState : Option ResolverState) (enabled : Bool)
    (ttlSeconds : Int64) (maxEntries : Nat) : GuestRun :=
  ⟨⟨loggers, .new ttlSeconds maxEntries, {}, enabled, resolverState⟩, []⟩

def step (sizes : AssignSizes) (r : GuestRun) : GuestCall → GuestRun
  | .setResolverState state enableApplyDedup =>
    { r with guest := { r.guest with
        resolverState := some state, applyDedupEnabled := enableApplyDedup } }
  | .logAssign assignedFlags =>
    { r with guest := { r.guest with
        applyDedup := (logAssign r.guest.applyDedup r.guest.applyDedupEnabled assignedFlags).1 } }
  | .measured loggers => { r with guest := { r.guest with toLoggers := loggers } }
  | .flushLogs now => { r with guest := r.guest.sweepApplyDedup now }
  | .boundedFlushLogs now memory =>
    let (guest, request) := r.guest.boundedFlushLogs sizes now memory
    ⟨guest, r.reported ++ (request.telemetryData.bind (·.applyDedup)).toList⟩
  | .boundedFlushAssign now => { r with guest := (r.guest.boundedFlushAssign sizes now).1 }

def run (sizes : AssignSizes) (r : GuestRun) (calls : List GuestCall) : GuestRun :=
  calls.foldl (step sizes) r

def baseline (r : GuestRun) : Baseline := ⟨r.guest.lastDedupSnapshot, r.reported⟩

/-- At each flush that looks at the counters, what was added since the baseline fits a delta. -/
def IntervalsFit (sizes : AssignSizes) (r : GuestRun) : List GuestCall → Prop
  | [] => True
  | call :: calls =>
      (∀ now memory, call = .boundedFlushLogs now memory → r.guest.applyDedupEnabled = true →
        (r.guest.sweepApplyDedup now).applyDedup.Fits r.guest.lastDedupSnapshot) ∧
      IntervalsFit sizes (r.step sizes call) calls

end GuestRun

theorem Guest.logsRequest_applyDedup (g : Guest) (memory : UInt64 × UInt64) :
    (g.logsRequest memory).telemetryData.bind (·.applyDedup) = g.dedupDelta := by
  rw [Guest.logsRequest]
  cases g.resolverState <;> cases g.dedupDelta <;> rfl

/-- The baseline behind a bounded flush. -/
theorem GuestRun.baseline_boundedFlushLogs (sizes : AssignSizes) (r : GuestRun) (now : Int64)
    (memory : UInt64 × UInt64) :
    (r.step sizes (.boundedFlushLogs now memory)).baseline =
      r.baseline.add (r.guest.sweepApplyDedup now).applyDedup
        (r.guest.sweepApplyDedup now).dedupDelta := by
  have hrequest : ((r.guest.boundedFlushLogs sizes now memory).2.telemetryData.bind
      (·.applyDedup)) = (r.guest.sweepApplyDedup now).dedupDelta :=
    (r.guest.sweepApplyDedup now).logsRequest_applyDedup memory
  rw [GuestRun.step, baseline]
  dsimp only
  rw [hrequest, Guest.boundedFlushLogs]
  cases (r.guest.sweepApplyDedup now).dedupDelta with
  | none => simp [Baseline.add, baseline, Guest.sweepApplyDedup]
  | some delta => rfl

theorem GuestRun.exact_step {sizes : AssignSizes} {r : GuestRun} {call : GuestCall}
    (h : r.baseline.Exact)
    (hfits : ∀ now memory, call = .boundedFlushLogs now memory →
      r.guest.applyDedupEnabled = true →
        (r.guest.sweepApplyDedup now).applyDedup.Fits r.guest.lastDedupSnapshot) :
    (r.step sizes call).baseline.Exact := by
  cases call with
  | boundedFlushLogs now memory =>
      rw [baseline_boundedFlushLogs, Guest.dedupDelta]
      by_cases henabled : (r.guest.sweepApplyDedup now).applyDedupEnabled = true
      · rw [if_pos henabled]
        exact h.add (hfits now memory rfl henabled) fun t ht => ht
      · rw [if_neg henabled]
        exact h
  | _ => exact h

theorem GuestRun.exact_run {sizes : AssignSizes} {r : GuestRun} {calls : List GuestCall}
    (h : r.baseline.Exact) (hfits : r.IntervalsFit sizes calls) :
    (r.run sizes calls).baseline.Exact := by
  induction calls generalizing r with
  | nil => exact h
  | cons call calls ih => exact ih (exact_step h hfits.1) hfits.2

/-! ### The worker -/

/-- The thread-local statics of the worker. -/
structure Worker where
  applyDedup : ApplyDedup
  applyDedupEnabled : Bool
  lastDedupSnapshot : ApplyDedupSnapshot

namespace Worker

/-- `log_assign` of the worker, as far as the table goes. -/
def logAssign (w : Worker) (assignedFlags : List FlagToApply) (nowSeconds : Int64) : Worker :=
  if !assignedFlags.isEmpty && w.applyDedupEnabled then
    { w with applyDedup := (w.applyDedup.filterDuplicates assignedFlags nowSeconds).1 }
  else w

/-- `queue_flag_log`, as far as the table goes. -/
def queueFlagLog (w : Worker) (nowSeconds : Int64) : Worker :=
  if w.applyDedupEnabled then { w with applyDedup := w.applyDedup.sweep nowSeconds } else w

/-- `dedup_telemetry_delta`. -/
def dedupTelemetryDelta (w : Worker) : Worker × Option ApplyDedupTelemetry :=
  if !w.applyDedupEnabled then (w, none)
  else
    match w.applyDedup.telemetrySnapshot.deltaToReport w.lastDedupSnapshot with
    | some delta => ({ w with lastDedupSnapshot := w.applyDedup.telemetrySnapshot }, some delta)
    | none => (w, none)

/-- The telemetry of a `flags:resolve`, on the log of the request. -/
def resolveLog (w : Worker) (td : TelemetryData) (log : WriteFlagLogsRequest) :
    Worker × WriteFlagLogsRequest :=
  let (w, delta) := w.dedupTelemetryDelta
  (w, { log with telemetryData := some { td with applyDedup := delta } })

/-- The telemetry of a `flags:apply`, on the log of the request. -/
def applyLog (w : Worker) (log : WriteFlagLogsRequest) : Worker × WriteFlagLogsRequest :=
  match w.dedupTelemetryDelta with
  | (w, some delta) =>
      (w, { log with
        telemetryData := some { log.telemetryData.getD {} with applyDedup := some delta } })
  | (w, none) => (w, log)

end Worker

/-- What happens to the table of a worker.  The log of an apply has the assigned flags only. -/
inductive WorkerCall where
  | setEnabled (enableApplyDedup : Bool)
  | logAssign (assignedFlags : List FlagToApply) (nowSeconds : Int64)
  | queueFlagLog (nowSeconds : Int64)
  | resolve (td : TelemetryData) (log : WriteFlagLogsRequest)
  | apply (assigned : List FlagAssigned)

/-- The call looks at the counters. -/
def WorkerCall.reports : WorkerCall → Bool
  | .resolve _ _ | .apply _ => true
  | _ => false

/-- A worker, and the deltas on the logs it has emitted. -/
structure WorkerRun where
  worker : Worker
  reported : List ApplyDedupTelemetry

namespace WorkerRun

def start (enabled : Bool) (ttlSeconds : Int64) (maxEntries : Nat) : WorkerRun :=
  ⟨⟨.new ttlSeconds maxEntries, enabled, {}⟩, []⟩

/-- The log that is emitted, with what it reports. -/
def emit (r : WorkerRun) (out : Worker × WriteFlagLogsRequest) : WorkerRun :=
  ⟨out.1, r.reported ++ (out.2.telemetryData.bind (·.applyDedup)).toList⟩

def step (r : WorkerRun) : WorkerCall → WorkerRun
  | .setEnabled enableApplyDedup =>
    { r with worker := { r.worker with applyDedupEnabled := enableApplyDedup } }
  | .logAssign assignedFlags nowSeconds =>
    { r with worker := r.worker.logAssign assignedFlags nowSeconds }
  | .queueFlagLog nowSeconds => { r with worker := r.worker.queueFlagLog nowSeconds }
  | .resolve td log => r.emit (r.worker.resolveLog td log)
  | .apply assigned => r.emit (r.worker.applyLog { flagAssigned := assigned })

def run (r : WorkerRun) (calls : List WorkerCall) : WorkerRun := calls.foldl step r

def baseline (r : WorkerRun) : Baseline := ⟨r.worker.lastDedupSnapshot, r.reported⟩

/-- At each log that looks at the counters, what was added since the baseline fits a delta. -/
def IntervalsFit (r : WorkerRun) : List WorkerCall → Prop
  | [] => True
  | call :: calls =>
      (call.reports = true → r.worker.applyDedupEnabled = true →
        r.worker.applyDedup.Fits r.worker.lastDedupSnapshot) ∧
      IntervalsFit (r.step call) calls

end WorkerRun

/-- Whatever carries the delta: the baseline behind a log that looks at the counters. -/
theorem WorkerRun.baseline_emit (r : WorkerRun) (log : WriteFlagLogsRequest)
    (hlog : log.telemetryData.bind (·.applyDedup) = r.worker.dedupTelemetryDelta.2) :
    (r.emit (r.worker.dedupTelemetryDelta.1, log)).baseline =
      r.baseline.add r.worker.applyDedup r.worker.dedupTelemetryDelta.2 := by
  rw [WorkerRun.emit, baseline]
  dsimp only
  rw [hlog, Worker.dedupTelemetryDelta]
  split
  · simp [Baseline.add, baseline]
  · split
    · rfl
    · simp [Baseline.add, baseline]

theorem Worker.dedupTelemetryDelta_some {w : Worker} {delta : ApplyDedupTelemetry}
    (h : w.dedupTelemetryDelta.2 = some delta) :
    w.applyDedupEnabled = true ∧
      w.applyDedup.telemetrySnapshot.deltaToReport w.lastDedupSnapshot = some delta := by
  unfold dedupTelemetryDelta at h
  split at h
  · cases h
  · next henabled =>
      refine ⟨by simpa using henabled, ?_⟩
      split at h
      · next hdelta => rw [hdelta]; exact h
      · cases h

/-- A call that looks at the counters emits a log with the delta; the others leave the baseline. -/
theorem WorkerRun.baseline_step (r : WorkerRun) (call : WorkerCall) :
    (r.step call).baseline =
      if call.reports then r.baseline.add r.worker.applyDedup r.worker.dedupTelemetryDelta.2
      else r.baseline := by
  cases call with
  | setEnabled enableApplyDedup => rfl
  | logAssign assignedFlags nowSeconds =>
      rw [step, Worker.logAssign]
      split <;> rfl
  | queueFlagLog nowSeconds =>
      rw [step, Worker.queueFlagLog]
      split <;> rfl
  | resolve td log => exact r.baseline_emit _ rfl
  | apply assigned =>
      rw [step, Worker.applyLog]
      rcases hdelta : r.worker.dedupTelemetryDelta with ⟨w, _ | delta⟩
      · have := r.baseline_emit { flagAssigned := assigned } (by rw [hdelta]; rfl)
        rw [hdelta] at this
        exact this
      · have := r.baseline_emit { flagAssigned := assigned
                                  telemetryData := some { applyDedup := some delta } }
          (by rw [hdelta]; rfl)
        rw [hdelta] at this
        exact this

theorem WorkerRun.exact_step {r : WorkerRun} {call : WorkerCall} (h : r.baseline.Exact)
    (hfits : call.reports = true → r.worker.applyDedupEnabled = true →
      r.worker.applyDedup.Fits r.worker.lastDedupSnapshot) : (r.step call).baseline.Exact := by
  rw [baseline_step]
  split
  · next hreports =>
      by_cases henabled : r.worker.applyDedupEnabled = true
      · exact h.add (hfits hreports henabled) fun t ht => (Worker.dedupTelemetryDelta_some ht).2
      · have hnone : r.worker.dedupTelemetryDelta.2 = none := by
          rw [Worker.dedupTelemetryDelta, if_pos (by simpa using henabled)]
        rw [hnone]
        exact h
  · exact h

theorem WorkerRun.exact_run {r : WorkerRun} {calls : List WorkerCall} (h : r.baseline.Exact)
    (hfits : r.IntervalsFit calls) : (r.run calls).baseline.Exact := by
  induction calls generalizing r with
  | nil => exact h
  | cons call calls ih => exact ih (exact_step h hfits.1) hfits.2

/-! ### What is reported -/

/-- **The counters are reported once.**  In every run of a guest and in every run of a worker the
deltas on the requests and the difference to the baseline add up to the counters.  A flush without
a delta leaves the baseline and what was reported; where the table is on, the counters then stand at
the baseline. -/
theorem dedup_reported_once :
    (∀ sizes loggers resolverState enabled ttlSeconds maxEntries calls,
      (GuestRun.start loggers resolverState enabled ttlSeconds maxEntries).IntervalsFit sizes calls →
      let r := (GuestRun.start loggers resolverState enabled ttlSeconds maxEntries).run sizes calls
      r.baseline.Balanced r.guest.applyDedup) ∧
    (∀ enabled ttlSeconds maxEntries calls,
      (WorkerRun.start enabled ttlSeconds maxEntries).IntervalsFit calls →
      let r := (WorkerRun.start enabled ttlSeconds maxEntries).run calls
      r.baseline.Balanced r.worker.applyDedup) ∧
    (∀ sizes (r : GuestRun) now memory,
      (r.step sizes (.boundedFlushLogs now memory)).reported = r.reported →
        let r' := r.step sizes (.boundedFlushLogs now memory)
        r'.baseline = r.baseline ∧ (r.guest.applyDedupEnabled = true →
          ∀ x, r'.guest.applyDedup.telemetrySnapshot.counter x = r.baseline.last.counter x)) ∧
    ∀ (r : WorkerRun) call, call.reports = true → (r.step call).reported = r.reported →
      (r.step call).baseline = r.baseline ∧ (r.worker.applyDedupEnabled = true →
        ∀ x, r.worker.applyDedup.telemetrySnapshot.counter x = r.baseline.last.counter x) := by
  refine ⟨?_, ?_, ?_, ?_⟩
  · intro sizes loggers resolverState enabled ttlSeconds maxEntries calls hfits
    have hstart : (GuestRun.start loggers resolverState enabled ttlSeconds
      maxEntries).baseline.Exact := Baseline.exact_start
    exact (GuestRun.exact_run hstart hfits).balanced _
  · intro enabled ttlSeconds maxEntries calls hfits
    have hstart : (WorkerRun.start enabled ttlSeconds maxEntries).baseline.Exact :=
      Baseline.exact_start
    exact (WorkerRun.exact_run hstart hfits).balanced _
  · intro sizes r now memory hsame
    -- nothing was reported, so no counter differs from its baseline
    have hbase := r.baseline_boundedFlushLogs sizes now memory
    have hnone := Baseline.delta_eq_none ((congrArg Baseline.reported hbase).symm.trans hsame)
    refine ⟨by rw [hbase, hnone]; rfl, fun henabled => ?_⟩
    rw [Guest.dedupDelta, if_pos (show (r.guest.sweepApplyDedup now).applyDedupEnabled = true from
      henabled)] at hnone
    exact deltaToReport_none hnone
  · intro r call hreports hsame
    have hbase := r.baseline_step call
    rw [if_pos hreports] at hbase
    have hnone := Baseline.delta_eq_none ((congrArg Baseline.reported hbase).symm.trans hsame)
    refine ⟨by rw [hbase, hnone]; rfl, fun henabled => ?_⟩
    unfold Worker.dedupTelemetryDelta at hnone
    rw [if_neg (by simpa using henabled)] at hnone
    split at hnone
    · cases hnone
    · next hdelta => exact deltaToReport_none hdelta

namespace Closing

def applied (flag : String) : FlagToApply := ⟨{ flag := flag }, ⟨100, 0⟩⟩

/-- Two intervals: each has a new flag and one that is there already. -/
def guestCalls : List GuestCall :=
  [.logAssign [applied "a", applied "a"], .boundedFlushLogs 100 (0, 0),
    .logAssign [applied "b", applied "a", applied "a"], .boundedFlushLogs 105 (0, 0)]

def workerCalls : List WorkerCall :=
  [.logAssign [applied "a", applied "a"] 100, .queueFlagLog 100, .resolve {} {},
    .logAssign [applied "b", applied "a", applied "a"] 105, .queueFlagLog 105, .apply []]

end Closing

open Closing in
theorem dedup_reported_once_sample :
    (let r := (GuestRun.start (loggers event 0) none true 120 10).run sizes guestCalls;
      (r.reported.map fun t => (t.appliesTotal, t.appliesDeduped, t.sweeps)) =
          [(2, 1, 1), (3, 2, 0)] ∧
        r.baseline.Balanced r.guest.applyDedup) ∧
    (let r := (WorkerRun.start true 120 10).run workerCalls;
      (r.reported.map fun t => (t.appliesTotal, t.appliesDeduped, t.sweeps)) =
          [(2, 1, 1), (3, 2, 0)] ∧
        r.baseline.Balanced r.worker.applyDedup) := by
  have hguest : (GuestRun.start (loggers event 0) none true 120 10).IntervalsFit sizes
      guestCalls := by
    refine ⟨nofun, ?_, nofun, ?_, trivial⟩
    · intro now memory hcall _ x
      cases hcall
      cases x <;> decide +kernel
    · intro now memory hcall _ x
      cases hcall
      cases x <;> decide +kernel
  have hworker : (WorkerRun.start true 120 10).IntervalsFit workerCalls := by
    refine ⟨nofun, nofun, ?_, nofun, nofun, ?_, trivial⟩
    · intro _ _ x
      cases x <;> decide +kernel
    · intro _ _ x
      cases x <;> decide +kernel
  obtain ⟨hguests, hworkers, -, -⟩ := dedup_reported_once
  refine ⟨⟨?_, hguests sizes (loggers event 0) none true 120 10 guestCalls hguest⟩,
    ?_, hworkers true 120 10 workerCalls hworker⟩
  · decide +kernel
  · decide +kernel

end ConfidenceResolver
