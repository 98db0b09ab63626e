import ConfidenceResolver.FlagLog.QueueRuns
import ConfidenceResolver.Support.Histories

/-!
# FlagLog — what the snapshot of the queue has counted

A run of the consumer reads the stored snapshot, and stores it with what it has measured.  Two runs
that overlap may both read one snapshot, and then the first to store is not counted.

* `applyRun`: what a run makes of the snapshot that it has read.
* `replay_applyRun`: the snapshot that comes of some runs, one after the other.
* `telemetry_once`: no run is ever counted twice; and while each stores over what it has read, each
  is counted.
-/

namespace ConfidenceResolver

namespace FlagLog

variable {Body Q : Type} (codec : LogCodec Body) (sizes : DeliverySizes) (env : List (String × Q))
  (events : List (QueueEvent Q))

/-! ### Snapshots that have counted flushes -/

/-- A snapshot that has counted some more flushes. -/
def countFlushes (s : TelemetrySnapshot) (succeeded failed : UInt64) : TelemetrySnapshot :=
  { s with flush := ⟨s.flush.succeeded + succeeded, s.flush.failed + failed⟩ }

theorem accumulateAll_countFlushes (deltas : List TelemetryData) (s : TelemetrySnapshot)
    (succeeded failed : UInt64) :
    (countFlushes s succeeded failed).accumulateAll deltas =
      countFlushes (s.accumulateAll deltas) succeeded failed := by
  refine List.foldl_hom (fun s => countFlushes s succeeded failed) fun s d => ?_
  cases hflush : d.flush <;>
    simp [TelemetrySnapshot.accumulateDelta, countFlushes, accumulateFlush, hflush,
      add_right_comm]

theorem countFlushes_countFlushes (s : TelemetrySnapshot) (a b a' b' : UInt64) :
    countFlushes (countFlushes s a b) a' b' = countFlushes s (a + a') (b + b') := by
  simp [countFlushes, add_assoc]

theorem sorted_accumulateAll (deltas : List TelemetryData) :
    Labelled.Sorted (TelemetrySnapshot.accumulateAll {} deltas).providerInitRate := by
  rw [TelemetrySnapshot.accumulateAll_provider]
  exact Labelled.sorted_addAll _ List.Pairwise.nil

/-- The telemetry in the messages of some batches. -/
def deltasOf (attempts : List (Attempt Body Consumption)) : List TelemetryData :=
  (attempts.flatMap (·.batch)).filterMap fun e => (codec.decode e.2).bind (·.telemetryData)

theorem deltasOf_append (attempts : List (Attempt Body Consumption))
    (a : Attempt Body Consumption) :
    deltasOf codec (attempts ++ [a]) = deltasOf codec attempts ++
      ((a.batch.map Prod.snd).filterMap codec.decode).filterMap (·.telemetryData) := by
  simp [deltasOf, List.filterMap_append, List.filterMap_map, List.filterMap_filterMap]

/-! ### What a run records -/

/-- The pass for duplicates leaves the telemetry as it is. -/
theorem telemetry_batchLogs (messages : List (Option WriteFlagLogsRequest)) (dedup : Bool)
    (nowSeconds : Int64) :
    (batchLogs messages dedup nowSeconds).filterMap (·.telemetryData) =
      (messages.filterMap id).filterMap (·.telemetryData) := by
  have hpass (logs : List WriteFlagLogsRequest) (d : ApplyDedup) :
      (dedupFlagApplies nowSeconds d logs).2.filterMap (·.telemetryData) =
        logs.filterMap (·.telemetryData) := by
    induction logs generalizing d with
    | nil => rfl
    | cons log logs ih => simp only [dedupFlagApplies, List.filterMap_cons, ih]
  rw [batchLogs]
  cases dedup with
  | false => rfl
  | true => exact hpass _ _

/-- The consumer acknowledges a batch that was read if and only if nothing of it is lost. -/
theorem isOk_consume (send : Sender) (messages : List (Option WriteFlagLogsRequest)) (dedup : Bool)
    (nowSeconds : Int64) :
    (consume sizes send (some messages) dedup nowSeconds).1.isOk =
      decide ((deliverAllWithinLimit sizes send []
        (batchLogs messages dedup nowSeconds)).1.lost = 0) := by
  have hcomplete := consume_ok_iff sizes send messages dedup nowSeconds
  rw [ackDecision_complete, Nat.pos_iff_ne_zero, not_not] at hcomplete
  cases hresult : (consume sizes send (some messages) dedup nowSeconds).1 with
  | ok u => exact (decide_eq_true (hcomplete.mp hresult)).symm
  | error e =>
      refine (decide_eq_false fun hlost => ?_).symm
      exact absurd (hresult.symm.trans (hcomplete.mpr hlost)) (by simp)

/-- A run records nothing, or that it has delivered its batch, or that it has not. -/
inductive Records (bodies : List Body) (r : Consumption) : Prop where
  | nothing (record : r.record = none)
  | delivered (record : r.record =
      some ⟨batchTelemetry (bodies.filterMap codec.decode), some true⟩)
  | failed (record : r.record = some ⟨none, some false⟩)

/-- A run that is not ended between the store and the queue records what the queue is told. -/
inductive Tells (bodies : List Body) (r : Consumption) (acked : Bool) : Prop where
  | unread (acked : acked = true) (unread : r.unread = true) (record : r.record = none)
  | delivered (acked : acked = true) (unread : r.unread = false)
      (record : r.record = some ⟨batchTelemetry (bodies.filterMap codec.decode), some true⟩)
  | cut (acked : acked = false) (record : r.record = none)
  | failed (acked : acked = false) (record : r.record = some ⟨none, some false⟩)

/-- The record of a run that comes as far as the store. -/
theorem record_consumeBodies (bodies : List Body) (inv : Invocation)
    (hlifetime : ∀ n reached, inv.lifetime ≠ .posting n reached) :
    (consumeBodies codec sizes bodies inv).1.record =
      if inv.readable then
        some (if (consume sizes inv.network.send (some (bodies.map codec.decode)) inv.dedup
            inv.nowSeconds).1.isOk then
          ⟨batchTelemetry (bodies.filterMap codec.decode), some true⟩ else ⟨none, some false⟩)
      else none := by
  have htelemetry : batchTelemetry (batchLogs (bodies.map codec.decode) inv.dedup inv.nowSeconds) =
      batchTelemetry (bodies.filterMap codec.decode) := by
    simp only [batchTelemetry, telemetry_batchLogs, List.filterMap_map]
    rfl
  have hok := isOk_consume sizes inv.network.send (bodies.map codec.decode) inv.dedup inv.nowSeconds
  rw [consumeBodies, hok]
  cases inv.readable with
  | false =>
      cases hend : inv.lifetime with
      | posting n reached => exact absurd hend (hlifetime n reached)
      | recording => rfl
      | whole => rfl
  | true =>
      by_cases hlost : (deliverAllWithinLimit sizes inv.network.send []
          (batchLogs (bodies.map codec.decode) inv.dedup inv.nowSeconds)).1.lost = 0
      · cases hend : inv.lifetime with
        | posting n reached => exact absurd hend (hlifetime n reached)
        | recording => simp [hlost, htelemetry]
        | whole => simp [hlost, htelemetry]
      · cases hend : inv.lifetime with
        | posting n reached => exact absurd hend (hlifetime n reached)
        | recording => simp [hlost]
        | whole => simp [hlost]

theorem consumeBodies_records (bodies : List Body) (inv : Invocation) :
    Records codec bodies (consumeBodies codec sizes bodies inv).1 := by
  by_cases hposting : ∃ n reached, inv.lifetime = .posting n reached
  · obtain ⟨n, reached, hend⟩ := hposting
    exact .nothing (by rw [consumeBodies, hend])
  · have hrecord := record_consumeBodies codec sizes bodies inv
      fun n reached hend => hposting ⟨n, reached, hend⟩
    split at hrecord
    · split at hrecord
      · exact .delivered hrecord
      · exact .failed hrecord
    · exact .nothing hrecord

theorem consumeBodies_tells (bodies : List Body) {inv : Invocation}
    (hlifetime : inv.lifetime ≠ .recording) :
    Tells codec bodies (consumeBodies codec sizes bodies inv).1
      (consumeBodies codec sizes bodies inv).2 := by
  cases hend : inv.lifetime with
  | recording => exact absurd hend hlifetime
  | posting n reached => exact .cut (by rw [consumeBodies, hend]) (by rw [consumeBodies, hend])
  | whole =>
      have hrecord := record_consumeBodies codec sizes bodies inv (by simp [hend])
      have hunread : (consumeBodies codec sizes bodies inv).1.unread = !inv.readable :=
        (unread_consumeBodies codec sizes bodies inv).1
      cases hreadable : inv.readable with
      | false =>
          rw [hreadable] at hrecord hunread
          refine .unread ?_ hunread hrecord
          rw [consumeBodies, hend, hreadable]
          rfl
      | true =>
          have hacked : (consumeBodies codec sizes bodies inv).2 =
              (consume sizes inv.network.send (some (bodies.map codec.decode)) inv.dedup
                inv.nowSeconds).1.isOk := by
            rw [consumeBodies, hend, hreadable]
            rfl
          rw [hreadable, if_pos rfl] at hrecord
          rw [hreadable] at hunread
          split at hrecord
          · rename_i hok
            exact .delivered (hacked.trans hok) hunread hrecord
          · rename_i hok
            exact .failed (hacked.trans (Bool.eq_false_of_not_eq_true hok)) hrecord

/-! ### The runs that came as far as the store -/

def recorded (c : Courier Body Consumption) : List (Attempt Body Consumption) :=
  c.attempts.filter fun a => a.result.record.isSome

/-- Whether a run has recorded that all was delivered. -/
def flushed (a : Attempt Body Consumption) : Bool :=
  a.result.record.any fun record => record.flushResult = some true

/-- What a run makes of the snapshot that it has read. -/
def applyRun (a : Attempt Body Consumption) (stored : Option TelemetrySnapshot) :
    TelemetrySnapshot :=
  a.result.record.elim (stored.getD {}) (updateKvSnapshotMerged stored)

/-- The telemetry of the batches that were delivered, and all flushes, of some runs. -/
def countedOnce (attempts : List (Attempt Body Consumption)) : TelemetrySnapshot :=
  countFlushes (TelemetrySnapshot.accumulateAll {} (deltasOf codec (attempts.filter flushed)))
    (UInt64.ofNat (attempts.filter flushed).length)
    (UInt64.ofNat (attempts.filter fun a => !flushed a).length)

variable {codec}

/-- A run adds its telemetry and one flush. -/
theorem applyRun_delivered {a : Attempt Body Consumption} {stored : Option TelemetrySnapshot}
    {logs : List WriteFlagLogsRequest}
    (hrecord : a.result.record = some ⟨batchTelemetry logs, some true⟩)
    (hsorted : Labelled.Sorted (stored.getD {}).providerInitRate) :
    applyRun a stored =
      countFlushes ((stored.getD {}).accumulateAll (logs.filterMap (·.telemetryData))) 1 0 := by
  rw [applyRun, hrecord, Option.elim_some, updateKvSnapshotMerged, batchTelemetry]
  by_cases hnone : logs.filterMap (·.telemetryData) = []
  · simp [hnone, countFlushes, TelemetrySnapshot.accumulateAll]
  · simp [hnone, countFlushes, mergeSnapshots_accumulateAll hsorted]

/-- **What some runs come to**, one after the other. -/
theorem replay_applyRun {attempts : List (Attempt Body Consumption)}
    (h : ∀ a ∈ attempts,
      Records codec (a.batch.map Prod.snd) a.result ∧ a.result.record.isSome = true) :
    (replay applyRun attempts).getD {} = countedOnce codec attempts := by
  induction attempts using List.reverseRecOn with
  | nil => rfl
  | append_singleton attempts a ih =>
      obtain ⟨hattempts, ha⟩ := List.forall_mem_append.mp h
      obtain ⟨hrecords, hsome⟩ := List.forall_mem_singleton.mp ha
      have hold := ih hattempts
      rw [replay_concat, Option.getD_some]
      cases hrecords with
      | nothing record =>
          rw [record] at hsome
          cases hsome
      | delivered record =>
          have hflushed : flushed a = true := by simp [flushed, record]
          have hsorted :
              Labelled.Sorted ((replay applyRun attempts).getD {}).providerInitRate := by
            rw [hold]
            exact sorted_accumulateAll _
          rw [applyRun_delivered record hsorted, hold, countedOnce, accumulateAll_countFlushes,
            countFlushes_countFlushes, ← TelemetrySnapshot.accumulateAll_append, ← deltasOf_append]
          simp [countedOnce, List.filter_append, hflushed, UInt64.ofNat_add]
      | failed record =>
          have hflushed : flushed a = false := by simp [flushed, record]
          have happly : applyRun a (replay applyRun attempts) =
              countFlushes ((replay applyRun attempts).getD {}) 0 1 := by
            simp [applyRun, record, updateKvSnapshotMerged, countFlushes]
          rw [happly, hold, countedOnce, countFlushes_countFlushes]
          simp [countedOnce, List.filter_append, hflushed, UInt64.ofNat_add]

/-! ### Every run -/

variable {sizes env} {run : QueueRun Body}

/-- What is stored comes of the run that has stored last. -/
theorem updateKv_eq (kv : SharedCell TelemetrySnapshot) (a : Attempt Body Consumption)
    (answers : KvAnswers) : updateKv kv a.result.record answers =
      if a.result.record.isSome && (answers.bound && answers.stores) then
        kv.write (applyRun a) answers.read
      else kv := by
  cases hrecord : a.result.record with
  | none => rfl
  | some record =>
      have hupdate : applyRun a = fun stored => updateKvSnapshotMerged stored record := by
        funext stored
        rw [applyRun, hrecord]
        rfl
      rw [hupdate, updateKv]
      simp

/-- The snapshot, and what was read of it, come of some of the runs that are recorded. -/
theorem kept_step (h : Kept applyRun (recorded run.courier) run.kv) (event : QueueEvent Q) :
    let next := run.step codec sizes env event
    Kept applyRun (recorded next.courier) next.kv := by
  cases event with
  | send log accepts silent sample =>
      simp only [QueueRun.step, QueueRun.send]
      cases codec.encode log with
      | none => exact h
      | some body =>
          simp only
          split
          · exact h
          · simpa [recorded, Courier.attempts_publishAll] using h
  | read answers => exact h.read answers
  | bury id => exact h
  | consume ids inv kv =>
      simp only [QueueRun.step, recorded, Courier.attempt, List.filter_append] at h ⊢
      generalize consumeBodies codec sizes ((run.courier.batch ids).map Prod.snd) inv = r
      have hkv := updateKv_eq run.kv ⟨run.courier.batch ids, r.1, r.2⟩ kv
      rw [show r.1.record = (⟨run.courier.batch ids, r.1, r.2⟩ :
        Attempt Body Consumption).result.record from rfl, hkv]
      cases hrecord : r.1.record with
      | none => simpa [hrecord] using h
      | some record =>
          simp only [List.filter_cons, hrecord, Option.isSome_some, if_true, List.filter_nil,
            Bool.true_and]
          split
          · exact h.write _ kv.read
          · exact h.skip _

variable (codec sizes env)

theorem kept_run : let run := QueueRun.run codec sizes env events
    Kept applyRun (recorded run.courier) run.kv := by
  induction events using List.reverseRecOn with
  | nil => exact kept_new
  | append_singleton events event ih =>
      rw [QueueRun.run, List.foldl_append]
      exact kept_step ih event

theorem records_run : ∀ a ∈ (QueueRun.run codec sizes env events).courier.attempts,
    Records codec (a.batch.map Prod.snd) a.result := by
  intro a ha
  obtain ⟨inv, hran⟩ := (QueueRun.inv_run codec sizes env events).consumed.ran a ha
  have hrecords := consumeBodies_records codec sizes (a.batch.map Prod.snd) inv
  rwa [hran] at hrecords

/-! ### Runs that do not overlap -/

/-- The store answers, no isolate ends between the store and the queue, and a run stores over what
it has read: no other run has stored in between. -/
def QueueEvent.Steady (run : QueueRun Body) : QueueEvent Q → Prop
  | .consume _ inv kv => inv.lifetime ≠ .recording ∧ kv.bound = true ∧ kv.stores = true ∧
      run.kv.found kv.read = run.kv.stored
  | _ => True

/-- The batches that were read and acknowledged. -/
def readAcks (c : Courier Body Consumption) : List (Attempt Body Consumption) :=
  c.acks.filter fun a => !a.result.unread

/-- The failed runs that came as far as the store. -/
def recordedFailures (c : Courier Body Consumption) : List (Attempt Body Consumption) :=
  c.failures.filter fun a => a.result.record.isSome

variable {codec sizes env}

/-- All runs that are recorded are in the snapshot, and the queue was told what they have
recorded. -/
structure SeesAll (codec : LogCodec Body) (run : QueueRun Body) : Prop where
  stored : run.kv.stored = replay applyRun (recorded run.courier)
  tells : ∀ a ∈ run.courier.attempts, Tells codec (a.batch.map Prod.snd) a.result a.acked

theorem SeesAll.step (h : SeesAll codec run) {event : QueueEvent Q} (hsteady : event.Steady run) :
    SeesAll codec (run.step codec sizes env event) := by
  cases event with
  | send log accepts silent sample =>
      simp only [QueueRun.step, QueueRun.send]
      cases codec.encode log with
      | none => exact ⟨h.stored, h.tells⟩
      | some body =>
          simp only
          split
          · exact ⟨h.stored, h.tells⟩
          · refine ⟨?_, ?_⟩
            · simpa [recorded, Courier.attempts_publishAll] using h.stored
            · simpa [Courier.attempts_publishAll] using h.tells
  | read answers => exact ⟨h.stored, h.tells⟩
  | bury id => exact ⟨h.stored, h.tells⟩
  | consume ids inv kv =>
      obtain ⟨hlifetime, hbound, hstores, hcurrent⟩ := hsteady
      have htells := consumeBodies_tells codec sizes ((run.courier.batch ids).map Prod.snd)
        hlifetime
      refine ⟨?_, List.forall_mem_append.mpr ⟨h.tells, List.forall_mem_singleton.mpr htells⟩⟩
      have hstored := h.stored
      simp only [QueueRun.step, recorded, Courier.attempt, List.filter_append] at hstored ⊢
      generalize consumeBodies codec sizes ((run.courier.batch ids).map Prod.snd) inv = r
      have hkv := updateKv_eq run.kv ⟨run.courier.batch ids, r.1, r.2⟩ kv
      rw [show r.1.record = (⟨run.courier.batch ids, r.1, r.2⟩ :
        Attempt Body Consumption).result.record from rfl, hkv, hbound, hstores]
      cases hrecord : r.1.record with
      | none => simpa [hrecord] using hstored
      | some record =>
          simp only [List.filter_cons, hrecord, Option.isSome_some, if_true, List.filter_nil,
            Bool.and_self]
          exact SharedCell.write_current hstored hcurrent _

/-- What the queue was told, by what was recorded. -/
theorem SeesAll.filters (h : SeesAll codec run) :
    (recorded run.courier).filter flushed = readAcks run.courier ∧
      ((recorded run.courier).filter fun a => !flushed a) = recordedFailures run.courier := by
  simp only [recorded, readAcks, recordedFailures, Courier.acks, Courier.failures,
    List.filter_filter]
  constructor
  · refine List.filter_congr fun a ha => ?_
    cases h.tells a ha with
    | unread acked unread record => simp [flushed, unread, record]
    | delivered acked unread record => simp [flushed, acked, unread, record]
    | cut acked record => simp [flushed, acked, record]
    | failed acked record => simp [flushed, acked, record]
  · refine List.filter_congr fun a ha => ?_
    cases h.tells a ha with
    | unread acked unread record => simp [acked, record]
    | delivered acked unread record => simp [flushed, acked, record]
    | cut acked record => simp [record]
    | failed acked record => simp [flushed, acked, record]

variable (codec sizes env)

/-- **Telemetry once**: in every run the stored snapshot comes of some of the runs that came as far
as the store, in their order, and counts none of them twice: the telemetry of those that delivered
their batch, and a flush for each.  While the store answers, no isolate ends between the store and
the queue, and each run stores over what it has read, it has the telemetry of each message that was
read and acknowledged once, however often the message was delivered before, with one successful
flush for each such batch and one failed flush for each failed run that came as far as the store. -/
theorem telemetry_once :
    let run := QueueRun.run codec sizes env events
    (∃ counted, counted.Sublist (recorded run.courier) ∧
      run.kv.stored.getD {} = countedOnce codec counted) ∧
    (Throughout (fun before event => event.Steady (QueueRun.run codec sizes env before)) events →
      run.kv.stored.getD {} =
        countFlushes (TelemetrySnapshot.accumulateAll {} (deltasOf codec (readAcks run.courier)))
          (UInt64.ofNat (readAcks run.courier).length)
          (UInt64.ofNat (recordedFailures run.courier).length)) := by
  intro run
  have hrecords : ∀ a ∈ recorded run.courier,
      Records codec (a.batch.map Prod.snd) a.result ∧ a.result.record.isSome = true := by
    intro a ha
    obtain ⟨hattempt, hsome⟩ := List.mem_filter.mp ha
    exact ⟨records_run codec sizes env events a hattempt, hsome⟩
  refine ⟨?_, fun hsteady => ?_⟩
  · obtain ⟨counted, hcounted, hstored⟩ := (kept_run codec sizes env events).stored
    refine ⟨counted, hcounted, ?_⟩
    rw [hstored]
    exact replay_applyRun fun a ha => hrecords a (hcounted.subset ha)
  · have hall : SeesAll codec run := by
      clear hrecords
      induction events using List.reverseRecOn with
      | nil => exact ⟨rfl, fun _ ha => absurd ha List.not_mem_nil⟩
      | append_singleton events event ih =>
          obtain ⟨hbefore, hevent⟩ := throughout_concat.mp hsteady
          have hrun : run = (QueueRun.run codec sizes env events).step codec sizes env event := by
            simp only [run, QueueRun.run, List.foldl_append, List.foldl_cons, List.foldl_nil]
          rw [hrun]
          exact (ih hbefore).step hevent
    obtain ⟨hsucceeded, hfailed⟩ := hall.filters
    rw [hall.stored, replay_applyRun hrecords, countedOnce, hsucceeded, hfailed]

/-! ### Two logs, one after the other -/

section Reads

variable {codec sizes env} {run : QueueRun Body}

theorem kv_send (log : WriteFlagLogsRequest) (accepts : List Nat → Q → Bool) (silent : Nat → Bool)
    (sample : Float) : (run.send codec env log accepts silent sample).kv = run.kv := by
  rw [QueueRun.send]
  cases codec.encode log with
  | none => rfl
  | some body =>
      simp only
      split <;> rfl

theorem reads_updateKv (kv : SharedCell TelemetrySnapshot) (record : Option KvRecord)
    (answers : KvAnswers) : (updateKv kv record answers).reads = kv.reads := by
  cases record with
  | none => rfl
  | some record =>
      rw [updateKv]
      split <;> rfl

/-- A run that stores right after it has read stores over what it has read. -/
theorem steady_after_read (ids : List Nat) {inv : Invocation} (hlifetime : inv.lifetime ≠ .recording)
    {number : Nat} (hnumber : run.kv.reads.length = number) :
    QueueEvent.Steady { run with kv := run.kv.read true }
      (.consume ids inv ⟨true, true, number⟩ : QueueEvent Q) := by
  subst hnumber
  exact ⟨hlifetime, rfl, rfl, SharedCell.found_read_self run.kv⟩

end Reads

/-- Two logs, and a run of the consumer for each. -/
def oneByOne : List (QueueEvent String) :=
  [.send (Sample.appliesOf "r" ["u"]) (fun _ queue => queue = "second") (fun _ => false) 0.25,
    .send (Sample.appliesOf "s" ["v"]) (fun _ queue => queue = "second") (fun _ => false) 0.25,
    .read true, .consume [0] undisturbed ⟨true, true, 0⟩,
    .read true, .consume [1] undisturbed ⟨true, true, 1⟩]

theorem steady_oneByOne : Throughout (fun before event => event.Steady
    (QueueRun.run plainCodec keySizes sampleBindings before)) oneByOne := by
  have hwhole : undisturbed.lifetime ≠ .recording := by simp [undisturbed]
  refine throughout_cons.mpr ⟨trivial, throughout_cons.mpr ⟨trivial, throughout_cons.mpr ⟨trivial,
    throughout_cons.mpr ⟨steady_after_read _ hwhole ?_, throughout_cons.mpr ⟨trivial,
      throughout_cons.mpr ⟨steady_after_read _ hwhole ?_, throughout_nil⟩⟩⟩⟩⟩⟩
  · simp [QueueRun.step, kv_send]
  · simp [QueueRun.step, kv_send, reads_updateKv]

theorem telemetry_once_two :
    let run := QueueRun.run plainCodec keySizes sampleBindings oneByOne
    run.kv.stored.getD {} =
      countFlushes
        (TelemetrySnapshot.accumulateAll {} (deltasOf plainCodec (readAcks run.courier)))
        (UInt64.ofNat (readAcks run.courier).length)
        (UInt64.ofNat (recordedFailures run.courier).length) :=
  (telemetry_once plainCodec keySizes sampleBindings oneByOne).2 steady_oneByOne

end FlagLog

end ConfidenceResolver
