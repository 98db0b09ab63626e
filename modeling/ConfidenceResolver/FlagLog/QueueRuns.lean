import ConfidenceResolver.FlagLog.Attempts
import ConfidenceResolver.FlagLog.QueueDedup
import ConfidenceResolver.FlagLog.Shards
import ConfidenceResolver.Support.Redelivery
import ConfidenceResolver.Support.SharedCell
import ConfidenceResolver.Telemetry.Merge

/-!
# FlagLog — the queue from end to end

`flag_log/queue.rs`: a log is published to one of the shards, and stays in the queue until a
consumer acknowledges the batch it came in.  The isolate of a consumer may be gone at any point of
its run, the shards and the backend may answer as they like, also when they have taken what was
sent, and a message may be given up after too many tries.

* `QueueRun.step`: a log is sent, the snapshot is read, a run of the consumer comes to its end, a
  message is given up.
* `applies_reach_backend`: where an applied flag of a log that was sent is.
* `landed_once`: what the backend has taken, flag by flag.
-/

namespace ConfidenceResolver

namespace FlagLog

/-! ### What a batch keeps of its flags -/

/-- The hashes that were met are kept, or were known before, and only what is kept becomes known. -/
structure KeepsHashes (d d' : ApplyDedup) (met kept : List Word) : Prop where
  met : ∀ hash ∈ met, d.Knows hash ∨ hash ∈ kept
  known : ∀ hash, d'.Knows hash → d.Knows hash ∨ hash ∈ kept

theorem KeepsHashes.append {d d' d'' : ApplyDedup} {met kept met' kept' : List Word}
    (h : KeepsHashes d d' met kept) (h' : KeepsHashes d' d'' met' kept') :
    KeepsHashes d d'' (met ++ met') (kept ++ kept') := by
  have hlater (hash : Word) (hash' : d'.Knows hash ∨ hash ∈ kept') :
      d.Knows hash ∨ hash ∈ kept ++ kept' := by
    rw [List.mem_append]
    rcases hash' with hknown | hkept
    · exact (h.known hash hknown).imp id .inl
    · exact .inr (.inr hkept)
  refine ⟨fun hash hmet => ?_, fun hash hknown => hlater hash (h'.known hash hknown)⟩
  rcases List.mem_append.mp hmet with hmet | hmet
  · rw [List.mem_append]
    exact (h.met hash hmet).imp id .inl
  · exact hlater hash (h'.met hash hmet)

/-- One flag. -/
theorem keepsHashes_checkHash (d : ApplyDedup) (hash : Word) (nowSeconds : Int64) :
    KeepsHashes d (d.checkHash hash nowSeconds).1 [hash]
      (if (d.checkHash hash nowSeconds).2 then [hash] else []) := by
  obtain ⟨hdup, hnew⟩ := d.knows_checkHash hash nowSeconds
  cases hfirst : (d.checkHash hash nowSeconds).2 with
  | false =>
      refine ⟨by simpa using hdup hfirst, fun hash' hknown => ?_⟩
      exact .inl ((hnew hash' hknown).resolve_right (by simp [hfirst]))
  | true =>
      refine ⟨by simp, fun hash' hknown => ?_⟩
      simpa using (hnew hash' hknown).imp id And.left

theorem dedupFlags_cons (nowSeconds : Int64) (d : ApplyDedup) (flag : AppliedFlag)
    (flags : List AppliedFlag) :
    dedupFlags nowSeconds d (flag :: flags) =
      let first := d.checkHash (flagHash flag) nowSeconds
      let rest := dedupFlags nowSeconds first.1 flags
      (rest.1, if first.2 then flag :: rest.2 else rest.2) := rfl

theorem keepsHashes_dedupFlags (nowSeconds : Int64) (flags : List AppliedFlag) (d : ApplyDedup) :
    KeepsHashes d (dedupFlags nowSeconds d flags).1 (flags.map flagHash)
      ((dedupFlags nowSeconds d flags).2.map flagHash) := by
  induction flags generalizing d with
  | nil => exact ⟨by simp, fun hash h => .inl h⟩
  | cons flag flags ih =>
      have h := (keepsHashes_checkHash d (flagHash flag) nowSeconds).append (ih _)
      rw [dedupFlags_cons]
      cases hfirst : (d.checkHash (flagHash flag) nowSeconds).2 <;> simpa [hfirst] using h

theorem keepsHashes_dedupEnvelopes (nowSeconds : Int64) (envelopes : List FlagAssigned)
    (d : ApplyDedup) :
    KeepsHashes d (dedupEnvelopes nowSeconds d envelopes).1 (envelopeHashes envelopes)
      (envelopeHashes (dedupEnvelopes nowSeconds d envelopes).2) := by
  induction envelopes generalizing d with
  | nil => exact ⟨by simp [envelopeHashes], fun hash h => .inl h⟩
  | cons e rest ih =>
      have h := (keepsHashes_dedupFlags nowSeconds e.flags d).append (ih _)
      simp only [dedupEnvelopes, envelopeHashes] at h ⊢
      by_cases hnone : (dedupFlags nowSeconds d e.flags).2 = []
      · simpa [hnone] using h
      · simpa [hnone] using h

theorem keepsHashes_dedupFlagApplies (nowSeconds : Int64) (logs : List WriteFlagLogsRequest)
    (d : ApplyDedup) :
    KeepsHashes d (dedupFlagApplies nowSeconds d logs).1 (logHashes logs)
      (logHashes (dedupFlagApplies nowSeconds d logs).2) := by
  induction logs generalizing d with
  | nil => exact ⟨by simp [logHashes], fun hash h => .inl h⟩
  | cons log logs ih =>
      exact (keepsHashes_dedupEnvelopes nowSeconds log.flagAssigned d).append (ih _)

/-- No flag is new. -/
theorem dedupFlags_sublist (nowSeconds : Int64) (flags : List AppliedFlag) (d : ApplyDedup) :
    (dedupFlags nowSeconds d flags).2.Sublist flags := by
  induction flags generalizing d with
  | nil => exact .slnil
  | cons flag flags ih =>
      simp only [dedupFlags]
      split
      · exact (ih _).cons_cons flag
      · exact (ih _).cons flag

theorem dedupEnvelopes_sublist (nowSeconds : Int64) (envelopes : List FlagAssigned)
    (d : ApplyDedup) :
    (appliedIn (dedupEnvelopes nowSeconds d envelopes).2).Sublist (appliedIn envelopes) := by
  induction envelopes generalizing d with
  | nil => exact .slnil
  | cons e rest ih =>
      have hfirst := (dedupFlags_sublist nowSeconds e.flags d).map
        fun flag => (e.resolveId, e.clientInfo, flag)
      simp only [dedupEnvelopes]
      split
      · exact (ih _).trans (List.sublist_append_right _ _)
      · exact hfirst.append (ih _)

theorem dedupFlagApplies_sublist (nowSeconds : Int64) (logs : List WriteFlagLogsRequest)
    (d : ApplyDedup) :
    ((dedupFlagApplies nowSeconds d logs).2.flatMap applied).Sublist (logs.flatMap applied) := by
  induction logs generalizing d with
  | nil => exact .slnil
  | cons log logs ih =>
      exact (dedupEnvelopes_sublist nowSeconds log.flagAssigned d).append (ih _)

/-- The hashes of a batch are those of its applied flags. -/
theorem logHashes_eq (logs : List WriteFlagLogsRequest) :
    logHashes logs = (logs.flatMap applied).map fun flag => flagHash flag.2.2 := by
  rw [logHashes, List.map_flatMap]
  congr 1
  funext log
  exact envelopeHashes_eq log.flagAssigned

/-- **What a batch keeps**: some of its flags, one for each hash at least. -/
theorem batchLogs_keeps (messages : List (Option WriteFlagLogsRequest)) (dedup : Bool)
    (nowSeconds : Int64) :
    ((batchLogs messages dedup nowSeconds).flatMap applied).Sublist
        ((messages.filterMap id).flatMap applied) ∧
      ∀ x ∈ (messages.filterMap id).flatMap applied,
        ∃ y ∈ (batchLogs messages dedup nowSeconds).flatMap applied,
          flagHash y.2.2 = flagHash x.2.2 ∧ (dedup = false → y = x) := by
  cases dedup with
  | false => exact ⟨List.Sublist.refl _, fun x hx => ⟨x, hx, rfl, fun _ => rfl⟩⟩
  | true =>
      refine ⟨dedupFlagApplies_sublist _ _ _, fun x hx => ?_⟩
      have h := keepsHashes_dedupFlagApplies nowSeconds (messages.filterMap id)
        (.new Int64.maxValue dedupMaxEntries)
      have hmet : flagHash x.2.2 ∈ logHashes (messages.filterMap id) := by
        rw [logHashes_eq]
        exact List.mem_map_of_mem hx
      -- the table of a batch is empty at first
      have hkept := (h.met _ hmet).resolve_left (by simp [ApplyDedup.Knows, ApplyDedup.new])
      rw [logHashes_eq] at hkept
      obtain ⟨y, hy, heq⟩ := List.mem_map.mp hkept
      exact ⟨y, hy, heq, fun hfalse => absurd hfalse (by simp)⟩

/-! ### A run of the consumer -/

/-- `serde_json` on a log: a text that was written for a log is read as that log. -/
structure LogCodec (Body : Type) where
  encode : WriteFlagLogsRequest → Option Body
  decode : Body → Option WriteFlagLogsRequest
  decode_encode {log : WriteFlagLogsRequest} {body : Body} :
    encode log = some body → decode body = some log

/-- How long the isolate of a consumer is there. -/
inductive Lifetime where
  /-- Until the piece after the first `n` is posted; it has landed this often at most. -/
  | posting (n reached : Nat)
  /-- Until the snapshot is stored. -/
  | recording
  | whole
deriving DecidableEq

/-- What a run of the consumer meets. -/
structure Invocation where
  readable : Bool
  dedup : Bool
  nowSeconds : Int64
  network : Network
  lifetime : Lifetime

/-- The arguments of `update_kv_snapshot_merged`. -/
structure KvRecord where
  snapshot : Option TelemetrySnapshot
  flushResult : Option Bool

/-- What a run of the consumer has done, and what the backend has taken of it. -/
structure Consumption where
  unread : Bool
  dedup : Bool
  pieces : List Piece
  landings : List Landing
  record : Option KvRecord

/-- The telemetry of a batch: none, if no record has any. -/
def batchTelemetry (logs : List WriteFlagLogsRequest) : Option TelemetrySnapshot :=
  let deltas := logs.filterMap (·.telemetryData)
  if deltas = [] then none else some (TelemetrySnapshot.accumulateAll {} deltas)

/-- What lands of an isolate that is gone while it posts the piece after the first `n`. -/
def landingsUntil (network : Network) (pieces : List Piece) (n reached : Nat) : List Landing :=
  landings network [] (pieces.take n) ++
    (landings network (pieces.take n) ((pieces.drop n).take 1)).take reached

variable {Body : Type}

/-- `consume`, on the bodies of a batch; `true` when the batch is acknowledged. -/
def consumeBodies (codec : LogCodec Body) (sizes : DeliverySizes) (bodies : List Body)
    (inv : Invocation) : Consumption × Bool :=
  let messages := if inv.readable then some (bodies.map codec.decode) else none
  let run := consume sizes inv.network.send messages inv.dedup inv.nowSeconds
  let record := messages.map fun messages =>
    let logs := batchLogs messages inv.dedup inv.nowSeconds
    let delivered := decide ((deliverAllWithinLimit sizes inv.network.send [] logs).1.lost = 0)
    ⟨if delivered then batchTelemetry logs else none, some delivered⟩
  match inv.lifetime with
  | .posting n reached =>
      (⟨!inv.readable, inv.dedup, run.2.take n, landingsUntil inv.network run.2 n reached, none⟩,
        false)
  | .recording => (⟨!inv.readable, inv.dedup, run.2, landings inv.network [] run.2, record⟩, false)
  | .whole =>
      (⟨!inv.readable, inv.dedup, run.2, landings inv.network [] run.2, record⟩, run.1.isOk)

/-- The applied flags of the bodies. -/
def flagsOf (codec : LogCodec Body) (bodies : List Body) :
    List (String × Option ClientInfo × AppliedFlag) :=
  (bodies.filterMap codec.decode).flatMap applied

/-- What a run delivers of its batch. -/
structure Delivers (flags : List (String × Option ClientInfo × AppliedFlag)) (r : Consumption)
    (acked : Bool) : Prop where
  /-- Nothing lands that the batch does not have. -/
  sublist : ∀ landing ∈ r.landings, (applied landing.request).Sublist flags
  /-- When a batch that was read is acknowledged, each flag is accepted, or one with its hash. -/
  covers : acked = true → r.unread = false → ∀ x ∈ flags, ∃ y ∈ appliedOf (landed r.pieces),
    flagHash y.2.2 = flagHash x.2.2 ∧ (r.dedup = false → y = x)
  exact : acked = true → r.unread = false → r.dedup = false →
    (takenFlags r.landings).Perm (flags ++ takenFlags (unanswered r.landings))

/-- What lands of some pieces has no more than their flags. -/
theorem sublist_of_mem_landings {network : Network} {history pieces : List Piece}
    {landing : Landing} (h : landing ∈ landings network history pieces) :
    (applied landing.request).Sublist (appliedOf pieces) := by
  obtain ⟨p, hp, hrequest⟩ := mem_landings h
  obtain ⟨before, after, rfl⟩ := List.append_of_mem hp
  rw [← hrequest, appliedOf, List.flatMap_append, List.flatMap_cons]
  exact ((List.sublist_append_left _ _).trans (List.sublist_append_right _ _))

/-- Nor does what has landed when the isolate is gone. -/
theorem sublist_of_mem_landingsUntil {network : Network} {pieces : List Piece} {n reached : Nat}
    {landing : Landing} (h : landing ∈ landingsUntil network pieces n reached) :
    (applied landing.request).Sublist (appliedOf pieces) := by
  rcases List.mem_append.mp h with h | h
  · exact (sublist_of_mem_landings h).trans ((List.take_sublist n pieces).flatMap _)
  · refine (sublist_of_mem_landings (List.mem_of_mem_take h)).trans ?_
    exact ((List.take_sublist 1 _).trans (List.drop_sublist n pieces)).flatMap _

/-- The flags of a batch, as its delivery divides them. -/
theorem appliedOf_delivery (sizes : DeliverySizes) (send : Sender)
    (logs : List WriteFlagLogsRequest) :
    appliedOf (deliverAllWithinLimit sizes send [] logs).2 = logs.flatMap applied := by
  by_cases hne : logs = []
  · subst hne
    rw [deliverAllWithinLimit, if_pos rfl]
    rfl
  · exact (deliverAllWithinLimit_accounts sizes send [] logs hne).applied_eq

theorem landed_delivery (sizes : DeliverySizes) (send : Sender)
    {logs : List WriteFlagLogsRequest}
    (hcomplete : ackDecision (deliverAllWithinLimit sizes send [] logs).1 = .complete) :
    appliedOf (landed (deliverAllWithinLimit sizes send [] logs).2) = logs.flatMap applied := by
  by_cases hne : logs = []
  · subst hne
    rw [deliverAllWithinLimit, if_pos rfl]
    rfl
  · have h := deliverAllWithinLimit_accounts sizes send [] logs hne
    exact (h.covers (h.complete_iff.mp hcomplete)).1

/-- **A run of the consumer.** -/
theorem consumeBodies_delivers (codec : LogCodec Body) (sizes : DeliverySizes)
    (bodies : List Body) (inv : Invocation) :
    Delivers (flagsOf codec bodies) (consumeBodies codec sizes bodies inv).1
      (consumeBodies codec sizes bodies inv).2 := by
  have hread : (bodies.map codec.decode).filterMap id = bodies.filterMap codec.decode := by
    rw [List.filterMap_map]
    rfl
  have hkeeps := batchLogs_keeps (bodies.map codec.decode) inv.dedup inv.nowSeconds
  rw [hread] at hkeeps
  obtain ⟨hsublist, hhashes⟩ := hkeeps
  cases hreadable : inv.readable with
  | false =>
      -- nothing is posted for a batch that cannot be read
      have hnone : consumeBodies codec sizes bodies inv =
          ((⟨true, inv.dedup, [], [], none⟩ : Consumption), decide (inv.lifetime = .whole)) := by
        rw [consumeBodies, hreadable]
        cases inv.lifetime <;>
          simp [consume, landings, landingsUntil, Except.isOk, Except.toBool]
      rw [hnone]
      exact ⟨fun _ h => absurd h List.not_mem_nil, fun _ h => absurd h (by simp),
        fun _ h => absurd h (by simp)⟩
  | true =>
      have hall : (appliedOf (consume sizes inv.network.send (some (bodies.map codec.decode))
          inv.dedup inv.nowSeconds).2).Sublist (flagsOf codec bodies) :=
        (appliedOf_delivery sizes inv.network.send _).symm ▸ hsublist
      have hlandings : ∀ landing ∈ (consumeBodies codec sizes bodies inv).1.landings,
          (applied landing.request).Sublist (flagsOf codec bodies) := by
        intro landing hlanding
        rw [consumeBodies, hreadable] at hlanding
        cases hlifetime : inv.lifetime with
        | posting n reached =>
            rw [hlifetime] at hlanding
            exact (sublist_of_mem_landingsUntil hlanding).trans hall
        | recording =>
            rw [hlifetime] at hlanding
            exact (sublist_of_mem_landings hlanding).trans hall
        | whole =>
            rw [hlifetime] at hlanding
            exact (sublist_of_mem_landings hlanding).trans hall
      have hlanded (hacked : (consumeBodies codec sizes bodies inv).2 = true) :
          appliedOf (landed (consumeBodies codec sizes bodies inv).1.pieces) =
              (batchLogs (bodies.map codec.decode) inv.dedup inv.nowSeconds).flatMap applied ∧
            (takenFlags (consumeBodies codec sizes bodies inv).1.landings).Perm
              (appliedOf (landed (consumeBodies codec sizes bodies inv).1.pieces) ++
                takenFlags (unanswered (consumeBodies codec sizes bodies inv).1.landings)) := by
        rw [consumeBodies, hreadable] at hacked ⊢
        cases hlifetime : inv.lifetime with
        | posting n reached => simp [hlifetime] at hacked
        | recording => simp [hlifetime] at hacked
        | whole =>
            simp only [hlifetime, if_true] at hacked ⊢
            refine ⟨landed_delivery sizes inv.network.send
              ((consume_ok_iff sizes inv.network.send _ _ _).mp ?_),
              landings_perm inv.network (settled_delivery [] _)⟩
            cases hresult : (consume sizes inv.network.send (some (bodies.map codec.decode))
                inv.dedup inv.nowSeconds).1 with
            | ok u => rfl
            | error e => simp [hresult, Except.isOk, Except.toBool] at hacked
      have hdedup : (consumeBodies codec sizes bodies inv).1.dedup = inv.dedup := by
        rw [consumeBodies]
        cases inv.lifetime <;> rfl
      refine ⟨hlandings, fun hacked _ x hx => ?_, fun hacked _ hoff => ?_⟩
      · rw [(hlanded hacked).1, hdedup]
        exact hhashes x hx
      · obtain ⟨hpieces, hperm⟩ := hlanded hacked
        rw [hdedup] at hoff
        rwa [hpieces, hoff, batchLogs, if_neg Bool.false_ne_true, hread] at hperm

/-! ### The snapshot in the store -/

/-- `update_kv_snapshot_merged`, on what was read from the store. -/
def updateKvSnapshotMerged (stored : Option TelemetrySnapshot) (record : KvRecord) :
    TelemetrySnapshot :=
  let cumulative := stored.getD {}
  let cumulative := record.snapshot.elim cumulative fun snap =>
    mergeSnapshots cumulative snap .live
  match record.flushResult with
  | some true =>
      { cumulative with
        flush := { cumulative.flush with succeeded := cumulative.flush.succeeded + 1 } }
  | some false =>
      { cumulative with flush := { cumulative.flush with failed := cumulative.flush.failed + 1 } }
  | none => cumulative

/-- What the store does for a run: it is bound, and the snapshot can be stored; and the number of
the read by which the run knows the snapshot. -/
structure KvAnswers where
  bound : Bool
  stores : Bool
  read : Nat

/-- The store after a run. -/
def updateKv (kv : SharedCell TelemetrySnapshot) (record : Option KvRecord) (answers : KvAnswers) :
    SharedCell TelemetrySnapshot :=
  match record with
  | none => kv
  | some record =>
      if answers.bound && answers.stores then
        kv.write (fun stored => updateKvSnapshotMerged stored record) answers.read
      else kv

/-! ### Runs -/

/-- The queue; the logs that no shard has taken, and those that another shard has taken before; and
the snapshot. -/
structure QueueRun (Body : Type) where
  courier : Courier Body Consumption := {}
  dropped : List WriteFlagLogsRequest := []
  repeated : List WriteFlagLogsRequest := []
  kv : SharedCell TelemetrySnapshot := {}

/-- What happens: a log is sent, with the answers of the shards, the shards that take it without
saying so, and the sample that chooses one; a run of the consumer reads the snapshot; one comes to
its end, with the messages of these numbers; a message is given up. -/
inductive QueueEvent (Q : Type) where
  | send (log : WriteFlagLogsRequest) (accepts : List Nat → Q → Bool) (silent : Nat → Bool)
      (sample : Float)
  | read (answers : Bool)
  | consume (ids : List Nat) (inv : Invocation) (kv : KvAnswers)
  | bury (id : Nat)

section Runs

variable {Q : Type} (codec : LogCodec Body) (sizes : DeliverySizes) (env : List (String × Q))

/-- The shards that have taken a log. -/
def takenBy (sending : Sending) (silent : Nat → Bool) : List Nat :=
  if sending.sent then sending.tried.dropLast.filter silent ++ sending.tried.getLast?.toList
  else sending.tried.filter silent

/-- `send`. -/
def QueueRun.send (run : QueueRun Body) (log : WriteFlagLogsRequest)
    (accepts : List Nat → Q → Bool) (silent : Nat → Bool) (sample : Float) : QueueRun Body :=
  match codec.encode log with
  | some body =>
      match takenBy (sendToAny (discover env) accepts sample) silent with
      | [] => { run with dropped := run.dropped ++ [log] }
      | _ :: others =>
          { run with
            courier := run.courier.publishAll (body :: others.map fun _ => body)
            repeated := run.repeated ++ others.map fun _ => log }
  | none => { run with dropped := run.dropped ++ [log] }

def QueueRun.step (run : QueueRun Body) : QueueEvent Q → QueueRun Body
  | .send log accepts silent sample => run.send codec env log accepts silent sample
  | .read answers => { run with kv := run.kv.read answers }
  | .consume ids inv kv =>
      let courier := run.courier.attempt (consumeBodies codec sizes) ids inv
      let record := (consumeBodies codec sizes ((run.courier.batch ids).map Prod.snd) inv).1.record
      { run with courier := courier, kv := updateKv run.kv record kv }
  | .bury id => { run with courier := run.courier.bury id }

def QueueRun.run (events : List (QueueEvent Q)) : QueueRun Body :=
  events.foldl (QueueRun.step codec sizes env) {}

/-- The logs that were sent. -/
def sentLogs (events : List (QueueEvent Q)) : List WriteFlagLogsRequest :=
  events.filterMap fun
    | .send log _ _ _ => some log
    | _ => none

/-- Each log that was sent is dropped, or the text of one message, or more if several shards have
taken it. -/
structure QueueRun.Inv (events : List (QueueEvent Q)) (run : QueueRun Body) : Prop where
  placed : run.courier.Placed
  consumed : run.courier.Consumed (consumeBodies codec sizes)
  sent : (sentLogs events ++ run.repeated).Perm
    (run.dropped ++ (run.courier.published.map Prod.snd).filterMap codec.decode)

variable {codec sizes env} {events : List (QueueEvent Q)} {run : QueueRun Body}

/-- A log comes behind those that were sent before. -/
theorem perm_send {sent repeated held new : List WriteFlagLogsRequest} {log : WriteFlagLogsRequest}
    (h : (sent ++ repeated).Perm held) :
    (sent ++ [log] ++ (repeated ++ new)).Perm (held ++ log :: new) := by
  have hall := h.append_right (log :: new)
  refine List.Perm.trans ?_ hall
  simp only [List.append_assoc, List.singleton_append]
  exact List.Perm.append_left sent List.perm_middle.symm

theorem QueueRun.Inv.send (h : run.Inv codec sizes events) (log : WriteFlagLogsRequest)
    (accepts : List Nat → Q → Bool) (silent : Nat → Bool) (sample : Float) :
    (run.send codec env log accepts silent sample).Inv codec sizes
      (events ++ [.send log accepts silent sample]) := by
  have hsent : sentLogs (events ++ [.send log accepts silent sample]) = sentLogs events ++ [log] :=
    List.filterMap_append
  have hdrop : ({ run with dropped := run.dropped ++ [log] } : QueueRun Body).Inv codec sizes
      (events ++ [.send log accepts silent sample]) := by
    refine ⟨h.placed, h.consumed, ?_⟩
    rw [hsent, ← List.append_nil run.repeated]
    refine (perm_send h.sent).trans ?_
    simp only [List.append_assoc]
    exact List.Perm.append_left _ List.perm_append_comm
  rw [QueueRun.send]
  cases hencode : codec.encode log with
  | none => exact hdrop
  | some body =>
      simp only
      split
      · exact hdrop
      · rename_i shard others htaken
        refine ⟨h.placed.publishAll _, h.consumed.publishAll _, ?_⟩
        have hdecode := codec.decode_encode hencode
        have hcopies : (others.map fun _ => body).filterMap codec.decode =
            others.map fun _ => log := by
          rw [List.filterMap_map, ← List.filterMap_eq_map]
          congr 1
          funext shard
          exact hdecode
        have hmessages : (body :: others.map fun _ => body).filterMap codec.decode =
            log :: others.map fun _ => log := by
          rw [List.filterMap_cons, hdecode, hcopies]
        rw [hsent, Courier.published_publishAll, List.filterMap_append, hmessages]
        exact (perm_send h.sent).trans (.of_eq (List.append_assoc _ _ _))

theorem QueueRun.Inv.step (h : run.Inv codec sizes events) (event : QueueEvent Q) :
    (run.step codec sizes env event).Inv codec sizes (events ++ [event]) := by
  have hsent : sentLogs (events ++ [event]) = sentLogs events ++ sentLogs [event] :=
    List.filterMap_append
  cases event with
  | send log accepts silent sample => exact h.send log accepts silent sample
  | read answers =>
      refine ⟨h.placed, h.consumed, ?_⟩
      rw [hsent]
      exact (List.append_nil (sentLogs events)).symm ▸ h.sent
  | consume ids inv kv =>
      refine ⟨h.placed.attempt _ ids inv, h.consumed.attempt h.placed ids inv, ?_⟩
      rw [hsent]
      exact (List.append_nil (sentLogs events)).symm ▸ h.sent
  | bury id =>
      refine ⟨h.placed.bury id, h.consumed.bury id, ?_⟩
      rw [hsent]
      exact (List.append_nil (sentLogs events)).symm ▸ h.sent

variable (codec sizes env events)

/-- Every run keeps the invariant. -/
theorem QueueRun.inv_run : (QueueRun.run codec sizes env events).Inv codec sizes events := by
  induction events using List.reverseRecOn with
  | nil => exact ⟨Courier.placed_new, Courier.consumed_new _, .nil⟩
  | append_singleton events event ih =>
      rw [QueueRun.run, List.foldl_append]
      exact ih.step event

/-! ### Where the applied flags are -/

/-- **Nothing gets lost silently**: an applied flag of a log that was sent is in a log that was
dropped, in a message that is pending or was given up, or in a batch that was acknowledged; and then
the batch could not be read, or the backend has accepted the flag, or one with its hash from the
same batch if the pass for duplicates is on. -/
theorem applies_reach_backend {log : WriteFlagLogsRequest} (hsent : log ∈ sentLogs events)
    {x : String × Option ClientInfo × AppliedFlag} (hx : x ∈ applied log) :
    let run := QueueRun.run codec sizes env events
    log ∈ run.dropped ∨
      (∃ e ∈ run.courier.pending ++ run.courier.buried, codec.decode e.2 = some log) ∨
      ∃ a ∈ run.courier.acks, (∃ e ∈ a.batch, codec.decode e.2 = some log) ∧
        (a.result.unread = true ∨ ∃ y ∈ appliedOf (landed a.result.pieces),
          flagHash y.2.2 = flagHash x.2.2 ∧ (a.result.dedup = false → y = x)) := by
  intro run
  have h : run.Inv codec sizes events := QueueRun.inv_run codec sizes env events
  rcases List.mem_append.mp (h.sent.subset (List.mem_append_left _ hsent)) with
    hdropped | hpublished
  · exact .inl hdropped
  · obtain ⟨body, hbody, hdecode⟩ := List.mem_filterMap.mp hpublished
    obtain ⟨e, he, rfl⟩ := List.mem_map.mp hbody
    rcases List.mem_append.mp (h.placed.perm.subset he) with hwaits | hdone
    · exact .inr (.inl ⟨e, hwaits, hdecode⟩)
    · obtain ⟨a, ha, hbatch⟩ := List.mem_flatMap.mp hdone
      refine .inr (.inr ⟨a, ha, ⟨e, hbatch, hdecode⟩, ?_⟩)
      obtain ⟨hattempt, hacked⟩ := List.mem_filter.mp ha
      obtain ⟨inv, hran⟩ := h.consumed.ran a hattempt
      have hdelivers := consumeBodies_delivers codec sizes (a.batch.map Prod.snd) inv
      rw [hran] at hdelivers
      cases hread : a.result.unread with
      | true => exact .inl rfl
      | false =>
          refine .inr (hdelivers.covers hacked hread x ?_)
          refine List.mem_flatMap.mpr ⟨log, List.mem_filterMap.mpr ⟨e.2, ?_, hdecode⟩, hx⟩
          exact List.mem_map_of_mem hbatch

/-- The applied flags of messages. -/
def messageFlags (messages : List (Nat × Body)) :
    List (String × Option ClientInfo × AppliedFlag) :=
  messages.flatMap fun e => flagsOf codec [e.2]

/-- What the backend has taken in some runs of the consumer. -/
def landedIn (attempts : List (Attempt Body Consumption)) :
    List (String × Option ClientInfo × AppliedFlag) :=
  attempts.flatMap fun a => takenFlags a.result.landings

/-- What it has taken without an answer that says so. -/
def unansweredIn (attempts : List (Attempt Body Consumption)) :
    List (String × Option ClientInfo × AppliedFlag) :=
  attempts.flatMap fun a => takenFlags (unanswered a.result.landings)

theorem flagsOf_map_snd (messages : List (Nat × Body)) :
    flagsOf codec (messages.map Prod.snd) = messageFlags codec messages := by
  induction messages with
  | nil => rfl
  | cons e rest ih =>
      have hcons : messageFlags codec (e :: rest) =
          flagsOf codec [e.2] ++ messageFlags codec rest := rfl
      rw [hcons, ← ih]
      simp only [flagsOf, List.map_cons, List.filterMap_cons]
      cases codec.decode e.2 <;> simp

/-- Nobody takes what was sent without saying so: no attempt lands that fails, and no shard has a
log that it has refused. -/
def QueueEvent.Candid : QueueEvent Q → Prop
  | .send _ _ silent _ => ∀ shard, silent shard = false
  | .consume _ inv _ => inv.network.Candid
  | _ => True

theorem unanswered_consumeBodies (bodies : List Body) {inv : Invocation}
    (hcandid : inv.network.Candid) (hacked : (consumeBodies codec sizes bodies inv).2 = true) :
    unanswered (consumeBodies codec sizes bodies inv).1.landings = [] := by
  rw [consumeBodies] at hacked ⊢
  cases hlifetime : inv.lifetime with
  | posting n reached => simp [hlifetime] at hacked
  | recording => simp [hlifetime] at hacked
  | whole => exact hcandid.unanswered_landings [] _

theorem takenBy_candid (sending : Sending) {silent : Nat → Bool}
    (h : ∀ shard, silent shard = false) : (takenBy sending silent).length ≤ 1 := by
  have hnone : ∀ tried : List Nat, tried.filter silent = [] := fun tried =>
    List.filter_eq_nil_iff.mpr fun shard _ => by simp [h shard]
  rw [takenBy, hnone, hnone]
  split
  · cases sending.tried.getLast? <;> simp
  · exact Nat.zero_le 1

/-- In such a run no log has two messages, and what the runs of the consumer have posted that have
acknowledged their batch is answered. -/
theorem candid_run (hcandid : ∀ event ∈ events, event.Candid) :
    let run := QueueRun.run codec sizes env events
    run.repeated = [] ∧ unansweredIn run.courier.acks = [] := by
  induction events using List.reverseRecOn with
  | nil => exact ⟨rfl, rfl⟩
  | append_singleton events event ih =>
      obtain ⟨hevents, hevent⟩ := List.forall_mem_append.mp hcandid
      have hone := List.forall_mem_singleton.mp hevent
      obtain ⟨hrepeated, hunanswered⟩ := ih hevents
      rw [QueueRun.run, List.foldl_append]
      change let run := (QueueRun.run codec sizes env events).step codec sizes env event
        run.repeated = [] ∧ unansweredIn run.courier.acks = []
      generalize QueueRun.run codec sizes env events = run at hrepeated hunanswered
      cases event with
      | send log accepts silent sample =>
          -- a shard that refuses has not taken the log, so one shard at most has it
          have htaken := takenBy_candid (sendToAny (discover env) accepts sample) hone
          simp only [QueueRun.step, QueueRun.send]
          cases codec.encode log with
          | none => exact ⟨hrepeated, hunanswered⟩
          | some body =>
              simp only
              split
              · exact ⟨hrepeated, hunanswered⟩
              · rename_i shard others hshards
                rw [hshards, List.length_cons] at htaken
                obtain rfl : others = [] := List.eq_nil_of_length_eq_zero (by omega)
                refine ⟨by simpa using hrepeated, ?_⟩
                simpa [Courier.acks, Courier.attempts_publishAll] using hunanswered
      | read answers => exact ⟨hrepeated, hunanswered⟩
      | bury id => exact ⟨hrepeated, hunanswered⟩
      | consume ids inv kv =>
          refine ⟨hrepeated, ?_⟩
          have hacks := Courier.acks_attempt (consumeBodies codec sizes) run.courier ids inv
          have hanswered := unanswered_consumeBodies codec sizes
            ((run.courier.batch ids).map Prod.snd) hone
          simp only [QueueRun.step] at hacks ⊢
          rw [hacks, unansweredIn, List.flatMap_append]
          rw [unansweredIn] at hunanswered
          rw [hunanswered, List.nil_append]
          split
          · rename_i hacked
            rw [List.flatMap_singleton, hanswered hacked]
            rfl
          · rfl

/-- **Each flag once, but for failures and silence**: what the backend has taken, what waits, was
given up or was dropped, are together the applied flags of the logs that were sent, those that more
than one shard has taken, those that have landed before the answer of success, and those that failed
runs of the consumer have delivered before; with the pass for duplicates off, and no batch unread.
Where nobody takes what was sent without saying so, only the failed runs are left. -/
theorem landed_once
    (hplain : ∀ a ∈ (QueueRun.run codec sizes env events).courier.acks,
      a.result.unread = false ∧ a.result.dedup = false) :
    let run := QueueRun.run codec sizes env events
    (landedIn run.courier.attempts ++
        messageFlags codec (run.courier.pending ++ run.courier.buried) ++
        run.dropped.flatMap applied).Perm
      ((sentLogs events).flatMap applied ++ run.repeated.flatMap applied ++
        unansweredIn run.courier.acks ++ landedIn run.courier.failures) ∧
    (∀ a ∈ run.courier.attempts, ∀ landing ∈ a.result.landings,
      (applied landing.request).Sublist (messageFlags codec a.batch)) ∧
    ((∀ event ∈ events, event.Candid) →
      run.repeated = [] ∧ unansweredIn run.courier.acks = []) := by
  intro run
  have h : run.Inv codec sizes events := QueueRun.inv_run codec sizes env events
  have hdelivers {a : Attempt Body Consumption} (ha : a ∈ run.courier.attempts) :
      Delivers (messageFlags codec a.batch) a.result a.acked := by
    obtain ⟨inv, hran⟩ := h.consumed.ran a ha
    have hdelivers := consumeBodies_delivers codec sizes (a.batch.map Prod.snd) inv
    rwa [hran, flagsOf_map_snd] at hdelivers
  have hdelivered : (landedIn run.courier.attempts).Perm
      (messageFlags codec run.courier.done ++ unansweredIn run.courier.acks ++
        landedIn run.courier.failures) := by
    refine Courier.delivered_perm (fun body => flagsOf codec [body])
      (fun r : Consumption => takenFlags r.landings)
      (fun r => takenFlags (unanswered r.landings)) fun a ha => ?_
    obtain ⟨hattempt, hacked⟩ := List.mem_filter.mp ha
    obtain ⟨hread, hoff⟩ := hplain a ha
    exact (hdelivers hattempt).exact hacked hread hoff
  have hsent : ((sentLogs events).flatMap applied ++ run.repeated.flatMap applied).Perm
      (run.dropped.flatMap applied ++ messageFlags codec run.courier.published) := by
    have hflags := h.sent.flatMap_right applied
    rw [List.flatMap_append, List.flatMap_append] at hflags
    rwa [← flagsOf_map_snd, flagsOf]
  have hpublished : (messageFlags codec run.courier.published).Perm
      (messageFlags codec (run.courier.pending ++ run.courier.buried) ++
        messageFlags codec run.courier.done) := by
    have hflags := h.placed.perm.flatMap_right fun e => flagsOf codec [e.2]
    rwa [List.flatMap_append] at hflags
  refine ⟨List.perm_iff_count.mpr fun x => ?_, fun a ha => (hdelivers ha).sublist,
    candid_run codec sizes env events⟩
  -- the same count of each flag on both sides
  have hleft := hdelivered.count_eq x
  have hright := (hsent.trans (hpublished.append_left _)).count_eq x
  simp only [List.count_append] at hleft hright ⊢
  omega

/-- Batches are read, and the pass for duplicates is off. -/
def QueueEvent.Plain : QueueEvent Q → Prop
  | .consume _ inv _ => inv.readable = true ∧ inv.dedup = false
  | _ => True

theorem unread_consumeBodies (bodies : List Body) (inv : Invocation) :
    (consumeBodies codec sizes bodies inv).1.unread = !inv.readable ∧
      (consumeBodies codec sizes bodies inv).1.dedup = inv.dedup := by
  rw [consumeBodies]
  cases inv.lifetime <;> exact ⟨rfl, rfl⟩

/-- Where batches are read and the pass for duplicates is off, so it is in every run. -/
theorem plain_attempts (hplain : ∀ event ∈ events, event.Plain) :
    ∀ a ∈ (QueueRun.run codec sizes env events).courier.attempts,
      a.result.unread = false ∧ a.result.dedup = false := by
  induction events using List.reverseRecOn with
  | nil => exact fun a ha => absurd ha List.not_mem_nil
  | append_singleton events event ih =>
      obtain ⟨hevents, hevent⟩ := List.forall_mem_append.mp hplain
      have hone := List.forall_mem_singleton.mp hevent
      have hold := ih hevents
      rw [QueueRun.run, List.foldl_append]
      cases event with
      | send log accepts silent sample =>
          simp only [List.foldl_cons, List.foldl_nil, QueueRun.step, QueueRun.send]
          cases codec.encode log with
          | none => exact hold
          | some body =>
              simp only
              split
              · exact hold
              · simp only [Courier.attempts_publishAll]
                exact hold
      | read answers => exact hold
      | bury id => exact hold
      | consume ids inv kv =>
          obtain ⟨hreadable, hoff⟩ := hone
          refine List.forall_mem_append.mpr ⟨hold, List.forall_mem_singleton.mpr ?_⟩
          obtain ⟨hunread, hdedup⟩ := unread_consumeBodies codec sizes
            (((events.foldl (QueueRun.step codec sizes env) {}).courier.batch ids).map Prod.snd) inv
          exact ⟨by rw [hunread, hreadable]; rfl, hdedup.trans hoff⟩

end Runs

/-! ### A log that is delivered twice -/

/-- Logs that are their own text. -/
def plainCodec : LogCodec WriteFlagLogsRequest := ⟨some, some, fun h => h.symm⟩

/-- A network with two destinations, of which the first takes a request and does not answer. -/
def silentNetwork : Network :=
  ⟨true, 2, fun _ _ destination attempt =>
    if destination = 0 ∧ attempt = 1 then .failed true true else .ok⟩

/-- A run of the consumer, with the isolate gone after the first piece has reached the backend. -/
def cutShort : Invocation := ⟨true, false, 7, silentNetwork, .posting 0 1⟩

def undisturbed : Invocation := { cutShort with lifetime := .whole }

/-- A log is taken by a shard that does not say so and by the next one, and its first batch comes
twice. -/
def deliveredTwice : List (QueueEvent String) :=
  [.send (Sample.appliesOf "r" ["u"]) (fun _ queue => queue = "second") (fun shard => shard = 0)
      0.25,
    .read true, .consume [0] cutShort ⟨true, true, 0⟩,
    .read true, .consume [0, 1] undisturbed ⟨true, true, 1⟩]

theorem plain_deliveredTwice : ∀ event ∈ deliveredTwice, event.Plain := by
  simp [deliveredTwice, QueueEvent.Plain, undisturbed, cutShort]

/-- The applied flag of that log. -/
def appliedOnce : String × Option ClientInfo × AppliedFlag := ("r", none, Sample.appliedTo "u")

theorem applies_reach_backend_twice :
    let run := QueueRun.run plainCodec keySizes sampleBindings deliveredTwice
    Sample.appliesOf "r" ["u"] ∈ run.dropped ∨
      (∃ e ∈ run.courier.pending ++ run.courier.buried,
        plainCodec.decode e.2 = some (Sample.appliesOf "r" ["u"])) ∨
      ∃ a ∈ run.courier.acks,
        (∃ e ∈ a.batch, plainCodec.decode e.2 = some (Sample.appliesOf "r" ["u"])) ∧
        (a.result.unread = true ∨ ∃ y ∈ appliedOf (landed a.result.pieces),
          flagHash y.2.2 = flagHash appliedOnce.2.2 ∧
            (a.result.dedup = false → y = appliedOnce)) :=
  have hsent : Sample.appliesOf "r" ["u"] ∈ sentLogs deliveredTwice := List.mem_singleton.mpr rfl
  have happlied : appliedOnce ∈ applied (Sample.appliesOf "r" ["u"]) := List.mem_singleton.mpr rfl
  applies_reach_backend plainCodec keySizes sampleBindings deliveredTwice hsent happlied

theorem landed_once_twice :
    let run := QueueRun.run plainCodec keySizes sampleBindings deliveredTwice
    (landedIn run.courier.attempts ++
        messageFlags plainCodec (run.courier.pending ++ run.courier.buried) ++
        run.dropped.flatMap applied).Perm
      ((sentLogs deliveredTwice).flatMap applied ++ run.repeated.flatMap applied ++
        unansweredIn run.courier.acks ++ landedIn run.courier.failures) ∧
    (∀ a ∈ run.courier.attempts, ∀ landing ∈ a.result.landings,
      (applied landing.request).Sublist (messageFlags plainCodec a.batch)) ∧
    ((∀ event ∈ deliveredTwice, event.Candid) →
      run.repeated = [] ∧ unansweredIn run.courier.acks = []) :=
  landed_once plainCodec keySizes sampleBindings deliveredTwice fun a ha =>
    plain_attempts plainCodec keySizes sampleBindings deliveredTwice plain_deliveredTwice a
      (List.mem_filter.mp ha).1

end FlagLog

end ConfidenceResolver
