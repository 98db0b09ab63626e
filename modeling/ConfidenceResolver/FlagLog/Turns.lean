import ConfidenceResolver.FlagLog.Buffer

/-!
# FlagLog — what a turn takes

What the synchronous blocks do, each said once.

* `Removes`: chunks go off the front of the buffer, to takers of one kind, and nothing else changes
  about the records.  `Removes.refl`, `Removes.trans`, `removes_took`.
* `Decision.decide_cases`, `offerAt_cases`, `tickStep_cases`, `drainPass_cases`: the outcomes of a
  block.
* `shedDown_spec`: the loop of the timer.
* `reported`, `shedRecords`: the shed records on the console, and those taken to be dropped.
-/

namespace ConfidenceResolver

namespace FlagLog

variable {sizes : LogSizes}

/-! ### Chunks off the front -/

/-- From `s` to `s'` the entries `removed` have left the front of the buffer, in the chunks
`new`. -/
structure Removal (p : Taker → Prop) (s s' : Isolate sizes) (removed : List (Entry sizes))
    (new : List Take) : Prop where
  logs : s.buffer.logs = removed ++ s'.buffer.logs
  bytes : s'.buffer.bytes = s.buffer.bytes - (removed.map (·.len)).sum
  takes : s'.takes = s.takes ++ new
  chunks : new.flatMap (·.chunk) = removed.map (·.log)
  takers : ∀ t ∈ new, p t.taker
  offered : s'.offered = s.offered
  nextSeq : s'.buffer.nextSeq = s.buffer.nextSeq
  saturated : s'.saturated = s.saturated

/-- From `s` to `s'` chunks have left the front of the buffer, to takers of `p`. -/
def Removes (p : Taker → Prop) (s s' : Isolate sizes) : Prop :=
  ∃ removed new, Removal p s s' removed new

variable {p q : Taker → Prop} {s s' s'' : Isolate sizes}

/-- The count of deliveries, the waiter and the console do not matter. -/
theorem removes_of_eq (hlogs : s'.buffer.logs = s.buffer.logs)
    (hbytes : s'.buffer.bytes = s.buffer.bytes) (htakes : s'.takes = s.takes)
    (hoffered : s'.offered = s.offered) (hnext : s'.buffer.nextSeq = s.buffer.nextSeq)
    (hsaturated : s'.saturated = s.saturated) : Removes p s s' :=
  ⟨[], [], hlogs.symm, hbytes, htakes.trans (List.append_nil _).symm, rfl, by simp, hoffered, hnext,
    hsaturated⟩

theorem Removes.refl (s : Isolate sizes) : Removes p s s := removes_of_eq rfl rfl rfl rfl rfl rfl

theorem Removes.trans (h : Removes p s s') (h' : Removes p s' s'') : Removes p s s'' := by
  obtain ⟨removed, new, hr⟩ := h
  obtain ⟨removed', new', hr'⟩ := h'
  refine ⟨removed ++ removed', new ++ new', ?_, ?_, ?_, ?_, ?_, ?_, ?_, ?_⟩
  · rw [hr.logs, hr'.logs, List.append_assoc]
  · rw [hr'.bytes, hr.bytes, List.map_append, List.sum_append, Nat.sub_sub]
  · rw [hr'.takes, hr.takes, List.append_assoc]
  · rw [List.flatMap_append, hr.chunks, hr'.chunks, List.map_append]
  · exact List.forall_mem_append.mpr ⟨hr.takers, hr'.takers⟩
  · exact hr'.offered.trans hr.offered
  · exact hr'.nextSeq.trans hr.nextSeq
  · exact hr'.saturated.trans hr.saturated

theorem Removes.mono (h : Removes p s s') (hpq : ∀ t, p t → q t) : Removes q s s' := by
  obtain ⟨removed, new, hr⟩ := h
  exact ⟨removed, new, hr.logs, hr.bytes, hr.takes, hr.chunks, fun t ht => hpq _ (hr.takers t ht),
    hr.offered, hr.nextSeq, hr.saturated⟩

/-- **A chunk** is taken: its bytes are those taken off the count. -/
theorem removes_took (s : Isolate sizes) (stop : Entry sizes → Bool) {taker : Taker} (shed : Bool)
    (h : p taker) : Removes p s (s.took (s.buffer.drain stop) taker shed).2 := by
  refine ⟨(FrontCut.cut sizes.usizeMax Entry.len flushBytes flushRecords stop s.buffer.logs).1,
    [⟨taker, shed, (s.buffer.drain stop).1⟩], ?_, ?_, rfl, ?_, ?_, rfl, rfl, rfl⟩
  · exact (FrontCut.cut_append s.buffer.logs).symm
  · rw [← (FrontCut.cut_open_bytes sizes.flushBytes_lt fun e _ => e.len_le).2]
    rfl
  · rw [List.flatMap_singleton]
    rfl
  · simpa using h

/-- The entries of a chunk. -/
theorem Buffer.drain_entries (buffer : Buffer sizes) (stop : Entry sizes → Bool) :
    ∃ entries, buffer.logs = entries ++ (buffer.drain stop).2.logs ∧
      (buffer.drain stop).1 = entries.map (·.log) ∧ (∀ e ∈ entries, stop e = false) ∧
      (entries = [] → ∀ e ∈ buffer.logs.head?, stop e = true) :=
  ⟨(FrontCut.cut sizes.usizeMax Entry.len flushBytes flushRecords stop buffer.logs).1,
    (FrontCut.cut_append buffer.logs).symm, rfl,
    (FrontCut.cut_open_bytes sizes.flushBytes_lt fun e _ => e.len_le).1, FrontCut.cut_eq_nil⟩

theorem removes_acquire (s : Isolate sizes) : Removes p s s.acquire :=
  removes_of_eq rfl rfl rfl rfl rfl rfl

theorem removes_release (s : Isolate sizes) : Removes p s s.release :=
  removes_of_eq rfl rfl rfl rfl rfl rfl

theorem removes_dropWaiter (s : Isolate sizes) : Removes p s s.dropWaiter :=
  removes_of_eq rfl rfl rfl rfl rfl rfl

theorem removes_log (s : Isolate sizes) (line : ConsoleLine) : Removes p s (s.log line) :=
  removes_of_eq rfl rfl rfl rfl rfl rfl

/-- A chunk for which a slot was acquired. -/
theorem removes_acquire_took (s : Isolate sizes) (stop : Entry sizes → Bool) {taker : Taker}
    (shed : Bool) (h : p taker) :
    Removes p s (s.acquire.took (s.acquire.buffer.drain stop) taker shed).2 :=
  (removes_acquire s).trans (removes_took s.acquire stop shed h)

/-! ### Shed records -/

/-- The shed records that a line of the console counts. -/
def ConsoleLine.shedRecords : ConsoleLine → Nat
  | .shed records _ | .shedFromTimer records _ _ => records
  | .leftBuffered _ _ _ _ | .bufferEmpty _ _ => 0

/-- The shed records that the console counts. -/
def Isolate.reported (s : Isolate sizes) : Nat := (s.console.map ConsoleLine.shedRecords).sum

/-- The records of the chunks taken to be dropped. -/
def Isolate.shedRecords (s : Isolate sizes) : Nat :=
  ((s.takes.filter (·.shed)).map (·.chunk.length)).sum

@[simp] theorem reported_log (s : Isolate sizes) (line : ConsoleLine) :
    (s.log line).reported = s.reported + line.shedRecords := by
  simp [Isolate.reported, Isolate.log]

/-- What a drain writes is one line at most, and it reports no shed records. -/
theorem reportDrain_cases (s : Isolate sizes) (reason : String) (delivered : Nat) :
    s.reportDrain reason delivered = s ∨
      ∃ line, line.shedRecords = 0 ∧ s.reportDrain reason delivered = s.log line := by
  unfold Isolate.reportDrain
  split
  · exact .inr ⟨_, rfl, rfl⟩
  split
  · exact .inr ⟨_, rfl, rfl⟩
  · exact .inl rfl

@[simp] theorem shedRecords_took_true (s : Isolate sizes)
    (taken : List WriteFlagLogsRequest × Buffer sizes) (taker : Taker) :
    (s.took taken taker true).2.shedRecords = s.shedRecords + taken.1.length := by
  simp [Isolate.shedRecords, Isolate.took]

@[simp] theorem shedRecords_took_false (s : Isolate sizes)
    (taken : List WriteFlagLogsRequest × Buffer sizes) (taker : Taker) :
    (s.took taken taker false).2.shedRecords = s.shedRecords := by
  simp [Isolate.shedRecords, Isolate.took]

/-! ### The blocks -/

theorem Decision.decide_cases (atCeiling : Bool) (inFlight : Nat) :
    (Decision.decide atCeiling inFlight = .shed ∧ hardInFlight ≤ inFlight) ∨
      (Decision.decide atCeiling inFlight = .hold ∧ atCeiling = false) ∨
      (Decision.decide atCeiling inFlight = .deliver ∧ inFlight < hardInFlight) := by
  by_cases hhard : hardInFlight ≤ inFlight
  · -- no slot is left: at the ceiling it is shed, and below it is held
    have hmax : maxInFlight ≤ inFlight := Nat.le_trans (by decide) hhard
    cases atCeiling <;> simp [Decision.decide, hhard, hmax]
  · by_cases hmax : maxInFlight ≤ inFlight
    · cases atCeiling <;> simp [Decision.decide, hhard, hmax, Nat.lt_of_not_le hhard]
    · simp [Decision.decide, hhard, hmax, Nat.lt_of_not_le hhard]

/-- A buffer below the flush size is below the ceiling. -/
theorem Buffer.atCeiling_of_sizeDue {buffer : Buffer sizes} (h : buffer.sizeDue = false) :
    buffer.atCeiling = false := by
  have hbytes : flushBytes < maxBufferBytes := by decide
  have hrecords : flushRecords < maxBufferRecords := by decide
  simp only [Buffer.sizeDue, Buffer.atCeiling, Bool.or_eq_false_iff, decide_eq_false_iff_not] at h ⊢
  omega

/-- **An offer** leaves the record in a buffer below the ceiling, or takes a chunk: to be dropped,
or with a slot that was left. -/
theorem offerAt_cases (s : Isolate sizes) (log : WriteFlagLogsRequest) (nowMs : Int) :
    (s.offerAt log nowMs = (none, s.push log nowMs) ∧
        (s.push log nowMs).buffer.atCeiling = false) ∨
      (s.offerAt log nowMs =
          (none, ((s.push log nowMs).took (s.push log nowMs).buffer.takeChunk .offer true).2.log
            (.shed (s.push log nowMs).buffer.takeChunk.1.length s.inFlight)) ∧
        hardInFlight ≤ s.inFlight) ∨
      (s.offerAt log nowMs =
          (some (s.push log nowMs).buffer.takeChunk.1,
            ((s.push log nowMs).acquire.took (s.push log nowMs).buffer.takeChunk .offer false).2) ∧
        s.inFlight < hardInFlight) := by
  by_cases hdue : (s.push log nowMs).buffer.sizeDue = true
  · rcases Decision.decide_cases (s.push log nowMs).buffer.atCeiling s.inFlight with
      ⟨hdecide, hslots⟩ | ⟨hdecide, hceiling⟩ | ⟨hdecide, hslots⟩
    · refine .inr (.inl ⟨?_, hslots⟩)
      simp only [Isolate.offerAt, hdue]
      rw [show (s.push log nowMs).inFlight = s.inFlight from rfl, hdecide]
      rfl
    · refine .inl ⟨?_, hceiling⟩
      simp only [Isolate.offerAt, hdue]
      rw [show (s.push log nowMs).inFlight = s.inFlight from rfl, hdecide]
      rfl
    · refine .inr (.inr ⟨?_, hslots⟩)
      simp only [Isolate.offerAt, hdue]
      rw [show (s.push log nowMs).inFlight = s.inFlight from rfl, hdecide]
      rfl
  · have hnot := Bool.eq_false_iff.mpr hdue
    exact .inl ⟨by simp [Isolate.offerAt, hnot], Buffer.atCeiling_of_sizeDue hnot⟩

/-- **A step of the timer** takes nothing, or one chunk, and a slot for it only if one was left. -/
theorem tickStep_cases (s : Isolate sizes) (task : Nat) (nowMs : Int) :
    (s.tickStep task nowMs = (.done, s) ∧ s.buffer.logs = []) ∨
      s.tickStep task nowMs = (.wait, s) ∨
      s.tickStep task nowMs =
        (.shed s.buffer.takeChunk.1, (s.took s.buffer.takeChunk (.timer task) true).2) ∨
      (s.tickStep task nowMs =
          (.deliver s.buffer.takeChunk.1,
            (s.acquire.took s.buffer.takeChunk (.timer task) false).2) ∧
        s.inFlight < hardInFlight ∧ s.buffer.logs ≠ []) := by
  by_cases hempty : s.buffer.logs.isEmpty = true
  · exact .inl ⟨by simp [Isolate.tickStep, hempty], List.isEmpty_iff.mp hempty⟩
  by_cases hdue : s.buffer.timeDue nowMs = true
  · rcases Decision.decide_cases s.buffer.atCeiling s.inFlight with
      ⟨hdecide, -⟩ | ⟨hdecide, -⟩ | ⟨hdecide, hslots⟩
    · refine .inr (.inr (.inl ?_))
      simp only [Isolate.tickStep, hempty, hdue, hdecide]
      rfl
    · refine .inr (.inl ?_)
      simp only [Isolate.tickStep, hempty, hdue, hdecide]
      rfl
    · refine .inr (.inr (.inr ⟨?_, hslots, fun hnil => hempty (List.isEmpty_iff.mpr hnil)⟩))
      simp only [Isolate.tickStep, hempty, hdue, hdecide]
      rfl
  · exact .inr (.inl (by simp [Isolate.tickStep, hempty, hdue]))

/-- **A turn of a drain** ends it, or takes one chunk of its own and a slot that was left. -/
theorem drainPass_cases (s : Isolate sizes) (task : Nat) (boundary : UInt64) (remainingMs : Int) :
    (∃ stop, s.drainPass task boundary remainingMs = (.error stop, s) ∧
        (stop = .budget ∨ stop = .inFlight ∨ (stop = .emptied ∧ s.buffer.logs = []))) ∨
      (s.drainPass task boundary remainingMs =
          (.error .nothingOwned, (s.acquire.took (s.buffer.takeChunkBefore boundary)
            (.drain task) false).2.release) ∧
        (s.buffer.takeChunkBefore boundary).1 = []) ∨
      (s.drainPass task boundary remainingMs =
          (.ok (s.buffer.takeChunkBefore boundary).1,
            (s.acquire.took (s.buffer.takeChunkBefore boundary) (.drain task) false).2) ∧
        (s.buffer.takeChunkBefore boundary).1 ≠ [] ∧ s.inFlight < hardInFlight) := by
  by_cases hbudget : remainingMs < minDrainBudgetMs
  · exact .inl ⟨_, by simp [Isolate.drainPass, hbudget], .inl rfl⟩
  by_cases hempty : s.buffer.logs.isEmpty = true
  · exact .inl ⟨_, by simp [Isolate.drainPass, hbudget, hempty],
      .inr (.inr ⟨rfl, List.isEmpty_iff.mp hempty⟩)⟩
  by_cases hpipe : (maxInFlight ≤ s.inFlight && !s.buffer.atCeiling) = true
  · exact .inl ⟨.inFlight, by simp only [Isolate.drainPass, hbudget, hempty, hpipe]; rfl,
      .inr (.inl rfl)⟩
  by_cases hhard : hardInFlight ≤ s.inFlight
  · exact .inl ⟨.inFlight, by simp only [Isolate.drainPass, hbudget, hempty, hpipe, hhard]; rfl,
      .inr (.inl rfl)⟩
  by_cases hchunk : (s.buffer.takeChunkBefore boundary).1 = []
  · refine .inr (.inl ⟨?_, hchunk⟩)
    simp only [Isolate.drainPass, hbudget, hempty, hpipe, hhard]
    exact if_pos (List.isEmpty_iff.mpr hchunk)
  · refine .inr (.inr ⟨?_, hchunk, Nat.lt_of_not_le hhard⟩)
    simp only [Isolate.drainPass, hbudget, hempty, hpipe, hhard]
    exact if_neg fun h => hchunk (List.isEmpty_iff.mp h)

/-- **Shedding down** takes chunks to be dropped, and counts their records. -/
theorem shedDown_spec (s : Isolate sizes) (task records chunks : Nat) :
    Removes (· = .timer task) s (s.shedDown task records chunks).2.2 ∧
      (s.shedDown task records chunks).2.2.inFlight = s.inFlight ∧
      (s.shedDown task records chunks).2.2.buffer.waiterActive = s.buffer.waiterActive ∧
      (s.shedDown task records chunks).2.2.reported = s.reported ∧
      (s.shedDown task records chunks).2.2.shedRecords + records =
        s.shedRecords + (s.shedDown task records chunks).1 := by
  induction s, records, chunks using Isolate.shedDown.induct task with
  | case1 s records chunks h =>
      rw [Isolate.shedDown, dif_pos h]
      exact ⟨.refl s, rfl, rfl, rfl, rfl⟩
  | case2 s records chunks h more ih =>
      have hloop : s.shedDown task records chunks =
          more.2.shedDown task (records + more.1.length) (chunks + 1) := by
        rw [Isolate.shedDown, dif_neg h]
      rw [hloop]
      obtain ⟨hremoves, hslots, hwaiter, hreported, hshed⟩ := ih
      have htook : Removes (· = .timer task) s more.2 := removes_took s _ true rfl
      refine ⟨htook.trans hremoves, hslots, hwaiter, hreported, ?_⟩
      have hmore : more.2.shedRecords = s.shedRecords + more.1.length := shedRecords_took_true s _ _
      rw [hmore] at hshed
      omega

end FlagLog

end ConfidenceResolver
