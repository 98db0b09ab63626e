import ConfidenceResolver.Hosts.DeliveryCounters

/-!
# Hosts — the delivery counters of the Go provider

`MultiDestinationFlagLogger` and `TelemetryCounters`.  A `Write` swaps the counters out one by one
and puts them on its request; its goroutine tries the destinations in order, and counts a success
or adds what the request carries again.  Every step of the model is one atomic operation, or one
attempt.

* `GoLogger.step`.  `Conserved`: every outcome is counted once.
* `GoLogger.Delivers`: a `Write` swaps out no negative counter, and its goroutine has a destination
  that it can send to.
* `go_counters_conserved`: in every run in which this holds of all of them.
-/

namespace ConfidenceResolver

open Ledger (forall_set forall_concat)

/-! ### The model -/

/-- The destinations for which there is a sender: Spotify Edge and Cloudflare, by their numbers. -/
def hasSender (dest : Int32) : Bool := dest == 1 || dest == 2

/-- `resolveDestinations`. -/
def resolveDestinations (destinations : List Int32) : List Int32 :=
  if destinations.length = 0 then [1] else destinations

/-- The counters in the order in which they are swapped. -/
def swapOrder : List Counter :=
  [.flushSucceeded, .flushFailed, .eventsPublished, .eventBatchesSucceeded, .eventBatchesFailed,
    .eventsRejected]

/-- `DrainAndStamp`, once the counters are swapped out. -/
def drainAndStamp (taken : Counters) (request : WriteFlagLogsRequest) : WriteFlagLogsRequest :=
  let flush := taken.flushTelemetry
  let events := taken.eventsTelemetry
  let anyFlush := 0 < flush.succeeded || 0 < flush.failed
  let anyEvents := 0 < events.published || 0 < events.batchesSucceeded || 0 < events.batchesFailed ||
    0 < events.eventsRejected
  if anyFlush || anyEvents then
    stamp (if anyFlush then some flush else none) (if anyEvents then some events else none) request
  else request

/-- What `RestoreOnFailure` adds, one after another, when it has counted the failure. -/
def restores (request : WriteFlagLogsRequest) : List (Counter × Int) :=
  let ofFlush (flush : FlushTelemetry) : List (Counter × Int) :=
    [(.flushSucceeded, flush.succeeded.toNat), (.flushFailed, flush.failed.toNat)]
  let ofEvents (events : EventsTelemetry) : List (Counter × Int) :=
    [(.eventsPublished, events.published.toNat),
      (.eventBatchesSucceeded, events.batchesSucceeded.toNat),
      (.eventBatchesFailed, events.batchesFailed.toNat),
      (.eventsRejected, events.eventsRejected.toNat)]
  match request.telemetryData with
  | some td => td.flush.elim [] ofFlush ++ td.events.elim [] ofEvents
  | none => []

/-- What `RecordEventBatch` adds. -/
def recordEventBatch (publishedCount rejectedCount : Int) (succeeded : Bool) :
    List (Counter × Int) :=
  if succeeded then
    [(.eventsPublished, publishedCount), (.eventBatchesSucceeded, 1),
      (.eventsRejected, rejectedCount)]
  else [(.eventBatchesFailed, 1)]

/-- Where a `Write` is: swapping the counters out, with those that are left and what was taken;
trying the destinations that are left; about to count its outcome; adding what it carries again. -/
inductive WritePhase where
  | draining (left : List Counter) (taken : Counters)
  | sending (left : List Int32) (failed : Bool)
  | succeeded
  | failed
  | restoring (left : List (Counter × Int))
  | done

/-- A `Write`, with its request. -/
structure GoWrite where
  request : WriteFlagLogsRequest
  phase : WritePhase

/-- The logger, its `Write`s and its calls of `RecordEventBatch`.  For stating what follows: the
requests that a destination accepted, the `Write`s that were counted as succeeded, and all that was
recorded. -/
structure GoLogger where
  counters : Counters
  writes : List GoWrite
  batches : List (List (Counter × Int))
  accepted : List (Nat × WriteFlagLogsRequest)
  succeeded : List Nat
  recorded : Counters

inductive GoEvent where
  /-- `Write` is called. -/
  | write (logs : GuestLogs)
  /-- A `Write` swaps the next counter out. -/
  | swap (i : Nat)
  /-- A `Write` stamps its request, and its goroutine reads the destinations. -/
  | launch (i : Nat) (destinations : List Int32)
  /-- The goroutine turns to the next destination; the sender accepts, or returns an error. -/
  | attempt (i : Nat) (ok : Bool)
  /-- The goroutine has no destination left. -/
  | settle (i : Nat)
  /-- The goroutine does the next addition to a counter. -/
  | add (i : Nat)
  /-- `RecordEventBatch` is called. -/
  | recordEventBatch (publishedCount rejectedCount : Int) (succeeded : Bool)
  /-- It does its next addition. -/
  | addBatch (j : Nat)

namespace GoLogger

def new : GoLogger := ⟨0, [], [], [], [], 0⟩

/-- Put `phase` in the place of the phase of the `Write` with number `i`. -/
def move (m : GoLogger) (i : Nat) (f : GoWrite) : GoLogger := { m with writes := m.writes.set i f }

def step (m : GoLogger) : GoEvent → GoLogger
  | .write logs =>
      if hasLogs logs.request then
        { m with writes := m.writes ++ [⟨logs.request, .draining swapOrder 0⟩] }
      else m
  | .swap i =>
      match m.writes[i]? with
      | some ⟨request, .draining (k :: left) taken⟩ =>
          { m.move i ⟨request, .draining left (Function.update taken k (m.counters k))⟩ with
            counters := Function.update m.counters k 0 }
      | _ => m
  | .launch i destinations =>
      match m.writes[i]? with
      | some ⟨request, .draining [] taken⟩ =>
          m.move i ⟨drainAndStamp taken request, .sending (resolveDestinations destinations) false⟩
      | _ => m
  | .attempt i ok =>
      match m.writes[i]? with
      | some ⟨request, .sending (dest :: left) failed⟩ =>
          if hasSender dest then
            if ok then
              { m.move i ⟨request, .succeeded⟩ with accepted := m.accepted ++ [(i, request)] }
            else m.move i ⟨request, .sending left true⟩
          else m.move i ⟨request, .sending left failed⟩
      | _ => m
  | .settle i =>
      match m.writes[i]? with
      | some ⟨request, .sending [] failed⟩ =>
          m.move i ⟨request, if failed then .failed else .succeeded⟩
      | _ => m
  | .add i =>
      match m.writes[i]? with
      | some ⟨request, .succeeded⟩ =>
          { m.move i ⟨request, .done⟩ with
            counters := m.counters + .of .flushSucceeded 1
            succeeded := m.succeeded ++ [i]
            recorded := m.recorded + .of .flushSucceeded 1 }
      | some ⟨request, .failed⟩ =>
          { m.move i ⟨request, .restoring (restores request)⟩ with
            counters := m.counters + .of .flushFailed 1
            recorded := m.recorded + .of .flushFailed 1 }
      | some ⟨request, .restoring ((k, n) :: left)⟩ =>
          { m.move i ⟨request, .restoring left⟩ with counters := m.counters + .of k n }
      | _ => m
  | .recordEventBatch publishedCount rejectedCount succeeded =>
      { m with
        batches := m.batches ++
          [ConfidenceResolver.recordEventBatch publishedCount rejectedCount succeeded] }
  | .addBatch j =>
      match m.batches[j]? with
      | some ((k, n) :: left) =>
          { m with
            batches := m.batches.set j left
            counters := m.counters + .of k n
            recorded := m.recorded + .of k n }
      | _ => m

def run (m : GoLogger) (es : List GoEvent) : GoLogger := es.foldl step m

end GoLogger

/-! ### What is claimed -/

/-- What a list of additions adds. -/
def additions (left : List (Counter × Int)) : Counters := (left.map fun a => .of a.1 a.2).sum

/-- What is in flight with a `Write`. -/
def GoWrite.amount (f : GoWrite) : Counters :=
  match f.phase with
  | .draining _ taken => taken
  | .sending _ _ => carried f.request
  | .failed => carried f.request
  | .restoring left => additions left
  | .succeeded => 0
  | .done => 0

/-- The counter that a `Write` swaps out next. -/
def GoWrite.swapsNext (f : GoWrite) : Option Counter :=
  match f.phase with
  | .draining left _ => left.head?
  | _ => none

namespace GoLogger

/-- The six counters as a ledger. -/
def ledger (m : GoLogger) : Ledger GoWrite Counters where
  held := m.counters
  flights := m.writes
  accepted := (m.accepted.map fun a => carried a.2).sum
  recorded := m.recorded

/-- Every outcome is counted once, and a flush is counted as succeeded only if its request was
accepted. -/
structure Conserved (m : GoLogger) : Prop where
  balanced : m.ledger.Balanced GoWrite.amount
  delivered : ∀ i ∈ m.succeeded, ∃ request, (i, request) ∈ m.accepted

/-- The counters stay below `2 ^ 32` in a run. -/
def Small (m : GoLogger) : List GoEvent → Prop
  | [] => True
  | e :: es => (∀ k, m.counters k < 2 ^ 32) ∧ (m.step e).Small es

instance decidableSmall : (m : GoLogger) → (es : List GoEvent) → Decidable (m.Small es)
  | _, [] => .isTrue trivial
  | m, e :: es =>
      have := decidableSmall (m.step e) es
      inferInstanceAs (Decidable (_ ∧ _))

/-- If a `Write` swaps a counter out, the counter is not negative; if its goroutine reads the
destinations, there is a sender for one of them. -/
def Delivers (m : GoLogger) : GoEvent → Prop
  | .swap i => ∀ f ∈ m.writes[i]?, ∀ k ∈ f.swapsNext, 0 ≤ m.counters k
  | .launch _ destinations => ∃ dest ∈ resolveDestinations destinations, hasSender dest
  | _ => True

instance (m : GoLogger) : DecidablePred m.Delivers
  | .swap i =>
      inferInstanceAs (Decidable (∀ f ∈ m.writes[i]?, ∀ k ∈ f.swapsNext, 0 ≤ m.counters k))
  | .launch _ destinations =>
      inferInstanceAs (Decidable (∃ dest ∈ resolveDestinations destinations, hasSender dest))
  | .write _ | .attempt _ _ | .settle _ | .add _ | .recordEventBatch _ _ _ | .addBatch _ =>
      .isTrue trivial

/-- It is so in each step of a run. -/
def AllDeliver (m : GoLogger) : List GoEvent → Prop
  | [] => True
  | e :: es => m.Delivers e ∧ (m.step e).AllDeliver es

instance decidableAllDeliver : (m : GoLogger) → (es : List GoEvent) → Decidable (m.AllDeliver es)
  | _, [] => .isTrue trivial
  | m, e :: es =>
      have := decidableAllDeliver (m.step e) es
      inferInstanceAs (Decidable (_ ∧ _))

end GoLogger

/-! ### Amounts -/

theorem additions_cons (k : Counter) (n : Int) (left : List (Counter × Int)) :
    additions ((k, n) :: left) = Counters.of k n + additions left := rfl

/-- What is added again is what the request carries. -/
theorem additions_restores (request : WriteFlagLogsRequest) :
    additions (restores request) = carried request := by
  cases htd : request.telemetryData with
  | none =>
      funext k
      cases k <;> simp [restores, additions, carried, flushOf, eventsOf, htd]
  | some td =>
      funext k
      cases hflush : td.flush <;> cases hevents : td.events <;> cases k <;>
        simp [restores, additions, carried, flushOf, eventsOf, htd, hflush, hevents]

theorem UInt32.eq_zero_of_not_pos {u : UInt32} (h : ¬ 0 < u) : u = 0 := by
  rw [UInt32.not_lt] at h
  exact UInt32.le_antisymm h UInt32.zero_le

/-- What is not put on a request has no counts. -/
theorem flush_zero {flush : FlushTelemetry}
    (h : (0 < flush.succeeded || 0 < flush.failed : Bool) = false) : flush = ⟨0, 0⟩ := by
  simp only [Bool.or_eq_false_iff, decide_eq_false_iff_not] at h
  obtain ⟨succeeded, failed⟩ := flush
  rw [FlushTelemetry.mk.injEq]
  exact ⟨UInt32.eq_zero_of_not_pos h.1, UInt32.eq_zero_of_not_pos h.2⟩

theorem events_zero {events : EventsTelemetry}
    (h : (0 < events.published || 0 < events.batchesSucceeded || 0 < events.batchesFailed ||
      0 < events.eventsRejected : Bool) = false) : events = ⟨0, 0, 0, 0⟩ := by
  simp only [Bool.or_eq_false_iff, decide_eq_false_iff_not] at h
  obtain ⟨published, batchesSucceeded, batchesFailed, eventsRejected⟩ := events
  rw [EventsTelemetry.mk.injEq]
  exact ⟨UInt32.eq_zero_of_not_pos h.1.1.1, UInt32.eq_zero_of_not_pos h.1.1.2,
    UInt32.eq_zero_of_not_pos h.1.2, UInt32.eq_zero_of_not_pos h.2⟩

/-- **Nothing is lost on the way** from the counters to the request. -/
theorem carried_drainAndStamp {taken : Counters} {request : WriteFlagLogsRequest}
    (hrange : ∀ k, InRange (taken k)) (h : Unstamped request) :
    carried (drainAndStamp taken request) = taken := by
  have hparts : flushOf (drainAndStamp taken request) = taken.flushTelemetry ∧
      eventsOf (drainAndStamp taken request) = taken.eventsTelemetry := by
    rw [drainAndStamp]
    generalize taken.flushTelemetry = flush
    generalize taken.eventsTelemetry = events
    obtain ⟨hflush, hevents⟩ := parts_unstamped h
    cases hf : (0 < flush.succeeded || 0 < flush.failed : Bool) <;>
      cases he : (0 < events.published || 0 < events.batchesSucceeded ||
        0 < events.batchesFailed || 0 < events.eventsRejected : Bool)
    · simp [hflush, hevents, flush_zero hf, events_zero he]
    · simp [flushOf_stamp h, eventsOf_stamp h, flush_zero hf]
    · simp [flushOf_stamp h, eventsOf_stamp h, events_zero he]
    · simp [flushOf_stamp h, eventsOf_stamp h]
  funext k
  cases k <;> simp only [carried, hparts] <;> exact uint32_toNat (hrange _)

/-! ### The invariant -/

/-- What holds of a `Write` in its phase. -/
def GoWrite.Wf (f : GoWrite) : Prop :=
  match f.phase with
  | .draining left taken =>
      left.Nodup ∧ (∀ k ∈ left, taken k = 0) ∧ (∀ k, InRange (taken k)) ∧ Unstamped f.request
  | .sending left failed => failed = true ∨ ∃ dest ∈ left, hasSender dest
  | _ => True

namespace GoLogger

structure Inv (m : GoLogger) : Prop where
  balanced : m.ledger.Balanced GoWrite.amount
  wf : ∀ (i : Nat) f, m.writes[i]? = some f → f.Wf
  waiting : ∀ (i : Nat) f, m.writes[i]? = some f → f.phase = .succeeded →
    (i, f.request) ∈ m.accepted
  delivered : ∀ i ∈ m.succeeded, ∃ request, (i, request) ∈ m.accepted

theorem inv_new : new.Inv where
  balanced := rfl
  wf i f hf := by cases hf
  waiting i f hf := by cases hf
  delivered i hi := by cases hi

variable {m : GoLogger}

/-- A `Write` is called. -/
theorem Inv.write (h : m.Inv) (logs : GuestLogs) :
    ({ m with writes := m.writes ++ [⟨logs.request, .draining swapOrder 0⟩] } : GoLogger).Inv where
  balanced := h.balanced.launch (add_zero m.counters)
  wf := forall_concat h.wf ⟨by decide, fun _ _ => rfl, fun _ => inRange_zero, logs.unstamped⟩
  waiting := forall_concat h.waiting fun hphase => by cases hphase
  delivered := h.delivered

/-- A `Write` goes on: its amount moves to the counters or is accepted, and something may be
recorded. -/
theorem Inv.exchange (h : m.Inv) {i : Nat} {f : GoWrite} (hi : m.writes[i]? = some f) (f' : GoWrite)
    (counters new : Counters) (accepted : List (Nat × WriteFlagLogsRequest)) (succeeded : List Nat)
    (hmoved : counters + f'.amount + (accepted.map fun a => carried a.2).sum =
      m.counters + f.amount + (m.accepted.map fun a => carried a.2).sum + new)
    (hwf : f'.Wf) (hwaiting : f'.phase = .succeeded → (i, f'.request) ∈ accepted)
    (hmore : ∀ a ∈ m.accepted, a ∈ accepted)
    (hdelivered : ∀ j ∈ succeeded, ∃ request, (j, request) ∈ accepted) :
    (⟨counters, m.writes.set i f', m.batches, accepted, succeeded, m.recorded + new⟩ :
      GoLogger).Inv where
  balanced := h.balanced.exchange hi hmoved
  wf := forall_set hi h.wf hwf
  waiting := forall_set hi (fun j g hg hphase => hmore _ (h.waiting j g hg hphase)) hwaiting
  delivered := hdelivered

/-- A `Write` goes on, and nothing is recorded or accepted. -/
theorem Inv.moved (h : m.Inv) {i : Nat} {f f' : GoWrite} (hi : m.writes[i]? = some f)
    {counters : Counters} (hmoved : counters + f'.amount = m.counters + f.amount) (hwf : f'.Wf)
    (hwaiting : f'.phase ≠ .succeeded) :
    ({ m.move i f' with counters := counters } : GoLogger).Inv := by
  have hinv := h.exchange hi f' counters 0 m.accepted m.succeeded (by rw [hmoved, add_zero]) hwf
    (fun hphase => absurd hphase hwaiting) (fun _ ha => ha) h.delivered
  rwa [add_zero] at hinv

/-- The swap of a counter. -/
theorem Inv.swap (h : m.Inv) {i : Nat} {request : WriteFlagLogsRequest} {k : Counter}
    {left : List Counter} {taken : Counters}
    (hi : m.writes[i]? = some ⟨request, .draining (k :: left) taken⟩)
    (hsmall : InRange (m.counters k)) :
    ({ m.move i ⟨request, .draining left (Function.update taken k (m.counters k))⟩ with
      counters := Function.update m.counters k 0 } : GoLogger).Inv := by
  obtain ⟨hnodup, hzero, hrange, hunstamped⟩ := h.wf i _ hi
  obtain ⟨hk, hnodup⟩ := List.nodup_cons.mp hnodup
  refine h.moved hi ?_ ⟨hnodup, fun j hj => ?_, fun j => ?_, hunstamped⟩ (by simp)
  · funext j
    by_cases hj : j = k
    · subst hj
      simp [GoWrite.amount, hzero j List.mem_cons_self]
    · simp [GoWrite.amount, hj]
  · have hne : j ≠ k := by
      rintro rfl
      exact hk hj
    rw [Function.update_of_ne hne]
    exact hzero j (List.mem_cons_of_mem k hj)
  · by_cases hj : j = k
    · subst hj
      rwa [Function.update_self]
    · rw [Function.update_of_ne hj]
      exact hrange j

/-- An attempt at a destination. -/
theorem Inv.attempt (h : m.Inv) {i : Nat} {request : WriteFlagLogsRequest} {dest : Int32}
    {left : List Int32} {failed : Bool}
    (hi : m.writes[i]? = some ⟨request, .sending (dest :: left) failed⟩) (ok : Bool) :
    (m.step (.attempt i ok)).Inv := by
  simp only [step, hi]
  split
  · split
    · have haccepted := h.exchange hi ⟨request, .succeeded⟩ m.counters 0
        (m.accepted ++ [(i, request)]) m.succeeded (by simp [GoWrite.amount]; abel) trivial
        (fun _ => by simp) (fun a ha => List.mem_append_left _ ha) fun j hj => by
          obtain ⟨request', hmem⟩ := h.delivered j hj
          exact ⟨request', List.mem_append_left _ hmem⟩
      rwa [add_zero] at haccepted
    · exact h.moved hi rfl (.inl rfl) (by simp)
  · next hnone =>
      -- a destination without a sender is skipped, and the outcome so far stays
      refine h.moved hi rfl ?_ (by simp)
      obtain hfailed | ⟨d, hd, hsender⟩ := h.wf i _ hi
      · exact .inl hfailed
      · obtain rfl | hd := List.mem_cons.mp hd
        · exact absurd hsender hnone
        · exact .inr ⟨d, hd, hsender⟩

/-- The next addition of a `Write`. -/
theorem Inv.add (h : m.Inv) (i : Nat) : (m.step (.add i)).Inv := by
  rw [step]
  split
  · next request hi =>
      refine h.exchange hi _ _ _ _ _ ?_ trivial (by simp) (fun _ ha => ha) fun j hj => ?_
      · simp [GoWrite.amount]
        abel
      · obtain hj | hj := List.mem_append.mp hj
        · exact h.delivered j hj
        · obtain rfl := List.mem_singleton.mp hj
          exact ⟨request, h.waiting j _ hi rfl⟩
  · next request hi =>
      refine h.exchange hi _ _ _ _ _ ?_ trivial (by simp) (fun _ ha => ha) h.delivered
      simp [GoWrite.amount, additions_restores]
      abel
  · next request k n left hi =>
      refine h.moved hi ?_ trivial (by simp)
      simp [GoWrite.amount, additions_cons]
      abel
  · exact h

/-- **Step.** -/
theorem Inv.step (h : m.Inv) {e : GoEvent} (hdelivers : m.Delivers e)
    (hsmall : ∀ k, m.counters k < 2 ^ 32) : (m.step e).Inv := by
  cases e with
  | write logs =>
      rw [GoLogger.step]
      split
      · exact h.write logs
      · exact h
  | swap i =>
      rw [GoLogger.step]
      split
      · next k left taken hi =>
          exact h.swap hi ⟨hdelivers _ hi k rfl, hsmall k⟩
      · exact h
  | launch i destinations =>
      rw [GoLogger.step]
      split
      · next request taken hi =>
          obtain ⟨_, _, hrange, hunstamped⟩ := h.wf i _ hi
          refine h.moved hi ?_ (.inr hdelivers) (by simp)
          simp [GoWrite.amount, carried_drainAndStamp hrange hunstamped]
      · exact h
  | attempt i ok =>
      by_cases hi : ∃ request dest left failed,
          m.writes[i]? = some ⟨request, .sending (dest :: left) failed⟩
      · obtain ⟨request, dest, left, failed, hi⟩ := hi
        exact h.attempt hi ok
      · rw [GoLogger.step]
        split
        · next hi' => exact absurd ⟨_, _, _, _, hi'⟩ hi
        · exact h
  | settle i =>
      rw [GoLogger.step]
      split
      · next request failed hi =>
          -- the last destination with a sender has returned an error
          obtain rfl | ⟨_, hnil, _⟩ := h.wf i _ hi
          · exact h.moved hi rfl trivial (by simp)
          · cases hnil
      · exact h
  | add i => exact h.add i
  | recordEventBatch publishedCount rejectedCount succeeded =>
      exact ⟨h.balanced, h.wf, h.waiting, h.delivered⟩
  | addBatch j =>
      rw [GoLogger.step]
      split
      · exact ⟨h.balanced.record _, h.wf, h.waiting, h.delivered⟩
      · exact h

theorem Inv.run {es : List GoEvent} : ∀ {m : GoLogger}, m.Inv → m.AllDeliver es →
    m.Small es → (m.run es).Inv := by
  induction es with
  | nil => exact fun h _ _ => h
  | cons e es ih =>
      intro m h hdeliver hsmall
      exact ih (h.step hdeliver.1 hsmall.1) hdeliver.2 hsmall.2

end GoLogger

/-! ### Main results -/

/-- **The counters are conserved** in every run in which each `Write` swaps out no negative counter
and has a destination it can send to. -/
theorem go_counters_conserved {es : List GoEvent} (hdeliver : GoLogger.new.AllDeliver es)
    (hsmall : GoLogger.new.Small es) : (GoLogger.new.run es).Conserved :=
  have hinv := GoLogger.inv_new.run hdeliver hsmall
  ⟨hinv.balanced, hinv.delivered⟩

namespace Sample

/-- A `Write` that swaps the counters out and reads the destinations. -/
def goWrite (i : Nat) (destinations : List Int32) : List GoEvent :=
  .write telemetryLogs :: (List.replicate 6 (.swap i) ++ [.launch i destinations])

/-- Two of them, with a number that has no sender for destination. -/
def skippedWrites : List GoEvent :=
  goWrite 0 [0] ++ [.attempt 0 true, .settle 0, .add 0] ++
    goWrite 1 [0] ++ [.attempt 1 true, .settle 1, .add 1]

/-- A batch of events; a `Write` that both destinations refuse; another that the second accepts. -/
def failedOver : List GoEvent :=
  [.recordEventBatch 47 3 true, .addBatch 0, .addBatch 0, .addBatch 0] ++
    goWrite 0 [1, 2] ++ [.attempt 0 false, .attempt 0 false, .settle 0] ++
    List.replicate 7 (.add 0) ++
    goWrite 1 [1, 2] ++ [.attempt 1 false, .attempt 1 true, .add 1]

/-- An answer with two errors for a batch of one event, and a `Write` that is accepted. -/
def moreErrors : List GoEvent :=
  [.recordEventBatch (1 - 2) 2 true, .addBatch 0, .addBatch 0, .addBatch 0] ++
    goWrite 0 [1] ++ [.attempt 0 true, .add 0]

end Sample

theorem go_counters_conserved_sample :
    (GoLogger.new.run Sample.failedOver).accepted.map (fun a => carried a.2 .eventsPublished) =
        [47] ∧
      (GoLogger.new.run Sample.failedOver).Conserved :=
  ⟨by decide +kernel, go_counters_conserved (by decide +kernel) (by decide +kernel)⟩

/-- **A flush that nobody accepted is counted as succeeded**, and what it carried is lost.  A
negative count of published events is reported modulo `2 ^ 32`. -/
theorem go_counters_lost :
    (GoLogger.new.Small Sample.skippedWrites ∧
      (GoLogger.new.run Sample.skippedWrites).succeeded = [0, 1] ∧
      (GoLogger.new.run Sample.skippedWrites).accepted = [] ∧
      (GoLogger.new.run Sample.skippedWrites).recorded .flushSucceeded = 2 ∧
      (GoLogger.new.run Sample.skippedWrites).counters .flushSucceeded = 1 ∧
      ¬ (GoLogger.new.run Sample.skippedWrites).Conserved) ∧
    GoLogger.new.Small Sample.moreErrors ∧
      (GoLogger.new.run Sample.moreErrors).recorded .eventsPublished = -1 ∧
      (GoLogger.new.run Sample.moreErrors).accepted.map (fun a => carried a.2 .eventsPublished) =
        [4294967295] ∧
      ¬ (GoLogger.new.run Sample.moreErrors).Conserved := by
  have hsucceeded : (GoLogger.new.run Sample.skippedWrites).succeeded = [0, 1] := by decide +kernel
  have hnone : (GoLogger.new.run Sample.skippedWrites).accepted = [] := rfl
  refine ⟨⟨by decide +kernel, hsucceeded, hnone, by decide +kernel, by decide +kernel,
    fun h => ?_⟩, by decide +kernel, by decide +kernel, by decide +kernel, fun h => ?_⟩
  · obtain ⟨request, hmem⟩ := h.delivered 0 (by rw [hsucceeded]; exact List.mem_cons_self)
    rw [hnone] at hmem
    cases hmem
  · have hpublished := congrFun h.balanced .eventsPublished
    revert hpublished
    decide +kernel

end ConfidenceResolver
