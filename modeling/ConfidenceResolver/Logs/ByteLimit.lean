import ConfidenceResolver.Logs.EventLogger
import ConfidenceResolver.Support.Batches
import Mathlib.Algebra.Order.BigOperators.Group.List

/-!
# Logs — the byte limit

A bounded flush does not encode its request to see how large it is: it adds up the lengths of the
events, of their length prefixes and of the tags.  Here the sum is compared with the length of the
request after the flush.

* `Additive`: how a repeated field adds to the length of its message.
* `WithinLimit`, `NothingWritten`: the law, and what a flush without an event means.
* `bounded_flush_law`: for both loggers.
-/

namespace ConfidenceResolver

open ByteQueue (Exact taken total)

/-! ### Lengths -/

/-- The bytes of a message of `len` bytes in a repeated field: its tag, its length, itself. -/
def repeatedLen (len : Nat) : Nat := len + lengthDelimiterLen len + 1

/-- `encoded_len` of a message with a repeated field is additive, the tag of the field having one
byte.  `append` adds events to the field. -/
structure Additive {M E : Type*} (usizeMax : Nat) (msgLen : M → Nat) (eventLen : E → Nat)
    (append : M → List E → M) : Prop where
  wide : 0 < usizeMax
  append : ∀ req es,
    msgLen (append req es) = msgLen req + total (fun e => repeatedLen (eventLen e)) es

/-- `encoded_len` of the requests of `AssignLogger`. -/
def AssignSizes.Additive (sizes : AssignSizes) : Prop :=
  ConfidenceResolver.Additive sizes.usizeMax sizes.request sizes.flagAssigned
    fun req es => { req with flagAssigned := req.flagAssigned ++ es }

/-- `encoded_len` of the responses of `EventLogger`. -/
def EventSizes.Additive (sizes : EventSizes) : Prop :=
  ConfidenceResolver.Additive sizes.usizeMax sizes.response sizes.event
    fun req es => ⟨req.events ++ es⟩

/-- The bytes of the request and of all events that wait can be counted: they are in memory. -/
def Countable {E : Type*} (usizeMax : Nat) (eventLen : E → Nat) (logger : ByteQueue E)
    (start : Nat) : Prop :=
  start + total (fun e => repeatedLen (eventLen e)) logger.held ≤ usizeMax

instance {E : Type*} (usizeMax : Nat) (eventLen : E → Nat) (logger : ByteQueue E) (start : Nat) :
    Decidable (Countable usizeMax eventLen logger start) :=
  inferInstanceAs (Decidable (_ ≤ _))

/-! ### What is claimed of a flush -/

section Law

variable {M E : Type*} (msgLen : M → Nat) (events : M → List E) (len : E → Nat)

/-- The length of the request is what was accounted for, and stays within the limit, unless it was
above the limit before, or empty and has one event that alone exceeds the limit. -/
structure WithinLimit (limitBytes : Nat) (req req' : M) (accounted : Nat) : Prop where
  length : msgLen req' = msgLen req + accounted
  limit : msgLen req' ≤ limitBytes ∨ (limitBytes < msgLen req ∧ req' = req) ∨
    (msgLen req = 0 ∧ ∃ e, events req' = [e] ∧ limitBytes < len e)

/-- The flush has written nothing: request and events are as before, and the events have fewer bytes
than are left of the limit, or the first one does not fit behind what the request has, or the limit
is 0. -/
structure NothingWritten (limitBytes : Nat) (req req' : M) (before after : ByteQueue E) : Prop where
  request : req' = req
  held : after.held = before.held
  reason : total len before.held < limitBytes - msgLen req ∨
    (msgLen req ≠ 0 ∧ ∀ e ∈ before.held.head?, limitBytes < msgLen req + len e) ∨
    (msgLen req = 0 ∧ limitBytes = 0)

end Law

/-! ### The bytes accounted for -/

section Accounting

variable {M E : Type*} {usizeMax : Nat} {msgLen : M → Nat} {eventLen : E → Nat}
  {append : M → List E → M}

theorem fieldLen_eq {n : Nat} (h : repeatedLen n ≤ usizeMax) :
    fieldLen usizeMax n = repeatedLen n := by
  rw [repeatedLen] at h
  have hprefix : ByteQueue.add usizeMax n (lengthDelimiterLen n) = n + lengthDelimiterLen n :=
    ByteQueue.add_eq (by omega)
  rw [fieldLen, hprefix]
  exact ByteQueue.add_eq h

theorem fieldLen_pos (hwide : 0 < usizeMax) (n : Nat) : 0 < fieldLen usizeMax n := by
  rw [fieldLen, ByteQueue.add]
  omega

/-- Of events in memory, the lengths computed are the real ones. -/
theorem total_fieldLen {es : List E}
    (h : total (fun e => repeatedLen (eventLen e)) es ≤ usizeMax) :
    total (fun e => fieldLen usizeMax (eventLen e)) es =
      total (fun e => repeatedLen (eventLen e)) es := by
  refine congrArg List.sum (List.map_congr_left fun e he => ?_)
  have hle : repeatedLen (eventLen e) ≤ total (fun e => repeatedLen (eventLen e)) es :=
    List.le_sum_of_mem (List.mem_map_of_mem he)
  exact fieldLen_eq (hle.trans h)

/-- A message without bytes has no events. -/
theorem Additive.eq_nil (h : Additive usizeMax msgLen eventLen append) (req : M) {es : List E}
    (hempty : msgLen (append req es) = 0) : es = [] := by
  rw [h.append] at hempty
  cases es with
  | nil => rfl
  | cons e es =>
      rw [ByteQueue.total_cons, repeatedLen] at hempty
      omega

variable {s : ByteQueue E} {req : M}

/-- What a flush has written is in memory too. -/
theorem written_le (h : Countable usizeMax eventLen s (msgLen req)) (limitBytes : Nat)
    (requireFull : Bool) :
    total (fun e => repeatedLen (eventLen e))
      (s.flush usizeMax (fun e => fieldLen usizeMax (eventLen e)) (msgLen req) limitBytes
        requireFull).2.1 ≤ usizeMax := by
  have hheld := ByteQueue.flush_held usizeMax (fun e => fieldLen usizeMax (eventLen e)) s
    (msgLen req) limitBytes requireFull
  rw [Countable, ← hheld, ByteQueue.total_append] at h
  omega

variable (hsizes : Additive usizeMax msgLen eventLen append)
  (hexact : s.Exact usizeMax fun e => fieldLen usizeMax (eventLen e))

include hsizes hexact

/-- **The sum is the length.** -/
theorem flush_length (hmemory : Countable usizeMax eventLen s (msgLen req)) (limitBytes : Nat)
    (requireFull : Bool) :
    msgLen (append req (s.flush usizeMax (fun e => fieldLen usizeMax (eventLen e)) (msgLen req)
        limitBytes requireFull).2.1) =
      msgLen req + (s.flush usizeMax (fun e => fieldLen usizeMax (eventLen e)) (msgLen req)
        limitBytes requireFull).2.2 := by
  have hcounted := (ByteQueue.flush_written (fun e => fieldLen_pos hsizes.wide (eventLen e))
    (msgLen req) limitBytes hexact requireFull).2
  rw [hsizes.append, hcounted, total_fieldLen (written_le hmemory limitBytes requireFull)]

/-- **The limit is kept**: the cases of what is taken. -/
theorem flush_within {events : M → List E}
    (happend : ∀ req es, events (append req es) = events req ++ es)
    (hempty : msgLen req = 0 → events req = []) (hself : append req [] = req)
    (hmemory : Countable usizeMax eventLen s (msgLen req)) (limitBytes : Nat)
    (requireFull : Bool) :
    WithinLimit msgLen events (fun e => fieldLen usizeMax (eventLen e)) limitBytes req
      (append req (s.flush usizeMax (fun e => fieldLen usizeMax (eventLen e)) (msgLen req)
        limitBytes requireFull).2.1)
      (s.flush usizeMax (fun e => fieldLen usizeMax (eventLen e)) (msgLen req) limitBytes
        requireFull).2.2 where
  length := flush_length hsizes hexact hmemory limitBytes requireFull
  limit := by
    have hpos : ∀ e, 0 < fieldLen usizeMax (eventLen e) := fun e => fieldLen_pos hsizes.wide _
    obtain ⟨htaken, hcounted⟩ := ByteQueue.flush_written hpos (msgLen req) limitBytes hexact
      requireFull
    rw [flush_length hsizes hexact hmemory limitBytes requireFull, hcounted, happend]
    obtain hnone | ⟨es, hes⟩ := htaken
    · rw [hnone, hself]
      rcases Nat.lt_or_ge limitBytes (msgLen req) with habove | hroom
      · exact .inr (.inl ⟨habove, rfl⟩)
      · exact .inl hroom
    · rw [hes]
      obtain hle | ⟨habove, hnil⟩ | ⟨hstart, e, hone, hover⟩ :=
        ByteQueue.taken_le hpos (msgLen req) limitBytes es
      · exact .inl hle
      · exact .inr (.inl ⟨habove, by rw [hnil, hself]⟩)
      · exact .inr (.inr ⟨hstart, e, by rw [hempty hstart, List.nil_append, hone], hover⟩)

/-- **A full flush that writes nothing.** -/
theorem flush_nothing (hself : append req [] = req) (limitBytes : Nat)
    (hnone : (s.flush usizeMax (fun e => fieldLen usizeMax (eventLen e)) (msgLen req) limitBytes
      true).2.1 = []) :
    NothingWritten msgLen (fun e => fieldLen usizeMax (eventLen e)) limitBytes req
      (append req (s.flush usizeMax (fun e => fieldLen usizeMax (eventLen e)) (msgLen req)
        limitBytes true).2.1)
      s (s.flush usizeMax (fun e => fieldLen usizeMax (eventLen e)) (msgLen req) limitBytes
        true).1 where
  request := by rw [hnone, hself]
  held := by
    have hheld := ByteQueue.flush_held usizeMax (fun e => fieldLen usizeMax (eventLen e)) s
      (msgLen req) limitBytes true
    rwa [hnone, List.nil_append] at hheld
  reason := by
    by_cases hzero : msgLen req = 0 ∧ limitBytes = 0
    · exact .inr (.inr hzero)
    · have hroom : msgLen req = 0 → 0 < limitBytes := by omega
      rw [ByteQueue.flush_events (fun e => fieldLen_pos hsizes.wide (eventLen e)) hexact hroom]
        at hnone
      split at hnone
      · -- something waits, or the request is not empty: then the first event does not fit
        next hfull =>
          obtain hnil | ⟨hstart, e, he, hover⟩ := ByteQueue.taken_eq_nil hnone
          · by_cases hstart : msgLen req = 0
            · rw [hnil, hstart] at hfull
              simp [total] at hfull
              omega
            · exact .inr (.inl ⟨hstart, by simp [hnil]⟩)
          · refine .inr (.inl ⟨hstart, fun e' he' => ?_⟩)
            obtain rfl := Option.some.inj (he.symm.trans he')
            omega
      · next hfull =>
          rw [not_or] at hfull
          exact .inl (Nat.lt_of_not_le hfull.1)

end Accounting

/-! ### Main results -/

/-- **The byte limit of the bounded loggers**, for every content, limit and request. -/
theorem bounded_flush_law (assign : AssignSizes) (event : EventSizes) (hassign : assign.Additive)
    (hevent : event.Additive) :
    (∀ (logger : AssignLogger) (req : WriteFlagLogsRequest) (limitBytes : Nat) (requireFull : Bool),
      logger.Exact assign.usizeMax (AssignLogger.encodedLen assign) →
      Countable assign.usizeMax assign.flagAssigned logger (assign.request req) →
      WithinLimit assign.request (·.flagAssigned) (AssignLogger.encodedLen assign) limitBytes req
          (logger.checkpointFillWithLimit assign req limitBytes requireFull).2.1
          (logger.checkpointFillWithLimit assign req limitBytes requireFull).2.2 ∧
        (requireFull = true →
          (logger.checkpointFillWithLimit assign req limitBytes requireFull).2.1.flagAssigned =
            req.flagAssigned →
          NothingWritten assign.request (AssignLogger.encodedLen assign) limitBytes req
            (logger.checkpointFillWithLimit assign req limitBytes requireFull).2.1 logger
            (logger.checkpointFillWithLimit assign req limitBytes requireFull).1)) ∧
    ∀ (logger : EventLogger) (req : FlushEventsResponse) (limitBytes : Nat) (requireFull : Bool),
      logger.Exact event.usizeMax (EventLogger.encodedLen event) →
      Countable event.usizeMax event.event logger (event.response req) →
      WithinLimit event.response (·.events) (EventLogger.encodedLen event) limitBytes req
          (logger.flushFill event req limitBytes requireFull).2.1
          (logger.flushFill event req limitBytes requireFull).2.2 ∧
        (requireFull = true →
          (logger.flushFill event req limitBytes requireFull).2.1.events = req.events →
          NothingWritten event.response (EventLogger.encodedLen event) limitBytes req
            (logger.flushFill event req limitBytes requireFull).2.1 logger
            (logger.flushFill event req limitBytes requireFull).1) := by
  refine ⟨fun logger req limitBytes requireFull hexact hmemory => ⟨?_, ?_⟩,
    fun logger req limitBytes requireFull hexact hmemory => ⟨?_, ?_⟩⟩
  · have hempty : assign.request req = 0 → req.flagAssigned = [] := fun hzero =>
      hassign.eq_nil { req with flagAssigned := [] } hzero
    exact flush_within hassign hexact (fun _ _ => rfl) hempty (by simp) hmemory limitBytes
      requireFull
  · rintro rfl hnone
    exact flush_nothing hassign hexact (by simp) limitBytes (List.append_right_eq_self.mp hnone)
  · have hempty : event.response req = 0 → req.events = [] := fun hzero =>
      hevent.eq_nil ⟨[]⟩ hzero
    exact flush_within hevent hexact (fun _ _ => rfl) hempty (by simp) hmemory limitBytes
      requireFull
  · rintro rfl hnone
    exact flush_nothing hevent hexact (by simp) limitBytes (List.append_right_eq_self.mp hnone)

namespace Sample

/-- Lengths of messages with nothing but an id of two letters, and of requests of such events. -/
def additiveAssign : AssignSizes where
  usizeMax := 2 ^ 32 - 1
  flagAssigned e := e.resolveId.length + 2
  request r := total (fun e => repeatedLen (e.resolveId.length + 2)) r.flagAssigned

def additiveEvent : EventSizes where
  usizeMax := 2 ^ 32 - 1
  event e := e.eventDefinition.length + 2
  response r := total (fun e => repeatedLen (e.eventDefinition.length + 2)) r.events

theorem additiveAssign_additive : additiveAssign.Additive :=
  ⟨by decide, fun req es => ByteQueue.total_append _ req.flagAssigned es⟩

theorem additiveEvent_additive : additiveEvent.Additive :=
  ⟨by decide, fun req es => ByteQueue.total_append _ req.events es⟩

/-- Two events wait, one of them pending. -/
def waiting : AssignLogger := ⟨[assigned "r2"], [(assigned "r1", 6)], 6⟩

theorem waiting_exact :
    waiting.Exact additiveAssign.usizeMax (AssignLogger.encodedLen additiveAssign) :=
  ⟨by decide, by decide, by decide⟩

end Sample

/-- A flush with a limit of 10 bytes writes one event of 6. -/
theorem bounded_flush_law_sample :
    (Sample.waiting.checkpointFillWithLimit Sample.additiveAssign {} 10 true).2.2 = 6 ∧
      WithinLimit Sample.additiveAssign.request (·.flagAssigned)
        (AssignLogger.encodedLen Sample.additiveAssign) 10 {}
        (Sample.waiting.checkpointFillWithLimit Sample.additiveAssign {} 10 true).2.1
        (Sample.waiting.checkpointFillWithLimit Sample.additiveAssign {} 10 true).2.2 :=
  ⟨by decide, ((bounded_flush_law Sample.additiveAssign Sample.additiveEvent
    Sample.additiveAssign_additive Sample.additiveEvent_additive).1 Sample.waiting {} 10 true
    Sample.waiting_exact (by decide)).1⟩

/-- **A request may be above the limit before the flush**, and then a full flush writes nothing
however much waits. -/
theorem limit_exceeded_before :
    ∃ req : WriteFlagLogsRequest, Sample.additiveAssign.request req = 6 ∧
      Sample.waiting.checkpointFillWithLimit Sample.additiveAssign req 5 true =
        (Sample.waiting, req, 0) ∧
      5 < Sample.additiveAssign.request req ∧
      5 ≤ total (AssignLogger.encodedLen Sample.additiveAssign) Sample.waiting.held :=
  ⟨{ flagAssigned := [Sample.assigned "r0"] }, by decide, rfl, by decide, by decide⟩

end ConfidenceResolver
