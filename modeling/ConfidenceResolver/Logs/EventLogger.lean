import ConfidenceResolver.Logs.AssignLogger

/-!
# Logs — the byte-bounded loggers

`event_logger.rs` of the event engine, the twin of the assignment logger; and what holds of both:
the events written, the pending ones and the queue are the events pushed, in order, and the bytes
counted are those of the pending events.
-/

namespace ConfidenceResolver

/-- `events.Event`. -/
structure Event where
  eventDefinition : String
  payload : Option Struct
  eventTime : Option Timestamp

/-- `FlushEventsResponse`. -/
structure FlushEventsResponse where
  events : List Event := []

/-- `usize::MAX`, and `encoded_len` of the messages as the library computes it. -/
structure EventSizes where
  usizeMax : Nat
  event : Event → Nat
  response : FlushEventsResponse → Nat

/-- `EventLogger`. -/
abbrev EventLogger := ByteQueue Event

namespace EventLogger

variable (sizes : EventSizes)

/-- `EventLogger::encoded_len`. -/
def encodedLen (event : Event) : Nat := fieldLen sizes.usizeMax (sizes.event event)

/-- `track`. -/
def track (logger : EventLogger) (event : Event) : EventLogger := logger.push event

/-- `flush_fill`: the logger and the response after it, and what it returns. -/
def flushFill (logger : EventLogger) (req : FlushEventsResponse) (limitBytes : Nat)
    (requireFull : Bool) : EventLogger × FlushEventsResponse × Nat :=
  let (logger, events, written) := logger.flush sizes.usizeMax (encodedLen sizes)
    (sizes.response req) limitBytes requireFull
  (logger, ⟨req.events ++ events⟩, written)

/-- `bounded_flush`. -/
def boundedFlush (logger : EventLogger) (limitBytes : Nat) (requireFull : Bool) :
    EventLogger × FlushEventsResponse :=
  let (logger, req, _) := logger.flushFill sizes {} limitBytes requireFull
  (logger, req)

end EventLogger

/-! ### Runs -/

open ByteQueue

/-- Nothing is lost, and the bytes counted are exact as long as no sum of them saturated.  A flush
in progress takes off what it has written when it ends. -/
structure Lossless {E : Type*} (len : E → Nat) (r : Run E) : Prop where
  fifo : r.emitted ++ r.pending.map (·.1) ++ r.queue = r.pushed
  bytes : r.saturated = false →
    r.pendingBytes = ((r.pending.map (·.1)).map len).sum + r.phase.written

theorem ByteQueue.Inv.lossless {E : Type*} {maxSize : Nat} {len : E → Nat} {r : Run E}
    (h : Inv maxSize len r) : Lossless len r where
  fifo := h.order
  bytes hexact := by
    have hlengths : (r.pending.map (·.1)).map len = r.pending.map (·.2) := by
      rw [List.map_map]
      exact List.map_congr_left fun p hp => (h.lengths p hp).symm
    rw [hlengths]
    exact h.bytes hexact

/-- A call of `checkpoint_fill_with_limit` is a run of steps; it appends what it writes. -/
theorem AssignLogger.checkpointFill_steps (sizes : AssignSizes) {r : Run FlagAssigned}
    (h : r.phase = .idle) (req : WriteFlagLogsRequest) (limitBytes : Nat) (requireFull : Bool) :
    ∃ events b, Steps sizes.usizeMax (encodedLen sizes) r
        { r with
          toByteQueue := (checkpointFillWithLimit sizes r.toByteQueue req limitBytes requireFull).1
          emitted := r.emitted ++ events
          saturated := b } ∧
      (checkpointFillWithLimit sizes r.toByteQueue req limitBytes requireFull).2.1.flagAssigned =
        req.flagAssigned ++ events := by
  obtain ⟨b, hsteps⟩ := flush_steps sizes.usizeMax (encodedLen sizes) h
    (sizes.request req) limitBytes requireFull
  exact ⟨_, b, hsteps, rfl⟩

/-- A call of `flush_fill` is a run of steps; it appends what it writes. -/
theorem EventLogger.flushFill_steps (sizes : EventSizes) {r : Run Event} (h : r.phase = .idle)
    (req : FlushEventsResponse) (limitBytes : Nat) (requireFull : Bool) :
    ∃ events b, Steps sizes.usizeMax (encodedLen sizes) r
        { r with
          toByteQueue := (flushFill sizes r.toByteQueue req limitBytes requireFull).1
          emitted := r.emitted ++ events
          saturated := b } ∧
      (flushFill sizes r.toByteQueue req limitBytes requireFull).2.1.events =
        req.events ++ events := by
  obtain ⟨b, hsteps⟩ := flush_steps sizes.usizeMax (encodedLen sizes) h
    (sizes.response req) limitBytes requireFull
  exact ⟨_, b, hsteps, rfl⟩

/-- **The byte-bounded loggers are lossless queues**, over every order of pushes and of the steps
of flushes. -/
theorem loggers_lossless (assign : AssignSizes) (event : EventSizes) :
    (∀ r, Steps assign.usizeMax (AssignLogger.encodedLen assign) .start r →
        Lossless (AssignLogger.encodedLen assign) r) ∧
      (∀ r, Steps event.usizeMax (EventLogger.encodedLen event) .start r →
        Lossless (EventLogger.encodedLen event) r) :=
  ⟨fun _ hsteps => ((inv_start _ _).steps hsteps).lossless,
    fun _ hsteps => ((inv_start _ _).steps hsteps).lossless⟩

namespace Sample

/-- Lengths of the messages below: of a message with an id of two letters, and of an empty
request. -/
def assignSizes : AssignSizes := ⟨2 ^ 32 - 1, fun e => e.resolveId.length + 2, fun _ => 0⟩

def eventSizes : EventSizes := ⟨2 ^ 32 - 1, fun e => e.eventDefinition.length + 2, fun _ => 0⟩

def assigned (resolveId : String) : FlagAssigned := ⟨resolveId, none, []⟩

def defined (eventDefinition : String) : Event := ⟨eventDefinition, none, none⟩

/-- Two events pushed. -/
def pushed {E : Type} (e e' : E) : Run E :=
  { Run.start with queue := [e, e'], pushed := [e, e'] }

theorem steps_pushed {E : Type} (maxSize : Nat) (len : E → Nat) (e e' : E) :
    Steps maxSize len .start (pushed e e') :=
  .tail (.tail .refl (.push _ e)) (.push _ e')

end Sample

/-- Two events are pushed, and a flush writes the first one. -/
theorem loggers_lossless_sample :
    (∃ r : Run FlagAssigned, r.emitted = [Sample.assigned "r1"] ∧
      r.pending.map (·.1) = [Sample.assigned "r2"] ∧ r.pendingBytes = 6 ∧
      Lossless (AssignLogger.encodedLen Sample.assignSizes) r) ∧
    ∃ r : Run Event, r.emitted = [Sample.defined "e1"] ∧
      r.pending.map (·.1) = [Sample.defined "e2"] ∧ r.pendingBytes = 6 ∧
      Lossless (EventLogger.encodedLen Sample.eventSizes) r := by
  obtain ⟨hassign, hevent⟩ := loggers_lossless Sample.assignSizes Sample.eventSizes
  constructor
  · obtain ⟨events, b, hflush, hevents⟩ := AssignLogger.checkpointFill_steps Sample.assignSizes
      (r := Sample.pushed (Sample.assigned "r1") (Sample.assigned "r2")) rfl {} 10 false
    obtain rfl : [Sample.assigned "r1"] = events := hevents
    exact ⟨_, rfl, rfl, rfl, hassign _ ((Sample.steps_pushed _ _ _ _).trans hflush)⟩
  · obtain ⟨events, b, hflush, hevents⟩ := EventLogger.flushFill_steps Sample.eventSizes
      (r := Sample.pushed (Sample.defined "e1") (Sample.defined "e2")) rfl {} 10 false
    obtain rfl : [Sample.defined "e1"] = events := hevents
    exact ⟨_, rfl, rfl, rfl, hevent _ ((Sample.steps_pushed _ _ _ _).trans hflush)⟩

/-- **A pushed event is not counted** before a flush has taken it from the queue. -/
theorem queue_not_counted :
    ∃ r, Steps Sample.assignSizes.usizeMax (AssignLogger.encodedLen Sample.assignSizes) .start r ∧
      r.pendingBytes ≠
        ((r.pending.map (·.1) ++ r.queue).map (AssignLogger.encodedLen Sample.assignSizes)).sum :=
  ⟨_, .single (.push _ (Sample.assigned "r1")), by decide⟩

end ConfidenceResolver
