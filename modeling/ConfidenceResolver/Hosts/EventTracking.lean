import ConfidenceResolver.Hosts.GoDelivery
import ConfidenceResolver.Logs.EventLogger
import ConfidenceResolver.Support.Drains
import ConfidenceResolver.Support.SortedMap

/-!
# Hosts — event tracking

The event engine, a guest of its own, and what the Go provider makes of it: `Track` puts an event
into the buffer of the instance, `flushAndPublishEvents` takes a batch out and publishes it.

* `EventGuest`: the two functions of the guest.
* `EventTracker`: calls into the instance, which is replaced when it traps.
* `EventProvider.step`: the calls of a provider, in any order.  The mutex of the tracker makes each
  call one step; publishing and counting are steps of their own.
* `EventProvider.drainEvents`: what `Shutdown` does before it closes the tracker.
-/

namespace ConfidenceResolver

/-! ### The guest -/

/-- `TrackEventRequest`. -/
structure TrackEventRequest where
  eventName : String
  eventTime : Option Timestamp := none
  value : Option Float := none
  context : Option Struct := none
  data : Option Struct := none

namespace EventGuest

/-- `LOG_TARGET_BYTES`. -/
def logTargetBytes : Nat := 2 * 1024 * 1024

/-- `EVENT_DEF_PREFIX`. -/
def eventDefPrefix : String := "eventDefinitions/"

/-- `build_payload`, up to the check that there is a field. -/
def payloadFields (req : TrackEventRequest) : SortedMap String Value :=
  let fields := SortedMap.empty.write (req.data.getD [])
  let fields := req.value.elim fields fun value => fields.insert "value" (.number value)
  req.context.elim fields fun ctx => fields.insert "context" (.struct ctx)

/-- `build_payload`. -/
def buildPayload (req : TrackEventRequest) : Option Struct :=
  let fields := payloadFields req
  if fields.entries.isEmpty then none else some fields.entries

/-- The event of a request. -/
def eventOf (request : TrackEventRequest) : Event where
  eventDefinition := eventDefPrefix ++ request.eventName
  eventTime := request.eventTime
  payload := buildPayload request

/-- `track_event`. -/
def trackEvent (logger : EventLogger) (request : TrackEventRequest) : EventLogger :=
  logger.track (eventOf request)

/-- `bounded_flush_events`. -/
def boundedFlushEvents (sizes : EventSizes) (logger : EventLogger) :
    EventLogger × FlushEventsResponse :=
  logger.boundedFlush sizes logTargetBytes false

end EventGuest

/-! ### The tracker -/

/-- How a call of an exported function goes. -/
inductive EngineCall where
  /-- The guest runs and its response is read. -/
  | returned
  /-- An error before the guest runs, or one that it reports: it has done nothing. -/
  | refused
  /-- The guest runs, but its response cannot be decoded. -/
  | unreadable
  /-- A trap, or memory that cannot be reached: `errWasmFatal`. -/
  | fatal
deriving DecidableEq

/-- The errors of `call`. -/
inductive TrackerError where
  | closed
  | noInstance
  | refused
  | unreadable
  | fatal

/-- `EventTracker`, with the logger of its instance; `none` when none could be made. -/
structure EventTracker where
  liveInstance : Option EventLogger
  closed : Bool

namespace EventTracker

/-- `NewEventTracker`. -/
def new : EventTracker := ⟨some .empty, false⟩

/-- `callLocked`.  An instance that has trapped is not used again. -/
def callLocked {α : Type} (t : EventTracker) (how : EngineCall)
    (guest : EventLogger → EventLogger × α) : EventTracker × Except TrackerError α :=
  match t.liveInstance with
  | none => (t, .error .noInstance)
  | some logger =>
      match how with
      | .returned => ({ t with liveInstance := some (guest logger).1 }, .ok (guest logger).2)
      | .refused => (t, .error .refused)
      | .unreadable => ({ t with liveInstance := some (guest logger).1 }, .error .unreadable)
      | .fatal => (t, .error .fatal)

/-- `reloadLocked`, with whether `newInstance` succeeds. -/
def reloadLocked (t : EventTracker) (reloads : Bool) : EventTracker :=
  { t with liveInstance := if reloads then some .empty else none }

/-- `call`. -/
def call {α : Type} (t : EventTracker) (how : EngineCall) (reloads : Bool)
    (guest : EventLogger → EventLogger × α) : EventTracker × Except TrackerError α :=
  if t.closed then (t, .error .closed)
  else
    let (t, result) := t.callLocked how guest
    match result with
    | .error .fatal => (t.reloadLocked reloads, result)
    | _ => (t, result)

/-- `TrackEvent`. -/
def trackEvent (t : EventTracker) (how : EngineCall) (reloads : Bool)
    (request : TrackEventRequest) : EventTracker × Except TrackerError Unit :=
  t.call how reloads fun logger => (EventGuest.trackEvent logger request, ())

/-- `FlushEvents`. -/
def flushEvents (sizes : EventSizes) (t : EventTracker) (how : EngineCall) (reloads : Bool) :
    EventTracker × Except TrackerError FlushEventsResponse :=
  t.call how reloads (EventGuest.boundedFlushEvents sizes)

/-- `Close`. -/
def close (t : EventTracker) : EventTracker := { t with closed := true }

/-- The logger that the next call reaches. -/
def live (t : EventTracker) : Option EventLogger := if t.closed then none else t.liveInstance

/-- The events that a later flush can return. -/
def buffered (t : EventTracker) : List Event := t.live.elim [] ByteQueue.held

/-- **What a call does**, by the logger that it reaches. -/
theorem call_eq {α : Type} (t : EventTracker) (how : EngineCall) (reloads : Bool)
    (guest : EventLogger → EventLogger × α) :
    (t.call how reloads guest).1.live =
        t.live.bind (fun logger =>
          match how with
          | .returned | .unreadable => some (guest logger).1
          | .refused => some logger
          | .fatal => if reloads then some .empty else none) ∧
      ∀ a, (t.call how reloads guest).2 = .ok a ↔
        how = .returned ∧ ∃ logger, t.live = some logger ∧ a = (guest logger).2 := by
  obtain ⟨liveInstance, closed⟩ := t
  cases closed with
  | true => simp [call, live]
  | false =>
      cases liveInstance with
      | none => simp [call, callLocked, live]
      | some logger =>
          cases how <;> simp [call, callLocked, reloadLocked, live, eq_comm]

end EventTracker

/-! ### The provider -/

/-- Where a call of `flushAndPublishEvents` is that has got a batch. -/
inductive PublishPhase where
  /-- The request is at the events service. -/
  | publishing
  /-- The request has failed; the failure is counted next. -/
  | failing
  /-- `RecordEventBatch` is called next. -/
  | recording (publishedCount rejectedCount : Int) (succeeded : Bool)
  /-- The attempt is counted next. -/
  | attempting (succeeded : Bool)
  /-- The failures of the window are taken next, and reported if there are any. -/
  | reporting
  | done
deriving DecidableEq

/-- A call of `flushAndPublishEvents`, with its batch. -/
structure Publication where
  batch : List Event
  phase : PublishPhase

/-- `eventPublishLogWindow`. -/
def eventPublishLogWindow : Nat := 10

/-- `maxDrainBatches`. -/
def maxDrainBatches : Nat := 100

/-- The part of `LocalResolverProvider` that tracks events, its two atomic counts as numbers that do
not overflow.  For stating what follows: the events that the engine took, those that were lost in
it, the batches that the service accepted, with the number of events rejected, those that failed,
the calls of `RecordEventBatch`, and the failures taken for a report. -/
structure EventProvider where
  eventTracker : EventTracker
  publications : List Publication
  eventPublishAttempts : Nat
  eventPublishFailures : Nat
  tracked : List Event
  lost : List Event
  accepted : List (List Event × Nat)
  failed : List (List Event)
  recorded : List (Int × Int × Bool)
  reported : List Nat

/-- One step of one call. -/
inductive EventStep where
  /-- `Track` calls `TrackEvent`. -/
  | track (how : EngineCall) (reloads : Bool) (request : TrackEventRequest)
  /-- `flushAndPublishEvents` calls `FlushEvents`. -/
  | flush (how : EngineCall) (reloads : Bool)
  /-- The request of a call is answered, with the number of events rejected, or fails. -/
  | publish (i : Nat) (rejected : Option Nat)
  /-- A call does its next step. -/
  | advance (i : Nat)
  /-- `Close`. -/
  | close

namespace EventProvider

def new : EventProvider := ⟨.new, [], 0, 0, [], [], [], [], [], []⟩

/-- Put `f` in the place of the call with number `i`. -/
def move (p : EventProvider) (i : Nat) (f : Publication) : EventProvider :=
  { p with publications := p.publications.set i f }

/-- The events that a later flush can return. -/
abbrev buffered (p : EventProvider) : List Event := p.eventTracker.buffered

/-- What a call with this outcome loses, of the events in the engine and those it returns. -/
def losses (t : EventTracker) (how : EngineCall) (returned : List Event) : List Event :=
  match t.live, how with
  | some _, .unreadable => returned
  | some _, .fatal => t.buffered
  | _, _ => []

def step (sizes : EventSizes) (p : EventProvider) : EventStep → EventProvider
  | .track how reloads request =>
      let t := (p.eventTracker.trackEvent how reloads request).1
      let taken := p.eventTracker.live.isSome && (how = .returned || how = .unreadable)
      { p with
        eventTracker := t
        tracked := p.tracked ++ if taken then [EventGuest.eventOf request] else []
        lost := p.lost ++ losses p.eventTracker how [] }
  | .flush how reloads =>
      let (t, result) := p.eventTracker.flushEvents sizes how reloads
      let returned := p.eventTracker.live.elim [] fun logger =>
        (EventGuest.boundedFlushEvents sizes logger).2.events
      let p := { p with eventTracker := t, lost := p.lost ++ losses p.eventTracker how returned }
      match result with
      | .error _ => p
      | .ok batch =>
          if batch.events.length = 0 then p
          else { p with publications := p.publications ++ [⟨batch.events, .publishing⟩] }
  | .publish i rejected =>
      match p.publications[i]? with
      | some ⟨batch, .publishing⟩ =>
          match rejected with
          | some rejected =>
              { p.move i ⟨batch, .recording (batch.length - rejected) rejected true⟩ with
                accepted := p.accepted ++ [(batch, rejected)] }
          | none => { p.move i ⟨batch, .failing⟩ with failed := p.failed ++ [batch] }
      | _ => p
  | .advance i =>
      match p.publications[i]? with
      | some ⟨batch, .failing⟩ =>
          { p.move i ⟨batch, .recording batch.length 0 false⟩ with
            eventPublishFailures := p.eventPublishFailures + 1 }
      | some ⟨batch, .recording publishedCount rejectedCount succeeded⟩ =>
          { p.move i ⟨batch, .attempting succeeded⟩ with
            recorded := p.recorded ++ [(publishedCount, rejectedCount, succeeded)] }
      | some ⟨batch, .attempting _⟩ =>
          let attempts := p.eventPublishAttempts + 1
          let phase := if attempts % eventPublishLogWindow = 0 then .reporting else .done
          { p.move i ⟨batch, phase⟩ with eventPublishAttempts := attempts }
      | some ⟨batch, .reporting⟩ =>
          { p.move i ⟨batch, .done⟩ with
            eventPublishFailures := 0
            reported := p.reported ++ [p.eventPublishFailures] }
      | _ => p
  | .close =>
      { p with eventTracker := p.eventTracker.close, lost := p.lost ++ p.buffered }

def run (sizes : EventSizes) (p : EventProvider) (es : List EventStep) : EventProvider :=
  es.foldl (step sizes) p

/-! ### Draining -/

/-- What comes from outside in one round of a drain. -/
structure Round where
  how : EngineCall
  reloads : Bool
  rejected : Option Nat
  done : Bool

/-- `flushAndPublishEvents`, with nothing in between: the number of events flushed. -/
def flushAndPublishEvents (sizes : EventSizes) (p : EventProvider) (round : Round) :
    EventProvider × Nat :=
  let i := p.publications.length
  let p := p.step sizes (.flush round.how round.reloads)
  match p.publications[i]? with
  | none => (p, 0)
  | some f =>
      (p.run sizes [.publish i round.rejected, .advance i, .advance i, .advance i, .advance i],
        f.batch.length)

/-- The rounds of `drainEvents` that are left. -/
def drainRounds (sizes : EventSizes) (rounds : Nat → Round) :
    Nat → Nat → EventProvider → EventProvider
  | 0, _, p => p
  | left + 1, i, p =>
      let (p, flushed) := p.flushAndPublishEvents sizes (rounds i)
      if flushed = 0 then p
      else if (rounds i).done then p
      else drainRounds sizes rounds left (i + 1) p

/-- `drainEvents`. -/
def drainEvents (sizes : EventSizes) (rounds : Nat → Round) (p : EventProvider) : EventProvider :=
  drainRounds sizes rounds maxDrainBatches 0 p

end EventProvider

end ConfidenceResolver
