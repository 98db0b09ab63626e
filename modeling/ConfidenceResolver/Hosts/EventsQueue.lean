import ConfidenceResolver.FlagLog.QueueRuns

/-!
# Hosts — the worker's queue of events

`events:publish` of the Cloudflare resolver puts the events of a request into a queue, once the
caller is authorized; `consume_events_queue` posts the events of a batch in one request.  Two things
differ from the queue of the flag logs: a batch that cannot be read is not acknowledged, and a post
is all or nothing.

* `publishEvents`: how a request is answered, and the message that the queue has taken of it.
* `events_accounted`: where the events are that callers were told are published, and who the callers
  are.
* `events_counted`: what the stored snapshot has counted.
-/

namespace ConfidenceResolver

namespace EventsQueue

variable {V Body : Type}

/-- `serde_json` on a list of events: a text that was written for one is read as it. -/
structure EventsCodec (V Body : Type) where
  encode : List V → Option Body
  decode : Body → Option (List V)
  decode_encode {events : List V} {body : Body} :
    encode events = some body → decode body = some events

/-! ### `events:publish` -/

/-- What comes of a send to the queue: success, or a failure, after which the queue may still have
the message. -/
inductive QueueAnswer where
  | ok
  | failed (taken : Bool)

/-- A request: the secret in its header, whether its body comes in, what `probe_client_secret` and
`parse_events` make of the body, what the queue answers, and whether the isolate is there until the
caller has its answer. -/
structure PublishRequest (V : Type) where
  headerSecret : Option String
  received : Bool
  probed : Except String String
  parsed : Except String (List V)
  queued : QueueAnswer
  answered : Bool

/-- What a caller is told instead of success. -/
inductive PublishError where
  | unauthorized
  | badRequest (message : String)
  | unavailable
  | failed
deriving DecidableEq

def badRequest (message : String) : PublishError :=
  .badRequest s!"Invalid request payload: {message}"

/-- `authorized_by_header`: a wrong secret is refused before the body is read. -/
def authorizedByHeader (expected headerSecret : Option String) : Except PublishError Bool :=
  match headerSecret, expected with
  | some got, some exp => if got ≠ exp then .error .unauthorized else .ok true
  | _, _ => .ok false

/-- The secret of the body, if one is expected. -/
def authorizedByBody (expected : Option String) (probed : Except String String) :
    Except PublishError Unit :=
  match expected, probed with
  | none, _ => .ok ()
  | some _, .error message => .error (badRequest message)
  | some exp, .ok probed => if probed ≠ exp then .error .unauthorized else .ok ()

/-- Events enter the queue as one message, and none if there are none: the answer, and the message
that the queue has taken. -/
def enqueue (codec : EventsCodec V Body) (queued : QueueAnswer) (events : List V) :
    Except PublishError Unit × Option Body :=
  if events.isEmpty then (.ok (), none)
  else
    match codec.encode events with
    | none => (.error .failed, none)
    | some body =>
        match queued with
        | .ok => (.ok (), some body)
        | .failed taken => (.error .failed, if taken then some body else none)

/-- The branch `events:publish`; `bound` when there is a queue. -/
def publishEvents (codec : EventsCodec V Body) (expected : Option String) (bound : Bool)
    (request : PublishRequest V) : Except PublishError Unit × Option Body :=
  match authorizedByHeader expected request.headerSecret with
  | .error e => (.error e, none)
  | .ok byHeader =>
      if !request.received then (.error .failed, none)
      else
        match if byHeader then .ok () else authorizedByBody expected request.probed with
        | .error e => (.error e, none)
        | .ok () =>
            if !bound then (.error .unavailable, none)
            else
              match request.parsed with
              | .error message => (.error (badRequest message), none)
              | .ok events => enqueue codec request.queued events

/-- Where a secret is expected, the caller has it in the header, or in the body if there is none in
the header. -/
def Authorized (expected : Option String) (request : PublishRequest V) : Prop :=
  ∀ exp, expected = some exp → request.headerSecret = some exp ∨
    (request.headerSecret = none ∧ request.probed = .ok exp)

/-- The events of a request. -/
def eventsOf (request : PublishRequest V) : List V :=
  match request.parsed with
  | .ok events => events
  | .error _ => []

/-- The events of a message; one that cannot be read has none. -/
def eventsIn (codec : EventsCodec V Body) (body : Body) : List V := (codec.decode body).getD []

theorem authorized_of_header {expected headerSecret : Option String}
    (h : authorizedByHeader expected headerSecret = .ok true) : headerSecret = expected := by
  cases headerSecret with
  | none => cases h
  | some got =>
      cases expected with
      | none => cases h
      | some exp =>
          by_cases hsame : got = exp
          · rw [hsame]
          · rw [authorizedByHeader, if_pos hsame] at h
            cases h

/-- The header decides nothing only where there is no secret to compare. -/
theorem header_or_expected_none {expected headerSecret : Option String}
    (h : authorizedByHeader expected headerSecret = .ok false) :
    headerSecret = none ∨ expected = none := by
  cases headerSecret with
  | none => exact .inl rfl
  | some got =>
      cases expected with
      | none => exact .inr rfl
      | some exp =>
          simp only [authorizedByHeader] at h
          split at h <;> cases h

theorem probed_of_body {exp : String} {probed : Except String String}
    (h : authorizedByBody (some exp) probed = .ok ()) : probed = .ok exp := by
  cases probed with
  | error message => cases h
  | ok probed =>
      simp only [authorizedByBody] at h
      by_cases hsame : probed = exp
      · rw [hsame]
      · rw [if_pos hsame] at h
        cases h

/-- The message has the events, and on success there is one if there are events. -/
theorem enqueue_spec (codec : EventsCodec V Body) (queued : QueueAnswer) (events : List V) :
    let r := enqueue codec queued events
    (r.1 = .ok () → r.2.elim [] (eventsIn codec) = events) ∧
      ∀ body, r.2 = some body → eventsIn codec body = events := by
  have hread {body : Body} (hencode : codec.encode events = some body) :
      eventsIn codec body = events := congrArg (·.getD []) (codec.decode_encode hencode)
  rw [enqueue]
  split
  · rename_i hempty
    exact ⟨fun _ => (List.isEmpty_iff.mp hempty).symm, fun _ h => by cases h⟩
  · cases hencode : codec.encode events with
    | none => exact ⟨nofun, nofun⟩
    | some body =>
        cases queued with
        | ok =>
            refine ⟨fun _ => hread hencode, fun body' h => ?_⟩
            cases h
            exact hread hencode
        | failed taken =>
            refine ⟨nofun, fun body' h => ?_⟩
            cases taken with
            | false => cases h
            | true =>
                cases h
                exact hread hencode

/-- **A published request**: if it is answered with success or has left a message then the caller is
authorized, and the message has its events. -/
theorem publishEvents_spec (codec : EventsCodec V Body) (expected : Option String) (bound : Bool)
    (request : PublishRequest V) :
    let r := publishEvents codec expected bound request
    (r.1 = .ok () → Authorized expected request ∧
        r.2.elim [] (eventsIn codec) = eventsOf request) ∧
      ∀ body, r.2 = some body → Authorized expected request ∧
        eventsIn codec body = eventsOf request := by
  have hrefused (e : PublishError) {P : Prop} {Q : Body → Prop} :
      ((Except.error e : Except PublishError Unit) = .ok () → P) ∧
        ∀ body, (none : Option Body) = some body → Q body :=
    ⟨nofun, nofun⟩
  -- the checks in their order; one that fails ends the request with an error
  rw [publishEvents]
  split
  · exact hrefused _
  rename_i byHeader hheader
  split
  · exact hrefused _
  split
  · exact hrefused _
  rename_i hbody
  split
  · exact hrefused _
  split
  · exact hrefused _
  rename_i events hparsed
  have hauthorized : Authorized expected request := by
    intro exp hexpected
    subst hexpected
    cases byHeader with
    | true => exact .inl (authorized_of_header hheader)
    | false =>
        -- a header that was compared has decided
        have hnone := (header_or_expected_none hheader).resolve_right (by simp)
        exact .inr ⟨hnone, probed_of_body hbody⟩
  have hevents : eventsOf request = events := by rw [eventsOf, hparsed]
  obtain ⟨hok, hmessage⟩ := enqueue_spec codec request.queued events
  rw [hevents]
  exact ⟨fun h => ⟨hauthorized, hok h⟩, fun body h => ⟨hauthorized, hmessage body h⟩⟩

/-! ### `consume_events_queue` -/

/-- `aggregate_events`. -/
def aggregateEvents (codec : EventsCodec V Body) (messages : List Body) : List V :=
  (messages.filterMap codec.decode).flatten

/-- What comes of a post: a status below 400 with the number of events that are refused, or another
status or none; then the request may still have come through. -/
inductive PostAnswer where
  | accepted (rejected : UInt64)
  | failed (reached : Bool)
deriving DecidableEq

/-- How long the isolate is there: until it has posted, and the events are taken or not; until the
snapshot is stored; or to its end. -/
inductive EventsLifetime where
  | posting (reached : Bool)
  | recording
  | whole
deriving DecidableEq

structure EventsInvocation where
  readable : Bool
  secretConfigured : Bool
  answer : PostAnswer
  lifetime : EventsLifetime

/-- The `event_result` of `update_kv_snapshot`. -/
structure EventResult where
  eventCount : UInt64
  rejected : UInt64
  succeeded : Bool

/-- What a run has done: the events that the backend has taken, and what it has recorded. -/
structure EventsConsumption (V : Type) where
  taken : List V
  record : Option EventResult

/-- `u64::saturating_sub`. -/
def saturatingSubU64 (a b : UInt64) : UInt64 := if b ≤ a then a - b else 0

/-- The answer to a post, as `delivered` and `rejected`. -/
def PostAnswer.outcome : PostAnswer → Bool × UInt64
  | .accepted rejected => (true, rejected)
  | .failed _ => (false, 0)

def PostAnswer.reached : PostAnswer → Bool
  | .accepted _ => true
  | .failed reached => reached

/-- A post of events, and what follows. -/
def postEvents (events : List V) (answer : PostAnswer) (lifetime : EventsLifetime) :
    EventsConsumption V × Bool :=
  let eventCount := UInt64.ofNat events.length
  let (delivered, rejected) := answer.outcome
  let taken := if answer.reached then events else []
  let record := some ⟨saturatingSubU64 eventCount rejected, rejected, delivered⟩
  match lifetime with
  | .posting reached => (⟨if reached then events else [], none⟩, false)
  | .recording => (⟨taken, record⟩, false)
  | .whole => (⟨taken, record⟩, delivered)

/-- `consume_events_queue`; `true` when the batch is acknowledged. -/
def consumeEventsQueue (codec : EventsCodec V Body) (messages : List Body)
    (inv : EventsInvocation) : EventsConsumption V × Bool :=
  if !inv.readable then (⟨[], none⟩, false)
  else
    let allEvents := aggregateEvents codec messages
    if allEvents.isEmpty then (⟨[], none⟩, decide (inv.lifetime = .whole))
    else if !inv.secretConfigured then (⟨[], none⟩, false)
    else postEvents allEvents inv.answer inv.lifetime

/-- What a run does with the events of its batch. -/
structure Posts (events : List V) (r : EventsConsumption V) (acked : Bool) : Prop where
  /-- A post is all or nothing. -/
  taken : r.taken = events ∨ r.taken = []
  acked_taken : acked = true → r.taken = events
  /-- Without a record, an acknowledged batch has no events. -/
  unrecorded : acked = true → r.record = none → events = []
  recorded : ∀ result ∈ r.record, result.eventCount =
    saturatingSubU64 (UInt64.ofNat events.length) result.rejected

theorem Posts.of_failed {events : List V} {r : EventsConsumption V}
    (h : r.taken = events ∨ r.taken = []) (hrecorded : ∀ result ∈ r.record, result.eventCount =
      saturatingSubU64 (UInt64.ofNat events.length) result.rejected) : Posts events r false :=
  have hnever {P : Prop} (hacked : false = true) : P := absurd hacked Bool.false_ne_true
  ⟨h, hnever, hnever, hrecorded⟩

theorem postEvents_posts (events : List V) (answer : PostAnswer) (lifetime : EventsLifetime) :
    Posts events (postEvents events answer lifetime).1 (postEvents events answer lifetime).2 := by
  cases lifetime with
  | posting reached => exact .of_failed (ite_eq_or_eq _ _ _) fun _ h => by cases h
  | recording =>
      refine .of_failed (ite_eq_or_eq _ _ _) fun result h => ?_
      cases h
      rfl
  | whole =>
      cases answer with
      | accepted rejected =>
          refine ⟨.inl rfl, fun _ => rfl, fun _ hnone => absurd hnone (by simp [postEvents]), ?_⟩
          rintro result ⟨⟩
          rfl
      | failed reached =>
          refine .of_failed (ite_eq_or_eq _ _ _) fun result h => ?_
          cases h
          rfl

/-- **A run of the consumer.** -/
theorem consumeEventsQueue_posts (codec : EventsCodec V Body) (messages : List Body)
    (inv : EventsInvocation) :
    Posts (aggregateEvents codec messages) (consumeEventsQueue codec messages inv).1
      (consumeEventsQueue codec messages inv).2 := by
  rw [consumeEventsQueue]
  split
  · exact .of_failed (.inr rfl) fun _ h => by cases h
  · simp only
    by_cases hempty : (aggregateEvents codec messages).isEmpty = true
    · rw [if_pos hempty, List.isEmpty_iff.mp hempty]
      exact ⟨.inl rfl, fun _ => rfl, fun _ _ => rfl, fun result h => by cases h⟩
    · rw [if_neg hempty]
      split
      · exact .of_failed (.inr rfl) fun _ h => by cases h
      · exact postEvents_posts _ _ _

/-- Where the isolate does not end between the store and the queue, a batch is recorded as delivered
if and only if it is acknowledged. -/
theorem succeeded_consumeEventsQueue (codec : EventsCodec V Body) (messages : List Body)
    {inv : EventsInvocation} (hlifetime : inv.lifetime ≠ .recording) :
    ∀ result ∈ (consumeEventsQueue codec messages inv).1.record,
      result.succeeded = (consumeEventsQueue codec messages inv).2 := by
  intro result h
  rw [consumeEventsQueue] at h ⊢
  split at h
  · cases h
  · rename_i hreadable
    simp only at h ⊢
    rw [if_neg hreadable]
    split at h
    · cases h
    · rename_i hempty
      rw [if_neg hempty]
      split at h
      · cases h
      · rename_i hsecret
        rw [if_neg hsecret]
        cases hend : inv.lifetime with
        | posting reached =>
            rw [hend] at h
            cases h
        | recording => exact absurd hend hlifetime
        | whole =>
            rw [hend] at h
            cases h
            rfl

/-! ### The snapshot in the store -/

/-- `update_kv_snapshot`, on what was read from the store. -/
def updateKvSnapshot (stored : Option TelemetrySnapshot) (telemetryDelta : Option TelemetryData)
    (flushResult : Option Bool) (eventResult : Option EventResult) : TelemetrySnapshot :=
  let cumulative := stored.getD {}
  let cumulative := telemetryDelta.elim cumulative cumulative.accumulateDelta
  let flush := cumulative.flush
  let flush := match flushResult with
    | some true => { flush with succeeded := flush.succeeded + 1 }
    | some false => { flush with failed := flush.failed + 1 }
    | none => flush
  let events := cumulative.events
  let events := match eventResult with
    | some result =>
        if result.succeeded then
          { events with
            published := events.published + result.eventCount
            eventsRejected := events.eventsRejected + result.rejected
            batchesSucceeded := events.batchesSucceeded + 1 }
        else { events with batchesFailed := events.batchesFailed + 1 }
    | none => events
  { cumulative with flush := flush, events := events }

/-- The store after a run. -/
def updateKv (kv : SharedCell TelemetrySnapshot) (record : Option EventResult)
    (answers : FlagLog.KvAnswers) : SharedCell TelemetrySnapshot :=
  match record with
  | none => kv
  | some result =>
      if answers.bound && answers.stores then
        kv.write (fun stored => updateKvSnapshot stored none none (some result)) answers.read
      else kv

/-! ### Runs -/

/-- The queue; the requests that were answered with success, and the others of which the queue has
taken the message; and the snapshot under the key of the events. -/
structure EventsRun (V Body : Type) where
  courier : Courier Body (EventsConsumption V) := {}
  answered : List (PublishRequest V) := []
  unanswered : List (PublishRequest V) := []
  kv : SharedCell TelemetrySnapshot := {}

/-- What happens: a request comes in, a run of the consumer reads the snapshot, one comes to its
end, a message is given up. -/
inductive QueueEvent (V : Type) where
  | publish (request : PublishRequest V)
  | read (answers : Bool)
  | consume (ids : List Nat) (inv : EventsInvocation) (kv : FlagLog.KvAnswers)
  | bury (id : Nat)

section Runs

variable (codec : EventsCodec V Body) (expected : Option String) (bound : Bool)

def EventsRun.publish (run : EventsRun V Body) (request : PublishRequest V) : EventsRun V Body :=
  let (answer, message) := publishEvents codec expected bound request
  let run := { run with courier := message.elim run.courier run.courier.publish }
  if answer.isOk && request.answered then { run with answered := run.answered ++ [request] }
  else if message.isSome then { run with unanswered := run.unanswered ++ [request] }
  else run

def EventsRun.step (run : EventsRun V Body) : QueueEvent V → EventsRun V Body
  | .publish request => run.publish codec expected bound request
  | .read answers => { run with kv := run.kv.read answers }
  | .consume ids inv kv =>
      let r := consumeEventsQueue codec ((run.courier.batch ids).map Prod.snd) inv
      { run with
        courier := run.courier.attempt (consumeEventsQueue codec) ids inv
        kv := updateKv run.kv r.1.record kv }
  | .bury id => { run with courier := run.courier.bury id }

def EventsRun.run (events : List (QueueEvent V)) : EventsRun V Body :=
  events.foldl (EventsRun.step codec expected bound) {}

/-- The events of messages. -/
def messageEvents (messages : List (Nat × Body)) : List V :=
  messages.flatMap fun e => eventsIn codec e.2

/-- What the backend has taken in some runs of the consumer. -/
def takenIn (attempts : List (Attempt Body (EventsConsumption V))) : List V :=
  attempts.flatMap fun a => a.result.taken

theorem aggregateEvents_map_snd (messages : List (Nat × Body)) :
    aggregateEvents codec (messages.map Prod.snd) = messageEvents codec messages := by
  induction messages with
  | nil => rfl
  | cons e rest ih =>
      have hcons : messageEvents codec (e :: rest) =
          eventsIn codec e.2 ++ messageEvents codec rest := rfl
      rw [hcons, ← ih]
      simp only [aggregateEvents, eventsIn, List.map_cons, List.filterMap_cons]
      cases codec.decode e.2 <;> simp

/-- The messages have the events of the requests that were answered with success, and of those of
which the queue has a message all the same; and these are of authorized callers. -/
structure EventsRun.Inv (run : EventsRun V Body) : Prop where
  placed : run.courier.Placed
  consumed : run.courier.Consumed (consumeEventsQueue codec)
  messages : (messageEvents codec run.courier.published).Perm
    (run.answered.flatMap eventsOf ++ run.unanswered.flatMap eventsOf)
  authorized : ∀ request ∈ run.answered ++ run.unanswered, Authorized expected request

variable {codec expected bound} {run : EventsRun V Body}

variable (codec) in
theorem messageEvents_publish (c : Courier Body (EventsConsumption V)) (message : Option Body) :
    messageEvents codec (message.elim c c.publish).published =
      messageEvents codec c.published ++ message.elim [] (eventsIn codec) := by
  cases message <;> simp [messageEvents, Courier.publish]

theorem EventsRun.Inv.publish (h : run.Inv codec expected) (request : PublishRequest V) :
    (run.publish codec expected bound request).Inv codec expected := by
  obtain ⟨hok, hmessage⟩ := publishEvents_spec codec expected bound request
  rw [EventsRun.publish]
  generalize publishEvents codec expected bound request = r at hok hmessage
  obtain ⟨answer, message⟩ := r
  have hplaced : (message.elim run.courier run.courier.publish).Placed := by
    cases message with
    | none => exact h.placed
    | some body => exact h.placed.publish body
  have hconsumed : (message.elim run.courier run.courier.publish).Consumed
      (consumeEventsQueue codec) := by
    cases message with
    | none => exact h.consumed
    | some body => exact h.consumed.publish body
  have hmessages := messageEvents_publish codec run.courier message
  -- a message that the queue has taken has exactly the events of its request
  have hmore {new : List V} (hnew : message.elim [] (eventsIn codec) = new) :
      (messageEvents codec (message.elim run.courier run.courier.publish).published).Perm
        (run.answered.flatMap eventsOf ++ run.unanswered.flatMap eventsOf ++ new) := by
    rw [hmessages, hnew]
    exact h.messages.append_right new
  simp only
  split
  · rename_i hanswered
    have hsuccess : answer = .ok () := by
      cases answer with
      | ok u => rfl
      | error e => simp [Except.isOk, Except.toBool] at hanswered
    obtain ⟨hauthorized, hevents⟩ := hok hsuccess
    refine ⟨hplaced, hconsumed, (hmore hevents).trans ?_, ?_⟩
    · simp only [List.flatMap_append, List.flatMap_singleton, List.append_assoc]
      exact List.Perm.append_left _ List.perm_append_comm
    · intro other hother
      simp only [List.mem_append, List.mem_singleton] at hother
      rcases hother with (hother | rfl) | hother
      · exact h.authorized other (List.mem_append_left _ hother)
      · exact hauthorized
      · exact h.authorized other (List.mem_append_right _ hother)
  · split
    · rename_i hsome
      obtain ⟨body, rfl⟩ := Option.isSome_iff_exists.mp hsome
      obtain ⟨hauthorized, hevents⟩ := hmessage body rfl
      refine ⟨hplaced, hconsumed, (hmore hevents).trans ?_, ?_⟩
      · simp [List.append_assoc]
      · intro other hother
        simp only [List.mem_append, List.mem_singleton] at hother
        rcases hother with hother | hother | rfl
        · exact h.authorized other (List.mem_append_left _ hother)
        · exact h.authorized other (List.mem_append_right _ hother)
        · exact hauthorized
    · rename_i hnone
      obtain rfl : message = none := by simpa using hnone
      exact h

theorem EventsRun.Inv.step (h : run.Inv codec expected) (event : QueueEvent V) :
    (run.step codec expected bound event).Inv codec expected := by
  cases event with
  | publish request => exact h.publish request
  | read answers => exact ⟨h.placed, h.consumed, h.messages, h.authorized⟩
  | consume ids inv kv =>
      exact ⟨h.placed.attempt _ ids inv, h.consumed.attempt h.placed ids inv, h.messages,
        h.authorized⟩
  | bury id => exact ⟨h.placed.bury id, h.consumed.bury id, h.messages, h.authorized⟩

/-- A run of the consumer, on the events of its batch. -/
theorem EventsRun.Inv.posts (h : run.Inv codec expected)
    {a : Attempt Body (EventsConsumption V)} (ha : a ∈ run.courier.attempts) :
    Posts (messageEvents codec a.batch) a.result a.acked := by
  obtain ⟨inv, hran⟩ := h.consumed.ran a ha
  have hposts := consumeEventsQueue_posts codec (a.batch.map Prod.snd) inv
  rwa [hran, aggregateEvents_map_snd] at hposts

variable (codec expected bound) (events : List (QueueEvent V))

/-- Every run keeps the invariant. -/
theorem EventsRun.inv_run : (EventsRun.run codec expected bound events).Inv codec expected := by
  induction events using List.reverseRecOn with
  | nil => exact ⟨Courier.placed_new, Courier.consumed_new _, .nil, by simp [EventsRun.run]⟩
  | append_singleton events event ih =>
      rw [EventsRun.run, List.foldl_append]
      exact ih.step event

/-- The runs that came as far as the store. -/
def recorded (c : Courier Body (EventsConsumption V)) :
    List (Attempt Body (EventsConsumption V)) :=
  c.attempts.filter fun a => a.result.record.isSome

/-- Whether a run has recorded that its events were taken. -/
def delivered (a : Attempt Body (EventsConsumption V)) : Bool :=
  a.result.record.any EventResult.succeeded

/-- What a run makes of the snapshot that it has read. -/
def applyRun (a : Attempt Body (EventsConsumption V)) (stored : Option TelemetrySnapshot) :
    TelemetrySnapshot :=
  a.result.record.elim (stored.getD {}) fun result =>
    updateKvSnapshot stored none none (some result)

/-- The backend refuses no more events than it was sent. -/
def Measured (a : Attempt Body (EventsConsumption V)) : Prop :=
  ∀ result ∈ a.result.record, result.rejected ≤ UInt64.ofNat (messageEvents codec a.batch).length

/-- A snapshot has counted the events of these messages, so many batches that were delivered, and so
many that were not. -/
structure SnapshotCounts (messages : List (Nat × Body)) (succeeded failed : Nat)
    (counted : EventsSnapshot) : Prop where
  events : counted.published + counted.eventsRejected =
    UInt64.ofNat (messageEvents codec messages).length
  succeeded : counted.batchesSucceeded = UInt64.ofNat succeeded
  failed : counted.batchesFailed = UInt64.ofNat failed

/-- It has counted some runs, each once. -/
def CountsRuns (attempts : List (Attempt Body (EventsConsumption V)))
    (counted : EventsSnapshot) : Prop :=
  SnapshotCounts codec ((attempts.filter delivered).flatMap (·.batch))
    (attempts.filter delivered).length (attempts.filter fun a => !delivered a).length counted

variable {codec}

theorem saturatingSubU64_add {count rejected : UInt64} (h : rejected ≤ count) :
    saturatingSubU64 count rejected + rejected = count := by
  rw [saturatingSubU64, if_pos h, UInt64.sub_add_cancel]

/-- **What some runs come to**, one after the other. -/
theorem replay_applyRun {attempts : List (Attempt Body (EventsConsumption V))}
    (hrecords : ∀ a ∈ attempts, a.result.record.isSome = true ∧
      Posts (messageEvents codec a.batch) a.result a.acked)
    (hmeasured : ∀ a ∈ attempts, Measured codec a) :
    CountsRuns codec attempts ((replay applyRun attempts).getD {}).events := by
  induction attempts using List.reverseRecOn with
  | nil => exact ⟨rfl, rfl, rfl⟩
  | append_singleton attempts a ih =>
      obtain ⟨hold, hone⟩ := List.forall_mem_append.mp hrecords
      obtain ⟨holdMeasured, honeMeasured⟩ := List.forall_mem_append.mp hmeasured
      obtain ⟨hsome, hposts⟩ := List.forall_mem_singleton.mp hone
      have h := ih hold holdMeasured
      obtain ⟨result, hrecord⟩ := Option.isSome_iff_exists.mp hsome
      have hcount := hposts.recorded result hrecord
      have hsum := saturatingSubU64_add (List.forall_mem_singleton.mp honeMeasured result hrecord)
      rw [replay_concat, Option.getD_some, applyRun, hrecord, Option.elim_some]
      generalize replay applyRun attempts = stored at h ⊢
      cases hsucceeded : result.succeeded with
      | true =>
          have hdelivered : delivered a = true := by simp [delivered, hrecord, hsucceeded]
          refine ⟨?_, ?_, ?_⟩
          · -- what is not refused is counted as published
            have hlength : (messageEvents codec
                (((attempts ++ [a]).filter delivered).flatMap (·.batch))).length =
                (messageEvents codec ((attempts.filter delivered).flatMap (·.batch))).length +
                  (messageEvents codec a.batch).length := by
              simp [messageEvents, List.filter_append, hdelivered]
            simp only [updateKvSnapshot, hsucceeded, if_true, Option.elim_none]
            rw [hlength, UInt64.ofNat_add, ← h.events, ← hsum, hcount]
            exact add_add_add_comm _ _ _ _
          · simp [updateKvSnapshot, hsucceeded, List.filter_append, hdelivered, h.succeeded,
              UInt64.ofNat_add]
          · simpa [updateKvSnapshot, hsucceeded, List.filter_append, hdelivered] using h.failed
      | false =>
          have hdelivered : delivered a = false := by simp [delivered, hrecord, hsucceeded]
          refine ⟨?_, ?_, ?_⟩
          · simpa [updateKvSnapshot, hsucceeded, List.filter_append, hdelivered] using h.events
          · simpa [updateKvSnapshot, hsucceeded, List.filter_append, hdelivered] using h.succeeded
          · simp [updateKvSnapshot, hsucceeded, List.filter_append, hdelivered, h.failed,
              UInt64.ofNat_add]

/-! ### What the snapshot has counted -/

/-- The store answers, no isolate ends between the store and the queue, and a run stores over what
it has read: no other run has stored in between. -/
def QueueEvent.Steady (run : EventsRun V Body) : QueueEvent V → Prop
  | .consume _ inv kv => inv.lifetime ≠ .recording ∧ kv.bound = true ∧ kv.stores = true ∧
      run.kv.found kv.read = run.kv.stored
  | _ => True

theorem kv_publish (request : PublishRequest V) :
    (run.publish codec expected bound request).kv = run.kv := by
  rw [EventsRun.publish]
  simp only
  split
  · rfl
  · split <;> rfl

theorem attempts_publish (request : PublishRequest V) :
    (run.publish codec expected bound request).courier.attempts = run.courier.attempts := by
  have hcourier : (run.publish codec expected bound request).courier =
      (publishEvents codec expected bound request).2.elim run.courier run.courier.publish := by
    rw [EventsRun.publish]
    simp only
    split
    · rfl
    · split <;> rfl
  rw [hcourier]
  cases (publishEvents codec expected bound request).2 <;> rfl

/-- What is stored comes of the run that has stored last. -/
theorem updateKv_eq (kv : SharedCell TelemetrySnapshot) (a : Attempt Body (EventsConsumption V))
    (answers : FlagLog.KvAnswers) : updateKv kv a.result.record answers =
      if a.result.record.isSome && (answers.bound && answers.stores) then
        kv.write (applyRun a) answers.read
      else kv := by
  cases hrecord : a.result.record with
  | none => rfl
  | some result =>
      have hupdate : applyRun a = fun stored => updateKvSnapshot stored none none (some result) := by
        funext stored
        rw [applyRun, hrecord]
        rfl
      rw [hupdate, updateKv]
      simp

/-- The snapshot, and what was read of it, come of some of the runs that are recorded. -/
theorem kept_step (h : Kept applyRun (recorded run.courier) run.kv) (event : QueueEvent V) :
    let next := run.step codec expected bound event
    Kept applyRun (recorded next.courier) next.kv := by
  cases event with
  | publish request => simpa [recorded, EventsRun.step, kv_publish, attempts_publish] using h
  | read answers => exact h.read answers
  | bury id => exact h
  | consume ids inv kv =>
      simp only [EventsRun.step, recorded, Courier.attempt, List.filter_append] at h ⊢
      generalize consumeEventsQueue codec ((run.courier.batch ids).map Prod.snd) inv = r
      have hkv := updateKv_eq run.kv ⟨run.courier.batch ids, r.1, r.2⟩ kv
      rw [show r.1.record = (⟨run.courier.batch ids, r.1, r.2⟩ :
        Attempt Body (EventsConsumption V)).result.record from rfl, hkv]
      cases hrecord : r.1.record with
      | none => simpa [hrecord] using h
      | some result =>
          simp only [List.filter_cons, hrecord, Option.isSome_some, if_true, List.filter_nil,
            Bool.true_and]
          split
          · exact h.write _ kv.read
          · exact h.skip _

/-- All runs that are recorded are in the snapshot, and the queue was told what they have
recorded. -/
structure SeesAll (run : EventsRun V Body) : Prop where
  stored : run.kv.stored = replay applyRun (recorded run.courier)
  tells : ∀ a ∈ run.courier.attempts, ∀ result ∈ a.result.record, result.succeeded = a.acked

theorem SeesAll.step (h : SeesAll run) {event : QueueEvent V} (hsteady : event.Steady run) :
    SeesAll (run.step codec expected bound event) := by
  cases event with
  | publish request =>
      refine ⟨?_, ?_⟩
      · simpa [recorded, EventsRun.step, kv_publish, attempts_publish] using h.stored
      · simpa [EventsRun.step, attempts_publish] using h.tells
  | read answers => exact ⟨h.stored, h.tells⟩
  | bury id => exact ⟨h.stored, h.tells⟩
  | consume ids inv kv =>
      obtain ⟨hlifetime, hbound, hstores, hcurrent⟩ := hsteady
      have htells := succeeded_consumeEventsQueue codec ((run.courier.batch ids).map Prod.snd)
        hlifetime
      refine ⟨?_, List.forall_mem_append.mpr ⟨h.tells, List.forall_mem_singleton.mpr htells⟩⟩
      have hstored := h.stored
      simp only [EventsRun.step, recorded, Courier.attempt, List.filter_append] at hstored ⊢
      generalize consumeEventsQueue codec ((run.courier.batch ids).map Prod.snd) inv = r
      have hkv := updateKv_eq run.kv ⟨run.courier.batch ids, r.1, r.2⟩ kv
      rw [show r.1.record = (⟨run.courier.batch ids, r.1, r.2⟩ :
        Attempt Body (EventsConsumption V)).result.record from rfl, hkv, hbound, hstores]
      cases hrecord : r.1.record with
      | none => simpa [hrecord] using hstored
      | some result =>
          simp only [List.filter_cons, hrecord, Option.isSome_some, if_true, List.filter_nil,
            Bool.and_self]
          exact SharedCell.write_current hstored hcurrent _

/-- What the queue was told, by what was recorded. -/
theorem SeesAll.filters (h : SeesAll run) :
    (recorded run.courier).filter delivered =
        run.courier.acks.filter (·.result.record.isSome) ∧
      ((recorded run.courier).filter fun a => !delivered a) =
        run.courier.failures.filter (·.result.record.isSome) := by
  simp only [recorded, Courier.acks, Courier.failures, List.filter_filter]
  have htold (a : Attempt Body (EventsConsumption V)) (ha : a ∈ run.courier.attempts) :
      a.result.record = none ∨ a.result.record.isSome = true ∧ delivered a = a.acked := by
    cases hrecord : a.result.record with
    | none => exact .inl rfl
    | some result => exact .inr ⟨rfl, by simp [delivered, hrecord, h.tells a ha result hrecord]⟩
  constructor
  · refine List.filter_congr fun a ha => ?_
    rcases htold a ha with hnone | ⟨hsome, hdelivered⟩
    · simp [hnone]
    · simp [hsome, hdelivered]
  · refine List.filter_congr fun a ha => ?_
    rcases htold a ha with hnone | ⟨hsome, hdelivered⟩
    · simp [hnone]
    · simp [hsome, hdelivered]

variable (codec)

/-- **Events are counted once**: where the backend refuses no more events than it was sent, the
stored snapshot has in every run counted some of the runs that came as far as the store, none of
them twice: the events of those that delivered their batch as published or as rejected, and their
batches, and the others as failed.  While the store answers, no isolate ends between the store and
the queue, and each run stores over what it has read, it has counted the events of the messages that
are done with, however often they were delivered before, each acknowledged batch that has events,
and each failed run that came as far as the store. -/
theorem events_counted
    (hmeasured : ∀ a ∈ (EventsRun.run codec expected bound events).courier.attempts,
      Measured codec a) :
    let run := EventsRun.run codec expected bound events
    (∃ counted, counted.Sublist (recorded run.courier) ∧
      CountsRuns codec counted (run.kv.stored.getD {}).events) ∧
    (Throughout (fun before event => event.Steady (EventsRun.run codec expected bound before))
        events →
      SnapshotCounts codec run.courier.done
        (run.courier.acks.filter (·.result.record.isSome)).length
        (run.courier.failures.filter (·.result.record.isSome)).length
        (run.kv.stored.getD {}).events) := by
  intro run
  have hinv : run.Inv codec expected := EventsRun.inv_run codec expected bound events
  have hrecords : ∀ a ∈ recorded run.courier, a.result.record.isSome = true ∧
      Posts (messageEvents codec a.batch) a.result a.acked := by
    intro a ha
    obtain ⟨hattempt, hsome⟩ := List.mem_filter.mp ha
    exact ⟨hsome, hinv.posts hattempt⟩
  have hall : ∀ a ∈ recorded run.courier, Measured codec a :=
    fun a ha => hmeasured a (List.mem_filter.mp ha).1
  refine ⟨?_, fun hsteady => ?_⟩
  · have hkept : Kept applyRun (recorded run.courier) run.kv := by
      clear hrecords hall hinv hmeasured
      induction events using List.reverseRecOn with
      | nil => exact kept_new
      | append_singleton events event ih =>
          simp only [run, EventsRun.run, List.foldl_append]
          exact kept_step expected bound ih event
    obtain ⟨counted, hcounted, hstored⟩ := hkept.stored
    refine ⟨counted, hcounted, ?_⟩
    rw [hstored]
    exact replay_applyRun (fun a ha => hrecords a (hcounted.subset ha))
      fun a ha => hall a (hcounted.subset ha)
  · have hcounted : SeesAll run := by
      clear hrecords hall hinv hmeasured
      induction events using List.reverseRecOn with
      | nil => exact ⟨rfl, fun _ ha => absurd ha List.not_mem_nil⟩
      | append_singleton events event ih =>
          obtain ⟨hbefore, hevent⟩ := throughout_concat.mp hsteady
          simp only [run, EventsRun.run, List.foldl_append]
          exact (ih hbefore).step expected bound hevent
    obtain ⟨hsucceeded, hfailed⟩ := hcounted.filters
    have hcounts := replay_applyRun hrecords hall
    rw [← hcounted.stored, CountsRuns, hsucceeded, hfailed] at hcounts
    refine ⟨?_, hcounts.succeeded, hcounts.failed⟩
    -- an acknowledged batch without a record has no events
    have hdone : messageEvents codec run.courier.done = messageEvents codec
        ((run.courier.acks.filter (·.result.record.isSome)).flatMap (·.batch)) := by
      have hempty : ∀ a ∈ run.courier.acks, a.result.record.isSome = false →
          messageEvents codec a.batch = [] := by
        intro a ha hnone
        obtain ⟨hattempt, hacked⟩ := List.mem_filter.mp ha
        exact (hinv.posts hattempt).unrecorded hacked (by simpa using hnone)
      rw [Courier.done]
      generalize run.courier.acks = acks at hempty
      induction acks with
      | nil => rfl
      | cons a acks ih =>
          obtain ⟨ha, hrest⟩ := List.forall_mem_cons.mp hempty
          have htail := ih hrest
          simp only [messageEvents, List.flatMap_cons, List.flatMap_append, List.filter_cons]
            at htail ha ⊢
          cases hsome : a.result.record.isSome with
          | true => simpa [List.flatMap_append] using htail
          | false => simpa [ha hsome] using htail
    rw [hdone]
    exact hcounts.events

end Runs

/-! ### A post that comes again -/

/-- Events that are their own text. -/
def plainCodec : EventsCodec String (List String) := ⟨some, some, fun h => h.symm⟩

/-- A request with its secret in the header. -/
def twoEvents : PublishRequest String :=
  ⟨some "secret", true, .ok "", .ok ["clicked", "bought"], .ok, true⟩

/-- The first post of its events fails, and the second one is accepted but for an event. -/
def postedTwice : List (QueueEvent String) :=
  [.publish twoEvents, .read true, .consume [0] ⟨true, true, .failed true, .whole⟩ ⟨true, true, 0⟩,
    .read true, .consume [0] ⟨true, true, .accepted 1, .whole⟩ ⟨true, true, 1⟩]

theorem steady_postedTwice : Throughout (fun before event => event.Steady
    (EventsRun.run plainCodec (some "secret") true before)) postedTwice := by
  refine throughout_cons.mpr ⟨trivial, throughout_cons.mpr ⟨trivial, throughout_cons.mpr
    ⟨⟨by simp, rfl, rfl, rfl⟩, throughout_cons.mpr ⟨trivial, throughout_cons.mpr
      ⟨⟨by simp, rfl, rfl, rfl⟩, throughout_nil⟩⟩⟩⟩⟩

theorem events_counted_twice :
    let run := EventsRun.run plainCodec (some "secret") true postedTwice
    SnapshotCounts plainCodec run.courier.done
      (run.courier.acks.filter (·.result.record.isSome)).length
      (run.courier.failures.filter (·.result.record.isSome)).length
      (run.kv.stored.getD {}).events :=
  (events_counted plainCodec (some "secret") true postedTwice (by unfold Measured; decide)).2
    steady_postedTwice

end EventsQueue

end ConfidenceResolver
