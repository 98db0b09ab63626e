import ConfidenceResolver.Proto.Logs
import ConfidenceResolver.Support.Ledger
import ConfidenceResolver.Telemetry.Collector

/-!
# Hosts — the provider-init telemetry

`logger.rs` of the Rust provider.  The first full flush claims the provider-init telemetry, carries
it in its request and marks it as sent.  A request is sent to a destination with retries, then to a
fallback.  Full flushes and assign flushes run concurrently: a step of the model is one request, one
answer, or one return.

* `Stage`: where the telemetry is, and what became of the request that carries it.
* `init_telemetry_once`: over every run.
-/

namespace ConfidenceResolver

open Ledger (getElem?_set_some forall_set forall_concat)

/-! ### Requests -/

/-- `LogDestination` of the provider. -/
inductive LogDestination where
  | edge
  | cloudflare
deriving DecidableEq

/-- `has_logs`. -/
def hasLogs (request : WriteFlagLogsRequest) : Bool :=
  !request.flagAssigned.isEmpty || !request.clientResolveInfo.isEmpty ||
    !request.flagResolveInfo.isEmpty || request.telemetryData.isSome

/-- The request of `flush_all`: `logs` comes from the loggers, `td` from the telemetry. -/
def flushAllRequest (sdk : Sdk) (initLabels : Labels) (includeInit : Bool)
    (logs : WriteFlagLogsRequest) (td : TelemetryData) : WriteFlagLogsRequest :=
  let td := { td with sdk := some sdk }
  let td := if includeInit then
      { td with providerInitRate := td.providerInitRate ++ [⟨initLabels, 1⟩] }
    else td
  { logs with telemetryData := some td }

/-- The request has the provider-init telemetry. -/
def carriesInit (request : WriteFlagLogsRequest) : Bool :=
  request.telemetryData.any fun td => !td.providerInitRate.isEmpty

/-! ### Sending -/

/-- `MAX_ATTEMPTS`. -/
def maxAttempts : Nat := 3

/-- What comes of one HTTP request. -/
inductive Answer where
  | status (code : Nat)
  | transportError
deriving DecidableEq

/-- `StatusCode::is_success`. -/
def isSuccess (code : Nat) : Bool := 200 ≤ code && code < 300

/-- `is_retryable_status`. -/
def isRetryableStatus (code : Nat) : Bool :=
  (500 ≤ code && code < 600) || code == 408 || code == 429

/-- Where a flush is: about to send a request, waiting for its answer, back from `send`, or done. -/
inductive Phase where
  | ready
  | waiting
  | returned (result : Except Unit Unit)
  | finished

/-- A flush that is under way. -/
structure Flight where
  request : WriteFlagLogsRequest
  includeInit : Bool
  destination : LogDestination
  fallback : Option LogDestination
  attempt : Nat
  phase : Phase

/-- What the backend and the network saw. -/
inductive Sent where
  /-- a request was sent -/
  | posted (request : WriteFlagLogsRequest)
  /-- the backend answered a request with success -/
  | accepted (request : WriteFlagLogsRequest)
  /-- `send` gave a request up: no destination accepted it -/
  | exhausted (request : WriteFlagLogsRequest)

def Sent.isAccepted : Sent → Bool
  | .accepted _ => true
  | _ => false

/-- The start of `LogSender::send`. -/
def Flight.start (request : WriteFlagLogsRequest) (includeInit : Bool)
    (destinations : List LogDestination) : Flight where
  request := request
  includeInit := includeInit
  destination := destinations.head?.getD .edge
  fallback := destinations[1]?
  attempt := 1
  phase := .ready

/-- `send_with_retry` failed.  Without a fallback `send` returns, and it returns `Ok`. -/
def Flight.failed (f : Flight) : Flight × List Sent :=
  match f.fallback with
  | some fb => ({ f with destination := fb, fallback := none, attempt := 1, phase := .ready }, [])
  | none => ({ f with phase := .returned (.ok ()) }, [.exhausted f.request])

/-- The end of an attempt that may be repeated. -/
def Flight.retry (f : Flight) : Flight × List Sent :=
  if f.attempt < maxAttempts then ({ f with attempt := f.attempt + 1, phase := .ready }, [])
  else f.failed

/-- The match on the result of an attempt. -/
def Flight.answer (f : Flight) : Answer → Flight × List Sent
  | .status code =>
      if isSuccess code then ({ f with phase := .returned (.ok ()) }, [.accepted f.request])
      else if isRetryableStatus code then f.retry
      else f.failed
  | .transportError => f.retry

/-! ### The manager -/

/-- `InitTelemetryState`. -/
inductive InitState where
  | pending
  | sending
  | sent
deriving DecidableEq

/-- `InitTelemetryState::claim`. -/
def InitState.claim : InitState → Bool × InitState
  | .pending => (true, .sending)
  | s => (false, s)

/-- `InitTelemetryState::complete`. -/
def InitState.complete (success : Bool) : InitState := if success then .sent else .pending

/-- A `LogManager` with its flushes, and what the network saw, oldest first. -/
structure LogManager where
  sdk : Sdk
  initLabels : Labels
  initState : InitState
  flights : List Flight
  history : List Sent

def LogManager.new (sdk : Sdk) (initLabels : Labels) : LogManager where
  sdk := sdk
  initLabels := initLabels
  initState := .pending
  flights := []
  history := []

/-- What happens next. -/
inductive LogEvent where
  /-- `flush_all` starts, with what the loggers and the telemetry hold then. -/
  | flushAll (logs : WriteFlagLogsRequest) (current previous : TelemetrySnapshot)
      (lastUpdate memory : UInt64) (destinations : List LogDestination)
  /-- `flush_assign` starts. -/
  | flushAssign (flagAssigned : List FlagAssigned) (destinations : List LogDestination)
  /-- The flush with this number sends its request. -/
  | post (i : Nat)
  /-- Its request is answered. -/
  | answer (i : Nat) (a : Answer)
  /-- It returns from `send`. -/
  | finish (i : Nat)

namespace LogManager

/-- Put `f` in the place of the flush with number `i`. -/
def move (m : LogManager) (i : Nat) (f : Flight) (seen : List Sent) : LogManager :=
  { m with flights := m.flights.set i f, history := m.history ++ seen }

/-- The branches of `flush_all` behind `send`. -/
def returnFrom (m : LogManager) (f : Flight) (result : Except Unit Unit) : InitState :=
  if f.includeInit then
    match result with
    | .error _ => .complete false
    | .ok _ => .complete true
  else m.initState

def step (m : LogManager) : LogEvent → LogManager
  | .flushAll logs current previous lastUpdate memory destinations =>
      let (includeInit, initState) := m.initState.claim
      let request := flushAllRequest m.sdk m.initLabels includeInit logs
        (deltaData current previous lastUpdate memory)
      if hasLogs request then
        { m with
          initState := initState
          flights := m.flights ++ [.start request includeInit destinations] }
      else { m with initState := initState }
  | .flushAssign flagAssigned destinations =>
      let request := { flagAssigned := flagAssigned }
      if hasLogs request then
        { m with flights := m.flights ++ [.start request false destinations] }
      else m
  | .post i =>
      match m.flights[i]? with
      | some f =>
          match f.phase with
          | .ready => m.move i { f with phase := .waiting } [.posted f.request]
          | _ => m
      | none => m
  | .answer i a =>
      match m.flights[i]? with
      | some f =>
          match f.phase with
          | .waiting => m.move i (f.answer a).1 (f.answer a).2
          | _ => m
      | none => m
  | .finish i =>
      match m.flights[i]? with
      | some f =>
          match f.phase with
          | .returned result =>
              { m.move i { f with phase := .finished } [] with
                initState := m.returnFrom f result }
          | _ => m
      | none => m

def run (m : LogManager) (es : List LogEvent) : LogManager := es.foldl step m

end LogManager

/-! ### What is claimed of a run -/

/-- A request with the provider-init telemetry was accepted. -/
def InitAccepted (history : List Sent) : Prop :=
  ∃ request, .accepted request ∈ history ∧ carriesInit request = true

/-- A request with the provider-init telemetry was given up. -/
def InitExhausted (history : List Sent) : Prop :=
  ∃ request, .exhausted request ∈ history ∧ carriesInit request = true

/-- What may follow a request that was accepted. -/
def MayFollow : Sent → Sent → Prop
  | .accepted request, .posted request' =>
      carriesInit request = true → carriesInit request' = false
  | _, _ => True

/-- Once the provider-init telemetry is accepted, no later request carries it. -/
def CountedOnce (history : List Sent) : Prop := history.Pairwise MayFollow

/-- The answer ends the last attempt at the last destination, and it is a failure. -/
def Flight.lastFailure (f : Flight) (a : Answer) : Prop :=
  f.fallback = none ∧
    match a with
    | .status code =>
        isSuccess code = false ∧ (isRetryableStatus code = true → maxAttempts ≤ f.attempt)
    | .transportError => maxAttempts ≤ f.attempt

/-- In the step, every destination has failed for the request with the telemetry. -/
def LogManager.LosesInit (m : LogManager) (e : LogEvent) : Prop :=
  ∃ i a f, e = .answer i a ∧ m.flights[i]? = some f ∧ f.phase = .waiting ∧
    f.includeInit = true ∧ f.lastFailure a

/-- No step of the run loses the telemetry. -/
def LogManager.KeepsInit (m : LogManager) : List LogEvent → Prop
  | [] => True
  | e :: es => ¬ m.LosesInit e ∧ (m.step e).KeepsInit es

/-! ### One flush -/

theorem hasLogs_flushAllRequest (sdk : Sdk) (initLabels : Labels) (includeInit : Bool)
    (logs : WriteFlagLogsRequest) (td : TelemetryData) :
    hasLogs (flushAllRequest sdk initLabels includeInit logs td) = true := by
  rw [hasLogs, flushAllRequest, Option.isSome_some, Bool.or_true]

/-- The telemetry itself reports no provider init, so a request has one when it is included. -/
theorem carriesInit_flushAllRequest (sdk : Sdk) (initLabels : Labels) (includeInit : Bool)
    (logs : WriteFlagLogsRequest) (current previous : TelemetrySnapshot)
    (lastUpdate memory : UInt64) :
    carriesInit (flushAllRequest sdk initLabels includeInit logs
      (deltaData current previous lastUpdate memory)) = includeInit := by
  cases includeInit <;> rfl

/-- What a flush that has not returned may do: it goes on, perhaps with a request sent, or `send`
returns `Ok`, after the request was accepted or given up. -/
structure Flight.Moved (f : Flight) (res : Flight × List Sent) : Prop where
  request : res.1.request = f.request
  includeInit : res.1.includeInit = f.includeInit
  cases : (res.1.phase = .ready ∨ res.1.phase = .waiting) ∧
      (res.2 = [] ∨ res.2 = [.posted f.request]) ∨
    res.1.phase = .returned (.ok ()) ∧
      (res.2 = [.accepted f.request] ∨ res.2 = [.exhausted f.request])

theorem Flight.moved_post (f : Flight) :
    f.Moved ({ f with phase := .waiting }, [.posted f.request]) :=
  ⟨rfl, rfl, .inl ⟨.inr rfl, .inr rfl⟩⟩

theorem Flight.moved_failed (f : Flight) : f.Moved f.failed := by
  rw [failed]
  split
  · exact ⟨rfl, rfl, .inl ⟨.inl rfl, .inl rfl⟩⟩
  · exact ⟨rfl, rfl, .inr ⟨rfl, .inr rfl⟩⟩

theorem Flight.moved_retry (f : Flight) : f.Moved f.retry := by
  rw [retry]
  split
  · exact ⟨rfl, rfl, .inl ⟨.inl rfl, .inl rfl⟩⟩
  · exact f.moved_failed

theorem Flight.moved_answer (f : Flight) (a : Answer) : f.Moved (f.answer a) := by
  cases a with
  | transportError => exact f.moved_retry
  | status code =>
      rw [answer]
      split
      · exact ⟨rfl, rfl, .inr ⟨rfl, .inl rfl⟩⟩
      · split
        · exact f.moved_retry
        · exact f.moved_failed

theorem Flight.failed_exhausted (f : Flight) :
    f.failed.2 = [.exhausted f.request] ↔ f.fallback = none := by
  rw [failed]
  cases f.fallback <;> simp

theorem Flight.retry_exhausted (f : Flight) :
    f.retry.2 = [.exhausted f.request] ↔ f.fallback = none ∧ maxAttempts ≤ f.attempt := by
  rw [retry]
  split
  · next h => simp [Nat.not_le.mpr h]
  · next h => rw [f.failed_exhausted, and_iff_left (Nat.not_lt.mp h)]

/-- A request is given up with the last failure. -/
theorem Flight.answer_exhausted (f : Flight) (a : Answer) :
    (f.answer a).2 = [.exhausted f.request] ↔ f.lastFailure a := by
  cases a with
  | transportError => exact f.retry_exhausted
  | status code =>
      simp only [answer, lastFailure]
      split
      · next h => simp [h]
      · next h =>
          rw [Bool.not_eq_true] at h
          split
          · next hr => simp [f.retry_exhausted, h, hr]
          · next hr => simp [f.failed_exhausted, h, hr]

/-! ### The invariant -/

/-- The claim of the telemetry, over its life: no flush has it; one flush is sending it; it is
marked as sent. -/
inductive Stage (m : LogManager) : Prop where
  | pending (hinit : m.initState = .pending)
      (hnone : ∀ (i : Nat) f, m.flights[i]? = some f → f.includeInit = false)
      (hopen : ¬ InitAccepted m.history ∧ ¬ InitExhausted m.history)
  | sending (k : Nat) (f : Flight) (hinit : m.initState = .sending)
      (hk : m.flights[k]? = some f) (hf : f.includeInit = true)
      (honly : ∀ (i : Nat) g, m.flights[i]? = some g → g.includeInit = true → i = k)
      (hphase : (f.phase = .ready ∨ f.phase = .waiting) ∧
          ¬ InitAccepted m.history ∧ ¬ InitExhausted m.history ∨
        f.phase = .returned (.ok ()) ∧ (InitAccepted m.history ↔ ¬ InitExhausted m.history))
  | sent (hinit : m.initState = .sent)
      (hdone : ∀ (i : Nat) f, m.flights[i]? = some f → f.includeInit = true → f.phase = .finished)
      (hsettled : InitAccepted m.history ↔ ¬ InitExhausted m.history)

structure LogManager.Inv (m : LogManager) : Prop where
  stage : Stage m
  carries : ∀ (i : Nat) f, m.flights[i]? = some f → carriesInit f.request = f.includeInit
  once : CountedOnce m.history

theorem initAccepted_append {history seen : List Sent} :
    InitAccepted (history ++ seen) ↔ InitAccepted history ∨ InitAccepted seen := by
  simp only [InitAccepted, List.mem_append, or_and_right, exists_or]

theorem initExhausted_append {history seen : List Sent} :
    InitExhausted (history ++ seen) ↔ InitExhausted history ∨ InitExhausted seen := by
  simp only [InitExhausted, List.mem_append, or_and_right, exists_or]

/-- A request that carries the telemetry, accepted: this is the only way to `InitAccepted`. -/
theorem initAccepted_singleton {e : Sent} :
    InitAccepted [e] ↔ ∃ request, e = .accepted request ∧ carriesInit request = true := by
  simp only [InitAccepted, List.mem_singleton, eq_comm]

theorem initExhausted_singleton {e : Sent} :
    InitExhausted [e] ↔ ∃ request, e = .exhausted request ∧ carriesInit request = true := by
  simp only [InitExhausted, List.mem_singleton, eq_comm]

theorem not_initAccepted_nil : ¬ InitAccepted [] := by
  rintro ⟨request, hmem, _⟩
  exact List.not_mem_nil hmem

theorem not_initExhausted_nil : ¬ InitExhausted [] := by
  rintro ⟨request, hmem, _⟩
  exact List.not_mem_nil hmem

theorem not_initAccepted_of_any {history : List Sent}
    (h : history.any Sent.isAccepted = false) : ¬ InitAccepted history := by
  rintro ⟨request, hmem, _⟩
  exact absurd rfl (List.any_eq_false.mp h _ hmem)

/-- What a flush that moved adds to the history, by the way it moved. -/
theorem Flight.Moved.initAccepted {f : Flight} {res : Flight × List Sent} (h : f.Moved res) :
    InitAccepted res.2 ↔ carriesInit f.request = true ∧ res.2 = [.accepted f.request] := by
  obtain ⟨_, hseen | hseen⟩ | ⟨_, hseen | hseen⟩ := h.cases <;>
    simp [hseen, initAccepted_singleton, not_initAccepted_nil]

theorem Flight.Moved.initExhausted {f : Flight} {res : Flight × List Sent} (h : f.Moved res) :
    InitExhausted res.2 ↔ carriesInit f.request = true ∧ res.2 = [.exhausted f.request] := by
  obtain ⟨_, hseen | hseen⟩ | ⟨_, hseen | hseen⟩ := h.cases <;>
    simp [hseen, initExhausted_singleton, not_initExhausted_nil]

theorem countedOnce_append {history : List Sent} (h : CountedOnce history) {e : Sent}
    (he : ∀ request, e = .posted request → carriesInit request = true → ¬ InitAccepted history) :
    CountedOnce (history ++ [e]) := by
  refine List.pairwise_append.mpr ⟨h, List.pairwise_singleton _ _, fun a ha b hb => ?_⟩
  obtain rfl := List.mem_singleton.mp hb
  cases a with
  | accepted request =>
      cases b with
      | posted request' =>
          intro hcarries
          rw [← Bool.not_eq_true]
          exact fun hcarries' => he request' rfl hcarries' ⟨request, ha, hcarries⟩
      | accepted _ => trivial
      | exhausted _ => trivial
  | posted _ => trivial
  | exhausted _ => trivial

/-- A flush that moved keeps the telemetry counted once, when it does not carry it, or when nothing
with it was accepted so far. -/
theorem Flight.Moved.countedOnce {f : Flight} {res : Flight × List Sent} (h : f.Moved res)
    {history : List Sent} (honce : CountedOnce history)
    (hopen : carriesInit f.request = true → ¬ InitAccepted history) :
    CountedOnce (history ++ res.2) := by
  obtain ⟨_, hseen | hseen⟩ | ⟨_, hseen | hseen⟩ := h.cases
  · rwa [hseen, List.append_nil]
  · rw [hseen]
    refine countedOnce_append honce fun request heq hcarries => hopen ?_
    cases heq
    exact hcarries
  · rw [hseen]
    exact countedOnce_append honce fun request heq => by cases heq
  · rw [hseen]
    exact countedOnce_append honce fun request heq => by cases heq

namespace LogManager

variable {m : LogManager}

theorem inv_new (sdk : Sdk) (initLabels : Labels) : (new sdk initLabels).Inv where
  stage := .pending rfl (fun i f h => by simp [new] at h)
    ⟨not_initAccepted_nil, not_initExhausted_nil⟩
  carries i f h := by simp [new] at h
  once := List.Pairwise.nil

/-- A new flush without the telemetry. -/
theorem Inv.addPlain (h : m.Inv) {f : Flight} (hcarries : carriesInit f.request = false)
    (hf : f.includeInit = false) : ({ m with flights := m.flights ++ [f] } : LogManager).Inv where
  stage := by
    cases h.stage with
    | pending hinit hnone hopen =>
        exact .pending hinit (forall_concat hnone hf) hopen
    | sending k c hinit hk hc honly hphase =>
        refine .sending k c hinit ?_ hc (forall_concat honly fun hginit => ?_) hphase
        · exact List.getElem?_append_left (List.getElem?_eq_some_iff.mp hk).1 ▸ hk
        · exact absurd hginit (by simp [hf])
    | sent hinit hdone hsettled =>
        refine .sent hinit (forall_concat hdone fun hginit => ?_) hsettled
        exact absurd hginit (by simp [hf])
  carries := forall_concat h.carries (hcarries.trans hf.symm)
  once := h.once

/-- The flush that claims the telemetry. -/
theorem Inv.addCarrier (h : m.Inv) (hpending : m.initState = .pending) {f : Flight}
    (hcarries : carriesInit f.request = true) (hf : f.includeInit = true)
    (hready : f.phase = .ready) :
    ({ m with initState := .sending, flights := m.flights ++ [f] } : LogManager).Inv where
  stage := by
    cases h.stage with
    | pending _ hnone hopen =>
        have hother : ∀ (i : Nat) g, m.flights[i]? = some g → g.includeInit = true →
            i = m.flights.length := by
          intro i g hg hginit
          exact absurd hginit (by simp [hnone i g hg])
        exact .sending m.flights.length f rfl List.getElem?_concat_length hf
          (forall_concat hother fun _ => rfl) (.inl ⟨.inl hready, hopen⟩)
    | sending k c hinit => exact absurd (hpending.symm.trans hinit) (by decide)
    | sent hinit => exact absurd (hpending.symm.trans hinit) (by decide)
  carries := forall_concat h.carries (hcarries.trans hf.symm)
  once := h.once

/-- While a flush with the telemetry has not returned, nothing with it was accepted or given up. -/
theorem Inv.underWay (h : m.Inv) {i : Nat} {f : Flight} (hi : m.flights[i]? = some f)
    (hf : f.includeInit = true) (hphase : f.phase = .ready ∨ f.phase = .waiting) :
    ¬ InitAccepted m.history ∧ ¬ InitExhausted m.history := by
  cases h.stage with
  | pending _ hnone => exact absurd hf (by simp [hnone i f hi])
  | sending k c _ hk _ honly hstage =>
      obtain rfl := honly i f hi hf
      obtain rfl := Option.some.inj (hi.symm.trans hk)
      obtain ⟨_, hopen⟩ | ⟨hreturned, _⟩ := hstage
      · exact hopen
      · rw [hreturned] at hphase
        simp at hphase
  | sent _ hdone =>
      rw [hdone i f hi hf] at hphase
      simp at hphase

/-- A flush without the telemetry moves, and the outcome of the telemetry stays what it was. -/
theorem Inv.stage_plain (h : m.Inv) {i : Nat} {f : Flight} (hi : m.flights[i]? = some f)
    (hf : f.includeInit = false) (f' : Flight) (hf' : f'.includeInit = false) {seen : List Sent}
    (haccepted : ¬ InitAccepted seen) (hexhausted : ¬ InitExhausted seen) :
    Stage (m.move i f' seen) := by
  -- the flight that moves does not carry the telemetry, so the carrier is another one
  have hother : ∀ (j : Nat) g, (m.flights.set i f')[j]? = some g → g.includeInit = true →
      m.flights[j]? = some g := by
    intro j g hg hginit
    rw [getElem?_set_some hi] at hg
    split at hg
    · cases hg
      exact absurd hginit (by simp [hf'])
    · exact hg
  have hacc : InitAccepted (m.history ++ seen) ↔ InitAccepted m.history := by
    rw [initAccepted_append, or_iff_left haccepted]
  have hexh : InitExhausted (m.history ++ seen) ↔ InitExhausted m.history := by
    rw [initExhausted_append, or_iff_left hexhausted]
  cases h.stage with
  | pending hinit hnone hopen =>
      refine .pending hinit (fun j g hg => ?_) ⟨hacc.not.mpr hopen.1, hexh.not.mpr hopen.2⟩
      rw [← Bool.not_eq_true]
      intro hginit
      exact absurd hginit (by simp [hnone j g (hother j g hg hginit)])
  | sending k c hinit hk hc honly hstage =>
      have hik : i ≠ k := by
        rintro rfl
        obtain rfl := Option.some.inj (hi.symm.trans hk)
        exact absurd hc (by simp [hf])
      refine .sending k c hinit ?_ hc
        (fun j g hg hginit => honly j g (hother j g hg hginit) hginit) ?_
      · exact (getElem?_set_some hi k).trans ((if_neg hik).trans hk)
      · simp only [LogManager.move, hacc, hexh]
        exact hstage
  | sent hinit hdone hsettled =>
      refine .sent hinit (fun j g hg hginit => hdone j g (hother j g hg hginit) hginit) ?_
      simp only [LogManager.move, hacc, hexh]
      exact hsettled

/-- The flush with the telemetry moves: its return settles the outcome. -/
theorem Inv.stage_carrier (h : m.Inv) {i : Nat} {f : Flight} (hi : m.flights[i]? = some f)
    (hf : f.includeInit = true) (hphase : f.phase = .ready ∨ f.phase = .waiting)
    {res : Flight × List Sent} (hmoved : f.Moved res) : Stage (m.move i res.1 res.2) := by
  obtain ⟨haccepted, hexhausted⟩ := h.underWay hi hf hphase
  cases h.stage with
  | pending _ hnone => exact absurd hf (by simp [hnone i f hi])
  | sent _ hdone =>
      rw [hdone i f hi hf] at hphase
      simp at hphase
  | sending k c hinit hk hc honly hstage =>
      obtain rfl := honly i f hi hf
      refine .sending i res.1 hinit ?_ (hmoved.includeInit.trans hf)
        (forall_set hi honly fun _ => rfl) ?_
      · exact (getElem?_set_some hi i).trans (if_pos rfl)
      · -- nothing was settled so far, so the history settles what the move adds
        simp only [LogManager.move, initAccepted_append, initExhausted_append,
          hmoved.initAccepted, hmoved.initExhausted, haccepted, hexhausted, false_or,
          h.carries i f hi, hf, true_and]
        obtain ⟨hgo, hseen | hseen⟩ | ⟨hreturned, hseen | hseen⟩ := hmoved.cases
        · exact .inl ⟨hgo, by simp [hseen]⟩
        · exact .inl ⟨hgo, by simp [hseen]⟩
        · exact .inr ⟨hreturned, by simp [hseen]⟩
        · exact .inr ⟨hreturned, by simp [hseen]⟩

/-- A flush that has not returned moves. -/
theorem Inv.move (h : m.Inv) {i : Nat} {f : Flight} (hi : m.flights[i]? = some f)
    (hphase : f.phase = .ready ∨ f.phase = .waiting) {res : Flight × List Sent}
    (hmoved : f.Moved res) : (m.move i res.1 res.2).Inv where
  stage := by
    by_cases hf : f.includeInit = true
    · exact h.stage_carrier hi hf hphase hmoved
    · rw [Bool.not_eq_true] at hf
      have hplain := (h.carries i f hi).trans hf
      refine h.stage_plain hi hf res.1 (hmoved.includeInit.trans hf) ?_ ?_
      · rw [hmoved.initAccepted, hplain]
        simp
      · rw [hmoved.initExhausted, hplain]
        simp
  carries := forall_set hi h.carries (by rw [hmoved.request, hmoved.includeInit, h.carries i f hi])
  once := hmoved.countedOnce h.once fun hcarries =>
    (h.underWay hi ((h.carries i f hi).symm.trans hcarries) hphase).1

/-- A flush that is back from `send` ends. -/
theorem Inv.finish (h : m.Inv) {i : Nat} {f : Flight} (hi : m.flights[i]? = some f)
    {result : Except Unit Unit} (hreturned : f.phase = .returned result) :
    ({ m.move i { f with phase := .finished } [] with
      initState := m.returnFrom f result } : LogManager).Inv where
  stage := by
    by_cases hf : f.includeInit = true
    · cases h.stage with
      | pending _ hnone => exact absurd hf (by simp [hnone i f hi])
      | sent _ hdone => exact absurd ((hdone i f hi hf).symm.trans hreturned) (by simp)
      | sending k c _ hk _ honly hstage =>
          obtain rfl := honly i f hi hf
          obtain rfl := Option.some.inj (hi.symm.trans hk)
          obtain ⟨hgo, _⟩ | ⟨hok, hsettled⟩ := hstage
          · rw [hreturned] at hgo
            simp at hgo
          · -- `send` has no other result than `Ok`
            obtain rfl : result = .ok () := Phase.returned.inj (hreturned.symm.trans hok)
            refine .sent ?_ (fun j g hg hginit => ?_) ?_
            · simp only [returnFrom, hf, if_true, InitState.complete]
            · rw [LogManager.move, getElem?_set_some hi] at hg
              split at hg
              · cases hg
                rfl
              · next hij => exact absurd (honly j g hg hginit).symm hij
            · simpa only [LogManager.move, List.append_nil] using hsettled
    · rw [Bool.not_eq_true] at hf
      have hkept : m.returnFrom f result = m.initState := by
        simp only [returnFrom, hf, Bool.false_eq_true, if_false]
      rw [hkept]
      exact h.stage_plain hi hf { f with phase := .finished } hf not_initAccepted_nil
        not_initExhausted_nil
  carries := forall_set hi h.carries (h.carries i f hi)
  once := by
    simpa only [LogManager.move, List.append_nil] using h.once

/-- **Step.** -/
theorem Inv.step (h : m.Inv) (e : LogEvent) : (m.step e).Inv := by
  cases e with
  | flushAll logs current previous lastUpdate memory destinations =>
      have hcarries := carriesInit_flushAllRequest m.sdk m.initLabels m.initState.claim.1 logs
        current previous lastUpdate memory
      simp only [LogManager.step, hasLogs_flushAllRequest, if_true]
      -- only a flush that finds the telemetry pending carries it
      cases hinit : m.initState with
      | pending =>
          rw [hinit] at hcarries
          exact h.addCarrier hinit hcarries rfl rfl
      | sending =>
          rw [hinit] at hcarries
          simp only [InitState.claim]
          rw [← hinit]
          exact h.addPlain hcarries rfl
      | sent =>
          rw [hinit] at hcarries
          simp only [InitState.claim]
          rw [← hinit]
          exact h.addPlain hcarries rfl
  | flushAssign flagAssigned destinations =>
      rw [LogManager.step]
      split
      · exact h.addPlain rfl rfl
      · exact h
  | post i =>
      rw [LogManager.step]
      split
      · next f hi =>
          split
          · next hphase => exact h.move hi (.inl hphase) f.moved_post
          · exact h
      · exact h
  | answer i a =>
      rw [LogManager.step]
      split
      · next f hi =>
          split
          · next hphase => exact h.move hi (.inr hphase) (f.moved_answer a)
          · exact h
      · exact h
  | finish i =>
      rw [LogManager.step]
      split
      · next f hi =>
          split
          · next result hphase => exact h.finish hi hphase
          · exact h
      · exact h

theorem Inv.run (h : m.Inv) (es : List LogEvent) : (m.run es).Inv := by
  induction es generalizing m with
  | nil => exact h
  | cons e es ih => exact ih (h.step e)

end LogManager

/-! ### What became of the telemetry -/

namespace LogManager

variable {m : LogManager}

/-- A step gives the telemetry up exactly when every destination has failed. -/
theorem Inv.step_exhausted (h : m.Inv) (e : LogEvent) :
    InitExhausted (m.step e).history ↔ InitExhausted m.history ∨ m.LosesInit e := by
  -- only an answer can use up the last attempt
  have hother : (∀ i a, e ≠ .answer i a) → ¬ m.LosesInit e := by
    rintro hne ⟨i, a, f, rfl, _⟩
    exact hne i a rfl
  cases e with
  | flushAll logs current previous lastUpdate memory destinations =>
      rw [or_iff_left (hother fun i a h => by cases h)]
      simp only [LogManager.step, hasLogs_flushAllRequest, if_true]
  | flushAssign flagAssigned destinations =>
      rw [or_iff_left (hother fun i a h => by cases h), LogManager.step]
      split <;> rfl
  | post i =>
      rw [or_iff_left (hother fun i a h => by cases h), LogManager.step]
      split
      · split
        · simp [LogManager.move, initExhausted_append, initExhausted_singleton]
        · rfl
      · rfl
  | finish i =>
      rw [or_iff_left (hother fun i a h => by cases h), LogManager.step]
      split
      · split
        · simp [LogManager.move]
        · rfl
      · rfl
  | answer i a =>
      have hloses : m.LosesInit (.answer i a) ↔ ∃ f, m.flights[i]? = some f ∧
          f.phase = .waiting ∧ f.includeInit = true ∧ f.lastFailure a := by
        simp [LosesInit]
      rw [hloses, LogManager.step]
      split
      · next f hi =>
          simp only [hi, Option.some.injEq, exists_eq_left']
          split
          · next hphase =>
              simp only [LogManager.move, initExhausted_append, (f.moved_answer a).initExhausted,
                h.carries i f hi, f.answer_exhausted, hphase, true_and]
          · next hphase =>
              have hne : f.phase ≠ .waiting := hphase
              simp [hne]
      · next hi => simp [hi]

theorem Inv.run_exhausted (h : m.Inv) (es : List LogEvent) :
    InitExhausted (m.run es).history ↔ InitExhausted m.history ∨ ¬ m.KeepsInit es := by
  induction es generalizing m with
  | nil => simp [LogManager.run, KeepsInit]
  | cons e es ih =>
      have htail : InitExhausted (m.run (e :: es)).history ↔
          InitExhausted (m.step e).history ∨ ¬ (m.step e).KeepsInit es := ih (h.step e)
      rw [htail, h.step_exhausted, KeepsInit, not_and_or, not_not, or_assoc]

end LogManager

/-! ### Main results -/

/-- **Once, and only when it was not lost.**  In every run the telemetry is counted once; when it is
marked as sent, a request with it was accepted exactly when no step lost it. -/
theorem init_telemetry_once (sdk : Sdk) (initLabels : Labels) (es : List LogEvent) :
    CountedOnce ((LogManager.new sdk initLabels).run es).history ∧
      (((LogManager.new sdk initLabels).run es).initState = .sent →
        (InitAccepted ((LogManager.new sdk initLabels).run es).history ↔
          (LogManager.new sdk initLabels).KeepsInit es)) := by
  have hnew := LogManager.inv_new sdk initLabels
  have hinv := hnew.run es
  refine ⟨hinv.once, fun hsent => ?_⟩
  have hsettled : InitAccepted ((LogManager.new sdk initLabels).run es).history ↔
      ¬ InitExhausted ((LogManager.new sdk initLabels).run es).history := by
    cases hinv.stage with
    | pending hinit => exact absurd (hsent.symm.trans hinit) (by decide)
    | sending _ _ hinit => exact absurd (hsent.symm.trans hinit) (by decide)
    | sent _ _ hsettled => exact hsettled
  have hlost : ¬ InitExhausted (LogManager.new sdk initLabels).history := not_initExhausted_nil
  rw [hsettled, hnew.run_exhausted, or_iff_right hlost, not_not]

/-- Three times 503 from the only destination, and the telemetry is marked as sent. -/
theorem init_lost_and_marked :
    ∃ (sdk : Sdk) (es : List LogEvent), ((LogManager.new sdk .empty).run es).initState = .sent ∧
      ¬ InitAccepted ((LogManager.new sdk .empty).run es).history := by
  refine ⟨⟨none, "0.1.0"⟩, [.flushAll {} {} {} 0 0 [.edge], .post 0, .answer 0 (.status 503),
    .post 0, .answer 0 (.status 503), .post 0, .answer 0 (.status 503), .finish 0], rfl, ?_⟩
  exact not_initAccepted_of_any rfl

end ConfidenceResolver
