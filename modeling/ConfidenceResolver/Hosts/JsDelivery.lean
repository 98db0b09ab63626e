import ConfidenceResolver.Hosts.DeliveryCounters

/-!
# Hosts — the delivery counters of the JS provider

`deliverFlagLogs` of `ConfidenceServerProviderLocal`.  Deliveries are not serialised: each drains
the counters onto its request, tries the destinations in order, and counts its outcome.  A step of
the model is what runs from one `await` to the next.

* `JsProvider.step`.  `JsProvider.Conserved`: the counters, and the provider-init telemetry.
* `JsProvider.Keeps`: the counters fit their fields when they are drained, and no delivery with the
  provider-init telemetry throws after a destination has answered.
* `js_counters_conserved`: in every run whose steps are such.
-/

namespace ConfidenceResolver

open Ledger (Has forall_set forall_concat)

/-! ### The model -/

/-- Where a delivery is: waiting for the answer of a destination, with those behind it; waiting for
the text of an answer that is not OK; back from `sendFlagLogs`, or thrown out of it; done. -/
inductive JsPhase where
  | fetching (rest : List Int32)
  | reading (rest : List Int32)
  | returned (result : Except Unit Bool)
  | finished

/-- A call of `deliverFlagLogs`.  For stating what follows: whether a destination has answered. -/
structure JsDelivery where
  request : WriteFlagLogsRequest
  includeInit : Bool
  answered : Bool
  phase : JsPhase

/-- The destination has returned `false`, or thrown; the next one is tried, if there is one. -/
def JsPhase.next (result : Except Unit Bool) : List Int32 → JsPhase
  | [] => .returned result
  | _ :: rest => .fetching rest

/-- The provider.  For stating what follows: the requests that were accepted, all that was recorded,
and what became of the provider-init telemetry. -/
structure JsProvider where
  sdk : Sdk
  initLabels : Labels
  counters : Counters
  initTelemetryState : InitState
  deliveries : List JsDelivery
  accepted : List WriteFlagLogsRequest
  recorded : Counters
  history : List InitMark

inductive JsEvent where
  /-- `deliverFlagLogs` is called, with the destinations of that time. -/
  | deliver (logs : GuestLogs) (allowInit : Bool) (destinations : List Int32)
  /-- A destination answers. -/
  | respond (i : Nat) (ok : Bool)
  /-- The text of an answer that is not OK is read, or cannot be read. -/
  | readText (i : Nat) (ok : Bool)
  /-- The request to a destination fails, or is aborted. -/
  | fail (i : Nat)
  /-- `deliverFlagLogs` goes on after `sendFlagLogs`. -/
  | settle (i : Nat)
  /-- `sendEvents` is not answered with OK, or throws. -/
  | eventsFailed
  /-- `sendEvents` has sent `count` events and has read the answer, with its errors. -/
  | eventsSent (count errors : Nat)

namespace JsProvider

def new (sdk : Sdk) (initLabels : Labels) : JsProvider :=
  ⟨sdk, initLabels, 0, .pending, [], [], 0, []⟩

/-- The init telemetry on a request. -/
def withInit (p : JsProvider) (request : WriteFlagLogsRequest) : WriteFlagLogsRequest :=
  let td := telemetryOf request
  { request with
    telemetryData := some
      { td with
        sdk := some p.sdk
        providerInitRate := td.providerInitRate ++ [⟨p.initLabels, 1⟩] } }

/-- The counters that are written can be encoded. -/
def FitsFields (c : Counters) : Prop :=
  (c.hasFlush → InRange (c .flushSucceeded) ∧ InRange (c .flushFailed)) ∧
    (c.hasEvents → InRange (c .eventsPublished) ∧ InRange (c .eventBatchesSucceeded) ∧
      InRange (c .eventBatchesFailed) ∧ InRange (c .eventsRejected))

instance (c : Counters) : Decidable (FitsFields c) := inferInstanceAs (Decidable (_ ∧ _))

/-- `enrichTelemetry`: the counters after it, and the request; the encoder throws for a value that
does not fit. -/
def enrichTelemetry (p : JsProvider) (request : WriteFlagLogsRequest) (includeInit : Bool) :
    Counters × Except Unit WriteFlagLogsRequest :=
  let c := p.counters
  if !includeInit && !c.hasFlush && !c.hasEvents then (c, .ok request)
  else
    let request := if includeInit then p.withInit request else request
    let flush := if c.hasFlush then some c.flushTelemetry else none
    let events := if c.hasEvents then some c.eventsTelemetry else none
    (0, if FitsFields c then .ok (stamp flush events request) else .error ())

/-- The destinations behind the first one, Spotify Edge if there is none. -/
def destinationsBehind (destinations : List Int32) : List Int32 :=
  (if destinations.length > 0 then destinations else [1]).tail

/-- Put `f` in the place of the delivery with number `i`. -/
def move (p : JsProvider) (i : Nat) (f : JsDelivery) : JsProvider :=
  { p with deliveries := p.deliveries.set i f }

/-- The state behind `sendFlagLogs`. -/
def settled (p : JsProvider) (f : JsDelivery) (state : InitState) : InitState :=
  if f.includeInit then state else p.initTelemetryState

def step (p : JsProvider) : JsEvent → JsProvider
  | .deliver logs allowInit destinations =>
      let includeInit := allowInit && p.initTelemetryState = .pending
      let state := if includeInit then .sending else p.initTelemetryState
      match p.enrichTelemetry logs.request includeInit with
      | (counters, .ok request) =>
          { p with
            counters := counters
            initTelemetryState := state
            deliveries := p.deliveries ++
              [⟨request, includeInit, false, .fetching (destinationsBehind destinations)⟩]
            history := p.history ++ if includeInit then [.carried] else [] }
      | (counters, .error _) => { p with counters := counters, initTelemetryState := state }
  | .respond i ok =>
      match p.deliveries[i]? with
      | some ⟨request, includeInit, _, .fetching rest⟩ =>
          let phase := if ok then .returned (.ok true) else .reading rest
          { p.move i ⟨request, includeInit, true, phase⟩ with
            accepted := p.accepted ++ if ok then [request] else []
            history := p.history ++ if includeInit then [.received] else [] }
      | _ => p
  | .readText i ok =>
      match p.deliveries[i]? with
      | some ⟨request, includeInit, answered, .reading rest⟩ =>
          p.move i ⟨request, includeInit, answered, .next (if ok then .ok false else .error ()) rest⟩
      | _ => p
  | .fail i =>
      match p.deliveries[i]? with
      | some ⟨request, includeInit, answered, .fetching rest⟩ =>
          p.move i ⟨request, includeInit, answered, .next (.error ()) rest⟩
      | _ => p
  | .settle i =>
      match p.deliveries[i]? with
      | some ⟨request, includeInit, answered, .returned result⟩ =>
          let f : JsDelivery := ⟨request, includeInit, answered, .finished⟩
          match result with
          | .ok true =>
              { p.move i f with
                counters := p.counters + .of .flushSucceeded 1
                recorded := p.recorded + .of .flushSucceeded 1
                initTelemetryState := p.settled f .sent }
          | .ok false =>
              { p.move i f with
                counters := p.counters + .of .flushFailed 1 + carried request
                recorded := p.recorded + .of .flushFailed 1
                initTelemetryState := p.settled f .sent }
          | .error _ =>
              { p.move i f with
                counters := p.counters + .of .flushFailed 1 + carried request
                recorded := p.recorded + .of .flushFailed 1
                initTelemetryState := p.settled f .pending }
      | _ => p
  | .eventsFailed =>
      { p with
        counters := p.counters + .of .eventBatchesFailed 1
        recorded := p.recorded + .of .eventBatchesFailed 1 }
  | .eventsSent count errors =>
      let outcome : Counters := .of .eventBatchesSucceeded 1 +
        .of .eventsPublished (count - errors) + .of .eventsRejected errors
      { p with counters := p.counters + outcome, recorded := p.recorded + outcome }

def run (p : JsProvider) (es : List JsEvent) : JsProvider := es.foldl step p

end JsProvider

/-! ### What is claimed -/

/-- What is in flight with a delivery. -/
def JsDelivery.amount (f : JsDelivery) : Counters :=
  match f.phase with
  | .fetching _ | .reading _ | .returned (.ok false) | .returned (.error _) => carried f.request
  | .returned (.ok true) | .finished => 0

/-- The delivery has the provider-init telemetry. -/
def JsDelivery.Carries (f : JsDelivery) : Prop := f.includeInit = true ∧ f.phase ≠ .finished

namespace JsProvider

/-- The six counters as a ledger. -/
def ledger (p : JsProvider) : Ledger JsDelivery Counters where
  held := p.counters
  flights := p.deliveries
  accepted := (p.accepted.map carried).sum
  recorded := p.recorded

/-- Every outcome is counted once; the provider-init telemetry is carried by one request at a time,
and by none once such a request was answered. -/
structure Conserved (p : JsProvider) : Prop where
  balanced : p.ledger.Balanced JsDelivery.amount
  one : ∀ (i j : Nat) f g, p.deliveries[i]? = some f → p.deliveries[j]? = some g →
    f.Carries → g.Carries → i = j
  once : NotAgain p.history

/-- The counters fit their fields when a delivery drains them, and a delivery with the provider-init
telemetry that throws was not answered. -/
def KeepsAt (p : JsProvider) : JsEvent → Prop
  | .deliver _ _ _ => ∀ k, InRange (p.counters k)
  | .settle i => ∀ f ∈ p.deliveries[i]?, f.phase = .returned (.error ()) → f.includeInit = true →
      f.answered = false
  | .respond _ _ | .readText _ _ | .fail _ | .eventsFailed | .eventsSent _ _ => True

/-- In every step of a run. -/
def Keeps (p : JsProvider) : List JsEvent → Prop
  | [] => True
  | e :: es => p.KeepsAt e ∧ (p.step e).Keeps es

end JsProvider

/-! ### The invariant -/

/-- A destination has answered a delivery that is past its answer. -/
def JsDelivery.Wf (f : JsDelivery) : Prop :=
  match f.phase with
  | .reading _ | .returned (.ok _) => f.answered = true
  | _ => True

namespace JsProvider

structure Inv (p : JsProvider) : Prop where
  balanced : p.ledger.Balanced JsDelivery.amount
  wf : ∀ (i : Nat) f, p.deliveries[i]? = some f → f.Wf
  stage : InitStage p.initTelemetryState (Has p.deliveries JsDelivery.Carries)
    (Has p.deliveries fun f => f.answered = true) p.history

theorem inv_new (sdk : Sdk) (initLabels : Labels) : (new sdk initLabels).Inv where
  balanced := rfl
  wf i f hf := by cases hf
  stage := .start fun i hi => by
    obtain ⟨f, hf, _⟩ := hi
    cases hf

variable {p : JsProvider}

theorem unstamped_withInit {request : WriteFlagLogsRequest} (h : Unstamped request) :
    Unstamped (p.withInit request) := by
  intro td htd
  cases htd
  exact telemetryOf_unstamped h

/-- Counters that fit their fields go onto the request. -/
theorem enrichTelemetry_carried (hrange : ∀ k, InRange (p.counters k))
    {request : WriteFlagLogsRequest} (h : Unstamped request) (includeInit : Bool) :
    ∃ counters request', p.enrichTelemetry request includeInit = (counters, .ok request') ∧
      counters + carried request' = p.counters := by
  rw [enrichTelemetry]
  split
  · exact ⟨p.counters, request, rfl, by rw [carried_unstamped h, add_zero]⟩
  · have hfits : FitsFields p.counters :=
      ⟨fun _ => ⟨hrange _, hrange _⟩, fun _ => ⟨hrange _, hrange _, hrange _, hrange _⟩⟩
    have hunstamped : Unstamped (if includeInit then p.withInit request else request) := by
      split
      · exact unstamped_withInit h
      · exact h
    simp only [if_pos hfits]
    exact ⟨0, _, rfl, by rw [carried_stamp hrange hunstamped, zero_add]⟩

/-- A delivery goes on: what it carries moves to the counters or is accepted, and something may be
recorded. -/
theorem Inv.exchange (h : p.Inv) {i : Nat} {f : JsDelivery} (hi : p.deliveries[i]? = some f)
    (f' : JsDelivery) (counters new : Counters) (accepted : List WriteFlagLogsRequest)
    (hmoved : counters + f'.amount + (accepted.map carried).sum =
      p.counters + f.amount + (p.accepted.map carried).sum + new)
    (hwf : f'.Wf) {state : InitState} {history : List InitMark}
    (hstage : InitStage state (Has (p.deliveries.set i f') JsDelivery.Carries)
      (Has (p.deliveries.set i f') fun f => f.answered = true) history) :
    (⟨p.sdk, p.initLabels, counters, state, p.deliveries.set i f', accepted, p.recorded + new,
      history⟩ : JsProvider).Inv where
  balanced := h.balanced.exchange hi hmoved
  wf := forall_set hi h.wf hwf
  stage := hstage

/-- A delivery starts. -/
theorem Inv.deliver (h : p.Inv) (logs : GuestLogs) (allowInit : Bool) (destinations : List Int32)
    (hrange : ∀ k, InRange (p.counters k)) :
    (p.step (.deliver logs allowInit destinations)).Inv := by
  obtain ⟨counters, request, hrequest, hsplit⟩ := enrichTelemetry_carried hrange logs.unstamped
    (allowInit && p.initTelemetryState = .pending)
  simp only [step, hrequest]
  refine ⟨h.balanced.launch hsplit, forall_concat h.wf trivial, ?_⟩
  · cases hinit : (allowInit && decide (p.initTelemetryState = .pending)) with
    | true =>
        rw [Bool.and_eq_true, decide_eq_true_eq] at hinit
        have hpending := h.stage
        rw [hinit.2] at hpending
        exact hpending.claim_concat Bool.false_ne_true
    | false =>
        simp only [Bool.false_eq_true, if_false, List.append_nil]
        exact h.stage.keep_concat fun hcarries => Bool.false_ne_true hcarries.1

/-- A destination answers. -/
theorem Inv.respond (h : p.Inv) {i : Nat} {request : WriteFlagLogsRequest}
    {includeInit answered : Bool} {rest : List Int32}
    (hi : p.deliveries[i]? = some ⟨request, includeInit, answered, .fetching rest⟩) (ok : Bool) :
    (p.step (.respond i ok)).Inv := by
  simp only [step, hi]
  have hstage : InitStage p.initTelemetryState
      (Has (p.deliveries.set i ⟨request, includeInit, true,
        if ok then .returned (.ok true) else .reading rest⟩) JsDelivery.Carries)
      (Has (p.deliveries.set i ⟨request, includeInit, true,
        if ok then .returned (.ok true) else .reading rest⟩) fun f => f.answered = true)
      (p.history ++ if includeInit then [.received] else []) := by
    cases includeInit with
    | false =>
        rw [if_neg Bool.false_ne_true, List.append_nil]
        exact h.stage.keep_set hi (fun hcarries => absurd hcarries.1 Bool.false_ne_true)
          fun hcarries => absurd hcarries.1 Bool.false_ne_true
    | true => exact h.stage.receive_set hi ⟨rfl, by simp⟩ rfl
  have hinv := h.exchange hi
    ⟨request, includeInit, true, if ok then .returned (.ok true) else .reading rest⟩
    p.counters 0 (p.accepted ++ if ok then [request] else [])
    (by cases ok <;> simp [JsDelivery.amount]; abel) (by cases ok <;> exact rfl) hstage
  rwa [add_zero] at hinv

/-- A destination has failed, or has answered `false`; the request is still in flight. -/
theorem Inv.next (h : p.Inv) {i : Nat} {f : JsDelivery} (hi : p.deliveries[i]? = some f)
    (hamount : f.amount = carried f.request) (hphase : f.phase ≠ .finished)
    {result : Except Unit Bool} (hresult : result ≠ .ok true)
    (hanswered : ∀ b, result = .ok b → f.answered = true) (rest : List Int32) :
    (p.move i ⟨f.request, f.includeInit, f.answered, .next result rest⟩).Inv := by
  have hsame : JsDelivery.amount ⟨f.request, f.includeInit, f.answered, .next result rest⟩ =
      f.amount := by
    rw [hamount]
    cases rest with
    | cons dest rest => rfl
    | nil =>
        cases result with
        | error _ => rfl
        | ok b =>
            cases b with
            | false => rfl
            | true => exact absurd rfl hresult
  have hwf : JsDelivery.Wf ⟨f.request, f.includeInit, f.answered, .next result rest⟩ := by
    cases rest with
    | cons dest rest => trivial
    | nil =>
        cases result with
        | error _ => trivial
        | ok b => exact hanswered b rfl
  have hinv := h.exchange hi _ p.counters 0 p.accepted (by rw [hsame, add_zero]) hwf
    (h.stage.keep_set hi (fun hcarries => ⟨hcarries.1, hphase⟩) fun _ => .rfl)
  rwa [add_zero] at hinv

/-- A delivery is done: its outcome is recorded, and what it carries is held again. -/
theorem Inv.settled (h : p.Inv) {i : Nat} {f : JsDelivery} (hi : p.deliveries[i]? = some f)
    (hphase : f.phase ≠ .finished) (success : Bool)
    (hanswered : f.includeInit = true → (f.answered = true ↔ success = true))
    {counters new : Counters} (hcounters : counters = p.counters + new + f.amount) :
    ({ p.move i ⟨f.request, f.includeInit, f.answered, .finished⟩ with
      counters := counters
      recorded := p.recorded + new
      initTelemetryState := p.settled ⟨f.request, f.includeInit, f.answered, .finished⟩
        (.complete success) } : JsProvider).Inv := by
  have hdone : ¬ JsDelivery.Carries ⟨f.request, f.includeInit, f.answered, .finished⟩ :=
    fun hcarries => hcarries.2 rfl
  refine h.exchange hi ⟨f.request, f.includeInit, f.answered, .finished⟩ counters new p.accepted ?_
    trivial ?_
  · rw [hcounters]
    simp only [JsDelivery.amount]
    abel
  · simp only [JsProvider.settled]
    split
    · next hinit => exact h.stage.release_set hi ⟨hinit, hphase⟩ hdone (hanswered hinit)
    · exact h.stage.keep_set hi (fun hcarries => absurd hcarries hdone) fun _ => .rfl

/-- `deliverFlagLogs` counts its outcome. -/
theorem Inv.settle (h : p.Inv) {i : Nat} (hkeeps : p.KeepsAt (.settle i)) :
    (p.step (.settle i)).Inv := by
  rw [step]
  split
  · next request includeInit answered result hi =>
      have hphase : JsPhase.returned result ≠ .finished := by simp
      cases result with
      | ok delivered =>
          have hanswered : answered = true ↔ true = true := iff_of_true (h.wf i _ hi) rfl
          cases delivered with
          | true => exact h.settled hi hphase true (fun _ => hanswered) (add_zero _).symm
          | false => exact h.settled hi hphase true (fun _ => hanswered) rfl
      | error e =>
          refine h.settled hi hphase false (fun hinit => ?_) rfl
          have hopen : answered = false := hkeeps _ hi rfl hinit
          rw [hopen]
  · exact h

/-- **Step.** -/
theorem Inv.step (h : p.Inv) {e : JsEvent} (hkeeps : p.KeepsAt e) : (p.step e).Inv := by
  cases e with
  | deliver logs allowInit destinations => exact h.deliver logs allowInit destinations hkeeps
  | respond i ok =>
      by_cases hi : ∃ request includeInit answered rest,
          p.deliveries[i]? = some ⟨request, includeInit, answered, .fetching rest⟩
      · obtain ⟨request, includeInit, answered, rest, hi⟩ := hi
        exact h.respond hi ok
      · rw [JsProvider.step]
        split
        · next hi' => exact absurd ⟨_, _, _, _, hi'⟩ hi
        · exact h
  | readText i ok =>
      rw [JsProvider.step]
      split
      · next request includeInit answered rest hi =>
          have hanswered : answered = true := h.wf i _ hi
          exact h.next hi rfl (by simp) (by cases ok <;> simp) (fun _ _ => hanswered) rest
      · exact h
  | fail i =>
      rw [JsProvider.step]
      split
      · next hi => exact h.next hi rfl (by simp) (by simp) (fun _ hok => by cases hok) _
      · exact h
  | settle i => exact h.settle hkeeps
  | eventsFailed => exact ⟨h.balanced.record _, h.wf, h.stage⟩
  | eventsSent count errors => exact ⟨h.balanced.record _, h.wf, h.stage⟩

theorem Inv.run {es : List JsEvent} :
    ∀ {p : JsProvider}, p.Inv → p.Keeps es → (p.run es).Inv := by
  induction es with
  | nil => exact fun h _ => h
  | cons e es ih => exact fun h hkeeps => ih (h.step hkeeps.1) hkeeps.2

end JsProvider

/-! ### Main results -/

/-- **The counters are conserved and init is not doubled**, in every run in which the counters fit
and no delivery with the provider-init telemetry throws after an answer. -/
theorem js_counters_conserved (sdk : Sdk) (initLabels : Labels) {es : List JsEvent}
    (hkeeps : (JsProvider.new sdk initLabels).Keeps es) :
    ((JsProvider.new sdk initLabels).run es).Conserved :=
  have hinv := (JsProvider.inv_new sdk initLabels).run hkeeps
  ⟨hinv.balanced, fun i j f g hf hg hcf hcg => hinv.stage.one i j ⟨f, hf, hcf⟩ ⟨g, hg, hcg⟩,
    hinv.stage.once⟩

namespace Sample

def jsProvider : JsProvider := .new ⟨none, "0.1.0"⟩ .empty

/-- A delivery with the telemetry: the first destination answers 500, the second cannot be reached.
Then another one. -/
def answeredThenFailed : List JsEvent :=
  [.deliver telemetryLogs true [1, 2], .respond 0 false, .readText 0 true, .fail 0, .settle 0,
    .deliver telemetryLogs true [1, 2]]

/-- A delivery with the telemetry cannot be sent; another one is accepted by the second
destination. -/
def failedThenAccepted : List JsEvent :=
  [.eventsSent 50 3, .deliver telemetryLogs true [1, 2], .fail 0, .fail 0, .settle 0,
    .deliver telemetryLogs true [1, 2], .respond 1 false, .readText 1 true, .respond 1 true,
    .settle 1]

end Sample

theorem js_counters_conserved_sample :
    ((Sample.jsProvider.run Sample.failedThenAccepted).accepted.map fun r =>
        carried r .eventsPublished) = [47] ∧
      (Sample.jsProvider.run Sample.failedThenAccepted).Conserved := by
  refine ⟨by decide +kernel, js_counters_conserved _ _ ?_⟩
  have hfirst : ∀ k, InRange ((Sample.jsProvider.step (.eventsSent 50 3)).counters k) := by
    decide +kernel
  have hsecond : ∀ k, InRange
      ((Sample.jsProvider.run (Sample.failedThenAccepted.take 5)).counters k) := by
    decide +kernel
  refine ⟨trivial, hfirst, trivial, trivial, ?_, hsecond, trivial, trivial, trivial, ?_, trivial⟩
  · intro f hf _ _
    cases hf
    rfl
  · intro f hf hphase
    cases hf
    cases hphase

/-- **The telemetry is carried again** after a destination has answered a request with it. -/
theorem js_init_carried_again :
    (Sample.jsProvider.run Sample.answeredThenFailed).history =
        [.carried, .received, .carried] ∧
      ¬ (Sample.jsProvider.run Sample.answeredThenFailed).Conserved := by
  have hhistory : (Sample.jsProvider.run Sample.answeredThenFailed).history =
      [.carried, .received, .carried] := by decide +kernel
  refine ⟨hhistory, fun h => ?_⟩
  have honce := h.once
  rw [hhistory] at honce
  exact absurd honce (by simp [NotAgain])

end ConfidenceResolver
