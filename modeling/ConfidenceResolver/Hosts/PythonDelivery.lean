import ConfidenceResolver.Hosts.DeliveryCounters

/-!
# Hosts — the delivery counters of the Python provider

`_write_logs` of `ConfidenceProvider` and the completion of its deliveries, on any number of
threads.  The counters and the state of the provider-init telemetry each have a lock: a step of the
model is a section under one of them, the submission of a request, or its delivery.

* `PyProvider.step`.  `PyProvider.Conserved`: the counters, and the provider-init telemetry.
* `PyProvider.EventsFit`: the event counters fit their fields when they are drained.
* `python_counters_conserved`: in every run in which they do.
-/

namespace ConfidenceResolver

open Ledger (Has forall_set forall_concat)

/-! ### The logger -/

/-- `request.telemetry_data.ByteSize() > 0`: a field is set. -/
def hasBytes (td : TelemetryData) : Bool :=
  td.sdk.isSome || td.resolveLatency.isSome || !td.resolveRate.isEmpty || td.stateAge.isSome ||
    td.memoryBytes != 0 || td.resolverVersion != "" || !td.providerInitRate.isEmpty ||
    td.applyDedup.isSome || td.flush.isSome || td.events.isSome

/-- `_has_payload`. -/
def hasPayload (request : WriteFlagLogsRequest) : Bool :=
  if !request.flagAssigned.isEmpty || !request.clientResolveInfo.isEmpty ||
      !request.flagResolveInfo.isEmpty then true
  else request.telemetryData.any hasBytes

/-! ### The model -/

/-- Where a call of `_write_logs` is. -/
inductive PyPhase where
  /-- before the section that claims the provider-init telemetry -/
  | called
  /-- before the section that looks at the counters -/
  | claimed
  /-- before the section that drains them, with what it has seen -/
  | checked (hasFlush hasEvents : Bool)
  /-- before the submission -/
  | drained
  /-- the executor has the request -/
  | submitted
  /-- the outcome is known, and is to be counted -/
  | completed (delivered : Bool)
  /-- the outcome is counted, and the claim is to be settled -/
  | counted (delivered : Bool)
  | done

/-- A call of `_write_logs`: the chunk, whether it is rewritten, and the request that is written.
For stating what follows: whether the request was delivered. -/
structure PyWrite where
  request : WriteFlagLogsRequest
  rewritten : Bool
  includeInit : Bool
  delivered : Bool
  phase : PyPhase

/-- The provider.  For stating what follows: the requests that were delivered, all that was
recorded, and what became of the provider-init telemetry. -/
structure PyProvider where
  sdk : Sdk
  initLabels : Labels
  counters : Counters
  initTelemetryState : InitState
  writes : List PyWrite
  delivered : List WriteFlagLogsRequest
  recorded : Counters
  history : List InitMark

/-- What the logger's `write` does with a request that has a payload. -/
inductive Submission where
  | accepted
  | raised

inductive PyEvent where
  /-- `_write_logs` is called with a chunk. -/
  | writeLogs (logs : GuestLogs)
  /-- The section that claims the provider-init telemetry. -/
  | claim (i : Nat)
  /-- The section that looks at the counters. -/
  | check (i : Nat)
  /-- The request is rewritten, with the section that drains the counters. -/
  | rewrite (i : Nat)
  /-- `write` of the logger. -/
  | submit (i : Nat) (outcome : Submission)
  /-- The delivery ends: delivered, or not, or with an exception. -/
  | complete (i : Nat) (delivered : Bool)
  /-- The section that counts the outcome. -/
  | count (i : Nat)
  /-- The section that settles the claim. -/
  | settle (i : Nat)
  /-- `_send_events` has failed. -/
  | eventsFailed
  /-- `_send_events` has sent `count` events, and the answer has `rejected` errors. -/
  | eventsSent (count rejected : Nat)

namespace PyProvider

def new (sdk : Sdk) (initLabels : Labels) : PyProvider :=
  ⟨sdk, initLabels, 0, .pending, [], [], 0, []⟩

/-- The init telemetry on a request. -/
def withInit (p : PyProvider) (request : WriteFlagLogsRequest) : WriteFlagLogsRequest :=
  let td := telemetryOf request
  { request with
    telemetryData := some
      { td with
        sdk := some p.sdk
        providerInitRate := td.providerInitRate ++ [⟨p.initLabels, 1⟩] } }

/-- The counters without those of the flushes. -/
def withoutFlush (c : Counters) : Counters :=
  Function.update (Function.update c .flushSucceeded 0) .flushFailed 0

/-- The counters without those of the event batches. -/
def withoutEvents (c : Counters) : Counters :=
  Function.update (Function.update (Function.update (Function.update c .eventsPublished 0)
    .eventBatchesSucceeded 0) .eventBatchesFailed 0) .eventsRejected 0

/-- The flush counters can be assigned to their fields. -/
def FlushFits (c : Counters) : Prop := InRange (c .flushSucceeded) ∧ InRange (c .flushFailed)

/-- The event counters can be assigned to their fields. -/
def EventsFit (c : Counters) : Prop :=
  InRange (c .eventsPublished) ∧ InRange (c .eventBatchesSucceeded) ∧
    InRange (c .eventBatchesFailed) ∧ InRange (c .eventsRejected)

instance (c : Counters) : Decidable (FlushFits c) := inferInstanceAs (Decidable (_ ∧ _))

instance (c : Counters) : Decidable (EventsFit c) := inferInstanceAs (Decidable (_ ∧ _))

/-- The section of `_write_logs` that drains the counters.  An assignment of a value that does not
fit its field raises, and the request is given up: the counters after it, and the request. -/
def drain (c : Counters) (hasFlush hasEvents : Bool) (request : WriteFlagLogsRequest) :
    Counters × Except Unit WriteFlagLogsRequest :=
  if hasFlush && !decide (FlushFits c) then (c, .error ())
  else
    let flush := if hasFlush then some c.flushTelemetry else none
    let events := if hasEvents then some c.eventsTelemetry else none
    let left := if hasFlush then withoutFlush c else c
    if hasEvents && !decide (EventsFit c) then (left, .error ())
    else
      (if hasEvents then withoutEvents left else left,
        .ok (if hasFlush || hasEvents then stamp flush events request else request))

/-- Put `f` in the place of the call with number `i`. -/
def move (p : PyProvider) (i : Nat) (f : PyWrite) : PyProvider := { p with writes := p.writes.set i f }

def step (p : PyProvider) : PyEvent → PyProvider
  | .writeLogs logs =>
      { p with writes := p.writes ++ [⟨logs.request, false, false, false, .called⟩] }
  | .claim i =>
      match p.writes[i]? with
      | some ⟨request, rewritten, _, delivered, .called⟩ =>
          let (includeInit, state) := p.initTelemetryState.claim
          { p.move i ⟨request, rewritten, includeInit, delivered, .claimed⟩ with
            initTelemetryState := state
            history := p.history ++ if includeInit then [.carried] else [] }
      | _ => p
  | .check i =>
      match p.writes[i]? with
      | some ⟨request, _, includeInit, delivered, .claimed⟩ =>
          let hasFlush := p.counters.hasFlush
          let hasEvents := p.counters.hasEvents
          let phase := if includeInit || hasFlush || hasEvents then
              .checked hasFlush hasEvents
            else .drained
          p.move i ⟨request, false, includeInit, delivered, phase⟩
      | _ => p
  | .rewrite i =>
      match p.writes[i]? with
      | some ⟨request, _, includeInit, delivered, .checked hasFlush hasEvents⟩ =>
          let request := if includeInit then p.withInit request else request
          match drain p.counters hasFlush hasEvents request with
          | (counters, .ok request) =>
              { p.move i ⟨request, true, includeInit, delivered, .drained⟩ with counters := counters }
          | (counters, .error _) =>
              { p.move i ⟨request, true, includeInit, delivered, .done⟩ with counters := counters }
      | _ => p
  | .submit i outcome =>
      match p.writes[i]? with
      | some ⟨request, rewritten, includeInit, delivered, .drained⟩ =>
          if hasPayload request then
            match outcome with
            | .accepted => p.move i ⟨request, rewritten, includeInit, delivered, .submitted⟩
            | .raised => p.move i ⟨request, rewritten, includeInit, delivered, .completed false⟩
          else p.move i ⟨request, rewritten, includeInit, delivered, .completed true⟩
      | _ => p
  | .complete i ok =>
      match p.writes[i]? with
      | some ⟨request, rewritten, includeInit, _, .submitted⟩ =>
          { p.move i ⟨request, rewritten, includeInit, ok, .completed ok⟩ with
            delivered := p.delivered ++ if ok then [request] else []
            history := p.history ++ if ok && includeInit then [.received] else [] }
      | _ => p
  | .count i =>
      match p.writes[i]? with
      | some ⟨request, rewritten, includeInit, delivered, .completed true⟩ =>
          { p.move i ⟨request, rewritten, includeInit, delivered, .counted true⟩ with
            counters := p.counters + .of .flushSucceeded 1
            recorded := p.recorded + .of .flushSucceeded 1 }
      | some ⟨request, rewritten, includeInit, delivered, .completed false⟩ =>
          { p.move i ⟨request, rewritten, includeInit, delivered, .counted false⟩ with
            counters := p.counters + .of .flushFailed 1 + if rewritten then carried request else 0
            recorded := p.recorded + .of .flushFailed 1 }
      | _ => p
  | .settle i =>
      match p.writes[i]? with
      | some ⟨request, rewritten, includeInit, delivered, .counted success⟩ =>
          { p.move i ⟨request, rewritten, includeInit, delivered, .done⟩ with
            initTelemetryState :=
              if includeInit then .complete success else p.initTelemetryState }
      | _ => p
  | .eventsFailed =>
      { p with
        counters := p.counters + .of .eventBatchesFailed 1
        recorded := p.recorded + .of .eventBatchesFailed 1 }
  | .eventsSent count rejected =>
      let outcome : Counters := .of .eventsPublished (count - rejected) +
        .of .eventBatchesSucceeded 1 + .of .eventsRejected rejected
      { p with counters := p.counters + outcome, recorded := p.recorded + outcome }

def run (p : PyProvider) (es : List PyEvent) : PyProvider := es.foldl step p

end PyProvider

/-! ### What is claimed -/

/-- What is in flight with a call. -/
def PyWrite.amount (f : PyWrite) : Counters :=
  match f.phase with
  | .called | .claimed | .checked _ _ | .drained | .submitted | .completed false => carried f.request
  | .completed true | .counted _ | .done => 0

/-- The call has the provider-init telemetry. -/
def PyWrite.Carries (f : PyWrite) : Prop := f.includeInit = true ∧ f.phase ≠ .done

namespace PyProvider

/-- The six counters as a ledger. -/
def ledger (p : PyProvider) : Ledger PyWrite Counters where
  held := p.counters
  flights := p.writes
  accepted := (p.delivered.map carried).sum
  recorded := p.recorded

/-- Every outcome is counted once; the provider-init telemetry is on one request at a time, is
marked as sent only if such a request was delivered, and is not carried again then. -/
structure Conserved (p : PyProvider) : Prop where
  balanced : p.ledger.Balanced PyWrite.amount
  one : ∀ (i j : Nat) f g, p.writes[i]? = some f → p.writes[j]? = some g →
    f.Carries → g.Carries → i = j
  sent : p.initTelemetryState = .sent → .received ∈ p.history
  once : NotAgain p.history

/-- Where flush and event counters are drained together, the event counters fit their fields. -/
def KeepsAt (p : PyProvider) : PyEvent → Prop
  | .rewrite i => ∀ f ∈ p.writes[i]?, f.phase = .checked true true → EventsFit p.counters
  | .writeLogs _ | .claim _ | .check _ | .submit _ _ | .complete _ _ | .count _ | .settle _
  | .eventsFailed | .eventsSent _ _ => True

/-- In every step of a run. -/
def Keeps (p : PyProvider) : List PyEvent → Prop
  | [] => True
  | e :: es => p.KeepsAt e ∧ (p.step e).Keeps es

end PyProvider

/-! ### Requests -/

/-- A request without a payload carries nothing. -/
theorem carried_of_no_payload {request : WriteFlagLogsRequest} (h : hasPayload request = false) :
    carried request = 0 := by
  refine carried_unstamped fun td htd => ?_
  rw [Option.mem_def] at htd
  rw [hasPayload] at h
  split at h
  · cases h
  · rw [htd, Option.any_some, hasBytes] at h
    simp only [Bool.or_eq_false_iff, Option.isSome_eq_false_iff, Option.isNone_iff_eq_none] at h
    exact ⟨h.1.2, h.2⟩

theorem hasPayload_of_sdk {request : WriteFlagLogsRequest} {td : TelemetryData}
    (htd : request.telemetryData = some td) (hsdk : td.sdk.isSome = true) :
    hasPayload request = true := by
  rw [hasPayload, htd]
  split
  · rfl
  · simp [hasBytes, hsdk]

namespace PyProvider

variable {p : PyProvider}

theorem unstamped_withInit {request : WriteFlagLogsRequest} (h : Unstamped request) :
    Unstamped (p.withInit request) := by
  intro td htd
  cases htd
  exact telemetryOf_unstamped h

/-- A drained request with the init telemetry has a payload. -/
theorem drain_payload {c counters : Counters} {hasFlush hasEvents : Bool}
    {request request' : WriteFlagLogsRequest}
    (h : drain c hasFlush hasEvents (p.withInit request) = (counters, .ok request')) :
    hasPayload request' = true := by
  rw [drain] at h
  split at h
  · cases h
  · dsimp only at h
    split at h
    · cases h
    · obtain ⟨_, hrequest⟩ := Prod.mk.inj h
      obtain rfl := Except.ok.inj hrequest
      split
      · exact hasPayload_of_sdk rfl rfl
      · exact hasPayload_of_sdk rfl rfl

/-- **Nothing is lost in the section that drains the counters**, unless it raises between the two
halves. -/
theorem drain_carried {c : Counters} {hasFlush hasEvents : Bool} {request : WriteFlagLogsRequest}
    (h : Unstamped request) (hfits : hasFlush = true → hasEvents = true → EventsFit c) :
    match drain c hasFlush hasEvents request with
    | (counters, .ok request') => counters + carried request' = c
    | (counters, .error _) => counters = c := by
  have hpart := fun flush events =>
    And.intro (flushOf_stamp h flush events) (eventsOf_stamp h flush events)
  cases hasFlush with
  | false =>
      cases hasEvents with
      | false => simp [drain, carried_unstamped h]
      | true =>
          by_cases hevents : EventsFit c
          · obtain ⟨hpublished, hsucceeded, hfailed, hrejected⟩ := hevents
            simp only [drain, EventsFit, hpublished, hsucceeded, hfailed, hrejected]
            funext k
            cases k <;> simp [carried, withoutEvents, Counters.eventsTelemetry, uint32_toNat, *]
          · simp [drain, hevents]
  | true =>
      by_cases hflush : FlushFits c
      · obtain ⟨hok, herr⟩ := hflush
        cases hasEvents with
        | false =>
            simp only [drain, FlushFits, hok, herr]
            funext k
            cases k <;> simp [carried, withoutFlush, Counters.flushTelemetry, uint32_toNat, *]
        | true =>
            obtain ⟨hpublished, hsucceeded, hfailed, hrejected⟩ := hfits rfl rfl
            simp only [drain, FlushFits, hok, herr, EventsFit, hpublished, hsucceeded, hfailed,
              hrejected]
            funext k
            cases k <;> simp [carried, withoutFlush, withoutEvents, Counters.flushTelemetry,
              Counters.eventsTelemetry, uint32_toNat, *]
      · simp [drain, hflush]

end PyProvider

/-! ### The invariant -/

/-- What holds of a call in its phase. -/
def PyWrite.Wf (f : PyWrite) : Prop :=
  match f.phase with
  | .called => Unstamped f.request ∧ f.includeInit = false ∧ f.delivered = false
  | .claimed | .checked _ _ => Unstamped f.request ∧ f.delivered = false
  | .drained => (f.rewritten = false → Unstamped f.request) ∧
      (f.includeInit = true → hasPayload f.request = true) ∧ f.delivered = false
  | .submitted => (f.rewritten = false → Unstamped f.request) ∧ f.delivered = false
  | .completed ok => (f.rewritten = false → Unstamped f.request) ∧
      (f.includeInit = true → f.delivered = ok)
  | .counted ok => f.includeInit = true → f.delivered = ok
  | .done => True

namespace PyProvider

structure Inv (p : PyProvider) : Prop where
  balanced : p.ledger.Balanced PyWrite.amount
  wf : ∀ (i : Nat) f, p.writes[i]? = some f → f.Wf
  stage : InitStage p.initTelemetryState (Has p.writes PyWrite.Carries)
    (Has p.writes fun f => f.delivered = true) p.history

theorem inv_new (sdk : Sdk) (initLabels : Labels) : (new sdk initLabels).Inv where
  balanced := rfl
  wf i f hf := by cases hf
  stage := .start fun i hi => by
    obtain ⟨f, hf, _⟩ := hi
    cases hf

variable {p : PyProvider}

/-- `_write_logs` is called. -/
theorem Inv.writeLogs (h : p.Inv) (logs : GuestLogs) : (p.step (.writeLogs logs)).Inv := by
  refine ⟨h.balanced.launch ?_, forall_concat h.wf ⟨logs.unstamped, rfl, rfl⟩,
    h.stage.keep_concat ?_⟩
  · have hnone : PyWrite.amount ⟨logs.request, false, false, false, .called⟩ = 0 :=
      carried_unstamped logs.unstamped
    rw [hnone]
    exact add_zero p.counters
  · exact fun hcarries => Bool.false_ne_true hcarries.1

/-- A call goes on: what it carries moves to the counters or is delivered, and something may be
recorded. -/
theorem Inv.exchange (h : p.Inv) {i : Nat} {f : PyWrite} (hi : p.writes[i]? = some f)
    (f' : PyWrite) (counters new : Counters) (delivered : List WriteFlagLogsRequest)
    (hmoved : counters + f'.amount + (delivered.map carried).sum =
      p.counters + f.amount + (p.delivered.map carried).sum + new)
    (hwf : f'.Wf) {state : InitState} {history : List InitMark}
    (hstage : InitStage state (Has (p.writes.set i f') PyWrite.Carries)
      (Has (p.writes.set i f') fun f => f.delivered = true) history) :
    (⟨p.sdk, p.initLabels, counters, state, p.writes.set i f', delivered, p.recorded + new,
      history⟩ : PyProvider).Inv where
  balanced := h.balanced.exchange hi hmoved
  wf := forall_set hi h.wf hwf
  stage := hstage

/-- A call goes on, and nothing is recorded or delivered. -/
theorem Inv.moved (h : p.Inv) {i : Nat} {f : PyWrite} (hi : p.writes[i]? = some f) (f' : PyWrite)
    (counters : Counters) (hmoved : counters + f'.amount = p.counters + f.amount) (hwf : f'.Wf)
    (hcarries : f'.Carries → f.Carries) (hdelivered : f'.Carries → f'.delivered = f.delivered) :
    ({ p.move i f' with counters := counters } : PyProvider).Inv := by
  have hinv := h.exchange hi f' counters 0 p.delivered (by rw [hmoved, add_zero]) hwf
    (h.stage.keep_set hi hcarries fun hf => by rw [hdelivered hf])
  rwa [add_zero] at hinv

/-- The section that claims the telemetry. -/
theorem Inv.claim (h : p.Inv) (i : Nat) : (p.step (.claim i)).Inv := by
  rw [step]
  split
  · next request rewritten includeInit delivered hi =>
      obtain ⟨hunstamped, hinit, hdelivered⟩ := h.wf i _ hi
      have hstage := h.stage
      cases hstate : p.initTelemetryState with
      | pending =>
          rw [hstate] at hstage
          have hinv := h.exchange hi ⟨request, rewritten, true, delivered, .claimed⟩ p.counters 0
            p.delivered (add_zero _).symm ⟨hunstamped, hdelivered⟩
            (hstage.claim_set hi (by simpa using hdelivered))
          rwa [add_zero] at hinv
      | sending =>
          have hinv := h.moved hi ⟨request, rewritten, false, delivered, .claimed⟩ p.counters rfl
            ⟨hunstamped, hdelivered⟩ (fun hcarries => absurd hcarries.1 Bool.false_ne_true)
            fun _ => rfl
          simpa [InitState.claim, hstate, move] using hinv
      | sent =>
          have hinv := h.moved hi ⟨request, rewritten, false, delivered, .claimed⟩ p.counters rfl
            ⟨hunstamped, hdelivered⟩ (fun hcarries => absurd hcarries.1 Bool.false_ne_true)
            fun _ => rfl
          simpa [InitState.claim, hstate, move] using hinv
  · exact h

/-- The section that looks at the counters. -/
theorem Inv.check (h : p.Inv) (i : Nat) : (p.step (.check i)).Inv := by
  rw [step]
  split
  · next request rewritten includeInit delivered hi =>
      obtain ⟨hunstamped, hdelivered⟩ := h.wf i _ hi
      dsimp only
      split
      · exact h.moved hi _ p.counters rfl ⟨hunstamped, hdelivered⟩
          (fun hcarries => ⟨hcarries.1, by simp⟩) fun _ => rfl
      · next hplain =>
          have hinit : includeInit = false := by
            cases includeInit with
            | false => rfl
            | true => simp at hplain
          subst hinit
          exact h.moved hi _ p.counters rfl
            ⟨fun _ => hunstamped, fun hinit => absurd hinit Bool.false_ne_true, hdelivered⟩
            (fun hcarries => absurd hcarries.1 Bool.false_ne_true) fun _ => rfl
  · exact h

/-- The request is rewritten. -/
theorem Inv.rewrite (h : p.Inv) {i : Nat} (hkeeps : p.KeepsAt (.rewrite i)) :
    (p.step (.rewrite i)).Inv := by
  rw [step]
  split
  · next request rewritten includeInit delivered hasFlush hasEvents hi =>
      obtain ⟨hunstamped, hdelivered⟩ := h.wf i _ hi
      have hunstamped' : Unstamped (if includeInit then p.withInit request else request) := by
        split
        · exact unstamped_withInit hunstamped
        · exact hunstamped
      have hnone : PyWrite.amount ⟨request, rewritten, includeInit, delivered,
          .checked hasFlush hasEvents⟩ = 0 := carried_unstamped hunstamped
      have hfits : hasFlush = true → hasEvents = true → EventsFit p.counters := by
        rintro rfl rfl
        exact hkeeps _ hi rfl
      have hdrain := drain_carried hunstamped' hfits
      dsimp only
      split
      · next counters request' hrequest =>
          rw [hrequest] at hdrain
          refine h.moved hi _ counters ?_ ⟨fun hplain => (by cases hplain), fun hinit => ?_,
            hdelivered⟩ (fun hcarries => ⟨hcarries.1, by simp⟩) fun _ => rfl
          · rw [hnone, add_zero]
            exact hdrain
          · rw [if_pos hinit] at hrequest
            exact drain_payload hrequest
      · next counters e hrequest =>
          rw [hrequest] at hdrain
          refine h.moved hi _ counters ?_ trivial (fun hcarries => absurd rfl hcarries.2)
            fun _ => rfl
          rw [hnone]
          exact congrArg (· + 0) hdrain
  · exact h

/-- The request is submitted, or there is nothing to submit. -/
theorem Inv.submit (h : p.Inv) (i : Nat) (outcome : Submission) :
    (p.step (.submit i outcome)).Inv := by
  rw [step]
  split
  · next request rewritten includeInit delivered hi =>
      obtain ⟨hplain, hpayload, hdelivered⟩ := h.wf i _ hi
      split
      · cases outcome with
        | accepted =>
            exact h.moved hi _ p.counters rfl ⟨hplain, hdelivered⟩
              (fun hcarries => ⟨hcarries.1, by simp⟩) fun _ => rfl
        | raised =>
            exact h.moved hi _ p.counters rfl ⟨hplain, fun _ => hdelivered⟩
              (fun hcarries => ⟨hcarries.1, by simp⟩) fun _ => rfl
      · next hempty =>
          -- without a payload the request carries nothing, and does not have the telemetry
          rw [Bool.not_eq_true] at hempty
          refine h.moved hi _ p.counters ?_ ⟨hplain, fun hinit => ?_⟩
            (fun hcarries => ⟨hcarries.1, by simp⟩) fun _ => rfl
          · simp only [PyWrite.amount, carried_of_no_payload hempty]
          · exact absurd (hpayload hinit) (by simp [hempty])
  · exact h

/-- The delivery ends. -/
theorem Inv.complete (h : p.Inv) (i : Nat) (ok : Bool) : (p.step (.complete i ok)).Inv := by
  rw [step]
  split
  · next request rewritten includeInit delivered hi =>
      obtain ⟨hplain, hdelivered⟩ := h.wf i _ hi
      have hstage : InitStage p.initTelemetryState
          (Has (p.writes.set i ⟨request, rewritten, includeInit, ok, .completed ok⟩)
            PyWrite.Carries)
          (Has (p.writes.set i ⟨request, rewritten, includeInit, ok, .completed ok⟩)
            fun f => f.delivered = true)
          (p.history ++ if ok && includeInit then [.received] else []) := by
        split
        · next hboth =>
            obtain ⟨rfl, rfl⟩ := (Bool.and_eq_true ok includeInit).mp hboth
            exact h.stage.receive_set hi ⟨rfl, by simp⟩ rfl
        · next hnot =>
            rw [List.append_nil]
            refine h.stage.keep_set hi (fun hcarries => ⟨hcarries.1, by simp⟩) fun hcarries => ?_
            have hinit : includeInit = true := hcarries.1
            have hfailed : ok = false := by simpa [hinit] using hnot
            have hopen : delivered = false := hdelivered
            rw [hfailed, hopen]
      have hinv := h.exchange hi ⟨request, rewritten, includeInit, ok, .completed ok⟩ p.counters 0
        (p.delivered ++ if ok then [request] else [])
        (by cases ok <;> simp [PyWrite.amount]; abel) ⟨hplain, fun _ => rfl⟩ hstage
      rwa [add_zero] at hinv
  · exact h

/-- The section that counts the outcome. -/
theorem Inv.count (h : p.Inv) (i : Nat) : (p.step (.count i)).Inv := by
  rw [step]
  split
  · next request rewritten includeInit delivered hi =>
      obtain ⟨_, hdelivered⟩ := h.wf i _ hi
      exact h.exchange hi ⟨request, rewritten, includeInit, delivered, .counted true⟩ _ _ p.delivered
        (by simp [PyWrite.amount]; abel) hdelivered
        (h.stage.keep_set hi (fun hcarries => ⟨hcarries.1, by simp⟩) fun _ => .rfl)
  · next request rewritten includeInit delivered hi =>
      obtain ⟨hplain, hdelivered⟩ := h.wf i _ hi
      have hrestored : (if rewritten then carried request else 0) = carried request := by
        cases rewritten with
        | true => rfl
        | false => exact (carried_unstamped (hplain rfl)).symm
      rw [hrestored]
      exact h.exchange hi ⟨request, rewritten, includeInit, delivered, .counted false⟩ _ _ p.delivered
        (by simp [PyWrite.amount]; abel) hdelivered
        (h.stage.keep_set hi (fun hcarries => ⟨hcarries.1, by simp⟩) fun _ => .rfl)
  · exact h

/-- The section that settles the claim. -/
theorem Inv.settle (h : p.Inv) (i : Nat) : (p.step (.settle i)).Inv := by
  rw [step]
  split
  · next request rewritten includeInit delivered success hi =>
      have hdelivered : includeInit = true → delivered = success := h.wf i _ hi
      have hdone : ¬ PyWrite.Carries ⟨request, rewritten, includeInit, delivered, .done⟩ :=
        fun hcarries => hcarries.2 rfl
      have hstage : InitStage (if includeInit then .complete success else p.initTelemetryState)
          (Has (p.writes.set i ⟨request, rewritten, includeInit, delivered, .done⟩) PyWrite.Carries)
          (Has (p.writes.set i ⟨request, rewritten, includeInit, delivered, .done⟩)
            fun f => f.delivered = true) p.history := by
        split
        · next hinit =>
            exact h.stage.release_set hi ⟨hinit, by simp⟩ hdone (by rw [hdelivered hinit])
        · exact h.stage.keep_set hi (fun hcarries => absurd hcarries hdone) fun _ => .rfl
      have hinv := h.exchange hi ⟨request, rewritten, includeInit, delivered, .done⟩ p.counters 0
        p.delivered (add_zero _).symm trivial hstage
      rwa [add_zero] at hinv
  · exact h

/-- **Step lemma.** -/
theorem Inv.step (h : p.Inv) {e : PyEvent} (hkeeps : p.KeepsAt e) : (p.step e).Inv := by
  cases e with
  | writeLogs logs => exact h.writeLogs logs
  | claim i => exact h.claim i
  | check i => exact h.check i
  | rewrite i => exact h.rewrite hkeeps
  | submit i outcome => exact h.submit i outcome
  | complete i ok => exact h.complete i ok
  | count i => exact h.count i
  | settle i => exact h.settle i
  | eventsFailed => exact ⟨h.balanced.record _, h.wf, h.stage⟩
  | eventsSent count rejected => exact ⟨h.balanced.record _, h.wf, h.stage⟩

/-- **Run lemma.** -/
theorem Inv.run (h : p.Inv) {es : List PyEvent} (hkeeps : p.Keeps es) : (p.run es).Inv := by
  induction es generalizing p with
  | nil => exact h
  | cons e es ih => exact ih (h.step hkeeps.1) hkeeps.2

theorem Inv.conserved (h : p.Inv) : p.Conserved where
  balanced := h.balanced
  one i j f g hf hg hcarries hcarries' :=
    h.stage.one i j ⟨f, hf, hcarries⟩ ⟨g, hg, hcarries'⟩
  sent := h.stage.sent
  once := h.stage.once

end PyProvider

/-! ### Main results -/

/-- **The counters are conserved across threads**, in every run in which the event counters fit
their fields when they are drained together with those of the flushes. -/
theorem python_counters_conserved (sdk : Sdk) (initLabels : Labels) {es : List PyEvent}
    (hkeeps : (PyProvider.new sdk initLabels).Keeps es) :
    ((PyProvider.new sdk initLabels).run es).Conserved :=
  ((PyProvider.inv_new sdk initLabels).run hkeeps).conserved

namespace Sample

def pyProvider : PyProvider := .new ⟨none, "0.1.0"⟩ .empty

/-- Call `i` of `_write_logs`, up to its submission. -/
def pyWrite (i : Nat) : List PyEvent :=
  [.writeLogs telemetryLogs, .claim i, .check i, .rewrite i]

/-- The delivery of the request of call `i`. -/
def pyDelivery (i : Nat) (delivered : Bool) : List PyEvent :=
  [.submit i .accepted, .complete i delivered, .count i, .settle i]

/-- A request that carries an event batch is not delivered; the next one is. -/
def refusedThenDelivered : List PyEvent :=
  .eventsSent 50 3 :: (pyWrite 0 ++ pyDelivery 0 false ++ pyWrite 1 ++ pyDelivery 1 true)

/-- A request is delivered; one event is sent and answered with two errors; another request is
written. -/
def deliveredThenRejected : List PyEvent :=
  pyWrite 0 ++ pyDelivery 0 true ++ .eventsSent 1 2 :: pyWrite 1

end Sample

theorem python_counters_conserved_sample :
    ((Sample.pyProvider.run Sample.refusedThenDelivered).delivered.map fun r =>
        (carried r .eventsPublished, carried r .flushFailed)) = [(47, 1)] ∧
      (Sample.pyProvider.run Sample.refusedThenDelivered).Conserved := by
  refine ⟨by decide +kernel, python_counters_conserved _ _ ?_⟩
  have hsecond : PyProvider.EventsFit
      (Sample.pyProvider.run (Sample.refusedThenDelivered.take 12)).counters := by
    decide +kernel
  refine ⟨trivial, trivial, trivial, trivial, ?_, trivial, trivial, trivial, trivial, trivial,
    trivial, trivial, fun _ _ _ => hsecond, trivial, trivial, trivial, trivial, trivial⟩
  -- the first request has nothing to report of flushes
  intro f hf hphase
  cases hf
  cases hphase

/-- **A flush that was counted is lost**: its counter is cleared before the assignment of the event
counters raises. -/
theorem python_counters_lost :
    (Sample.pyProvider.run Sample.deliveredThenRejected).recorded .flushSucceeded = 1 ∧
      (Sample.pyProvider.run Sample.deliveredThenRejected).counters .flushSucceeded = 0 ∧
      ¬ (Sample.pyProvider.run Sample.deliveredThenRejected).Conserved := by
  refine ⟨by decide +kernel, by decide +kernel, fun h => ?_⟩
  have hbalanced := congrFun h.balanced .flushSucceeded
  exact absurd hbalanced (by decide +kernel)

end ConfidenceResolver
