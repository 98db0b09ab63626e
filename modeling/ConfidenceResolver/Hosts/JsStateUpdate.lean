import ConfidenceResolver.Hosts.ReloadingResolver

/-!
# Hosts — the state updates of the JS provider

`updateState` of `ConfidenceServerProviderLocal`.  Any number of its runs are in flight: an initial
attempt that times out is abandoned, and goes on.  A step of the model is what runs from one `await`
to the next.  Resolves and flushes go on meanwhile, and may reload the instance.

* `JsStateProvider.step`.  `LoadedState`: what an update brings.
* `JsStateProvider.Unchanged`, `JsStateProvider.Accepts`: what a step does to it.
* `js_state_atomic`: in every run, it comes from the last response whose state was accepted.
-/

namespace ConfidenceResolver

/-! ### The model -/

/-- The part of a response that an update uses. -/
structure StateAnswer where
  etag : Option String
  body : List UInt8

/-- What an update brings: the state in the instance, the etag, the account and the destinations. -/
structure LoadedState where
  state : Option SetResolverStateRequest
  etag : Option String
  accountId : String
  logDestinations : List Int32

/-- What `updateState` throws: the reason of the abort, a `NonRetryableStateError`, or another
error. -/
inductive UpdateError where
  | aborted
  | nonRetryable
  | retryable
deriving DecidableEq

/-- What a run of `updateState` waits for, or how it has ended. -/
inductive UpdatePhase where
  | hash
  | response (ifNoneMatch : Option String)
  | body (etag : Option String)
  | flush (answer : StateAnswer)
  | plaintext (answer : StateAnswer)
  | done (result : Except UpdateError Unit)

/-- A run of `updateState`, and whether its signal is aborted. -/
structure StateUpdate where
  aborted : Bool
  phase : UpdatePhase

/-- The provider.  For stating what follows: the answers whose state was accepted. -/
structure JsStateProvider where
  resolver : ReloadingResolver SetResolverStateRequest UInt8
  hasResolverState : Bool
  stateEtag : Option String
  logDestinations : List Int32
  accountId : String
  updates : List StateUpdate
  accepted : List StateAnswer

inductive UpdateEvent where
  /-- `updateState` is called. -/
  | updateState
  /-- The hash is there; the request is made. -/
  | hashed (i : Nat)
  /-- There is a response, or the request fails. -/
  | responded (i : Nat) (status : Nat) (etag : Option String)
  | requestFails (i : Nat)
  /-- The body is read, or cannot be read; then the logs are flushed. -/
  | bodyRead (i : Nat) (body : Option (List UInt8)) (outcome : CallOutcome (List UInt8))
      (flushed : Option (List UInt8))
  /-- The flush is done, or has failed. -/
  | flushDone (i : Nat)
  /-- The body is decrypted, or cannot be; the state is handed to the resolver. -/
  | decrypted (i : Nat) (outcome : CallOutcome Unit) (flushed : Option (List UInt8))
  /-- The signal of a run is aborted. -/
  | abort (i : Nat)
  /-- A resolve, and a flush. -/
  | resolve (outcome : CallOutcome Unit) (flushed : Option (List UInt8))
  | flush (outcome : CallOutcome (List UInt8)) (flushed : Option (List UInt8))

/-- What an answer brings, if it can be decrypted and decoded. -/
def StateConfig.read (config : StateConfig) (answer : StateAnswer) : Option LoadedState := do
  let plaintext ← config.decryptAesGcm answer.body
  let clientState ← config.decode plaintext
  let request := config.request clientState.state clientState.account
  return ⟨some request, answer.etag, clientState.account,
    clientState.logDestinations⟩

namespace JsStateProvider

def new : JsStateProvider := ⟨.new, false, none, [], "", [], []⟩

/-- Put `f` in the place of the run with number `i`. -/
def move (p : JsStateProvider) (i : Nat) (f : StateUpdate) : JsStateProvider :=
  { p with updates := p.updates.set i f }

/-- `updateState` at the status of a response: how it ends, if it does not go on to the body. -/
def ended? (p : JsStateProvider) (aborted : Bool) (status : Nat) :
    Option (Except UpdateError Unit) :=
  if status = 304 then
    if !p.hasResolverState then some (.error .retryable)
    else if aborted then some (.error .aborted)
    else some (.ok ())
  else if !isSuccess status then
    if status ≥ 400 && status < 500 && !([404, 408, 429].contains status) then
      some (.error .nonRetryable)
    else some (.error .retryable)
  else none

/-- The end of `updateState`, behind the decryption. -/
def finish (config : StateConfig) (p : JsStateProvider) (answer : StateAnswer) (aborted : Bool)
    (outcome : CallOutcome Unit) (flushed : Option (List UInt8)) :
    JsStateProvider × Except UpdateError Unit :=
  -- an error behind an abort is thrown as the abort
  let invalid := if aborted then UpdateError.aborted else .nonRetryable
  match config.decryptAesGcm answer.body with
  | none => (p, .error invalid)
  | some plaintext =>
      if aborted then (p, .error .aborted)
      else match config.decode plaintext with
        | none => (p, .error invalid)
        | some clientState =>
            let request := config.request clientState.state clientState.account
            match JsResolver.setResolverState p.resolver request outcome flushed with
            | (resolver, true) =>
                ({ p with
                    resolver := resolver
                    hasResolverState := true
                    logDestinations := clientState.logDestinations
                    accountId := clientState.account
                    stateEtag := answer.etag
                    accepted := p.accepted ++ [answer] }, .ok ())
            | (resolver, false) => ({ p with resolver := resolver }, .error invalid)

def step (config : StateConfig) (p : JsStateProvider) : UpdateEvent → JsStateProvider
  | .updateState => { p with updates := p.updates ++ [⟨false, .hash⟩] }
  | .hashed i =>
      match p.updates[i]? with
      | some ⟨aborted, .hash⟩ => p.move i ⟨aborted, .response (p.stateEtag.filter (· ≠ ""))⟩
      | _ => p
  | .responded i status etag =>
      match p.updates[i]? with
      | some ⟨aborted, .response _⟩ =>
          match p.ended? aborted status with
          | some result => p.move i ⟨aborted, .done result⟩
          | none => p.move i ⟨aborted, .body etag⟩
      | _ => p
  | .requestFails i =>
      match p.updates[i]? with
      | some ⟨aborted, .response _⟩ =>
          p.move i ⟨aborted, .done (.error (if aborted then .aborted else .retryable))⟩
      | _ => p
  | .bodyRead i body outcome flushed =>
      match p.updates[i]? with
      | some ⟨aborted, .body etag⟩ =>
          match body with
          | some body =>
              { p.move i ⟨aborted, .flush ⟨etag, body⟩⟩ with
                resolver := (JsResolver.flushLogs p.resolver outcome flushed).1 }
          | none => p.move i ⟨aborted, .done (.error (if aborted then .aborted else .retryable))⟩
      | _ => p
  | .flushDone i =>
      match p.updates[i]? with
      | some ⟨aborted, .flush answer⟩ => p.move i ⟨aborted, .plaintext answer⟩
      | _ => p
  | .decrypted i outcome flushed =>
      match p.updates[i]? with
      | some ⟨aborted, .plaintext answer⟩ =>
          let (q, result) := p.finish config answer aborted outcome flushed
          q.move i ⟨aborted, .done result⟩
      | _ => p
  | .abort i =>
      match p.updates[i]? with
      | some ⟨_, phase⟩ => p.move i ⟨true, phase⟩
      | none => p
  | .resolve outcome flushed =>
      { p with resolver := JsResolver.call p.resolver outcome flushed }
  | .flush outcome flushed =>
      { p with resolver := (JsResolver.flushLogs p.resolver outcome flushed).1 }

def run (config : StateConfig) (p : JsStateProvider) (es : List UpdateEvent) : JsStateProvider :=
  es.foldl (step config) p

/-! ### What is claimed -/

/-- What the provider has loaded. -/
def loaded (p : JsStateProvider) : LoadedState :=
  ⟨p.resolver.held, p.stateEtag, p.accountId, p.logDestinations⟩

/-- A step that accepts no state, and leaves what is loaded as it is. -/
def Unchanged (p q : JsStateProvider) : Prop := q.loaded = p.loaded ∧ q.accepted = p.accepted

/-- A step in which a run that is not aborted has its state accepted. -/
def Accepts (config : StateConfig) (p : JsStateProvider) (e : UpdateEvent) (q : JsStateProvider) :
    Prop :=
  ∃ i answer flushed, e = .decrypted i (.returned ()) flushed ∧
    p.updates[i]? = some ⟨false, .plaintext answer⟩ ∧ config.read answer = some q.loaded ∧
    q.accepted = p.accepted ++ [answer]

/-! ### Steps -/

structure Inv (config : StateConfig) (p : JsStateProvider) : Prop where
  inStep : JsResolver.InStep p.resolver
  last : ∀ answer, p.accepted.getLast? = some answer → config.read answer = some p.loaded

variable {config : StateConfig} {p : JsStateProvider}

theorem Inv.of_unchanged {q : JsStateProvider} (h : p.Inv config) (hq : p.Unchanged q)
    (hstep : JsResolver.InStep q.resolver) : q.Inv config := by
  obtain ⟨hloaded, haccepted⟩ := hq
  refine ⟨hstep, fun answer hlast => ?_⟩
  rw [haccepted] at hlast
  rw [hloaded]
  exact h.last answer hlast

/-- A run that only goes on, or ends. -/
theorem unchanged_move (i : Nat) (f : StateUpdate) : p.Unchanged (p.move i f) := ⟨rfl, rfl⟩

/-- A resolver that holds the same state. -/
theorem unchanged_resolver {resolver : ReloadingResolver SetResolverStateRequest UInt8}
    (h : resolver.held = p.resolver.held) : p.Unchanged { p with resolver := resolver } := by
  refine ⟨?_, rfl⟩
  simp only [loaded, h]

/-- The end of a run: its state is accepted, or nothing changes. -/
theorem Inv.finish_cases (h : p.Inv config) (answer : StateAnswer) (aborted : Bool)
    (outcome : CallOutcome Unit) (flushed : Option (List UInt8)) :
    JsResolver.InStep (p.finish config answer aborted outcome flushed).1.resolver ∧
      (p.Unchanged (p.finish config answer aborted outcome flushed).1 ∨
        aborted = false ∧ outcome = .returned () ∧
          config.read answer = some (p.finish config answer aborted outcome flushed).1.loaded ∧
          (p.finish config answer aborted outcome flushed).1.accepted = p.accepted ++ [answer]) := by
  rw [finish]
  cases hplain : config.decryptAesGcm answer.body with
  | none => exact ⟨h.inStep, .inl ⟨rfl, rfl⟩⟩
  | some plaintext =>
      cases aborted with
      | true => exact ⟨h.inStep, .inl ⟨rfl, rfl⟩⟩
      | false =>
          simp only [Bool.false_eq_true, if_false]
          cases hstate : config.decode plaintext with
          | none => exact ⟨h.inStep, .inl ⟨rfl, rfl⟩⟩
          | some clientState =>
              have hheld := JsResolver.setResolverState_held h.inStep
                (config.request clientState.state clientState.account) outcome
                flushed
              cases outcome with
              | returned value =>
                  refine ⟨rfl, .inr ⟨trivial, rfl, ?_, rfl⟩⟩
                  rw [StateConfig.read, hplain, Option.bind_eq_bind, Option.bind_some, hstate]
                  rfl
              | guestError => exact ⟨hheld.2, .inl (unchanged_resolver hheld.1)⟩
              | trapped => exact ⟨hheld.2, .inl (unchanged_resolver hheld.1)⟩

/-- **Step lemma.**  A step leaves what is loaded as it is, unless a run that is not aborted has its
state accepted. -/
theorem Inv.step_cases (h : p.Inv config) (e : UpdateEvent) :
    JsResolver.InStep (p.step config e).resolver ∧
      (p.Unchanged (p.step config e) ∨ p.Accepts config e (p.step config e)) := by
  have hsame : JsResolver.InStep p.resolver ∧ (p.Unchanged p ∨ p.Accepts config e p) :=
    ⟨h.inStep, .inl ⟨rfl, rfl⟩⟩
  cases e with
  | updateState => exact ⟨h.inStep, .inl ⟨rfl, rfl⟩⟩
  | hashed i | requestFails i | flushDone i | abort i =>
      rw [step]
      split
      · exact ⟨h.inStep, .inl (unchanged_move i _)⟩
      · exact hsame
  | responded i status etag =>
      rw [step]
      split
      · split
        · exact ⟨h.inStep, .inl (unchanged_move i _)⟩
        · exact ⟨h.inStep, .inl (unchanged_move i _)⟩
      · exact hsame
  | bodyRead i body outcome flushed =>
      -- a call that traps reloads the instance with the state that is held
      have hheld := JsResolver.flushLogs_held h.inStep outcome flushed
      rw [step]
      split
      · cases body with
        | some body => exact ⟨hheld.2, .inl (unchanged_resolver hheld.1)⟩
        | none => exact ⟨h.inStep, .inl (unchanged_move i _)⟩
      · exact hsame
  | decrypted i outcome flushed =>
      rw [step]
      split
      · next aborted answer hi =>
          obtain ⟨hstep, hunchanged | ⟨rfl, rfl, hread, haccepted⟩⟩ :=
            h.finish_cases answer aborted outcome flushed
          · exact ⟨hstep, .inl hunchanged⟩
          · exact ⟨hstep, .inr ⟨i, answer, flushed, rfl, hi, hread, haccepted⟩⟩
      · exact hsame
  | resolve outcome flushed =>
      have hheld := JsResolver.call_held h.inStep outcome flushed
      exact ⟨hheld.2, .inl (unchanged_resolver hheld.1)⟩
  | flush outcome flushed =>
      have hheld := JsResolver.flushLogs_held h.inStep outcome flushed
      exact ⟨hheld.2, .inl (unchanged_resolver hheld.1)⟩

theorem inv_new : new.Inv config := ⟨rfl, fun answer hlast => by cases hlast⟩

theorem Inv.step (h : p.Inv config) (e : UpdateEvent) : (p.step config e).Inv config := by
  obtain ⟨hstep, hunchanged | ⟨i, answer, flushed, _, _, hread, haccepted⟩⟩ := h.step_cases e
  · exact h.of_unchanged hunchanged hstep
  · refine ⟨hstep, fun answer' hlast => ?_⟩
    rw [haccepted, List.getLast?_concat] at hlast
    cases hlast
    exact hread

/-- **Run lemma.** -/
theorem Inv.run (h : p.Inv config) (es : List UpdateEvent) : (p.run config es).Inv config := by
  induction es generalizing p with
  | nil => exact h
  | cons e es ih => exact ih (h.step e)

end JsStateProvider

/-! ### Main result -/

/-- **The state refresh is atomic.**  At every `await`, what is loaded comes from the last answer
whose state was accepted; and each step leaves it as it is, but for one in which a run that is not
aborted has its state accepted. -/
theorem js_state_atomic (config : StateConfig) (es : List UpdateEvent) :
    (∀ answer, (JsStateProvider.new.run config es).accepted.getLast? = some answer →
        config.read answer = some (JsStateProvider.new.run config es).loaded) ∧
      ∀ e, (JsStateProvider.new.run config es).Unchanged
          ((JsStateProvider.new.run config es).step config e) ∨
        (JsStateProvider.new.run config es).Accepts config e
          ((JsStateProvider.new.run config es).step config e) :=
  have hinv := JsStateProvider.inv_new.run es
  ⟨hinv.last, fun e => (hinv.step_cases e).2⟩

/-- Two updates are in flight.  The first one is accepted; the second one is refused with a trap. -/
example :
    let config : StateConfig := ⟨some, fun state => some ⟨state, "a", [1]⟩, none, true, false⟩
    let p := JsStateProvider.new.run config
      [.updateState, .updateState, .hashed 0, .hashed 1, .responded 0 200 "x", .responded 1 200 "y",
        .bodyRead 0 (some [7]) .guestError none, .bodyRead 1 (some [8]) .guestError none,
        .flushDone 0, .flushDone 1, .decrypted 0 (.returned ()) none, .decrypted 1 .trapped none]
    p.resolver.held = some ⟨[7], "a", none, true, false⟩ ∧ p.stateEtag = some "x" := by
  decide +kernel

end ConfidenceResolver
