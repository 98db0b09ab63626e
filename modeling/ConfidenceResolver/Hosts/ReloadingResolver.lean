import ConfidenceResolver.Hosts.StateRefresh

/-!
# Hosts — resolvers that reload their instance

`WasmResolver` of the JS provider and `LocalResolver` of the Python provider.  Both hand their calls
to an instance, the delegate.  When a call traps, the logs of the instance are kept for the next
flush and a fresh instance takes its place, with the state that is remembered.

* `SetResolverStateRequest`, `StateConfig.request`: what is installed.
* `ReloadingResolver`: the instance, the remembered state, the buffered logs.
* `JsResolver`: it remembers a state once the instance has accepted it.
* `PyResolver`: it remembers a state before it is handed to the instance.
* `JsResolver.InStep`, `PyResolver.InStep`: what is remembered is what the instance holds.
-/

namespace ConfidenceResolver

/-- `SetResolverStateRequest`. -/
structure SetResolverStateRequest where
  state : List UInt8
  accountId : String
  sdk : Option Sdk
  enableApplyDedup : Bool
  disableExposureCollection : Bool
deriving DecidableEq

/-- What the providers call to read a body, and the options that they install with a state. -/
structure StateConfig where
  decryptAesGcm : List UInt8 → Option (List UInt8)
  decode : List UInt8 → Option ClientResolverState
  sdk : Option Sdk
  enableApplyDedup : Bool
  disableExposureCollection : Bool

/-- The request that installs a state. -/
def StateConfig.request (config : StateConfig) (state : List UInt8) (accountId : String) :
    SetResolverStateRequest :=
  ⟨state, accountId, config.sdk, config.enableApplyDedup, config.disableExposureCollection⟩

/-- How a call into the instance ends: with a value, with an error of the guest, or with a trap. -/
inductive CallOutcome (α : Type*) where
  | returned (value : α)
  | guestError
  | trapped

/-- A resolver: the state that the delegate holds, the state it remembers, and the logs it has kept.
For stating what follows: the states that an instance has accepted. -/
structure ReloadingResolver (S β : Type*) where
  held : Option S
  currentState : Option S
  bufferedLogs : List (List β)
  accepted : List S

namespace ReloadingResolver

variable {S β : Type*}

def new : ReloadingResolver S β := ⟨none, none, [], []⟩

end ReloadingResolver

/-! ### JS -/

namespace JsResolver

variable {S β : Type*}

/-- `reloadInstance`, where `flushed` are the logs of the old instance, if they could be flushed.
What is remembered was accepted, and is accepted by the fresh instance. -/
def reloadInstance (r : ReloadingResolver S β) (flushed : Option (List β)) :
    ReloadingResolver S β :=
  { r with bufferedLogs := r.bufferedLogs ++ flushed.toList, held := r.currentState }

/-- A call that is handed on: `resolveProcess`, `applyFlags`. -/
def call {α : Type*} (r : ReloadingResolver S β) (outcome : CallOutcome α)
    (flushed : Option (List β)) : ReloadingResolver S β :=
  match outcome with
  | .returned _ | .guestError => r
  | .trapped => reloadInstance r flushed

/-- `setResolverState`, and whether it returns. -/
def setResolverState (r : ReloadingResolver S β) (request : S) (outcome : CallOutcome Unit)
    (flushed : Option (List β)) : ReloadingResolver S β × Bool :=
  match outcome with
  | .returned _ =>
      ({ r with
          held := some request
          currentState := some request
          accepted := r.accepted ++ [request] }, true)
  | .guestError => (r, false)
  | .trapped => (reloadInstance r flushed, false)

/-- `flushLogs`, and what it returns. -/
def flushLogs (r : ReloadingResolver S β) (outcome : CallOutcome (List β))
    (flushed : Option (List β)) : ReloadingResolver S β × Option (List β) :=
  match outcome with
  | .returned logs => ({ r with bufferedLogs := [] }, some (r.bufferedLogs ++ [logs]).flatten)
  | .guestError => (r, none)
  | .trapped => (reloadInstance r flushed, none)

/-- What is remembered is what the instance holds. -/
def InStep (r : ReloadingResolver S β) : Prop := r.held = r.currentState

variable {r : ReloadingResolver S β}

theorem reloadInstance_held (h : InStep r) (flushed : Option (List β)) :
    (reloadInstance r flushed).held = r.held := Eq.symm h

theorem inStep_reloadInstance (flushed : Option (List β)) : InStep (reloadInstance r flushed) := rfl

/-- A call leaves the state in the instance. -/
theorem call_held {α : Type*} (h : InStep r) (outcome : CallOutcome α)
    (flushed : Option (List β)) :
    (call r outcome flushed).held = r.held ∧ InStep (call r outcome flushed) := by
  cases outcome with
  | returned _ | guestError => exact ⟨rfl, h⟩
  | trapped => exact ⟨reloadInstance_held h flushed, inStep_reloadInstance flushed⟩

theorem flushLogs_held (h : InStep r) (outcome : CallOutcome (List β))
    (flushed : Option (List β)) :
    (flushLogs r outcome flushed).1.held = r.held ∧ InStep (flushLogs r outcome flushed).1 := by
  cases outcome with
  | returned _ | guestError => exact ⟨rfl, h⟩
  | trapped => exact ⟨reloadInstance_held h flushed, inStep_reloadInstance flushed⟩

/-- A state that is accepted is held; one that is not leaves the state in the instance. -/
theorem setResolverState_held (h : InStep r) (request : S) (outcome : CallOutcome Unit)
    (flushed : Option (List β)) :
    (setResolverState r request outcome flushed).1.held =
        (if (setResolverState r request outcome flushed).2 then some request else r.held) ∧
      InStep (setResolverState r request outcome flushed).1 := by
  cases outcome with
  | returned _ => exact ⟨rfl, rfl⟩
  | guestError => exact ⟨rfl, h⟩
  | trapped => exact ⟨reloadInstance_held h flushed, inStep_reloadInstance flushed⟩

end JsResolver

/-! ### Python -/

/-- What a reload meets: the logs of the old instance, if they can be flushed, and whether the fresh
instance accepts a state that no instance has accepted yet. -/
structure Reload (β : Type*) where
  flushed : Option (List β)
  accepts : Bool

namespace PyResolver

variable {S β : Type*}

/-- The buffer behind a reload: `if logs`. -/
def keepLogs (bufferedLogs : List (List β)) : Option (List β) → List (List β)
  | some (b :: logs) => bufferedLogs ++ [b :: logs]
  | some [] | none => bufferedLogs

variable [DecidableEq S]

/-- `_reload_instance`.  A state that was accepted once is accepted by the fresh instance. -/
def reloadInstance (r : ReloadingResolver S β) (reload : Reload β) : ReloadingResolver S β :=
  let r := { r with bufferedLogs := keepLogs r.bufferedLogs reload.flushed, held := none }
  match r.currentState with
  | none => r
  | some state =>
      if state ∈ r.accepted || reload.accepts then
        { r with held := some state, accepted := r.accepted ++ [state] }
      else r

/-- A call that is handed on: `resolve_process`, `prometheus_snapshot`.  An error of the guest is a
crash too. -/
def call {α : Type*} (r : ReloadingResolver S β) (outcome : CallOutcome α) (reload : Reload β) :
    ReloadingResolver S β :=
  match outcome with
  | .returned _ => r
  | .guestError | .trapped => reloadInstance r reload

/-- `set_resolver_state`, and whether it returns. -/
def setResolverState (r : ReloadingResolver S β) (state : S) (outcome : CallOutcome Unit)
    (reload : Reload β) : ReloadingResolver S β × Bool :=
  let r := { r with currentState := some state }
  match outcome with
  | .returned _ => ({ r with held := some state, accepted := r.accepted ++ [state] }, true)
  | .guestError | .trapped => (reloadInstance r reload, false)

/-- `flush_logs`, and what it returns. -/
def flushLogs (r : ReloadingResolver S β) (outcome : CallOutcome (List β)) (reload : Reload β) :
    ReloadingResolver S β × Option (List β) :=
  match outcome with
  | .returned logs => ({ r with bufferedLogs := [] }, some (r.bufferedLogs ++ [logs]).flatten)
  | .guestError | .trapped => (reloadInstance r reload, none)

/-- The last state that was accepted is remembered, and held by the instance. -/
structure InStep (r : ReloadingResolver S β) : Prop where
  current : r.currentState = r.accepted.getLast?
  held : r.held = r.accepted.getLast?

omit [DecidableEq S] in
theorem inStep_new : InStep (.new : ReloadingResolver S β) := ⟨rfl, rfl⟩

variable {r : ReloadingResolver S β}

/-- The remembered state was accepted, or is now: the fresh instance holds it. -/
theorem reloadInstance_accepts {state : S} (hcurrent : r.currentState = some state)
    {reload : Reload β} (haccepts : state ∈ r.accepted ∨ reload.accepts = true) :
    InStep (reloadInstance r reload) ∧
      (reloadInstance r reload).accepted.getLast? = some state := by
  have hholds : (decide (state ∈ r.accepted) || reload.accepts) = true := by
    rwa [Bool.or_eq_true, decide_eq_true_eq]
  simp only [reloadInstance, hcurrent, if_pos hholds]
  exact ⟨⟨List.getLast?_concat.symm, List.getLast?_concat.symm⟩, List.getLast?_concat⟩

/-- A reload restores the last state that was accepted. -/
theorem InStep.reloadInstance (h : InStep r) (reload : Reload β) :
    InStep (reloadInstance r reload) ∧
      (PyResolver.reloadInstance r reload).accepted.getLast? = r.accepted.getLast? := by
  cases hlast : r.accepted.getLast? with
  | none =>
      have hcurrent : r.currentState = none := h.current.trans hlast
      simp only [PyResolver.reloadInstance, hcurrent]
      exact ⟨⟨hlast.symm, hlast.symm⟩, hlast⟩
  | some state =>
      have hcurrent : r.currentState = some state := h.current.trans hlast
      exact reloadInstance_accepts hcurrent (.inl (List.mem_of_getLast? hlast))

theorem InStep.call {α : Type*} (h : InStep r) (outcome : CallOutcome α) (reload : Reload β) :
    InStep (call r outcome reload) ∧
      (PyResolver.call r outcome reload).accepted.getLast? = r.accepted.getLast? := by
  cases outcome with
  | returned _ => exact ⟨h, rfl⟩
  | guestError | trapped => exact h.reloadInstance reload

theorem InStep.flushLogs (h : InStep r) (outcome : CallOutcome (List β)) (reload : Reload β) :
    InStep (flushLogs r outcome reload).1 ∧
      (PyResolver.flushLogs r outcome reload).1.accepted.getLast? = r.accepted.getLast? := by
  cases outcome with
  | returned _ => exact ⟨⟨h.current, h.held⟩, rfl⟩
  | guestError | trapped => exact h.reloadInstance reload

/-- A state is installed: at once, or by the reload behind the failure. -/
theorem setResolverState_accepts {state : S} {outcome : CallOutcome Unit} {reload : Reload β}
    (haccepts : outcome = .returned () ∨ state ∈ r.accepted ∨ reload.accepts = true) :
    InStep (setResolverState r state outcome reload).1 ∧
      (setResolverState r state outcome reload).1.accepted.getLast? = some state := by
  cases outcome with
  | returned _ =>
      exact ⟨⟨List.getLast?_concat.symm, List.getLast?_concat.symm⟩, List.getLast?_concat⟩
  | guestError | trapped =>
      exact reloadInstance_accepts (r := { r with currentState := some state }) rfl
        (haccepts.resolve_left (by simp))

end PyResolver

end ConfidenceResolver
