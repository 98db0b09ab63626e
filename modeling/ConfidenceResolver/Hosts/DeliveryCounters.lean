import ConfidenceResolver.Hosts.Shutdown
import ConfidenceResolver.Support.Ledger
import Mathlib.Algebra.Group.Pi.Basic
import Mathlib.Data.Fintype.Defs

/-!
# Hosts — delivery counters

The providers count what becomes of their flushes and of their event batches, in six counters.  A
flush puts the counters on its request; when it is not delivered, they are added again.

* `Counters`, `carried`: what is held, and what a request carries.
* `GuestLogs`: the request of a guest, which carries nothing yet.
* `flushOf_stamp`, `eventsOf_stamp`: what is put on a request is carried.
* `InitStage`: the provider-init telemetry, claimed by one request at a time.
-/

namespace ConfidenceResolver

open Ledger (Has)

/-- The counters, under the names of the JS provider. -/
inductive Counter where
  | flushSucceeded
  | flushFailed
  | eventsPublished
  | eventBatchesSucceeded
  | eventBatchesFailed
  | eventsRejected
deriving DecidableEq

def Counter.all : List Counter :=
  [.flushSucceeded, .flushFailed, .eventsPublished, .eventBatchesSucceeded, .eventBatchesFailed,
    .eventsRejected]

instance : Fintype Counter where
  elems := ⟨Counter.all, by decide⟩
  complete := by
    intro k
    cases k <;> decide

/-- An amount for each counter. -/
abbrev Counters := Counter → Int

/-- `n` of one counter. -/
abbrev Counters.of (k : Counter) (n : Int) : Counters := Pi.single k n

/-- The value fits a `uint32` field. -/
def InRange (n : Int) : Prop := 0 ≤ n ∧ n < 2 ^ 32

instance (n : Int) : Decidable (InRange n) := inferInstanceAs (Decidable (_ ∧ _))

/-- The conversion to `uint32`. -/
def uint32 (n : Int) : UInt32 := UInt32.ofNat (n % 2 ^ 32).toNat

/-- There is something to report of the flushes. -/
def Counters.hasFlush (c : Counters) : Bool := 0 < c .flushSucceeded || 0 < c .flushFailed

/-- There is something to report of the event batches. -/
def Counters.hasEvents (c : Counters) : Bool :=
  0 < c .eventsPublished || 0 < c .eventBatchesSucceeded || 0 < c .eventBatchesFailed ||
    0 < c .eventsRejected

def Counters.flushTelemetry (c : Counters) : FlushTelemetry where
  succeeded := uint32 (c .flushSucceeded)
  failed := uint32 (c .flushFailed)

def Counters.eventsTelemetry (c : Counters) : EventsTelemetry where
  published := uint32 (c .eventsPublished)
  batchesSucceeded := uint32 (c .eventBatchesSucceeded)
  batchesFailed := uint32 (c .eventBatchesFailed)
  eventsRejected := uint32 (c .eventsRejected)

/-! ### Requests -/

/-- `telemetry_data.flush`, with the defaults of a message that is not there. -/
def flushOf (request : WriteFlagLogsRequest) : FlushTelemetry :=
  (request.telemetryData.bind (·.flush)).getD ⟨0, 0⟩

/-- `telemetry_data.events`, with the defaults of a message that is not there. -/
def eventsOf (request : WriteFlagLogsRequest) : EventsTelemetry :=
  (request.telemetryData.bind (·.events)).getD ⟨0, 0, 0, 0⟩

/-- What a request carries. -/
def carried (request : WriteFlagLogsRequest) : Counters
  | .flushSucceeded => (flushOf request).succeeded.toNat
  | .flushFailed => (flushOf request).failed.toNat
  | .eventsPublished => (eventsOf request).published.toNat
  | .eventBatchesSucceeded => (eventsOf request).batchesSucceeded.toNat
  | .eventBatchesFailed => (eventsOf request).batchesFailed.toNat
  | .eventsRejected => (eventsOf request).eventsRejected.toNat

/-- Nothing was put on the request. -/
def Unstamped (request : WriteFlagLogsRequest) : Prop :=
  ∀ td ∈ request.telemetryData, td.flush = none ∧ td.events = none

/-- What a guest returns from a flush: a request with neither flush nor event telemetry. -/
structure GuestLogs where
  request : WriteFlagLogsRequest
  unstamped : Unstamped request

/-- The telemetry of a request, made if there is none. -/
def telemetryOf (request : WriteFlagLogsRequest) : TelemetryData := request.telemetryData.getD {}

/-- Put flush and event telemetry on a request. -/
def stamp (flush : Option FlushTelemetry) (events : Option EventsTelemetry)
    (request : WriteFlagLogsRequest) : WriteFlagLogsRequest :=
  let td := telemetryOf request
  { request with
    telemetryData := some { td with flush := flush.or td.flush, events := events.or td.events } }

/-! ### The guest -/

theorem boundedFlushLogs_unstamped (g : Guest) (sizes : AssignSizes) (now : Int64)
    (memory : UInt64 × UInt64) : Unstamped (g.boundedFlushLogs sizes now memory).2 := by
  intro td htd
  have hrequest : (g.boundedFlushLogs sizes now memory).2.telemetryData =
      ((g.sweepApplyDedup now).logsRequest memory).telemetryData := rfl
  rw [hrequest, Guest.logsRequest, Option.mem_some_iff] at htd
  rw [← htd]
  cases (g.sweepApplyDedup now).resolverState <;> cases (g.sweepApplyDedup now).dedupDelta <;>
    exact ⟨rfl, rfl⟩

/-! ### Amounts -/

theorem inRange_zero : InRange 0 := ⟨le_refl 0, by decide⟩

theorem uint32_toNat {n : Int} (h : InRange n) : ((uint32 n).toNat : Int) = n := by
  obtain ⟨hlow, hhigh⟩ := h
  have hmod : n % 2 ^ 32 = n := Int.emod_eq_of_lt hlow hhigh
  have hlt : n.toNat < 2 ^ 32 := by omega
  rw [uint32, hmod, UInt32.toNat_ofNat_of_lt' hlt]
  exact Int.toNat_of_nonneg hlow

/-- Nothing to report, of counters that are not negative. -/
theorem Counters.flush_eq_zero {c : Counters} (h : c.hasFlush = false)
    (hrange : ∀ k, InRange (c k)) : c .flushSucceeded = 0 ∧ c .flushFailed = 0 := by
  simp only [hasFlush, Bool.or_eq_false_iff, decide_eq_false_iff_not, not_lt] at h
  exact ⟨le_antisymm h.1 (hrange _).1, le_antisymm h.2 (hrange _).1⟩

theorem Counters.events_eq_zero {c : Counters} (h : c.hasEvents = false)
    (hrange : ∀ k, InRange (c k)) :
    c .eventsPublished = 0 ∧ c .eventBatchesSucceeded = 0 ∧ c .eventBatchesFailed = 0 ∧
      c .eventsRejected = 0 := by
  simp only [hasEvents, Bool.or_eq_false_iff, decide_eq_false_iff_not, not_lt] at h
  exact ⟨le_antisymm h.1.1.1 (hrange _).1, le_antisymm h.1.1.2 (hrange _).1,
    le_antisymm h.1.2 (hrange _).1, le_antisymm h.2 (hrange _).1⟩

theorem parts_unstamped {request : WriteFlagLogsRequest} (h : Unstamped request) :
    flushOf request = ⟨0, 0⟩ ∧ eventsOf request = ⟨0, 0, 0, 0⟩ := by
  cases htd : request.telemetryData with
  | none => simp [flushOf, eventsOf, htd]
  | some td =>
      obtain ⟨hflush, hevents⟩ := h td (by rw [htd]; rfl)
      simp [flushOf, eventsOf, htd, hflush, hevents]

theorem carried_unstamped {request : WriteFlagLogsRequest} (h : Unstamped request) :
    carried request = 0 := by
  obtain ⟨hflush, hevents⟩ := parts_unstamped h
  funext k
  cases k <;> simp [carried, hflush, hevents]

theorem telemetryOf_unstamped {request : WriteFlagLogsRequest} (h : Unstamped request) :
    (telemetryOf request).flush = none ∧ (telemetryOf request).events = none := by
  cases htd : request.telemetryData with
  | none => simp [telemetryOf, htd]
  | some td =>
      obtain ⟨hflush, hevents⟩ := h td (by rw [htd]; rfl)
      simp [telemetryOf, htd, hflush, hevents]

theorem flushOf_stamp {request : WriteFlagLogsRequest} (h : Unstamped request)
    (flush : Option FlushTelemetry) (events : Option EventsTelemetry) :
    flushOf (stamp flush events request) = flush.getD ⟨0, 0⟩ := by
  have hnone := (telemetryOf_unstamped h).1
  simp [flushOf, stamp, hnone]

theorem eventsOf_stamp {request : WriteFlagLogsRequest} (h : Unstamped request)
    (flush : Option FlushTelemetry) (events : Option EventsTelemetry) :
    eventsOf (stamp flush events request) = events.getD ⟨0, 0, 0, 0⟩ := by
  have hnone := (telemetryOf_unstamped h).2
  simp [eventsOf, stamp, hnone]

/-- **Nothing is lost on the way** from the counters to a request, when the telemetry that has
nothing to report is left out. -/
theorem carried_stamp {c : Counters} {request : WriteFlagLogsRequest} (hrange : ∀ k, InRange (c k))
    (h : Unstamped request) :
    carried (stamp (if c.hasFlush then some c.flushTelemetry else none)
      (if c.hasEvents then some c.eventsTelemetry else none) request) = c := by
  have hflush : flushOf (stamp (if c.hasFlush then some c.flushTelemetry else none)
      (if c.hasEvents then some c.eventsTelemetry else none) request) = c.flushTelemetry := by
    rw [flushOf_stamp h]
    cases hsome : c.hasFlush with
    | true => rfl
    | false =>
        obtain ⟨hsucceeded, hfailed⟩ := Counters.flush_eq_zero hsome hrange
        simp [Counters.flushTelemetry, hsucceeded, hfailed, uint32]
  have hevents : eventsOf (stamp (if c.hasFlush then some c.flushTelemetry else none)
      (if c.hasEvents then some c.eventsTelemetry else none) request) = c.eventsTelemetry := by
    rw [eventsOf_stamp h]
    cases hsome : c.hasEvents with
    | true => rfl
    | false =>
        obtain ⟨hpublished, hsucceeded, hfailed, hrejected⟩ :=
          Counters.events_eq_zero hsome hrange
        simp [Counters.eventsTelemetry, hpublished, hsucceeded, hfailed, hrejected, uint32]
  funext k
  cases k <;> simp only [carried, hflush, hevents] <;> exact uint32_toNat (hrange _)

/-! ### The provider-init telemetry -/

/-- What is remembered of the provider-init telemetry: a request carries it; such a request was
received. -/
inductive InitMark where
  | carried
  | received
deriving DecidableEq

/-- Once it was received, no request carries it again. -/
def NotAgain (history : List InitMark) : Prop :=
  history.Pairwise fun a b => a = .received → b ≠ .carried

/-- The claim on the telemetry, where `active` are the deliveries that have it and `received` says
that the request of a delivery was received. -/
structure InitStage (state : InitState) (active received : Nat → Prop) (history : List InitMark) :
    Prop where
  idle : state ≠ .sending → ∀ i, ¬ active i
  one : ∀ i j, active i → active j → i = j
  unseen : state = .pending → .received ∉ history
  seen : ∀ i, active i → (.received ∈ history ↔ received i)
  sent : state = .sent → .received ∈ history
  once : NotAgain history

namespace InitStage

variable {state : InitState} {active active' received received' : Nat → Prop}
  {history : List InitMark}

theorem start (hactive : ∀ i, ¬ active i) : InitStage .pending active received [] where
  idle _ := hactive
  one i j hi := absurd hi (hactive i)
  unseen _ := List.not_mem_nil
  seen i hi := absurd hi (hactive i)
  sent h := by cases h
  once := List.Pairwise.nil

/-- Deliveries that do not have the telemetry change, or the one that has it gives it up for
good. -/
theorem keep (h : InitStage state active received history) (hactive : ∀ i, active' i → active i)
    (hreceived : ∀ i, active' i → (received' i ↔ received i)) :
    InitStage state active' received' history where
  idle hne i hi := h.idle hne i (hactive i hi)
  one i j hi hj := h.one i j (hactive i hi) (hactive j hj)
  unseen := h.unseen
  seen i hi := (h.seen i (hactive i hi)).trans (hreceived i hi).symm
  sent := h.sent
  once := h.once

/-- A new delivery claims it. -/
theorem claim (h : InitStage .pending active received history) {n : Nat}
    (hactive : ∀ i, active' i → active i ∨ i = n) (hreceived : ¬ received' n) :
    InitStage .sending active' received' (history ++ [.carried]) := by
  have hidle := h.idle (by decide)
  have honly : ∀ i, active' i → i = n := fun i hi => (hactive i hi).resolve_left (hidle i)
  have hunseen := h.unseen rfl
  have hmem : InitMark.received ∉ history ++ [.carried] := by simpa using hunseen
  refine ⟨fun hne => absurd rfl hne, fun i j hi hj => (honly i hi).trans (honly j hj).symm,
    fun hpending => (by cases hpending), fun i hi => ?_, fun hsent => (by cases hsent), ?_⟩
  · rw [honly i hi]
    exact iff_of_false hmem hreceived
  · refine List.pairwise_append.mpr ⟨h.once, List.pairwise_singleton _ _, fun a ha b _ hrec => ?_⟩
    exact absurd (hrec ▸ ha) hunseen

/-- Its request is received. -/
theorem receive (h : InitStage state active received history) {k : Nat} (hk : active k)
    (hactive : ∀ i, active' i → active i) (hreceived : received' k) :
    InitStage state active' received' (history ++ [.received]) := by
  have hsending : state = .sending := by
    by_contra hne
    exact h.idle hne k hk
  refine ⟨fun hne => absurd hsending hne, fun i j hi hj => h.one i j (hactive i hi) (hactive j hj),
    fun hpending => ?_, fun i hi => ?_, fun _ => by simp, ?_⟩
  · rw [hsending] at hpending
    cases hpending
  · rw [h.one i k (hactive i hi) hk]
    exact iff_of_true (by simp) hreceived
  · refine List.pairwise_append.mpr ⟨h.once, List.pairwise_singleton _ _, fun a _ b hb _ => ?_⟩
    rw [List.mem_singleton.mp hb]
    decide

/-- The delivery that has it gives it back, its request not having been received; or it is sent. -/
theorem release (h : InitStage state active received history) {k : Nat} (hk : active k)
    (hactive : ∀ i, active' i → active i ∧ i ≠ k) {success : Bool}
    (hreceived : received k ↔ success = true) :
    InitStage (InitState.complete success) active' received' history := by
  have hnone : ∀ i, ¬ active' i := fun i hi => (hactive i hi).2 (h.one i k (hactive i hi).1 hk)
  have hseen := (h.seen k hk).trans hreceived
  refine ⟨fun _ => hnone, fun i j hi => absurd hi (hnone i), fun hpending => ?_,
    fun i hi => absurd hi (hnone i), fun hsent => ?_, h.once⟩
  · cases success with
    | false => simpa using hseen
    | true => cases hpending
  · cases success with
    | false => cases hsent
    | true => exact hseen.mpr rfl

/-! The deliveries as a list: one of them changes, or a new one starts. -/

variable {T : Type*} {flights : List T} {P Q : T → Prop} {i : Nat} {t t' : T}

theorem keep_set (h : InitStage state (Has flights P) (Has flights Q) history)
    (hi : flights[i]? = some t) (hP : P t' → P t) (hQ : P t' → (Q t' ↔ Q t)) :
    InitStage state (Has (flights.set i t') P) (Has (flights.set i t') Q) history := by
  refine h.keep (fun j hj => ?_) fun j hj => ?_
  · rw [Ledger.has_set hi] at hj
    split at hj
    · next hij => exact hij ▸ (Ledger.has_of_some hi).mpr (hP hj)
    · exact hj
  · rw [Ledger.has_set hi] at hj ⊢
    split at hj
    · next hij => rw [if_pos hij, hQ hj, ← hij, Ledger.has_of_some hi]
    · next hij => rw [if_neg hij]

theorem keep_concat (h : InitStage state (Has flights P) (Has flights Q) history) (ht : ¬ P t) :
    InitStage state (Has (flights ++ [t]) P) (Has (flights ++ [t]) Q) history := by
  have hold : ∀ j, Has (flights ++ [t]) P j → j ≠ flights.length := by
    rintro j hj rfl
    exact ht (Ledger.has_length.mp hj)
  refine h.keep (fun j hj => ?_) fun j hj => ?_
  · exact (Ledger.has_append (hold j hj)).mp hj
  · exact Ledger.has_append (hold j hj)

theorem claim_set (h : InitStage .pending (Has flights P) (Has flights Q) history)
    (hi : flights[i]? = some t) (hQ : ¬ Q t') :
    InitStage .sending (Has (flights.set i t') P) (Has (flights.set i t') Q)
      (history ++ [.carried]) := by
  refine h.claim (fun j hj => ?_) (n := i) ?_
  · rw [Ledger.has_set hi] at hj
    split at hj
    · next hij => exact .inr hij.symm
    · exact .inl hj
  · rwa [Ledger.has_set hi, if_pos rfl]

theorem claim_concat (h : InitStage .pending (Has flights P) (Has flights Q) history) (hQ : ¬ Q t) :
    InitStage .sending (Has (flights ++ [t]) P) (Has (flights ++ [t]) Q)
      (history ++ [.carried]) := by
  refine h.claim (fun j hj => ?_) (n := flights.length) ?_
  · exact (Ledger.has_concat hj).imp_right And.left
  · rwa [Ledger.has_length]

theorem receive_set (h : InitStage state (Has flights P) (Has flights Q) history)
    (hi : flights[i]? = some t) (hP : P t) (hQ : Q t') :
    InitStage state (Has (flights.set i t') P) (Has (flights.set i t') Q)
      (history ++ [.received]) := by
  have hk := (Ledger.has_of_some hi).mpr hP
  refine h.receive hk (fun j hj => ?_) ?_
  · rw [Ledger.has_set hi] at hj
    split at hj
    · next hij => exact hij ▸ hk
    · exact hj
  · rwa [Ledger.has_set hi, if_pos rfl]

theorem release_set (h : InitStage state (Has flights P) (Has flights Q) history)
    (hi : flights[i]? = some t) (hP : P t) (hdone : ¬ P t') {success : Bool}
    (hQ : Q t ↔ success = true) :
    InitStage (InitState.complete success) (Has (flights.set i t') P) (Has (flights.set i t') Q)
      history := by
  refine h.release ((Ledger.has_of_some hi).mpr hP) (fun j hj => ?_)
    ((Ledger.has_of_some hi).trans hQ)
  rw [Ledger.has_set hi] at hj
  split at hj
  · exact absurd hj hdone
  · next hij => exact ⟨hj, fun heq => hij heq.symm⟩

end InitStage

namespace Sample

/-- The logs of a guest that has only telemetry to report. -/
def telemetryLogs : GuestLogs :=
  ⟨((Closing.guest Closing.event 0).boundedFlushLogs Closing.sizes 0 (0, 0)).2,
    boundedFlushLogs_unstamped _ _ _ _⟩

end Sample

end ConfidenceResolver
