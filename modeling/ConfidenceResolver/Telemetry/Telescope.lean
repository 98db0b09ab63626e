import Mathlib.Algebra.Order.BigOperators.Group.List
import ConfidenceResolver.Telemetry.Collector

/-!
# Telemetry — the deltas of a sequential run telescope

A run interleaves calls with flushes.  When the additions between two flushes fit a `u32`, the
deltas emitted so far add up to what the collector held at the last flush.

* `IntervalsFit`: the additions of every interval fit.
* `Telescoped`: the invariant, with what was added since the last flush.
* `deltas_telescope`: the theorem.
-/

namespace ConfidenceResolver

/-- `Telemetry::snapshot`, `memory` being the memory provider's answer. -/
def Telemetry.snapshot (t : Telemetry) (memory : UInt64) : TelemetrySnapshot :=
  snapshotOf t.cells memory

/-- `Telemetry::delta_snapshot`: the report, and the snapshot that replaces `last`.  The memory
provider is asked twice. -/
def Telemetry.deltaSnapshot (t : Telemetry) (last : TelemetrySnapshot) (memory : UInt64 × UInt64) :
    TelemetryData × TelemetrySnapshot :=
  let current := t.snapshot memory.1
  (deltaData current last t.lastStateUpdate memory.2, current)

/-- What happens in a sequential run. -/
inductive CollectorEvent where
  | call (call : Call)
  | setLastStateUpdate (epochMs : UInt64)
  | flush (memory : UInt64 × UInt64)

/-- The collector, the snapshot of its last flush, and the deltas emitted so far. -/
structure CollectorRun where
  telemetry : Telemetry
  last : TelemetrySnapshot
  emitted : List TelemetryData

namespace CollectorRun

def start : CollectorRun := ⟨.new, {}, []⟩

def step (r : CollectorRun) : CollectorEvent → CollectorRun
  | .call call =>
    { r with telemetry := { r.telemetry with cells := addAll r.telemetry.cells call.additions } }
  | .setLastStateUpdate epochMs =>
    { r with telemetry := { r.telemetry with lastStateUpdate := epochMs } }
  | .flush memory =>
    { r with
      last := (r.telemetry.deltaSnapshot r.last memory).2
      emitted := r.emitted ++ [(r.telemetry.deltaSnapshot r.last memory).1] }

def run (r : CollectorRun) (es : List CollectorEvent) : CollectorRun := es.foldl step r

end CollectorRun

/-! ### Additions -/

/-- What a call adds to a counter. -/
def Call.adds (call : Call) (x : Cell) : Nat :=
  (call.additions.map fun a => if a.1 = x then a.2.toNat else 0).sum

theorem fetchAdd_apply (cells : Cell → UInt64) (c x : Cell) (n : UInt32) :
    fetchAdd cells c n.toUInt64 x = cells x + UInt64.ofNat (if c = x then n.toNat else 0) := by
  by_cases h : c = x
  · subst h
    simp [fetchAdd]
  · simp [fetchAdd, Function.update_of_ne (Ne.symm h), h]

theorem addAll_apply (additions : List (Cell × UInt32)) (x : Cell) :
    ∀ cells, addAll cells additions x =
      cells x + UInt64.ofNat (additions.map fun a => if a.1 = x then a.2.toNat else 0).sum := by
  induction additions with
  | nil => simp [addAll]
  | cons a additions ih =>
      intro cells
      have hcons : addAll cells (a :: additions) =
          addAll (fetchAdd cells a.1 a.2.toUInt64) additions := rfl
      rw [hcons, ih, fetchAdd_apply, List.map_cons, List.sum_cons, UInt64.ofNat_add, add_assoc]

/-- A call that adds to a latency counter adds to the count. -/
theorem Call.counted (call : Call) (h : call.adds .count = 0) {x : Cell}
    (hx : x.isLatency = true) : call.adds x = 0 := by
  cases call with
  | observe value => simp [adds, additions] at h
  | markResolve reason =>
      cases x with
      | rate i => cases hx
      | _ => by_cases hr : reason.discriminant < REASON_COUNT <;> simp [adds, additions, hr]

/-- All that a call adds. -/
def Call.weight (call : Call) : Nat := (call.additions.map fun a => a.2.toNat).sum

theorem Call.adds_le (call : Call) (x : Cell) : call.adds x ≤ call.weight := by
  refine List.sum_le_sum fun a _ => ?_
  by_cases h : a.1 = x <;> simp [h]

/-! ### The run -/

/-- The additions since the last flush, and those between the flushes to come, fit a `u32`. -/
def IntervalsFit (since : Cell → Nat) : List CollectorEvent → Prop
  | [] => True
  | .call call :: es => IntervalsFit (fun x => since x + call.adds x) es
  | .setLastStateUpdate _ :: es => IntervalsFit since es
  | .flush _ :: es => (∀ x, since x < 2 ^ 32) ∧ IntervalsFit (fun _ => 0) es

def CollectorEvent.weight : CollectorEvent → Nat
  | .call c => c.weight
  | _ => 0

/-- A run whose additions all together fit has intervals that fit. -/
theorem intervalsFit_of_weight (es : List CollectorEvent) :
    ∀ (since : Cell → Nat) (n : Nat), (∀ x, since x ≤ n) → n + (es.map (·.weight)).sum < 2 ^ 32 →
      IntervalsFit since es := by
  induction es with
  | nil => exact fun _ _ _ _ => trivial
  | cons e es ih =>
      intro since n hn hsum
      rw [List.map_cons, List.sum_cons] at hsum
      cases e with
      | call call =>
          refine ih _ (n + call.weight) (fun x => Nat.add_le_add (hn x) (call.adds_le x)) ?_
          rw [Nat.add_assoc]
          exact hsum
      | setLastStateUpdate epochMs =>
          exact ih since n hn (by simpa [CollectorEvent.weight] using hsum)
      | flush memory =>
          refine ⟨fun x => ?_, ih _ 0 (fun _ => le_refl 0) (by omega)⟩
          have := hn x
          omega

/-- The deltas add up to the last snapshot, and the collector is ahead of it by `since`. -/
structure Telescoped (r : CollectorRun) (since : Cell → Nat) : Prop where
  accumulated : ∀ x, (TelemetrySnapshot.accumulateAll {} r.emitted).cell x = r.last.cell x
  added : ∀ x, r.telemetry.cells x = r.last.cell x + UInt64.ofNat (since x)
  counted : since .count = 0 → ∀ x, x.isLatency = true → since x = 0

namespace Telescoped

variable {r : CollectorRun} {since : Cell → Nat}

theorem start : Telescoped .start fun _ => 0 where
  accumulated _ := rfl
  added x := by
    rw [CollectorRun.start, cell_zero]
    rfl
  counted _ _ _ := rfl

theorem call (h : Telescoped r since) (call : Call) :
    Telescoped (r.step (.call call)) fun x => since x + call.adds x where
  accumulated := h.accumulated
  added x := by
    have hadd := addAll_apply call.additions x r.telemetry.cells
    rw [h.added x, add_assoc, ← UInt64.ofNat_add] at hadd
    exact hadd
  counted hzero x hx := by
    have hsince := h.counted (by omega) x hx
    have hadds := call.counted (by omega) hx
    omega

theorem setLastStateUpdate (h : Telescoped r since) (epochMs : UInt64) :
    Telescoped (r.step (.setLastStateUpdate epochMs)) since :=
  ⟨h.accumulated, h.added, h.counted⟩

/-- What was added since the last flush is reported without loss. -/
theorem reportable (h : Telescoped r since) (hfits : ∀ x, since x < 2 ^ 32) :
    Reportable r.telemetry.cells r.last.cell := by
  have hdiff : ∀ x, r.telemetry.cells x - r.last.cell x = UInt64.ofNat (since x) := by
    intro x
    rw [h.added x, add_sub_cancel_left]
  have hnat : ∀ x, (UInt64.ofNat (since x)).toNat = since x := by
    intro x
    exact UInt64.toNat_ofNat_of_lt' ((hfits x).trans (by decide))
  refine ⟨fun x => ?_, fun hcount x hx => ?_⟩
  · rw [hdiff, hnat]
    exact hfits x
  · have hzero : since .count = 0 := by
      rw [← hnat, ← hdiff, hcount, sub_self]
      rfl
    rw [h.added x, h.counted hzero x hx]
    exact add_zero _

theorem flush (h : Telescoped r since) (hfits : ∀ x, since x < 2 ^ 32) (memory : UInt64 × UInt64) :
    Telescoped (r.step (.flush memory)) fun _ => 0 where
  accumulated x := by
    have hreport : ((TelemetrySnapshot.accumulateAll {} r.emitted).accumulateDelta
        (r.telemetry.deltaSnapshot r.last memory).1).cell x =
        (TelemetrySnapshot.accumulateAll {} r.emitted).cell x +
          (r.telemetry.cells x - r.last.cell x) :=
      accumulateDelta_deltaData (h.reportable hfits) _ x
    have hlast : (r.step (.flush memory)).last.cell x = r.telemetry.cells x :=
      cell_snapshotOf r.telemetry.cells memory.1 x
    rw [hlast]
    rw [h.accumulated x, add_sub_cancel] at hreport
    rw [CollectorRun.step, TelemetrySnapshot.accumulateAll_append]
    exact hreport
  added x := by
    have hlast : (r.step (.flush memory)).last.cell x = r.telemetry.cells x :=
      cell_snapshotOf r.telemetry.cells memory.1 x
    rw [hlast]
    exact (add_zero _).symm
  counted _ _ _ := rfl

/-- **Along a run** the invariant holds, and the intervals to come fit from where it stands. -/
theorem run (es' : List CollectorEvent) (es : List CollectorEvent) :
    ∀ {r : CollectorRun} {since : Cell → Nat}, Telescoped r since →
      IntervalsFit since (es ++ es') →
        ∃ since', Telescoped (r.run es) since' ∧ IntervalsFit since' es' := by
  induction es with
  | nil => exact fun h hfits => ⟨_, h, hfits⟩
  | cons e es ih =>
      intro r since h hfits
      cases e with
      | call call => exact ih (h.call call) hfits
      | setLastStateUpdate epochMs => exact ih (h.setLastStateUpdate epochMs) hfits
      | flush memory => exact ih (h.flush hfits.1 memory) hfits.2

end Telescoped

/-- Nothing is emitted between flushes, and the last snapshot stays. -/
theorem CollectorRun.run_without_flush (es : List CollectorEvent) (h : ∀ m, .flush m ∉ es) :
    ∀ r : CollectorRun, (r.run es).emitted = r.emitted := by
  induction es with
  | nil => exact fun _ => rfl
  | cons e es ih =>
      intro r
      have hes : ∀ m, .flush m ∉ es := fun m hm => h m (List.mem_cons_of_mem _ hm)
      have hstep : (r.step e).emitted = r.emitted := by
        cases e with
        | flush memory => exact absurd List.mem_cons_self (h memory)
        | _ => rfl
      exact (ih hes (r.step e)).trans hstep

/-- **Telemetry deltas telescope**: after any run, the deltas emitted add up, counter by counter,
to what the collector held at the last flush. -/
theorem deltas_telescope (es es' : List CollectorEvent) (memory : UInt64 × UInt64)
    (hfits : IntervalsFit (fun _ => 0) (es ++ .flush memory :: es'))
    (hlast : ∀ m, .flush m ∉ es') (x : Cell) :
    (TelemetrySnapshot.accumulateAll {}
        (CollectorRun.start.run (es ++ .flush memory :: es')).emitted).cell x =
      (CollectorRun.start.run es).telemetry.cells x := by
  obtain ⟨since, h, hfit, -⟩ := Telescoped.run (.flush memory :: es') es .start hfits
  have hrun : CollectorRun.start.run (es ++ .flush memory :: es') =
      ((CollectorRun.start.run es).step (.flush memory)).run es' := List.foldl_append
  rw [hrun, CollectorRun.run_without_flush es' hlast, (h.flush hfit memory).accumulated]
  exact cell_snapshotOf _ _ x

/-- Two observations and a resolve, a flush between them. -/
def Sample.events : List CollectorEvent :=
  [.call (.observe 7), .call (.markResolve .match), .flush (0, 0), .call (.observe 0)]

theorem deltas_telescope_sample :
    (TelemetrySnapshot.accumulateAll {}
        (CollectorRun.start.run (Sample.events ++ .flush (0, 0) :: [])).emitted).cell .sum =
      (CollectorRun.start.run Sample.events).telemetry.cells .sum :=
  deltas_telescope Sample.events [] (0, 0)
    (intervalsFit_of_weight _ _ 0 (fun _ => le_refl 0) (by decide)) (by simp) .sum

end ConfidenceResolver
