import ConfidenceResolver.Telemetry.Telescope

/-!
# Telemetry — concurrent calls and flushes

Calls add to the counters one atomic addition at a time.  A flush loads the counters one at a time
and then exchanges the previous snapshot for what it read.  Steps of all of them interleave.

* `Step ok`: one step; the exchanges are those that `ok` allows.
* `Inv`: what was emitted adds up to the last snapshot, the additions done and those outstanding
  to the calls, and a flush that began after the last call reads the totals.
* `flushes_conserve`: where every exchange is reportable, nothing is lost.
* `torn_observation_lost`: without that, an observation torn by a flush is.
-/

namespace ConfidenceResolver

/-- A flush in progress.  `begun` and `quiet` are only for stating what follows: the calls begun
before it, and whether all of them were finished. -/
structure Flush where
  todo : List Cell
  read : Cell → UInt64
  begun : Nat
  quiet : Bool

/-- The counters and the last snapshot, what is left of the calls in progress, the flushes in
progress, what was emitted, and all calls begun so far. -/
structure Shared where
  cells : Cell → UInt64
  last : TelemetrySnapshot
  pending : List (List (Cell × UInt32))
  flushes : List Flush
  emitted : List TelemetryData
  calls : List Call

namespace Shared

def start : Shared := ⟨fun _ => 0, {}, [], [], [], []⟩

/-- No call is in progress. -/
def Finished (s : Shared) : Prop := ∀ l ∈ s.pending, l = []

/-- What the calls begun so far add to a counter. -/
def total (s : Shared) (x : Cell) : UInt64 := UInt64.ofNat (s.calls.map (·.adds x)).sum

/-- The exchange of a flush that has read `f.read`, and the report it emits. -/
def exchange (s : Shared) (f : Flush) (rest : List Flush) (lastUpdate : UInt64)
    (memory : UInt64 × UInt64) : Shared :=
  { s with
    last := snapshotOf f.read memory.1
    flushes := rest
    emitted := s.emitted ++ [deltaData (snapshotOf f.read memory.1) s.last lastUpdate memory.2] }

/-- One step of any party. -/
inductive Step (ok : Shared → Flush → Prop) : Shared → Shared → Prop where
  | begin (s : Shared) (call : Call) :
    Step ok s { s with pending := call.additions :: s.pending, calls := call :: s.calls }
  | add {s : Shared} {l r : List (List (Cell × UInt32))} {a : Cell × UInt32}
      {rest : List (Cell × UInt32)} (h : s.pending = l ++ (a :: rest) :: r) :
    Step ok s
      { s with cells := fetchAdd s.cells a.1 a.2.toUInt64, pending := l ++ rest :: r }
  | beginFlush (s : Shared) :
    Step ok s
      { s with
        flushes := ⟨loadOrder, fun _ => 0, s.calls.length, s.pending.all (·.isEmpty)⟩ :: s.flushes }
  | load {s : Shared} {l r : List Flush} {f : Flush} {c : Cell} {todo : List Cell}
      (h : s.flushes = l ++ { f with todo := c :: todo } :: r) :
    Step ok s
      { s with
        flushes := l ++
          { f with todo := todo, read := Function.update f.read c (s.cells c) } :: r }
  | exchange {s : Shared} {l r : List Flush} {f : Flush} (lastUpdate : UInt64)
      (memory : UInt64 × UInt64) (h : s.flushes = l ++ f :: r) (hread : f.todo = [])
      (hok : ok s f) : Step ok s (s.exchange f (l ++ r) lastUpdate memory)

/-- Any number of steps. -/
abbrev Steps (ok : Shared → Flush → Prop) : Shared → Shared → Prop :=
  Relation.ReflTransGen (Step ok)

/-- The exchange of a flush that began after the calls were finished, with no call since. -/
inductive FurtherFlush (ok : Shared → Flush → Prop) : Shared → Shared → Prop where
  | mk {s : Shared} {l r : List Flush} {f : Flush} (lastUpdate : UInt64)
      (memory : UInt64 × UInt64) (h : s.flushes = l ++ f :: r) (hread : f.todo = [])
      (hok : ok s f) (hquiet : f.quiet = true) (hbegun : f.begun = s.calls.length) :
    FurtherFlush ok s (s.exchange f (l ++ r) lastUpdate memory)

/-- The flush reports without loss against the snapshot that it is about to replace. -/
def Reports (s : Shared) (f : Flush) : Prop := Reportable f.read s.last.cell

/-! ### The invariant -/

theorem mem_loadOrder (x : Cell) : x ∈ loadOrder := by
  cases x <;> simp [loadOrder]

/-- What a flush that began when all was finished has read is what is there. -/
def FlushInv (s : Shared) (f : Flush) : Prop :=
  f.begun ≤ s.calls.length ∧
    (f.quiet = true → f.begun = s.calls.length →
      s.Finished ∧ ∀ x, x ∉ f.todo → f.read x = s.cells x)

/-- What is outstanding at a counter. -/
def outstanding (s : Shared) (x : Cell) : Nat :=
  (s.pending.map fun l => (l.map fun a => if a.1 = x then a.2.toNat else 0).sum).sum

structure Inv (s : Shared) : Prop where
  accumulated : ∀ x, (TelemetrySnapshot.accumulateAll {} s.emitted).cell x = s.last.cell x
  conserved : ∀ x, s.cells x + UInt64.ofNat (s.outstanding x) = s.total x
  flushes : ∀ f ∈ s.flushes, s.FlushInv f

theorem inv_start : Inv start := by
  refine ⟨fun _ => rfl, fun _ => rfl, ?_⟩
  simp [start]

section Steps

variable {s : Shared}

theorem Inv.begin (h : s.Inv) (call : Call) :
    Inv { s with pending := call.additions :: s.pending, calls := call :: s.calls } where
  accumulated := h.accumulated
  conserved x := by
    have hx := h.conserved x
    simp only [outstanding, total, List.map_cons, List.sum_cons, UInt64.ofNat_add] at hx ⊢
    rw [← hx, Call.adds]
    exact add_left_comm _ _ _
  flushes f hf := by
    -- a call begun since: the second part no longer says anything about `f`
    have hle := (h.flushes f hf).1
    refine ⟨Nat.le_succ_of_le hle, fun _ hbegun => ?_⟩
    rw [hbegun] at hle
    exact absurd hle (Nat.not_succ_le_self _)

theorem Inv.add (h : s.Inv) {l r : List (List (Cell × UInt32))} {a : Cell × UInt32}
    {rest : List (Cell × UInt32)} (hpending : s.pending = l ++ (a :: rest) :: r) :
    Inv { s with cells := fetchAdd s.cells a.1 a.2.toUInt64, pending := l ++ rest :: r } where
  accumulated := h.accumulated
  conserved x := by
    have hx := h.conserved x
    simp only [outstanding, total, hpending, List.map_append, List.map_cons, List.sum_append,
      List.sum_cons, UInt64.ofNat_add] at hx ⊢
    rw [← hx, fetchAdd_apply]
    ac_rfl
  flushes f hf := by
    refine ⟨(h.flushes f hf).1, fun hquiet hbegun => ?_⟩
    have hfinished := ((h.flushes f hf).2 hquiet hbegun).1 (a :: rest) (by simp [hpending])
    exact absurd hfinished (List.cons_ne_nil _ _)

theorem Inv.beginFlush (h : s.Inv) :
    Inv { s with
      flushes :=
        ⟨loadOrder, fun _ => 0, s.calls.length, s.pending.all (·.isEmpty)⟩ :: s.flushes } where
  accumulated := h.accumulated
  conserved := h.conserved
  flushes f hf := by
    rcases List.mem_cons.mp hf with rfl | hf
    · refine ⟨le_refl _, fun hquiet _ => ⟨?_, fun x hx => absurd (mem_loadOrder x) hx⟩⟩
      simpa [Finished] using hquiet
    · exact h.flushes f hf

theorem Inv.load (h : s.Inv) {l r : List Flush} {f : Flush} {c : Cell} {todo : List Cell}
    (hflushes : s.flushes = l ++ { f with todo := c :: todo } :: r) :
    Inv { s with
      flushes := l ++
        { f with todo := todo, read := Function.update f.read c (s.cells c) } :: r } where
  accumulated := h.accumulated
  conserved := h.conserved
  flushes g hg := by
    rcases List.mem_append.mp hg with hg | hg
    · exact h.flushes g (by simp [hflushes, hg])
    · rcases List.mem_cons.mp hg with rfl | hg
      · obtain ⟨hle, hread⟩ := h.flushes _ (hflushes ▸ List.mem_append_right _ List.mem_cons_self)
        refine ⟨hle, fun hquiet hbegun => ⟨(hread hquiet hbegun).1, fun x hx => ?_⟩⟩
        by_cases hxc : x = c
        · subst hxc
          exact Function.update_self x _ _
        · have hold := (hread hquiet hbegun).2 x (by simpa [hxc] using hx)
          exact (Function.update_of_ne hxc _ _).trans hold
      · exact h.flushes g (by simp [hflushes, hg])

/-- An exchange that reports without loss keeps what was emitted equal to the last snapshot. -/
theorem Inv.exchange (h : s.Inv) {l r : List Flush} {f : Flush} (lastUpdate : UInt64)
    (memory : UInt64 × UInt64) (hflushes : s.flushes = l ++ f :: r) (hok : s.Reports f) :
    Inv (s.exchange f (l ++ r) lastUpdate memory) where
  accumulated x := by
    have hreport : ((TelemetrySnapshot.accumulateAll {} s.emitted).accumulateDelta
        (deltaData (snapshotOf f.read memory.1) s.last lastUpdate memory.2)).cell x =
        (TelemetrySnapshot.accumulateAll {} s.emitted).cell x + (f.read x - s.last.cell x) :=
      accumulateDelta_deltaData hok _ x
    rw [h.accumulated x, add_sub_cancel] at hreport
    rw [Shared.exchange, cell_snapshotOf, TelemetrySnapshot.accumulateAll_append]
    exact hreport
  conserved := h.conserved
  flushes g hg := by
    refine h.flushes g ?_
    rw [hflushes]
    exact List.mem_append.mpr ((List.mem_append.mp hg).imp_right (List.mem_cons_of_mem f))

/-- **One step** keeps the invariant. -/
theorem Inv.step (h : s.Inv) {s' : Shared} (hstep : Step Reports s s') : s'.Inv := by
  cases hstep with
  | begin call => exact h.begin call
  | add hpending => exact h.add hpending
  | beginFlush => exact h.beginFlush
  | load hflushes => exact h.load hflushes
  | exchange lastUpdate memory hflushes _ hok => exact h.exchange lastUpdate memory hflushes hok

end Steps

theorem Inv.steps {s s' : Shared} (h : s.Inv) (hsteps : Steps Reports s s') : s'.Inv := by
  induction hsteps with
  | refl => exact h
  | tail _ hstep ih => exact ih.step hstep

/-! ### Conservation -/

/-- With all calls finished the counters are the totals. -/
theorem Inv.cells_of_finished {s : Shared} (h : s.Inv) (hfinished : s.Finished) (x : Cell) :
    s.cells x = s.total x := by
  have hzero : s.outstanding x = 0 := by
    rw [outstanding]
    refine List.sum_eq_zero fun n hn => ?_
    obtain ⟨l, hl, rfl⟩ := List.mem_map.mp hn
    rw [hfinished l hl]
    rfl
  have hx := h.conserved x
  rw [hzero] at hx
  exact (add_zero _).symm.trans hx

/-- **No observation is lost or counted twice** in a run whose exchanges all report without loss:
once the calls have finished and one further flush has run, the deltas emitted add up to the
totals. -/
theorem flushes_conserve {s s' : Shared} (hsteps : Steps Reports start s)
    (hflush : FurtherFlush Reports s s') (x : Cell) :
    (TelemetrySnapshot.accumulateAll {} s'.emitted).cell x = s'.total x := by
  have h := inv_start.steps hsteps
  obtain ⟨lastUpdate, memory, hflushes, hread, hok, hquiet, hbegun⟩ := hflush
  rename_i l r f
  obtain ⟨hfinished, hcells⟩ := (h.flushes f (by simp [hflushes])).2 hquiet hbegun
  have hx := (h.exchange lastUpdate memory hflushes hok).accumulated x
  rw [hx, Shared.exchange, cell_snapshotOf, hcells x (by simp [hread]),
    h.cells_of_finished hfinished]
  rfl

/-! ### Runs of whole flushes -/

/-- Loading what is left, with nothing in between. -/
theorem steps_load (ok : Shared → Flush → Prop) (s : Shared) (rest : List Flush)
    (todo : List Cell) :
    ∀ f : Flush, Steps ok { s with flushes := { f with todo := todo } :: rest }
      { s with
        flushes :=
          { f with todo := [], read := fun x => if x ∈ todo then s.cells x else f.read x } ::
            rest } := by
  induction todo with
  | nil =>
      intro f
      simpa using Relation.ReflTransGen.refl
  | cons c todo ih =>
      intro f
      have hload : Step ok { s with flushes := { f with todo := c :: todo } :: rest }
          { s with
            flushes := { f with todo := todo, read := Function.update f.read c (s.cells c) } ::
              rest } := .load (l := []) rfl
      have hrest := ih { f with read := Function.update f.read c (s.cells c) }
      have hread : (fun x => if x ∈ todo then s.cells x else Function.update f.read c (s.cells c) x) =
          fun x => if x ∈ c :: todo then s.cells x else f.read x := by
        funext x
        by_cases hxc : x = c
        · subst hxc
          simp
        · simp [hxc]
      rw [hread] at hrest
      exact .head hload hrest

/-- A flush begins and reads the counters, with nothing in between. -/
theorem steps_read (ok : Shared → Flush → Prop) (s : Shared) :
    Steps ok s
      { s with
        flushes :=
          ⟨[], s.cells, s.calls.length, s.pending.all (·.isEmpty)⟩ :: s.flushes } := by
  have hload := steps_load ok s s.flushes loadOrder
    ⟨loadOrder, fun _ => 0, s.calls.length, s.pending.all (·.isEmpty)⟩
  have hread : (fun x => if x ∈ loadOrder then s.cells x else 0) = s.cells := by
    funext x
    rw [if_pos (mem_loadOrder x)]
  rw [hread] at hload
  exact .head (.beginFlush s) hload

end Shared

/-! ### Two runs -/

namespace Sample

/-- One observation, made. -/
def observed : Shared where
  cells := addAll (fun _ => 0) (Call.observe 5).additions
  last := {}
  pending := [[]]
  flushes := []
  emitted := []
  calls := [.observe 5]

/-- And another. -/
def observedTwice : Shared :=
  { observed with
    cells := addAll observed.cells (Call.observe 7).additions
    pending := [[], []]
    calls := [.observe 7, .observe 5] }

/-- A flush that loads two counters before the other observation, and the rest after it. -/
def around : Flush where
  todo := []
  read
    | .sum => observed.cells .sum
    | .count => observed.cells .count
    | c => observedTwice.cells c
  begun := 1
  quiet := true

/-- The state after that flush. -/
def flushed : Shared := { observedTwice with flushes := [around] }.exchange around [] 0 (0, 0)

/-- What a flush reads when the observation has added its value and not yet its count. -/
def tornRead : Cell → UInt64 := fetchAdd (fun _ => 0) .sum (5 : UInt32).toUInt64

/-- The same observation, made around a flush. -/
def torn : Shared :=
  { observed with
    last := snapshotOf tornRead 0
    emitted := [deltaData (snapshotOf tornRead 0) {} 0 0] }

/-- A flush that reads what is there. -/
def further (s : Shared) : Flush := ⟨[], s.cells, s.calls.length, s.pending.all (·.isEmpty)⟩

end Sample

open Shared in
theorem Sample.steps_observed (ok : Shared → Flush → Prop) : Steps ok start Sample.observed :=
  .tail (.tail (.tail (.single (.begin start (.observe 5))) (.add (l := []) rfl))
    (.add (l := []) rfl)) (.add (l := []) rfl)

open Shared in
/-- The other observation comes between the loads of the flush. -/
theorem Sample.steps_around (ok : Shared → Flush → Prop) :
    Steps ok start { Sample.observedTwice with flushes := [Sample.around] } := by
  let rest : List Cell := (List.finRange BUCKET_COUNT).map .bucket ++
    (List.finRange REASON_COUNT).map .rate
  let sumRead : Cell → UInt64 :=
    Function.update (fun _ => 0) .sum (Sample.observed.cells .sum)
  let f : Flush := ⟨rest, Function.update sumRead .count (Sample.observed.cells .count), 1, true⟩
  have hloads : Steps ok start { Sample.observed with flushes := [f] } :=
    (((Sample.steps_observed ok).tail (.beginFlush _)).tail
      (.load (l := []) (f := ⟨[], fun _ => 0, 1, true⟩) rfl)).tail
      (.load (l := []) (f := ⟨[], sumRead, 1, true⟩) rfl)
  have hobserved : Steps ok start { Sample.observedTwice with flushes := [f] } :=
    (((hloads.tail (.begin _ (.observe 7))).tail (.add (l := []) rfl)).tail
      (.add (l := []) rfl)).tail (.add (l := []) rfl)
  have hread : (fun x => if x ∈ rest then Sample.observedTwice.cells x else f.read x) =
      Sample.around.read := by
    funext x
    cases x <;> simp [rest, f, sumRead, Sample.around]
  have hrest := steps_load ok Sample.observedTwice [] rest f
  rw [hread] at hrest
  exact hobserved.trans hrest

/-- What one observation adds to a counter. -/
theorem Sample.toNat_adds_lt (call : Call) (hweight : call.weight ≤ 9) (x : Cell) :
    (UInt64.ofNat (call.adds x)).toNat ≤ 9 := by
  have hle : call.adds x ≤ 9 := (call.adds_le x).trans hweight
  rw [UInt64.toNat_ofNat_of_lt' (hle.trans_lt (by decide))]
  exact hle

theorem Sample.observed_cells (x : Cell) :
    Sample.observed.cells x = UInt64.ofNat ((Call.observe 5).adds x) :=
  (addAll_apply _ x _).trans (zero_add _)

theorem Sample.observedTwice_cells (x : Cell) :
    Sample.observedTwice.cells x =
      Sample.observed.cells x + UInt64.ofNat ((Call.observe 7).adds x) :=
  addAll_apply _ x _

theorem Sample.around_reports :
    Shared.Reports { Sample.observedTwice with flushes := [Sample.around] } Sample.around where
  fits x := by
    have honce : (Sample.observed.cells x).toNat ≤ 9 := by
      rw [Sample.observed_cells]
      exact Sample.toNat_adds_lt (.observe 5) (by decide) x
    have htwice : (Sample.observedTwice.cells x).toNat ≤ 18 := by
      rw [Sample.observedTwice_cells, UInt64.toNat_add]
      have hother := Sample.toNat_adds_lt (.observe 7) (by decide) x
      exact (Nat.mod_le _ _).trans (Nat.add_le_add honce hother)
    have hread : (Sample.around.read x).toNat ≤ 18 := by
      cases x with
      | sum | count => exact honce.trans (by decide)
      | bucket _ | rate _ => exact htwice
    have hlast : Sample.observedTwice.last.cell x = 0 := cell_zero x
    rw [hlast, sub_zero]
    exact hread.trans_lt (by decide)
  gated hcount := by
    have hread : Sample.around.read .count = 1 := rfl
    have hlast : Sample.observedTwice.last.cell .count = 0 := cell_zero _
    rw [hread, hlast] at hcount
    exact absurd hcount (by decide)

/-- What is there for the next flush is the other observation, or what of it the first missed. -/
theorem Sample.flushed_delta (x : Cell) :
    Sample.observedTwice.cells x - Sample.around.read x = UInt64.ofNat ((Call.observe 7).adds x) ∨
      Sample.observedTwice.cells x - Sample.around.read x = 0 := by
  cases x with
  | sum =>
      left
      exact (congrArg (· - Sample.observed.cells .sum) (Sample.observedTwice_cells .sum)).trans
        (add_sub_cancel_left _ _)
  | count =>
      left
      exact (congrArg (· - Sample.observed.cells .count) (Sample.observedTwice_cells .count)).trans
        (add_sub_cancel_left _ _)
  | bucket i | rate i =>
      right
      exact sub_self (Sample.observedTwice.cells _)

theorem Sample.further_reports : Sample.flushed.Reports (Sample.further Sample.flushed) where
  fits x := by
    have hread : (Sample.further Sample.flushed).read x = Sample.observedTwice.cells x := rfl
    have hlast : Sample.flushed.last.cell x = Sample.around.read x := cell_snapshotOf _ _ x
    rw [hread, hlast]
    rcases Sample.flushed_delta x with hdelta | hdelta
    · rw [hdelta]
      exact (Sample.toNat_adds_lt (.observe 7) (by decide) x).trans_lt (by decide)
    · rw [hdelta]
      decide
  gated hcount := by
    have hlast : Sample.flushed.last.cell .count = 1 := cell_snapshotOf _ _ _
    have hread : (Sample.further Sample.flushed).read .count = 2 := rfl
    rw [hread, hlast] at hcount
    exact absurd hcount (by decide)

open Shared in
theorem Sample.steps_flushed : Steps Reports start Sample.flushed :=
  (Sample.steps_around Reports).tail (.exchange (l := []) 0 (0, 0) rfl rfl Sample.around_reports)

/-- And after a further one. -/
def Sample.flushedTwice : Shared :=
  { Sample.flushed with flushes := [Sample.further Sample.flushed] }.exchange
    (Sample.further Sample.flushed) [] 0 (0, 0)

open Shared in
theorem Sample.further_flushedTwice :
    FurtherFlush Reports { Sample.flushed with flushes := [Sample.further Sample.flushed] }
      Sample.flushedTwice :=
  .mk (l := []) 0 (0, 0) rfl rfl Sample.further_reports rfl rfl

theorem flushes_conserve_observed :
    Sample.flushedTwice.emitted.length = 2 ∧ Sample.flushedTwice.total .sum = 12 ∧
      (TelemetrySnapshot.accumulateAll {} Sample.flushedTwice.emitted).cell .sum =
        Sample.flushedTwice.total .sum :=
  ⟨rfl, rfl, Shared.flushes_conserve
    (Sample.steps_flushed.trans (Shared.steps_read _ Sample.flushed))
    Sample.further_flushedTwice .sum⟩

open Shared in
theorem Sample.steps_torn : Steps (fun _ _ => True) start Sample.torn := by
  have hfirst : Steps (fun _ _ => True) start
      { start with
        cells := Sample.tornRead
        pending := [[(.count, 1), (.bucket (bucketIndex 5), 1)]]
        calls := [.observe 5] } :=
    .tail (.single (.begin start (.observe 5))) (.add (l := []) (a := (.sum, 5)) rfl)
  have hflush := (hfirst.trans (steps_read _ _)).tail
    (.exchange (l := []) 0 (0, 0) rfl rfl trivial)
  exact (hflush.tail (.add (l := []) rfl)).tail (.add (l := []) rfl)

/-- **An observation torn by a flush is lost**: the flush reads its value, reports nothing as the
count did not change, and remembers the value as reported. -/
theorem torn_observation_lost :
    ∃ s s', Shared.Steps (fun _ _ => True) Shared.start s ∧
      Shared.FurtherFlush (fun _ _ => True) s s' ∧ s'.Finished ∧
      s'.total .sum = 5 ∧
      (TelemetrySnapshot.accumulateAll {} s'.emitted).cell .sum = 0 ∧
      (TelemetrySnapshot.accumulateAll {} s'.emitted).cell .count = 1 := by
  refine ⟨_, _, Sample.steps_torn.trans (Shared.steps_read _ Sample.torn),
    .mk (l := []) 0 (0, 0) rfl rfl trivial rfl rfl, ?_, ?_, ?_, ?_⟩
  · simp [Shared.Finished, Shared.exchange, Sample.torn, Sample.observed]
  · rfl
  · rfl
  · rfl

end ConfidenceResolver
