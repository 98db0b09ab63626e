import Mathlib.Logic.Function.Basic
import Mathlib.Logic.Relation
import ConfidenceResolver.Logs.ResolveInfo

/-!
# Logs — the resolve logger

`with_state` and `checkpoint` of `ResolveLogger`, any number of calls at a time.  The logger points
to a cell: a read-write lock around an optional state.  A `log_resolve` loads the pointer, tries the
read lock, and starts over when it fails or when the option is empty; otherwise it makes its updates
and drops the guard.  A `checkpoint` swaps in a new cell, takes the write lock of the old one and
takes the option.

* `Step`: one step of any call.
* `Inv`: a pointer may be stale, but a cell with a reader has no writer and was not taken; every
  cell that was swapped out has one checkpoint; what a call has written lies in one cell.
* `resolves_placed`: what a finished `log_resolve` wrote is in exactly one place.
-/

namespace ConfidenceResolver

namespace ResolveLogger

/-- Where a `log_resolve` is, with the cell that it points to and the updates still to be made. -/
inductive LogPc (U : Type*) where
  | start
  | loaded (cell : Nat)
  | locked (cell : Nat)
  | applying (cell : Nat) (todo : List U)
  | done (cell : Nat)

/-- Where a `checkpoint` is, with the cell that it swapped out and what it took. -/
inductive CheckpointPc (S : Type*) where
  | start
  | swapped (cell : Nat)
  | writing (cell : Nat)
  | taken (cell : Nat) (result : Option S)
  | done (cell : Nat) (result : Option S)

namespace LogPc

variable {U : Type*}

def PointsTo (k : Nat) : LogPc U → Prop
  | .start => False
  | .loaded cell | .locked cell | .applying cell _ | .done cell => cell = k

/-- Holds the read lock. -/
def Reads (k : Nat) : LogPc U → Prop
  | .locked cell | .applying cell _ => cell = k
  | .start | .loaded _ | .done _ => False

/-- Makes its updates. -/
def Applies (k : Nat) : LogPc U → Prop
  | .applying cell _ => cell = k
  | .start | .loaded _ | .locked _ | .done _ => False

theorem Applies.reads {k : Nat} : ∀ {pc : LogPc U}, pc.Applies k → pc.Reads k
  | .applying _ _, h => h

/-- The updates still to be made to a cell. -/
def todo (k : Nat) : LogPc U → List U
  | .applying cell todo => if cell = k then todo else []
  | .start | .loaded _ | .locked _ | .done _ => []

/-- The updates that are made to a cell once the call is finished, out of `us`. -/
def due (us : List U) (k : Nat) : LogPc U → List U
  | .applying cell _ | .done cell => if cell = k then us else []
  | .start | .loaded _ | .locked _ => []

end LogPc

namespace CheckpointPc

variable {S : Type*}

def cell? : CheckpointPc S → Option Nat
  | .start => none
  | .swapped cell | .writing cell | .taken cell _ | .done cell _ => some cell

/-- Waits for the write lock or holds it. -/
def Locks (k : Nat) : CheckpointPc S → Prop
  | .swapped cell | .writing cell | .taken cell _ => cell = k
  | .start | .done _ _ => False

/-- Holds the write lock. -/
def Writes (k : Nat) : CheckpointPc S → Prop
  | .writing cell | .taken cell _ => cell = k
  | .start | .swapped _ | .done _ _ => False

/-- What it took. -/
def result? : CheckpointPc S → Option (Option S)
  | .start | .swapped _ | .writing _ => none
  | .taken _ result | .done _ result => some result

end CheckpointPc

/-- A cell.  `applied` is only for stating what follows: the updates made to it, by call. -/
structure Cell (I S U : Type*) where
  content : Option S
  applied : List (I × U)

/-- The cells by number, the one the logger points to, and where the calls are.  A cell with a
number above `current` is not made yet. -/
structure Shared (I C S U : Type*) where
  cells : Nat → Cell I S U
  current : Nat
  logging : I → LogPc U
  checkpoints : C → CheckpointPc S

section Steps

variable {I C S U : Type*} [DecidableEq I] [DecidableEq C] (fresh : S) (apply : S → U → S)
  (us : I → List U)

def Shared.start : Shared I C S U :=
  ⟨fun _ => ⟨some fresh, []⟩, 0, fun _ => .start, fun _ => .start⟩

def Shared.setLog (s : Shared I C S U) (i : I) (pc : LogPc U) : Shared I C S U :=
  { s with logging := Function.update s.logging i pc }

def Shared.setCheckpoint (s : Shared I C S U) (j : C) (pc : CheckpointPc S) : Shared I C S U :=
  { s with checkpoints := Function.update s.checkpoints j pc }

/-- An update made through the reference that the read guard gives. -/
def Cell.update (cell : Cell I S U) (i : I) (u : U) : Cell I S U :=
  ⟨cell.content.map (apply · u), cell.applied ++ [(i, u)]⟩

/-- One step of any call; `us` are the updates of the `log_resolve` calls. -/
inductive Step : Shared I C S U → Shared I C S U → Prop where
  | load {s : Shared I C S U} {i : I} (h : s.logging i = .start) :
    Step s (s.setLog i (.loaded s.current))
  | readLock {s : Shared I C S U} {i : I} {k : Nat} (h : s.logging i = .loaded k)
      (hfree : ∀ j, ¬ (s.checkpoints j).Writes k) : Step s (s.setLog i (.locked k))
  | readFails {s : Shared I C S U} {i : I} {k : Nat} {j : C} (h : s.logging i = .loaded k)
      (hlocked : (s.checkpoints j).Locks k) : Step s (s.setLog i .start)
  | enter {s : Shared I C S U} {i : I} {k : Nat} {state : S} (h : s.logging i = .locked k)
      (hsome : (s.cells k).content = some state) : Step s (s.setLog i (.applying k (us i)))
  | retry {s : Shared I C S U} {i : I} {k : Nat} (h : s.logging i = .locked k)
      (hnone : (s.cells k).content = none) : Step s (s.setLog i .start)
  | apply {s : Shared I C S U} {i : I} {k : Nat} {u : U} {todo : List U}
      (h : s.logging i = .applying k (u :: todo)) :
    Step s
      { s.setLog i (.applying k todo) with
        cells := Function.update s.cells k ((s.cells k).update apply i u) }
  | finish {s : Shared I C S U} {i : I} {k : Nat} (h : s.logging i = .applying k []) :
    Step s (s.setLog i (.done k))
  | swap {s : Shared I C S U} {j : C} (h : s.checkpoints j = .start) :
    Step s { s.setCheckpoint j (.swapped s.current) with current := s.current + 1 }
  | writeLock {s : Shared I C S U} {j : C} {k : Nat} (h : s.checkpoints j = .swapped k)
      (hreaders : ∀ i, ¬ (s.logging i).Reads k) (hwriters : ∀ j', ¬ (s.checkpoints j').Writes k) :
    Step s (s.setCheckpoint j (.writing k))
  | take {s : Shared I C S U} {j : C} {k : Nat} (h : s.checkpoints j = .writing k) :
    Step s
      { s.setCheckpoint j (.taken k (s.cells k).content) with
        cells := Function.update s.cells k { s.cells k with content := none } }
  | release {s : Shared I C S U} {j : C} {k : Nat} {result : Option S}
      (h : s.checkpoints j = .taken k result) : Step s (s.setCheckpoint j (.done k result))

/-- Any number of steps. -/
abbrev Steps : Shared I C S U → Shared I C S U → Prop := Relation.ReflTransGen (Step apply us)

/-! ### The invariant -/

/-- The updates of a call made to a cell. -/
def Cell.by (cell : Cell I S U) (i : I) : List U :=
  (cell.applied.filter fun e => e.1 = i).map (·.2)

/-- The state after the updates made to a cell. -/
def Cell.state (cell : Cell I S U) : S := (cell.applied.map (·.2)).foldl apply fresh

/-- The content of a cell was taken. -/
def Shared.Taken (s : Shared I C S U) (k : Nat) : Prop :=
  ∃ j r, (s.checkpoints j).cell? = some k ∧ (s.checkpoints j).result? = some r

structure Inv (s : Shared I C S U) : Prop where
  pointers : ∀ i k, (s.logging i).PointsTo k → k ≤ s.current
  swapped : ∀ j k, (s.checkpoints j).cell? = some k → k < s.current
  owner : ∀ k < s.current, ∃ j, (s.checkpoints j).cell? = some k
  unique : ∀ j j' k, (s.checkpoints j).cell? = some k → (s.checkpoints j').cell? = some k → j = j'
  excluded : ∀ i j k, (s.logging i).Reads k → ¬ (s.checkpoints j).Writes k
  untaken : ∀ i k, (s.logging i).Applies k → ¬ s.Taken k
  content : ∀ k, ¬ s.Taken k → (s.cells k).content = some ((s.cells k).state fresh apply)
  result : ∀ j k r, (s.checkpoints j).cell? = some k → (s.checkpoints j).result? = some r →
    r = some ((s.cells k).state fresh apply) ∧ (s.cells k).content = none
  placed : ∀ i k, (s.cells k).by i ++ (s.logging i).todo k = (s.logging i).due (us i) k

omit [DecidableEq C] in
theorem inv_start : Inv fresh apply us (Shared.start fresh : Shared I C S U) where
  pointers _ _ h := h.elim
  swapped _ _ h := by cases h
  owner _ h := absurd h (Nat.not_lt_zero _)
  unique _ _ _ h := by cases h
  excluded _ _ _ h := h.elim
  untaken _ _ h := h.elim
  content _ _ := rfl
  result _ _ _ h := by cases h
  placed _ _ := rfl

variable {fresh apply us} {s : Shared I C S U}

/-- A property of all calls after one of them moved. -/
theorem forall_update {A B : Type*} [DecidableEq A] {f : A → B} {a : A} {b : B}
    {p : A → B → Prop} (hb : p a b) (hf : ∀ x, p x (f x)) : ∀ x, p x (Function.update f a b x) := by
  intro x
  by_cases hx : x = a
  · subst hx
    rwa [Function.update_self]
  · rw [Function.update_of_ne hx]
    exact hf x

omit [DecidableEq C] in
/-- A `log_resolve` moves and nothing else changes. -/
theorem Inv.setLog (h : Inv fresh apply us s) {i : I} {pc : LogPc U}
    (hpointers : ∀ k, pc.PointsTo k → k ≤ s.current)
    (hreads : ∀ k j, pc.Reads k → ¬ (s.checkpoints j).Writes k)
    (huntaken : ∀ k, pc.Applies k → ¬ s.Taken k)
    (hplaced : ∀ k p, p ++ (s.logging i).todo k = (s.logging i).due (us i) k →
      p ++ pc.todo k = pc.due (us i) k) :
    Inv fresh apply us (s.setLog i pc) where
  pointers := forall_update (p := fun _ (pc : LogPc U) => ∀ k, pc.PointsTo k → k ≤ s.current)
    hpointers h.pointers
  swapped := h.swapped
  owner := h.owner
  unique := h.unique
  excluded := forall_update
    (p := fun _ (pc : LogPc U) => ∀ j k, pc.Reads k → ¬ (s.checkpoints j).Writes k)
    (fun j k => hreads k j) h.excluded
  untaken := forall_update (p := fun _ (pc : LogPc U) => ∀ k, pc.Applies k → ¬ s.Taken k)
    huntaken h.untaken
  content := h.content
  result := h.result
  placed := forall_update
    (p := fun i (pc : LogPc U) => ∀ k, (s.cells k).by i ++ pc.todo k = pc.due (us i) k)
    (fun k => hplaced k _ (h.placed i k)) h.placed

/-- A `checkpoint` moves on with its cell and what it took, and nothing else changes. -/
theorem Inv.setCheckpoint (h : Inv fresh apply us s) {j : C} {pc : CheckpointPc S}
    (hcell : pc.cell? = (s.checkpoints j).cell?) (hresult : pc.result? = (s.checkpoints j).result?)
    (hwrites : ∀ i k, (s.logging i).Reads k → ¬ pc.Writes k) :
    Inv fresh apply us (s.setCheckpoint j pc) := by
  have hcells : ∀ j', ((s.setCheckpoint j pc).checkpoints j').cell? = (s.checkpoints j').cell? :=
    forall_update (p := fun j' (pc : CheckpointPc S) => pc.cell? = (s.checkpoints j').cell?)
      hcell fun _ => rfl
  have hresults : ∀ j',
      ((s.setCheckpoint j pc).checkpoints j').result? = (s.checkpoints j').result? :=
    forall_update (p := fun j' (pc : CheckpointPc S) => pc.result? = (s.checkpoints j').result?)
      hresult fun _ => rfl
  have htaken : ∀ k, (s.setCheckpoint j pc).Taken k ↔ s.Taken k := by
    intro k
    simp only [Shared.Taken, hcells, hresults]
  exact
    { pointers := h.pointers
      swapped := fun j' k hk => h.swapped j' k ((hcells j').symm.trans hk)
      owner := fun k hk => (h.owner k hk).imp fun j' hj' => (hcells j').trans hj'
      unique := fun j' j'' k hk hk' =>
        h.unique j' j'' k ((hcells j').symm.trans hk) ((hcells j'').symm.trans hk')
      excluded := fun i j' k hreads =>
        forall_update (p := fun _ (pc : CheckpointPc S) => ¬ pc.Writes k) (hwrites i k hreads)
          (fun j' => h.excluded i j' k hreads) j'
      untaken := fun i k happlies => mt (htaken k).mp (h.untaken i k happlies)
      content := fun k hk => h.content k (mt (htaken k).mpr hk)
      result := fun j' k r hk hr =>
        h.result j' k r ((hcells j').symm.trans hk) ((hresults j').symm.trans hr)
      placed := h.placed }

omit [DecidableEq C] in
theorem Cell.by_update (cell : Cell I S U) (i i' : I) (u : U) :
    (cell.update apply i u).by i' = if i = i' then cell.by i' ++ [u] else cell.by i' := by
  by_cases hi : i = i' <;> simp [Cell.by, Cell.update, hi]

omit [DecidableEq C] in
/-- An update is made to a cell that was not taken. -/
theorem Inv.update (h : Inv fresh apply us s) {i : I} {k : Nat} {u : U} {todo : List U}
    (hpc : s.logging i = .applying k (u :: todo)) :
    Inv fresh apply us
      { s.setLog i (.applying k todo) with
        cells := Function.update s.cells k ((s.cells k).update apply i u) } := by
  -- the log holds the read lock, so no checkpoint writes this cell or has taken it
  have huntaken : ¬ s.Taken k := h.untaken i k (by rw [hpc]; rfl)
  have hpointer : k ≤ s.current := h.pointers i k (by rw [hpc]; rfl)
  have hreads : ∀ j, ¬ (s.checkpoints j).Writes k := fun j => h.excluded i j k (by rw [hpc]; rfl)
  exact
    { pointers := forall_update
        (p := fun _ (pc : LogPc U) => ∀ k, pc.PointsTo k → k ≤ s.current)
        (fun _ hk => hk ▸ hpointer) h.pointers
      swapped := h.swapped
      owner := h.owner
      unique := h.unique
      excluded := forall_update
        (p := fun _ (pc : LogPc U) => ∀ j k, pc.Reads k → ¬ (s.checkpoints j).Writes k)
        (fun j _ hk => hk ▸ hreads j) h.excluded
      untaken := forall_update (p := fun _ (pc : LogPc U) => ∀ k, pc.Applies k → ¬ s.Taken k)
        (fun _ hk => hk ▸ huntaken) h.untaken
      content := fun k' hk' => by
        have hcontent := h.content k' hk'
        by_cases hk : k' = k
        · subst hk
          simp [Cell.update, Cell.state, hcontent]
        · simpa [Function.update_of_ne hk] using hcontent
      result := fun j k' r hcell hresult => by
        have hk : k' ≠ k := fun hk => huntaken (hk ▸ ⟨j, r, hcell, hresult⟩)
        simpa [Function.update_of_ne hk] using h.result j k' r hcell hresult
      placed := fun i' k' => by
        have hplaced := h.placed i' k'
        by_cases hi : i' = i
        · subst hi
          rw [hpc] at hplaced
          by_cases hk : k' = k
          · subst hk
            simpa [Shared.setLog, Cell.by_update, LogPc.todo, LogPc.due] using hplaced
          · have hk' : k ≠ k' := fun h' => hk h'.symm
            simpa [Shared.setLog, Function.update_of_ne hk, LogPc.todo, LogPc.due, hk'] using hplaced
        · have hi' : i ≠ i' := fun h' => hi h'.symm
          by_cases hk : k' = k
          · subst hk
            simpa [Shared.setLog, Cell.by_update, Function.update_of_ne hi, hi'] using hplaced
          · simpa [Shared.setLog, Function.update_of_ne hk, Function.update_of_ne hi] using hplaced }

omit [DecidableEq I] in
theorem checkpoints_setCheckpoint_self (s : Shared I C S U) (j : C) (pc : CheckpointPc S) :
    (s.setCheckpoint j pc).checkpoints j = pc := Function.update_self j _ _

omit [DecidableEq I] in
theorem checkpoints_setCheckpoint_of_ne (s : Shared I C S U) {j j' : C} (pc : CheckpointPc S)
    (h : j' ≠ j) : (s.setCheckpoint j pc).checkpoints j' = s.checkpoints j' :=
  Function.update_of_ne h _ _

omit [DecidableEq I] in
/-- A checkpoint that had taken nothing moves: at most its own cell is newly taken. -/
theorem taken_setCheckpoint {j : C} (hpc : (s.checkpoints j).result? = none)
    (pc : CheckpointPc S) (k : Nat) :
    (s.setCheckpoint j pc).Taken k ↔
      s.Taken k ∨ pc.cell? = some k ∧ ∃ r, pc.result? = some r := by
  constructor
  · rintro ⟨j', r, hk, hr⟩
    by_cases hj : j' = j
    · subst hj
      rw [checkpoints_setCheckpoint_self] at hk hr
      exact .inr ⟨hk, r, hr⟩
    · rw [checkpoints_setCheckpoint_of_ne s pc hj] at hk hr
      exact .inl ⟨j', r, hk, hr⟩
  · rintro (⟨j', r, hk, hr⟩ | ⟨hk, r, hr⟩)
    · have hj : j' ≠ j := fun hj => by rw [hj, hpc] at hr; cases hr
      exact ⟨j', r, by rwa [checkpoints_setCheckpoint_of_ne s pc hj],
        by rwa [checkpoints_setCheckpoint_of_ne s pc hj]⟩
    · exact ⟨j, r, by rwa [checkpoints_setCheckpoint_self],
        by rwa [checkpoints_setCheckpoint_self]⟩

/-- A checkpoint swaps in a cell that is new. -/
theorem Inv.swap (h : Inv fresh apply us s) {j : C} (hpc : s.checkpoints j = .start) :
    Inv fresh apply us
      { s.setCheckpoint j (.swapped s.current) with current := s.current + 1 } := by
  have hself := checkpoints_setCheckpoint_self s j (.swapped s.current)
  have hother := fun (j' : C) (hj : j' ≠ j) =>
    checkpoints_setCheckpoint_of_ne s (.swapped s.current) hj
  -- the checkpoint that moves has taken nothing
  have hold : ∀ j' r, ((s.setCheckpoint j (.swapped s.current)).checkpoints j').result? = some r →
      (s.setCheckpoint j (.swapped s.current)).checkpoints j' = s.checkpoints j' := by
    intro j' r hr
    by_cases hj : j' = j
    · subst hj
      rw [hself] at hr
      cases hr
    · exact hother j' hj
  have htaken : ∀ k, (s.setCheckpoint j (.swapped s.current)).Taken k ↔ s.Taken k := by
    intro k
    rw [taken_setCheckpoint (by rw [hpc]; rfl)]
    exact or_iff_left fun ⟨_, _, hr⟩ => by cases hr
  exact
    { pointers := fun i k hk => Nat.le_succ_of_le (h.pointers i k hk)
      swapped := fun j' k hk => by
        by_cases hj : j' = j
        · subst hj
          rw [hself] at hk
          cases hk
          exact Nat.lt_succ_self _
        · rw [hother j' hj] at hk
          exact Nat.lt_succ_of_lt (h.swapped j' k hk)
      owner := fun k hk => by
        by_cases hcurrent : k = s.current
        · exact ⟨j, by rw [hself, hcurrent]; rfl⟩
        · obtain ⟨j', hj'⟩ := h.owner k (lt_of_le_of_ne (Nat.le_of_lt_succ hk) hcurrent)
          have hj : j' ≠ j := fun hj => by rw [hj, hpc] at hj'; cases hj'
          exact ⟨j', by rwa [hother j' hj]⟩
      unique := fun j' j'' k hk hk' => by
        -- the new cell has the number of the one that was current, all others a smaller one
        by_cases hj : j' = j <;> by_cases hj' : j'' = j
        · rw [hj, hj']
        · subst hj
          rw [hself] at hk
          rw [hother j'' hj'] at hk'
          cases hk
          exact absurd (h.swapped j'' _ hk') (lt_irrefl _)
        · subst hj'
          rw [hself] at hk'
          rw [hother j' hj] at hk
          cases hk'
          exact absurd (h.swapped j' _ hk) (lt_irrefl _)
        · rw [hother j' hj] at hk
          rw [hother j'' hj'] at hk'
          exact h.unique j' j'' k hk hk'
      excluded := fun i j' k hreads =>
        forall_update (b := CheckpointPc.swapped s.current)
          (p := fun _ (pc : CheckpointPc S) => ¬ pc.Writes k) id
          (fun j' => h.excluded i j' k hreads) j'
      untaken := fun i k happlies => mt (htaken k).mp (h.untaken i k happlies)
      content := fun k hk => h.content k (mt (htaken k).mpr hk)
      result := fun j' k r hk hr => by
        rw [hold j' r hr] at hk hr
        exact h.result j' k r hk hr
      placed := h.placed }

/-- A checkpoint takes the content of its cell. -/
theorem Inv.take (h : Inv fresh apply us s) {j : C} {k : Nat} (hpc : s.checkpoints j = .writing k) :
    Inv fresh apply us
      { s.setCheckpoint j (.taken k (s.cells k).content) with
        cells := Function.update s.cells k { s.cells k with content := none } } := by
  have hself := checkpoints_setCheckpoint_self s j (.taken k (s.cells k).content)
  have hother := fun (j' : C) (hj : j' ≠ j) =>
    checkpoints_setCheckpoint_of_ne s (.taken k (s.cells k).content) hj
  have hcell : (s.checkpoints j).cell? = some k := by rw [hpc]; rfl
  -- the checkpoint that writes the cell is the only one that can have taken it
  have huntaken : ¬ s.Taken k := by
    rintro ⟨j', r, hk, hr⟩
    have hj : j' = j := h.unique j' j k hk hcell
    rw [hj, hpc] at hr
    cases hr
  have hcells : ∀ j', ((s.setCheckpoint j (.taken k (s.cells k).content)).checkpoints j').cell? =
      (s.checkpoints j').cell? :=
    forall_update (p := fun j' (pc : CheckpointPc S) => pc.cell? = (s.checkpoints j').cell?)
      hcell.symm fun _ => rfl
  have htaken : ∀ k', (s.setCheckpoint j (.taken k (s.cells k).content)).Taken k' ↔
      s.Taken k' ∨ k' = k := by
    intro k'
    rw [taken_setCheckpoint (by rw [hpc]; rfl)]
    refine or_congr_right ⟨fun ⟨hk, _⟩ => by cases hk; rfl, ?_⟩
    rintro rfl
    exact ⟨rfl, _, rfl⟩
  -- what was applied to a cell stays on record when its content is taken
  have hsame : ∀ k', (Function.update s.cells k { s.cells k with content := none } k').applied =
      (s.cells k').applied :=
    forall_update (p := fun k' (cell : Cell I S U) => cell.applied = (s.cells k').applied) rfl
      fun _ => rfl
  exact
    { pointers := h.pointers
      swapped := fun j' k' hk => h.swapped j' k' ((hcells j').symm.trans hk)
      owner := fun k' hk => (h.owner k' hk).imp fun j' hj' => (hcells j').trans hj'
      unique := fun j' j'' k' hk hk' =>
        h.unique j' j'' k' ((hcells j').symm.trans hk) ((hcells j'').symm.trans hk')
      excluded := fun i j' k' hreads =>
        forall_update (p := fun _ (pc : CheckpointPc S) => ¬ pc.Writes k')
          (fun hk => h.excluded i j k' hreads (by rw [hpc]; exact hk))
          (fun j' => h.excluded i j' k' hreads) j'
      untaken := fun i k' happlies hk' => by
        rcases (htaken k').mp hk' with hk | rfl
        · exact h.untaken i k' happlies hk
        · exact h.excluded i j k' happlies.reads (by rw [hpc]; rfl)
      content := fun k' hk' => by
        have hne : k' ≠ k := fun hk => hk' ((htaken k').mpr (.inr hk))
        have hold : ¬ s.Taken k' := fun hk => hk' ((htaken k').mpr (.inl hk))
        simpa [Function.update_of_ne hne] using h.content k' hold
      result := fun j' k' r hk hr => by
        by_cases hj : j' = j
        · subst hj
          rw [hself] at hk hr
          cases hk
          cases hr
          refine ⟨?_, by simp⟩
          rw [h.content k huntaken, Cell.state, Cell.state, hsame]
        · have hne : k' ≠ k := fun hk' => by
            rw [hother j' hj] at hk
            exact hj (h.unique j' j k (hk' ▸ hk) hcell)
          rw [hother j' hj] at hk hr
          simpa [Function.update_of_ne hne] using h.result j' k' r hk hr
      placed := fun i k' => by
        have hplaced := h.placed i k'
        rw [Cell.by] at hplaced ⊢
        rw [hsame]
        exact hplaced }

/-- **One step** keeps the invariant. -/
theorem Inv.step (h : Inv fresh apply us s) {s' : Shared I C S U} (hstep : Step apply us s s') :
    Inv fresh apply us s' := by
  -- a log holds its cell from the read lock to the unlock; a checkpoint takes a cell that no log
  -- holds
  cases hstep with
  | load hpc =>
      refine h.setLog (fun k hk => hk ▸ le_refl _) (fun _ _ hk => hk.elim) (fun _ hk => hk.elim) ?_
      rw [hpc]
      exact fun _ _ hplaced => hplaced
  | readLock hpc hfree =>
      refine h.setLog (fun k hk => h.pointers _ k (by rw [hpc]; exact hk))
        (fun k j hk => hk ▸ hfree j) (fun _ hk => hk.elim) ?_
      rw [hpc]
      exact fun _ _ hplaced => hplaced
  | readFails hpc _ =>
      refine h.setLog (fun _ hk => hk.elim) (fun _ _ hk => hk.elim) (fun _ hk => hk.elim) ?_
      rw [hpc]
      exact fun _ _ hplaced => hplaced
  | enter hpc hsome =>
      refine h.setLog (fun k hk => h.pointers _ k (by rw [hpc]; exact hk))
        (fun k j hk => h.excluded _ j k (by rw [hpc]; exact hk)) ?_ ?_
      · -- the option is not empty, so nobody took it
        rintro k' rfl ⟨j, r, hk, hr⟩
        rw [(h.result j _ r hk hr).2] at hsome
        cases hsome
      · intro k' p hplaced
        rw [hpc] at hplaced
        simp only [LogPc.todo, LogPc.due, List.append_nil] at hplaced ⊢
        rw [hplaced, List.nil_append]
  | retry hpc _ =>
      refine h.setLog (fun _ hk => hk.elim) (fun _ _ hk => hk.elim) (fun _ hk => hk.elim) ?_
      rw [hpc]
      exact fun _ _ hplaced => hplaced
  | apply hpc => exact h.update hpc
  | finish hpc =>
      refine h.setLog (fun k hk => h.pointers _ k (by rw [hpc]; exact hk)) (fun _ _ hk => hk.elim)
        (fun _ hk => hk.elim) ?_
      rw [hpc]
      intro k p hplaced
      simpa [LogPc.todo, LogPc.due] using hplaced
  | swap hpc => exact h.swap hpc
  | writeLock hpc hreaders _ =>
      exact h.setCheckpoint (by rw [hpc]; rfl) (by rw [hpc]; rfl)
        fun i k hreads hk => hreaders i (hk ▸ hreads)
  | take hpc => exact h.take hpc
  | release hpc =>
      exact h.setCheckpoint (by rw [hpc]; rfl) (by rw [hpc]; rfl) fun _ _ _ hk => hk

/-- **A run** keeps the invariant. -/
theorem Inv.steps (h : Inv fresh apply us s) {s' : Shared I C S U}
    (hsteps : Steps apply us s s') : Inv fresh apply us s' := by
  induction hsteps with
  | refl => exact h
  | tail _ hstep ih => exact ih.step hstep

/-! ### Places -/

/-- The cell of a place: the current one, or the one that a checkpoint swapped out. -/
def Shared.place (s : Shared I C S U) : Option C → Option (Cell I S U)
  | none => some (s.cells s.current)
  | some j => (s.checkpoints j).cell?.map s.cells

/-- The state in a place: what a checkpoint took, once it has. -/
def Shared.stateIn (s : Shared I C S U) : Option C → Option S
  | none => (s.cells s.current).content
  | some j => ((s.checkpoints j).result?.or ((s.place (some j)).map (·.content))).join

/-- The updates of a call in a place. -/
def Shared.updatesIn (s : Shared I C S U) (i : I) (p : Option C) : List U :=
  ((s.place p).map (·.by i)).getD []

omit [DecidableEq C] in
/-- The updates of a finished call are in the cell that it wrote to. -/
theorem Inv.by_of_done (h : Inv fresh apply us s) {i : I} {k : Nat} (hdone : s.logging i = .done k)
    (k' : Nat) : (s.cells k').by i = if k = k' then us i else [] := by
  have hplaced := h.placed i k'
  rw [hdone] at hplaced
  simpa [LogPc.todo, LogPc.due] using hplaced

omit [DecidableEq C] in
/-- **A finished call** has all its updates in one place and none in another. -/
theorem Inv.placed_once (h : Inv fresh apply us s) {i : I} {k : Nat}
    (hdone : s.logging i = .done k) :
    ∃ p, s.updatesIn i p = us i ∧ ∀ p', p' ≠ p → s.updatesIn i p' = [] := by
  have hby := h.by_of_done hdone
  have hle : k ≤ s.current := h.pointers i k (by rw [hdone]; rfl)
  by_cases hcurrent : k = s.current
  · refine ⟨none, by simp [Shared.updatesIn, Shared.place, hby, hcurrent], fun p' hp' => ?_⟩
    obtain ⟨j, rfl⟩ := Option.ne_none_iff_exists'.mp hp'
    cases hcell : (s.checkpoints j).cell? with
    | none => simp [Shared.updatesIn, Shared.place, hcell]
    | some k' =>
        have hlt := h.swapped j k' hcell
        have hne : k ≠ k' := by omega
        simp [Shared.updatesIn, Shared.place, hcell, hby, hne]
  · obtain ⟨j, hj⟩ := h.owner k (by omega)
    refine ⟨some j, by simp [Shared.updatesIn, Shared.place, hj, hby], fun p' hp' => ?_⟩
    cases p' with
    | none => simp [Shared.updatesIn, Shared.place, hby, hcurrent]
    | some j' =>
        cases hcell : (s.checkpoints j').cell? with
        | none => simp [Shared.updatesIn, Shared.place, hcell]
        | some k' =>
            have hne : k ≠ k' := fun hk => hp' (congrArg some (h.unique j' j k (hk ▸ hcell) hj))
            simp [Shared.updatesIn, Shared.place, hcell, hby, hne]

omit [DecidableEq C] in
/-- **The state in a place** is what its updates make of a new state. -/
theorem Inv.stateIn_eq (h : Inv fresh apply us s) {p : Option C} {cell : Cell I S U}
    (hplace : s.place p = some cell) : s.stateIn p = some (cell.state fresh apply) := by
  cases p with
  | none =>
      cases hplace
      refine h.content s.current ?_
      rintro ⟨j, r, hk, -⟩
      exact absurd (h.swapped j _ hk) (lt_irrefl _)
  | some j =>
      obtain ⟨k, hk, rfl⟩ := Option.map_eq_some_iff.mp hplace
      cases hr : (s.checkpoints j).result? with
      | some r => simp [Shared.stateIn, hr, (h.result j k r hk hr).1]
      | none =>
          have huntaken : ¬ s.Taken k := by
            rintro ⟨j', r, hk', hr'⟩
            rw [h.unique j' j k hk' hk, hr] at hr'
            cases hr'
          simp [Shared.stateIn, hr, hplace, h.content k huntaken]

end Steps

/-- What a `checkpoint` returns, given what it took. -/
def checkpointResult (taken : Option ResolveInfoState) : WriteFlagLogsRequest :=
  (taken.map report).getD {}

/-- **`ResolveLogger` loses and duplicates nothing**: in any interleaving, the updates of a
finished `log_resolve` are all in one place and none of them in another; the state of a place is
what the updates there make of a new state, and what a checkpoint returns reports it; no update
is made to a state that was taken; and the updates of a `log_resolve`, one after the other, are
the whole of it. -/
theorem resolves_placed {I C : Type*} [DecidableEq I] [DecidableEq C] {resolves : I → LoggedResolve}
    {s : Shared I C ResolveInfoState Update}
    (hsteps : Steps ResolveInfoState.apply (fun i => updates (resolves i)) (.start {}) s) :
    (∀ i k, s.logging i = .done k → ∃ p, s.updatesIn i p = updates (resolves i) ∧
        ∀ p', p' ≠ p → s.updatesIn i p' = []) ∧
      (∀ p cell, s.place p = some cell → s.stateIn p = some (cell.state {} .apply)) ∧
      (∀ j k r, s.checkpoints j = .done k r →
        checkpointResult r = report ((s.cells k).state {} .apply)) ∧
      (∀ i k u todo, s.logging i = .applying k (u :: todo) → (s.cells k).content ≠ none) ∧
      ∀ i state, ResolveInfoState.log state (resolves i) =
        (updates (resolves i)).foldl .apply state := by
  have h := (inv_start {} ResolveInfoState.apply fun i => updates (resolves i)).steps hsteps
  refine ⟨fun i k hdone => h.placed_once hdone, fun p cell hplace => h.stateIn_eq hplace, ?_, ?_,
    fun i state => state.log_eq (resolves i)⟩
  · intro j k r hdone
    have hresult := (h.result j k r (by rw [hdone]; rfl) (by rw [hdone]; rfl)).1
    rw [hresult]
    rfl
  · intro i k u todo hpc
    rw [h.content k (h.untaken i k (by rw [hpc]; rfl))]
    exact Option.some_ne_none _

namespace Sample

/-- A resolve without flags: only its schema is logged. -/
def resolve : LoggedResolve :=
  ⟨⟨[("country", .string)], []⟩, "clients/web/clientCredentials/key", [], 0⟩

end Sample

/-- A resolve is logged while a checkpoint swaps its cell out, and is in what the checkpoint
takes. -/
theorem resolves_placed_sample :
    ∃ s : Shared Unit Unit ResolveInfoState Update,
      Steps ResolveInfoState.apply (fun _ => updates Sample.resolve) (.start {}) s ∧
        s.checkpoints () = .done 0 (some (ResolveInfoState.log {} Sample.resolve)) ∧
        ∃ p, s.updatesIn () p = updates Sample.resolve ∧ ∀ p', p' ≠ p → s.updatesIn () p' = [] := by
  have hlogged : Steps ResolveInfoState.apply (fun _ => updates Sample.resolve) (.start {}) _ :=
    .tail (.tail (.tail (.tail (.tail (.tail .refl (.load (i := ()) rfl))
      (.readLock (i := ()) (k := 0) rfl fun _ h => h)) (.enter (i := ()) (k := 0) rfl rfl))
      (.swap (j := ()) rfl)) (.apply (i := ()) (k := 0) rfl)) (.finish (i := ()) (k := 0) rfl)
  have htaken := ((hlogged.tail (.writeLock (j := ()) (k := 0) rfl (fun _ h => h)
    fun _ h => h)).tail (.take (j := ()) (k := 0) rfl)).tail (.release (j := ()) rfl)
  exact ⟨_, htaken, rfl, (resolves_placed htaken).1 () 0 rfl⟩

end ResolveLogger

end ConfidenceResolver
