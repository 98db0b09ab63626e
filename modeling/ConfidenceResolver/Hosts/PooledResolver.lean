import Mathlib.Algebra.Order.Ring.Nat
import Mathlib.Data.List.Nodup
import Mathlib.Logic.Function.Basic
import Mathlib.Logic.Relation

/-!
# Hosts — the pool of resolvers

A provider shares several resolvers among its threads.  A call for one resolve takes some slot
whose lock it can read, the next in turn first; maintenance (a new state, a flush, the close) takes
every slot in order, with its lock written.  In Go a mutex keeps two maintenance calls apart; in
Java they may overlap.

* `Slot.admits`, `slotIndex`: the attempt of a read.
* `step`: one step of one thread, `Move`: its kinds.
* `Locks`, `Jobs`: what holds in every reachable state, whatever the threads do.
* `Agree`: what Go's mutex adds.
-/

namespace ConfidenceResolver

namespace Pool

/-- The two implementations. -/
inductive Impl where
  | go | java
  deriving DecidableEq, Repr

variable {Q M E : Type}

/-- A call of the resolver in a slot.  A maintenance call of the pool has an id. -/
inductive Call (Q M : Type) where
  | read (q : Q)
  | maintain (id : Nat) (op : M)
  deriving DecidableEq, Repr

/-- `slot`: the calls its resolver has had, and who holds, awaits or writes its lock. -/
structure Slot (Q M : Type) where
  calls : List (Call Q M)
  readers : List Nat
  pending : Option Nat
  writer : Option Nat
  deriving DecidableEq, Repr

/-- A new slot. -/
def Slot.fresh : Slot Q M := ⟨[], [], none, none⟩

/-- The maintenance calls the resolver has had, by their ids. -/
def Slot.log (slot : Slot Q M) : List (Nat × M) :=
  slot.calls.filterMap fun
    | .read _ => none
    | .maintain id op => some (id, op)

def Slot.ids (slot : Slot Q M) : List Nat := slot.log.map Prod.fst

/-- The lock can be read at once: `TryRLock` also refuses while a writer waits, `tryLock` does
not. -/
def Slot.admits (k : Impl) (slot : Slot Q M) : Bool :=
  slot.writer.isNone && (k == .java || slot.pending.isNone)

/-- The slot of a value of the counter: `idx % n`, of an unsigned number in Go, of a signed one
without its sign in Java. -/
def slotIndex (k : Impl) (n rr : Nat) : Nat :=
  match k with
  | .go => rr % n
  | .java => if rr < 2 ^ 63 then rr % n else (2 ^ 64 - rr) % n

/-- A maintenance call of the pool on its way through the slots. -/
structure Job (M E : Type) where
  id : Nat
  op : M
  errs : List (Nat × E)
  deriving DecidableEq, Repr

/-- Where a thread is.  `since` are the maintenance calls that had returned when it began. -/
inductive Thread (Q M E : Type) where
  | idle
  | trying (q : Q) (since : List Nat)
  | reading (i : Nat) (q : Q) (since : List Nat)
  | leaving (i : Nat) (since : List Nat)
  | queued (job : Job M E)
  | locking (i : Nat) (job : Job M E)
  | waiting (i : Nat) (job : Job M E)
  | writing (i : Nat) (job : Job M E)
  deriving DecidableEq, Repr

/-- The pool and its threads.  `completed` are the maintenance calls that went through all slots,
with what they reported. -/
structure State (Q M E : Type) where
  slots : Nat → Slot Q M
  rr : Nat
  mmu : Option Nat
  threads : Nat → Thread Q M E
  issued : Nat
  completed : List (Job M E)

namespace State

variable (s : State Q M E)

def init : State Q M E := ⟨fun _ => .fresh, 0, none, fun _ => .idle, 0, []⟩

def goto (t : Nat) (th : Thread Q M E) : State Q M E :=
  { s with threads := Function.update s.threads t th }

def setSlot (i : Nat) (slot : Slot Q M) : State Q M E :=
  { s with slots := Function.update s.slots i slot }

/-- The ids of the maintenance calls that have returned. -/
def returned : List Nat := s.completed.map Job.id

/-- The slot `i` is done: the next one, or the end of the loop. -/
def advance (n t i : Nat) (job : Job M E) : State Q M E :=
  if i + 1 < n then s.goto t (.locking (i + 1) job)
  else { s.goto t .idle with mmu := none, completed := s.completed ++ [job] }

end State

/-- What a thread starts, or that it goes on. -/
inductive Action (Q M : Type) where
  | read (q : Q)
  | maintain (op : M)
  | go
  deriving DecidableEq, Repr

/-- One step of the thread `t` over `n` slots, unless it has to wait.  `fails` is the error that a
resolver with these calls answers a maintenance call with.  Go collects the errors; in Java the
exception ends the loop. -/
def step (k : Impl) (n : Nat) (fails : List (Call Q M) → M → Option E) (t : Nat)
    (a : Action Q M) (s : State Q M E) : Option (State Q M E) :=
  match s.threads t, a with
  | .idle, .read q => some (s.goto t (.trying q s.returned))
  | .idle, .maintain op =>
      let job : Job M E := ⟨s.issued, op, []⟩
      some { s.goto t (if k = .go then .queued job else .locking 0 job) with
        issued := s.issued + 1 }
  | .trying q since, .go =>
      let rr := (s.rr + 1) % 2 ^ 64
      let i := slotIndex k n rr
      let slot := s.slots i
      if slot.admits k then
        some { (s.setSlot i { slot with readers := t :: slot.readers }).goto t
          (.reading i q since) with rr := rr }
      else some { s with rr := rr }
  | .reading i q since, .go =>
      let slot := s.slots i
      some ((s.setSlot i { slot with calls := slot.calls ++ [.read q] }).goto t (.leaving i since))
  | .leaving i _, .go =>
      let slot := s.slots i
      some ((s.setSlot i { slot with readers := slot.readers.erase t }).goto t .idle)
  | .queued job, .go =>
      if s.mmu = none then some { s.goto t (.locking 0 job) with mmu := some t } else none
  | .locking i job, .go =>
      let slot := s.slots i
      if slot.pending = none ∧ slot.writer = none then
        some ((s.setSlot i { slot with pending := some t }).goto t (.waiting i job))
      else none
  | .waiting i job, .go =>
      let slot := s.slots i
      if slot.readers = [] then
        some ((s.setSlot i { slot with pending := none, writer := some t }).goto t
          (.writing i job))
      else none
  | .writing i job, .go =>
      let slot := s.slots i
      let done := s.setSlot i
        { slot with calls := slot.calls ++ [.maintain job.id job.op], writer := none }
      match fails slot.calls job.op with
      | none => some (done.advance n t i job)
      | some e =>
          if k = .go then some (done.advance n t i { job with errs := job.errs ++ [(i, e)] })
          else some (done.goto t .idle)
  | _, _ => none

/-- What is reachable from `s`, with the threads in any order. -/
def Reaches (k : Impl) (n : Nat) (fails : List (Call Q M) → M → Option E)
    (s s' : State Q M E) : Prop :=
  Relation.ReflTransGen (fun s s' => ∃ t a, step k n fails t a s = some s') s s'

def Reachable (k : Impl) (n : Nat) (fails : List (Call Q M) → M → Option E)
    (s : State Q M E) : Prop :=
  Reaches k n fails State.init s

/-! ### The kinds of steps -/

variable (k : Impl) (n : Nat) (fails : List (Call Q M) → M → Option E)

/-- The state after the slot `i` has got its call of `job` and its lock is given up. -/
def State.worked (s : State Q M E) (i : Nat) (job : Job M E) : State Q M E :=
  s.setSlot i { s.slots i with
    calls := (s.slots i).calls ++ [.maintain job.id job.op], writer := none }

/-- The steps of the thread `t`, by what it does. -/
inductive Move (t : Nat) (s : State Q M E) : State Q M E → Prop where
  | begin (q : Q) (h : s.threads t = .idle) : Move t s (s.goto t (.trying q s.returned))
  | issue (op : M) (th : Thread Q M E) (h : s.threads t = .idle)
      (hgo : k = .go → th = .queued ⟨s.issued, op, []⟩)
      (hjava : k = .java → th = .locking 0 ⟨s.issued, op, []⟩) :
      Move t s { s.goto t th with issued := s.issued + 1 }
  | refused (q : Q) (since : List Nat) (rr : Nat) (h : s.threads t = .trying q since) :
      Move t s { s with rr := rr }
  | enter (q : Q) (since : List Nat) (i rr : Nat) (h : s.threads t = .trying q since)
      (hi : i = slotIndex k n rr) (hadmits : (s.slots i).admits k = true) :
      Move t s { (s.setSlot i { s.slots i with readers := t :: (s.slots i).readers }).goto t
        (.reading i q since) with rr := rr }
  | call (i : Nat) (q : Q) (since : List Nat) (h : s.threads t = .reading i q since) :
      Move t s ((s.setSlot i { s.slots i with
        calls := (s.slots i).calls ++ [.read q] }).goto t (.leaving i since))
  | leave (i : Nat) (since : List Nat) (h : s.threads t = .leaving i since) :
      Move t s ((s.setSlot i { s.slots i with
        readers := (s.slots i).readers.erase t }).goto t .idle)
  | serialize (job : Job M E) (h : s.threads t = .queued job) (hfree : s.mmu = none) :
      Move t s { s.goto t (.locking 0 job) with mmu := some t }
  | announce (i : Nat) (job : Job M E) (h : s.threads t = .locking i job)
      (hpending : (s.slots i).pending = none) (hwriter : (s.slots i).writer = none) :
      Move t s ((s.setSlot i { s.slots i with pending := some t }).goto t (.waiting i job))
  | acquire (i : Nat) (job : Job M E) (h : s.threads t = .waiting i job)
      (hreaders : (s.slots i).readers = []) :
      Move t s ((s.setSlot i { s.slots i with pending := none, writer := some t }).goto t
        (.writing i job))
  | proceed (i : Nat) (job job' : Job M E) (h : s.threads t = .writing i job)
      (hid : job'.id = job.id) (hop : job'.op = job.op) (hnext : i + 1 < n) :
      Move t s ((s.worked i job).goto t (.locking (i + 1) job'))
  | finish (i : Nat) (job job' : Job M E) (h : s.threads t = .writing i job)
      (hid : job'.id = job.id) (hop : job'.op = job.op) (hlast : ¬ i + 1 < n) :
      Move t s { (s.worked i job).goto t .idle with
        mmu := none, completed := s.completed ++ [job'] }
  | abort (i : Nat) (job : Job M E) (h : s.threads t = .writing i job) (hjava : k = .java) :
      Move t s ((s.worked i job).goto t .idle)

variable {k n fails} {t : Nat} {a : Action Q M} {s s' : State Q M E}

theorem advance_move {i : Nat} {job job' : Job M E} (h : s.threads t = .writing i job)
    (hid : job'.id = job.id) (hop : job'.op = job.op) :
    Move k n t s ((s.worked i job).advance n t i job') := by
  rw [State.advance]
  split
  · next hnext => exact .proceed i job job' h hid hop hnext
  · next hlast => exact .finish i job job' h hid hop hlast

theorem step_move (h : step k n fails t a s = some s') : Move k n t s s' := by
  rcases hthread : s.threads t with
    _ | ⟨q, since⟩ | ⟨i, q, since⟩ | ⟨i, since⟩ | job | ⟨i, job⟩ | ⟨i, job⟩ | ⟨i, job⟩
  all_goals cases a with
  | read q => ?_
  | maintain op => ?_
  | go => ?_
  -- most actions are not enabled at most program counters
  all_goals simp only [step, hthread, reduceCtorEq, Option.some.injEq] at h
  · subst h
    exact .begin _ hthread
  · subst h
    refine .issue op _ hthread (fun hk => if_pos hk) fun hk => if_neg ?_
    rw [hk]
    simp
  · split at h
    · next hadmits => cases h; exact .enter q since _ _ hthread rfl hadmits
    · cases h; exact .refused q since _ hthread
  · subst h
    exact .call i q since hthread
  · subst h
    exact .leave i since hthread
  · split at h
    · next hfree => cases h; exact .serialize job hthread hfree
    · cases h
  · split at h
    · next hfree => cases h; exact .announce i job hthread hfree.1 hfree.2
    · cases h
  · split at h
    · next hfree => cases h; exact .acquire i job hthread hfree
    · cases h
  · split at h
    · cases h; exact advance_move hthread rfl rfl
    · split at h
      · cases h; exact advance_move hthread rfl rfl
      · next hk =>
          cases h
          exact .abort i job hthread (by cases k with | go => exact absurd rfl hk | java => rfl)

/-! ### Locks -/

/-- How a thread can be at a lock. -/
inductive Role where
  | reader | waiter | writer
  deriving DecidableEq, Repr

/-- The thread is at the lock of the slot. -/
def Slot.Held (slot : Slot Q M) (t : Nat) : Role → Prop
  | .reader => t ∈ slot.readers
  | .waiter => slot.pending = some t
  | .writer => slot.writer = some t

/-- The lock that the thread is at. -/
def Thread.hold : Thread Q M E → Option (Role × Nat)
  | .reading i _ _ | .leaving i _ => some (.reader, i)
  | .waiting i _ => some (.waiter, i)
  | .writing i _ => some (.writer, i)
  | _ => none

/-- The locks are held by the threads that are at them, and who writes is alone. -/
structure Locks (s : State Q M E) : Prop where
  holds : ∀ i r t, (s.slots i).Held t r ↔ (s.threads t).hold = some (r, i)
  nodup : ∀ i, (s.slots i).readers.Nodup
  alone : ∀ i, (s.slots i).writer ≠ none → (s.slots i).readers = [] ∧ (s.slots i).pending = none

namespace Locks

theorem init : Locks (State.init : State Q M E) where
  holds := by
    intro i r t
    cases r <;> simp [State.init, Slot.fresh, Slot.Held, Thread.hold]
  nodup := by simp [State.init, Slot.fresh]
  alone := by simp [State.init, Slot.fresh]

variable {th : Thread Q M E} {i : Nat} {slot : Slot Q M}

/-- A thread that moves without a lock. -/
theorem thread (h : Locks s) (hslots : s'.slots = s.slots)
    (hthreads : s'.threads = Function.update s.threads t th)
    (hhold : th.hold = (s.threads t).hold) : Locks s' where
  holds := by
    intro j r t'
    rw [hslots, hthreads, h.holds j r t']
    by_cases ht : t' = t
    · rw [ht, Function.update_self, hhold]
    · rw [Function.update_of_ne ht]
  nodup := by simpa [hslots] using h.nodup
  alone := by simpa [hslots] using h.alone

/-- A thread that changes how it is at the lock of the slot `i`. -/
theorem lock (h : Locks s) (hslots : s'.slots = Function.update s.slots i slot)
    (hthreads : s'.threads = Function.update s.threads t th)
    (hothers : ∀ r t', t' ≠ t → (slot.Held t' r ↔ (s.slots i).Held t' r))
    (hself : ∀ r, slot.Held t r ↔ th.hold = some (r, i))
    (helse : ∀ r j, j ≠ i → (th.hold = some (r, j) ↔ (s.threads t).hold = some (r, j)))
    (hnodup : slot.readers.Nodup)
    (halone : slot.writer ≠ none → slot.readers = [] ∧ slot.pending = none) : Locks s' where
  holds := by
    intro j r t'
    rw [hslots, hthreads]
    by_cases hj : j = i
    · subst hj
      rw [Function.update_self]
      by_cases ht : t' = t
      · rw [ht, Function.update_self, hself]
      · rw [Function.update_of_ne ht, hothers r t' ht, h.holds]
    · rw [Function.update_of_ne hj, h.holds]
      by_cases ht : t' = t
      · rw [ht, Function.update_self, helse r j hj]
      · rw [Function.update_of_ne ht]
  nodup := by
    intro j
    rw [hslots, Function.update_apply]
    split
    · exact hnodup
    · exact h.nodup j
  alone := by
    intro j
    rw [hslots, Function.update_apply]
    split
    · exact halone
    · exact h.alone j

/-- The write lock of the slot `i` is given up. -/
theorem release (h : Locks s) {job : Job M E} (ht : s.threads t = .writing i job)
    (hslots : s'.slots = (s.worked i job).slots)
    (hthreads : s'.threads = Function.update s.threads t th) (hhold : th.hold = none) :
    Locks s' := by
  have hwriter : (s.slots i).writer = some t := (h.holds i .writer t).mpr (by rw [ht]; rfl)
  obtain ⟨hreaders, hpending⟩ := h.alone i (by simp [hwriter])
  refine h.lock hslots hthreads ?_ ?_ ?_ (h.nodup i) (by simp)
  · intro r t' hne
    cases r <;> simp [Slot.Held, hwriter, Ne.symm hne]
  · intro r
    cases r <;> simp [Slot.Held, hhold, hreaders, hpending]
  · intro r j hj
    rw [hhold, ht]
    simp [Thread.hold, Ne.symm hj]

theorem move (h : Locks s) (hm : Move k n t s s') : Locks s' := by
  cases hm with
  | begin q ht => exact h.thread rfl rfl (by simp [ht, Thread.hold])
  | issue op th ht hgo hjava =>
      refine h.thread rfl rfl ?_
      cases k with
      | go => simp [hgo rfl, ht, Thread.hold]
      | java => simp [hjava rfl, ht, Thread.hold]
  | refused q since rr ht => exact ⟨h.holds, h.nodup, h.alone⟩
  | enter q since i rr ht hi hadmits =>
      have hwriter : (s.slots i).writer = none := by
        simp only [Slot.admits, Bool.and_eq_true, Option.isNone_iff_eq_none] at hadmits
        exact hadmits.1
      -- whoever is about to enter holds nothing
      have hout : ∀ r, ¬ (s.slots i).Held t r := fun r hheld => by
        have hhold := (h.holds i r t).mp hheld
        rw [ht] at hhold
        cases hhold
      refine h.lock rfl rfl ?_ ?_ ?_ (List.nodup_cons.mpr ⟨hout .reader, h.nodup i⟩) ?_
      · intro r t' hne
        cases r <;> simp [Slot.Held, hne]
      · intro r
        have hnot := hout r
        cases r
        · simp [Slot.Held, Thread.hold]
        · simpa [Slot.Held, Thread.hold] using hnot
        · simpa [Slot.Held, Thread.hold] using hnot
      · intro r j hj
        simp [ht, Thread.hold, Ne.symm hj]
      · exact fun hsome => absurd hwriter hsome
  | call i q since ht =>
      refine h.lock rfl rfl (fun r t' hne => ?_) (fun r => ?_) (fun r j hj => ?_) (h.nodup i)
        (h.alone i)
      · cases r <;> simp [Slot.Held]
      · have hheld := h.holds i r t
        rw [ht] at hheld
        cases r <;> simpa [Slot.Held, Thread.hold] using hheld
      · simp [ht, Thread.hold]
  | leave i since ht =>
      refine h.lock rfl rfl (fun r t' hne => ?_) (fun r => ?_) (fun r j hj => ?_)
        ((h.nodup i).erase t) (fun hsome => ?_)
      · cases r <;> simp [Slot.Held, (h.nodup i).mem_erase_iff, hne]
      · have hheld := h.holds i r t
        rw [ht] at hheld
        cases r
        · simp [Slot.Held, Thread.hold, (h.nodup i).mem_erase_iff]
        · simpa [Slot.Held, Thread.hold] using hheld
        · simpa [Slot.Held, Thread.hold] using hheld
      · simp [ht, Thread.hold, Ne.symm hj]
      · obtain ⟨hreaders, hpending⟩ := h.alone i hsome
        exact ⟨by simp [hreaders], hpending⟩
  | serialize job ht hfree => exact h.thread rfl rfl (by simp [ht, Thread.hold])
  | announce i job ht hpending hwriter =>
      refine h.lock rfl rfl (fun r t' hne => ?_) (fun r => ?_) (fun r j hj => ?_) (h.nodup i)
        (fun hsome => absurd hwriter hsome)
      · cases r <;> simp [Slot.Held, hpending, Ne.symm hne]
      · have hheld := h.holds i r t
        rw [ht] at hheld
        cases r
        · simpa [Slot.Held, Thread.hold] using hheld
        · simp [Slot.Held, Thread.hold]
        · simp [Slot.Held, Thread.hold, hwriter]
      · simp [ht, Thread.hold, Ne.symm hj]
  | acquire i job ht hreaders =>
      -- the announcement that is pending is its own, and a slot with a writer has none
      have hpending : (s.slots i).pending = some t := (h.holds i .waiter t).mpr (by rw [ht]; rfl)
      have hwriter : (s.slots i).writer = none := by
        by_contra hsome
        simp [(h.alone i hsome).2] at hpending
      refine h.lock rfl rfl (fun r t' hne => ?_) (fun r => ?_) (fun r j hj => ?_) (h.nodup i)
        (fun _ => ⟨hreaders, rfl⟩)
      · cases r <;> simp [Slot.Held, hpending, hwriter, Ne.symm hne]
      · cases r <;> simp [Slot.Held, Thread.hold, hreaders]
      · simp [ht, Thread.hold, Ne.symm hj]
  | proceed i job job' ht hid hop hnext => exact h.release ht rfl rfl rfl
  | finish i job job' ht hid hop hlast => exact h.release ht rfl rfl rfl
  | abort i job ht hk => exact h.release ht rfl rfl rfl

end Locks

/-! ### Maintenance calls -/

/-- The maintenance call of a thread, and how many slots it has been through. -/
def Thread.job : Thread Q M E → Option (Nat × Job M E)
  | .queued job => some (0, job)
  | .locking i job | .waiting i job | .writing i job => some (i, job)
  | _ => none

/-- The maintenance calls that had returned when the thread began its read. -/
def Thread.since : Thread Q M E → List Nat
  | .trying _ since | .reading _ _ since | .leaving _ since => since
  | _ => []

/-- A maintenance call has been made once in each slot that it is through, and in no other; one
that has returned, in all.  A read began after the calls in its `since`. -/
structure Jobs (n : Nat) (s : State Q M E) : Prop where
  below : ∀ t i job, (s.threads t).job = some (i, job) → i < n ∧ job.id < s.issued
  unique : ∀ t t' i i' job job', (s.threads t).job = some (i, job) →
    (s.threads t').job = some (i', job') → job.id = job'.id → t = t'
  passed : ∀ t i job, (s.threads t).job = some (i, job) →
    ∀ j < n, (job.id ∈ (s.slots j).ids ↔ j < i)
  once : ∀ j, (s.slots j).ids.Nodup
  issued : ∀ j, ∀ id ∈ (s.slots j).ids, id < s.issued
  returned : ∀ id ∈ s.returned, id < s.issued ∧ ∀ j < n, id ∈ (s.slots j).ids
  retired : ∀ id ∈ s.returned, ∀ t i job, (s.threads t).job = some (i, job) → job.id ≠ id
  since : ∀ t, ∀ id ∈ (s.threads t).since, id ∈ s.returned

@[simp] theorem Slot.ids_append_read (slot : Slot Q M) (q : Q) (rs : List Nat)
    (p w : Option Nat) :
    Slot.ids ⟨slot.calls ++ [.read q], rs, p, w⟩ = slot.ids := by
  simp [Slot.ids, Slot.log]

@[simp] theorem Slot.ids_append_maintain (slot : Slot Q M) (id : Nat) (op : M) (rs : List Nat)
    (p w : Option Nat) :
    Slot.ids ⟨slot.calls ++ [.maintain id op], rs, p, w⟩ = slot.ids ++ [id] := by
  simp [Slot.ids, Slot.log]

namespace Jobs

theorem init : Jobs n (State.init : State Q M E) := by
  constructor <;> simp [State.init, Slot.fresh, Slot.ids, Slot.log, Thread.job, Thread.since,
    State.returned]

variable {th : Thread Q M E} {i : Nat}

/-- A thread that moves without a maintenance call in a slot. -/
theorem quiet (h : Jobs n s) (hids : ∀ j, (s'.slots j).ids = (s.slots j).ids)
    (hthreads : s'.threads = Function.update s.threads t th)
    (hjob : th.job = (s.threads t).job) (hsince : ∀ id ∈ th.since, id ∈ s.returned)
    (hissued : s'.issued = s.issued) (hreturned : s'.returned = s.returned) : Jobs n s' := by
  have hjobs : ∀ t', (s'.threads t').job = (s.threads t').job := by
    intro t'
    rw [hthreads, Function.update_apply]
    split
    · next ht => rw [ht, hjob]
    · rfl
  constructor
  · simpa only [hjobs, hissued] using h.below
  · simpa only [hjobs] using h.unique
  · simpa only [hjobs, hids] using h.passed
  · simpa only [hids] using h.once
  · simpa only [hids, hissued] using h.issued
  · simpa only [hids, hissued, hreturned] using h.returned
  · simpa only [hjobs, hreturned] using h.retired
  · intro t' id hid
    rw [hthreads, Function.update_apply] at hid
    rw [hreturned]
    split at hid
    · exact hsince id hid
    · exact h.since t' id hid

/-- A new maintenance call has been through no slot. -/
theorem issue (h : Jobs n s) (hn : 0 < n) {op : M} (hslots : s'.slots = s.slots)
    (hthreads : s'.threads = Function.update s.threads t th)
    (hjob : th.job = some (0, ⟨s.issued, op, []⟩)) (hsince : th.since = [])
    (hissued : s'.issued = s.issued + 1) (hreturned : s'.returned = s.returned) : Jobs n s' := by
  -- every job but the new one is what it was
  have hcases : ∀ {t' i job}, (s'.threads t').job = some (i, job) →
      (t' = t ∧ i = 0 ∧ job.id = s.issued) ∨ (t' ≠ t ∧ (s.threads t').job = some (i, job)) := by
    intro t' i job ht'
    rw [hthreads] at ht'
    by_cases heq : t' = t
    · rw [heq, Function.update_self, hjob] at ht'
      cases ht'
      exact .inl ⟨heq, rfl, rfl⟩
    · rw [Function.update_of_ne heq] at ht'
      exact .inr ⟨heq, ht'⟩
  constructor
  · intro t' i job ht'
    rw [hissued]
    rcases hcases ht' with ⟨-, rfl, hid⟩ | ⟨-, hold⟩
    · exact ⟨hn, by omega⟩
    · exact ⟨(h.below t' i job hold).1, Nat.lt_succ_of_lt (h.below t' i job hold).2⟩
  · intro t₁ t₂ i₁ i₂ job₁ job₂ h₁ h₂ hid
    rcases hcases h₁ with ⟨rfl, -, hid₁⟩ | ⟨-, hold₁⟩ <;>
      rcases hcases h₂ with ⟨rfl, -, hid₂⟩ | ⟨-, hold₂⟩
    · rfl
    · exact absurd (h.below _ _ _ hold₂).2 (by omega)
    · exact absurd (h.below _ _ _ hold₁).2 (by omega)
    · exact h.unique _ _ _ _ _ _ hold₁ hold₂ hid
  · intro t' i job ht' j hj
    rw [hslots]
    rcases hcases ht' with ⟨-, rfl, hid⟩ | ⟨-, hold⟩
    · refine iff_of_false (fun hmem => ?_) (Nat.not_lt_zero j)
      exact absurd (h.issued j _ hmem) (by omega)
    · exact h.passed t' i job hold j hj
  · simpa only [hslots] using h.once
  · intro j id hid
    rw [hslots] at hid
    rw [hissued]
    exact Nat.lt_succ_of_lt (h.issued j id hid)
  · intro id hid
    rw [hreturned] at hid
    rw [hslots, hissued]
    exact ⟨Nat.lt_succ_of_lt (h.returned id hid).1, (h.returned id hid).2⟩
  · intro id hid t' i job ht' heq
    rw [hreturned] at hid
    rcases hcases ht' with ⟨-, -, hnew⟩ | ⟨-, hold⟩
    · exact absurd (h.returned id hid).1 (by omega)
    · exact h.retired id hid t' i job hold heq
  · intro t' id hid
    rw [hthreads, Function.update_apply] at hid
    rw [hreturned]
    split at hid
    · simp [hsince] at hid
    · exact h.since t' id hid

/-- A maintenance call has been made in the slot `i`.  It goes on, or is over for this thread; it
is among the returned ones only when that was the last slot. -/
theorem work (h : Jobs n s) {job : Job M E} (ht : s.threads t = .writing i job)
    (hslots : s'.slots = (s.worked i job).slots)
    (hthreads : s'.threads = Function.update s.threads t th)
    (hjob : ∀ i' job', th.job = some (i', job') → i' = i + 1 ∧ i' < n ∧ job'.id = job.id)
    (hsince : th.since = []) (hissued : s'.issued = s.issued)
    (hreturned : ∀ id ∈ s'.returned, id ∈ s.returned ∨ (id = job.id ∧ n ≤ i + 1 ∧ th.job = none))
    (hkept : ∀ id ∈ s.returned, id ∈ s'.returned) : Jobs n s' := by
  have hmine : (s.threads t).job = some (i, job) := by rw [ht]; rfl
  have hids : ∀ j, (s'.slots j).ids =
      if j = i then (s.slots j).ids ++ [job.id] else (s.slots j).ids := by
    intro j
    simp only [hslots, State.worked, State.setSlot, Function.update_apply]
    split
    · next hj => rw [hj, Slot.ids_append_maintain]
    · rfl
  have hmem : ∀ {j id}, id ∈ (s'.slots j).ids ↔
      id ∈ (s.slots j).ids ∨ (j = i ∧ id = job.id) := by
    intro j id
    rw [hids]
    by_cases hj : j = i <;> simp [hj]
  -- every job but that of `t` is what it was
  have hcases : ∀ {t' i' job'}, (s'.threads t').job = some (i', job') →
      (t' = t ∧ i' = i + 1 ∧ i' < n ∧ job'.id = job.id) ∨
        (t' ≠ t ∧ (s.threads t').job = some (i', job')) := by
    intro t' i' job' ht'
    rw [hthreads] at ht'
    by_cases heq : t' = t
    · rw [heq, Function.update_self] at ht'
      exact .inl ⟨heq, hjob i' job' ht'⟩
    · rw [Function.update_of_ne heq] at ht'
      exact .inr ⟨heq, ht'⟩
  obtain ⟨hi, hfresh⟩ := h.below t i job hmine
  -- the job is not yet in the slot it is written to
  have hnot : job.id ∉ (s.slots i).ids := by
    rw [h.passed t i job hmine i hi]
    exact Nat.lt_irrefl i
  constructor
  · intro t' i' job' ht'
    rw [hissued]
    rcases hcases ht' with ⟨-, -, hlt, hid⟩ | ⟨-, hold⟩
    · exact ⟨hlt, by rw [hid]; exact hfresh⟩
    · exact h.below t' i' job' hold
  · intro t₁ t₂ i₁ i₂ job₁ job₂ h₁ h₂ hid
    rcases hcases h₁ with ⟨rfl, -, -, hid₁⟩ | ⟨-, hold₁⟩ <;>
      rcases hcases h₂ with ⟨rfl, -, -, hid₂⟩ | ⟨-, hold₂⟩
    · rfl
    · exact h.unique _ _ _ _ _ _ hmine hold₂ (hid₁ ▸ hid)
    · exact h.unique _ _ _ _ _ _ hold₁ hmine (hid₂ ▸ hid)
    · exact h.unique _ _ _ _ _ _ hold₁ hold₂ hid
  · intro t' i' job' ht' j hj
    rw [hmem]
    rcases hcases ht' with ⟨-, rfl, -, hid⟩ | ⟨hne, hold⟩
    · rw [hid, h.passed t i job hmine j hj]
      omega
    · have hother : job'.id ≠ job.id := fun heq => hne (h.unique _ _ _ _ _ _ hold hmine heq)
      simp [hother, h.passed t' i' job' hold j hj]
  · intro j
    rw [hids]
    split
    · next hj =>
        subst hj
        exact List.nodup_append.mpr ⟨h.once j, by simp, fun a ha b hb => by
          obtain rfl : b = job.id := by simpa using hb
          exact fun heq => hnot (heq ▸ ha)⟩
    · exact h.once j
  · intro j id hid
    rw [hissued]
    rcases hmem.mp hid with hid | ⟨-, rfl⟩
    · exact h.issued j id hid
    · exact hfresh
  · intro id hid
    rw [hissued]
    rcases hreturned id hid with hold | ⟨rfl, hlast, -⟩
    · exact ⟨(h.returned id hold).1, fun j hj => hmem.mpr (.inl ((h.returned id hold).2 j hj))⟩
    · refine ⟨hfresh, fun j hj => hmem.mpr ?_⟩
      rw [h.passed t i job hmine j hj]
      omega
  · intro id hid t' i' job' ht' heq
    rcases hreturned id hid with hold | ⟨rfl, -, hnone⟩
    · rcases hcases ht' with ⟨-, -, -, hsame⟩ | ⟨-, hother⟩
      · exact h.retired id hold t i job hmine (hsame ▸ heq)
      · exact h.retired id hold t' i' job' hother heq
    · rcases hcases ht' with ⟨rfl, -, -, -⟩ | ⟨hne, hother⟩
      · rw [hthreads, Function.update_self, hnone] at ht'
        cases ht'
      · exact hne (h.unique _ _ _ _ _ _ hother hmine heq)
  · intro t' id hid
    rw [hthreads, Function.update_apply] at hid
    split at hid
    · simp [hsince] at hid
    · exact hkept id (h.since t' id hid)

theorem move (hn : 0 < n) (h : Jobs n s) (hm : Move k n t s s') : Jobs n s' := by
  -- Entering, announcing and acquiring leave the calls of a slot as they are.
  have hsame {i : Nat} {rs : List Nat} {p w : Option Nat} (j : Nat) :
      (Function.update s.slots i ⟨(s.slots i).calls, rs, p, w⟩ j).ids = (s.slots j).ids := by
    rw [Function.update_apply]
    split
    · next hj => rw [hj]; rfl
    · rfl
  have hsince {q : Q} {since : List Nat} (ht : (s.threads t).since = since) :
      ∀ id ∈ since, id ∈ s.returned := fun id hid => h.since t id (by rw [ht]; exact hid)
  cases hm with
  | begin q ht =>
      exact h.quiet (fun _ => rfl) rfl (by rw [ht]; rfl) (fun id hid => hid) rfl rfl
  | issue op th ht hgo hjava =>
      cases k with
      | go =>
          obtain rfl := hgo rfl
          exact h.issue hn rfl rfl rfl rfl rfl rfl
      | java =>
          obtain rfl := hjava rfl
          exact h.issue hn rfl rfl rfl rfl rfl rfl
  | refused q since rr ht =>
      exact ⟨h.below, h.unique, h.passed, h.once, h.issued, h.returned, h.retired, h.since⟩
  | enter q since i rr ht hi hadmits =>
      exact h.quiet hsame rfl (by rw [ht]; rfl) (hsince (q := q) (by rw [ht]; rfl)) rfl rfl
  | call i q since ht =>
      refine h.quiet (fun j => ?_) rfl (by rw [ht]; rfl) (hsince (q := q) (by rw [ht]; rfl)) rfl rfl
      simp only [State.goto, State.setSlot, Function.update_apply]
      split
      · next hj => rw [hj, Slot.ids_append_read]
      · rfl
  | leave i since ht => exact h.quiet hsame rfl (by rw [ht]; rfl) (by simp [Thread.since]) rfl rfl
  | serialize job ht hfree =>
      exact h.quiet (fun _ => rfl) rfl (by rw [ht]; rfl) (by simp [Thread.since]) rfl rfl
  | announce i job ht hpending hwriter =>
      exact h.quiet hsame rfl (by rw [ht]; rfl) (by simp [Thread.since]) rfl rfl
  | acquire i job ht hreaders =>
      exact h.quiet hsame rfl (by rw [ht]; rfl) (by simp [Thread.since]) rfl rfl
  | proceed i job job' ht hid hop hnext =>
      refine h.work ht rfl rfl ?_ rfl rfl (fun id hid => .inl hid) (fun id hid => hid)
      rintro _ _ ⟨⟩
      exact ⟨rfl, hnext, hid⟩
  | finish i job job' ht hid hop hlast =>
      refine h.work ht rfl rfl (by simp [Thread.job]) rfl rfl ?_ ?_
      · intro id hmem
        simp only [State.returned, List.map_append, List.mem_append, List.map_cons, List.map_nil,
          List.mem_singleton] at hmem
        rcases hmem with hmem | rfl
        · exact .inl hmem
        · exact .inr ⟨hid, Nat.not_lt.mp hlast, rfl⟩
      · intro id hmem
        simp only [State.returned, List.map_append, List.mem_append]
        exact .inl hmem
  | abort i job ht hk =>
      exact h.work ht rfl rfl (by simp [Thread.job]) rfl rfl (fun id hid => .inl hid)
        (fun id hid => hid)

end Jobs

/-! ### Every reachable state -/

theorem Reachable.good (hn : 0 < n) (h : Reachable k n fails s) : Locks s ∧ Jobs n s := by
  induction h with
  | refl => exact ⟨Locks.init, Jobs.init⟩
  | tail _ hstep ih =>
      obtain ⟨t, a, hstep⟩ := hstep
      exact ⟨ih.1.move (step_move hstep), ih.2.move hn (step_move hstep)⟩

/-- The steps of the threads in this order. -/
def runs (k : Impl) (n : Nat) (fails : List (Call Q M) → M → Option E) :
    List (Nat × Action Q M) → State Q M E → Option (State Q M E)
  | [], s => some s
  | (t, a) :: rest, s => (step k n fails t a s).bind (runs k n fails rest)

theorem Reaches.of_runs (acts : List (Nat × Action Q M)) (h : runs k n fails acts s = some s') :
    Reaches k n fails s s' := by
  induction acts generalizing s with
  | nil => cases h; exact .refl
  | cons act rest ih =>
      obtain ⟨s₁, hstep, hrest⟩ := Option.bind_eq_some_iff.mp h
      exact .head ⟨act.1, act.2, hstep⟩ (ih hrest)

/-- **The pool keeps its calls apart and misses none.**  Whatever the threads do, in Go and in
Java: a resolver that is under maintenance serves no read and no other maintenance; each
maintenance call reaches each resolver at most once, and exactly once before it returns; and the
resolver a read is served by has had every maintenance call that returned before the read began. -/
theorem pool_safe (k : Impl) (n : Nat) (hn : 0 < n) (fails : List (Call Q M) → M → Option E)
    (s : State Q M E) (h : Reachable k n fails s) :
    (∀ i t job, s.threads t = .writing i job →
      (∀ t' job', s.threads t' = .writing i job' → t' = t) ∧
        ∀ t' q since, s.threads t' ≠ .reading i q since) ∧
    (∀ i, (s.slots i).ids.Nodup) ∧
    (∀ job ∈ s.completed, ∀ i < n, job.id ∈ (s.slots i).ids) ∧
    ∀ t i q since, i < n → s.threads t = .reading i q since →
      ∀ id ∈ since, id ∈ (s.slots i).ids := by
  obtain ⟨hlocks, hjobs⟩ := h.good hn
  refine ⟨fun i t job ht => ?_, hjobs.once, fun job hjob i hi => ?_,
    fun t i q since hi ht id hid => ?_⟩
  · have hwriter : (s.slots i).writer = some t :=
      (hlocks.holds i .writer t).mpr (by rw [ht]; rfl)
    refine ⟨fun t' job' ht' => ?_, fun t' q since ht' => ?_⟩
    · have hother : (s.slots i).writer = some t' :=
        (hlocks.holds i .writer t').mpr (by rw [ht']; rfl)
      exact Option.some.inj (hother.symm.trans hwriter)
    · have hreader : t' ∈ (s.slots i).readers :=
        (hlocks.holds i .reader t').mpr (by rw [ht']; rfl)
      simp [(hlocks.alone i (by simp [hwriter])).1] at hreader
  · exact (hjobs.returned job.id (List.mem_map_of_mem hjob)).2 i hi
  · exact (hjobs.returned id (hjobs.since t id (by rw [ht]; exact hid))).2 i hi

namespace Sample

/-- The thread 1 reads from the second of two slots, the thread 0 has a maintenance call that
waits for the first, and the thread 2 looks for a slot. -/
def acts : List (Nat × Action Nat Nat) :=
  [(1, .read 4), (1, .go), (0, .maintain 7), (0, .go), (0, .go), (2, .read 5)]

def busy : State Nat Nat Unit := (runs .go 2 (fun _ _ => none) acts .init).getD .init

theorem busy_reachable : Reachable .go 2 (fun _ _ => none) busy :=
  Reaches.of_runs acts rfl

theorem pool_safe_busy :
    (∀ i t job, busy.threads t = .writing i job →
      (∀ t' job', busy.threads t' = .writing i job' → t' = t) ∧
        ∀ t' q since, busy.threads t' ≠ .reading i q since) ∧
    (∀ i, (busy.slots i).ids.Nodup) ∧
    (∀ job ∈ busy.completed, ∀ i < 2, job.id ∈ (busy.slots i).ids) ∧
    ∀ t i q since, i < 2 → busy.threads t = .reading i q since →
      ∀ id ∈ since, id ∈ (busy.slots i).ids :=
  pool_safe .go 2 (by decide) (fun _ _ => none) busy busy_reachable

end Sample

/-! ### Go's mutex -/

/-- The thread is in the loop over the slots. -/
def Thread.loops : Thread Q M E → Bool
  | .locking _ _ | .waiting _ _ | .writing _ _ => true
  | _ => false

/-- One thread at a time is in the loop, and the slots behind it have one call more than the
slots before it. -/
structure Agree (n : Nat) (s : State Q M E) : Prop where
  mutex : ∀ t, (s.threads t).loops = true ↔ s.mmu = some t
  free : s.mmu = none → ∃ order, ∀ j < n, (s.slots j).log = order
  busy : ∀ t i job, s.mmu = some t → (s.threads t).job = some (i, job) →
    ∃ order, ∀ j < n, (s.slots j).log = if j < i then order ++ [(job.id, job.op)] else order

namespace Agree

theorem init : Agree n (State.init : State Q M E) where
  mutex := by simp [State.init, Thread.loops]
  free := fun _ => ⟨[], fun _ _ => rfl⟩
  busy := by simp [State.init]

variable {th : Thread Q M E} {i : Nat}

/-- A thread that stays in the loop where it is, or out of it. -/
theorem quiet (h : Agree n s) (hlogs : ∀ j, (s'.slots j).log = (s.slots j).log)
    (hthreads : s'.threads = Function.update s.threads t th)
    (hloops : th.loops = (s.threads t).loops)
    (hjob : th.loops = true → th.job = (s.threads t).job) (hmmu : s'.mmu = s.mmu) :
    Agree n s' := by
  have hsame : ∀ t', (s'.threads t').loops = (s.threads t').loops := by
    intro t'
    rw [hthreads, Function.update_apply]
    split
    · next ht => rw [ht, hloops]
    · rfl
  constructor
  · simpa only [hsame, hmmu] using h.mutex
  · simpa only [hlogs, hmmu] using h.free
  · intro t' i job hbusy hthread
    rw [hmmu] at hbusy
    simp only [hlogs]
    refine h.busy t' i job hbusy ?_
    rw [hthreads, Function.update_apply] at hthread
    split at hthread
    · next ht =>
        have hin : th.loops = true := by rw [hloops, ← ht]; exact (h.mutex t').mpr hbusy
        rw [ht, ← hjob hin]
        exact hthread
    · exact hthread

/-- The log of each slot once `job` has been made in the slot `i`. -/
theorem log_worked (s : State Q M E) (i : Nat) (job : Job M E) (j : Nat) :
    ((s.worked i job).slots j).log =
      if j = i then (s.slots j).log ++ [(job.id, job.op)] else (s.slots j).log := by
  simp only [State.worked, State.setSlot, Function.update_apply]
  split
  · next hj => simp [hj, Slot.log]
  · rfl

/-- The call goes one slot further: the slots behind it are one more. -/
theorem pass (h : Agree n s) {job : Job M E} (ht : s.threads t = .writing i job) :
    ∃ order, ∀ j < n, ((s.worked i job).slots j).log =
      if j < i + 1 then order ++ [(job.id, job.op)] else order := by
  have hmmu : s.mmu = some t := (h.mutex t).mp (by rw [ht]; rfl)
  obtain ⟨order, horder⟩ := h.busy t i job hmmu (by rw [ht]; rfl)
  refine ⟨order, fun j hj => ?_⟩
  rw [log_worked, horder j hj]
  rcases Nat.lt_trichotomy j i with hlt | rfl | hgt
  · simp [hlt, Nat.ne_of_lt hlt, Nat.lt_succ_of_lt hlt]
  · simp
  · have hnot : ¬ j < i := by omega
    have hnot' : ¬ j < i + 1 := by omega
    simp [hnot, hnot', Nat.ne_of_gt hgt]

theorem move (h : Agree n s) (hm : Move .go n t s s') : Agree n s' := by
  have hsame {i : Nat} {rs : List Nat} {p w : Option Nat} (j : Nat) :
      (Function.update s.slots i ⟨(s.slots i).calls, rs, p, w⟩ j).log = (s.slots j).log := by
    rw [Function.update_apply]
    split
    · next hj => rw [hj]; rfl
    · rfl
  -- Every thread but `t` is out of the loop while `t` is in it.
  have hout : ∀ {i job}, s.threads t = .writing i job → ∀ t', t' ≠ t →
      (s.threads t').loops = true → False := fun ht t' hne hloops => by
    have hmine := (h.mutex t).mp (by rw [ht]; rfl)
    have hother := (h.mutex t').mp hloops
    exact hne (Option.some.inj (hother.symm.trans hmine))
  cases hm with
  | begin q ht =>
      exact h.quiet (fun _ => rfl) rfl (by rw [ht]; rfl) (by simp [Thread.loops]) rfl
  | issue op th ht hgo hjava =>
      obtain rfl := hgo rfl
      exact h.quiet (fun _ => rfl) rfl (by rw [ht]; rfl) (by simp [Thread.loops]) rfl
  | refused q since rr ht => exact ⟨h.mutex, h.free, h.busy⟩
  | enter q since i rr ht hi hadmits =>
      exact h.quiet hsame rfl (by rw [ht]; rfl) (by simp [Thread.loops]) rfl
  | call i q since ht =>
      refine h.quiet (fun j => ?_) rfl (by rw [ht]; rfl) (by simp [Thread.loops]) rfl
      simp only [State.goto, State.setSlot, Function.update_apply]
      split
      · next hj => simp [hj, Slot.log]
      · rfl
  | leave i since ht =>
      exact h.quiet hsame rfl (by rw [ht]; rfl) (by simp [Thread.loops]) rfl
  | serialize job ht hfree =>
      obtain ⟨order, horder⟩ := h.free hfree
      constructor
      · intro t'
        simp only [State.goto, Function.update_apply]
        split
        · next heq => simp [Thread.loops, heq]
        · next hne =>
            have hother := h.mutex t'
            rw [hfree] at hother
            simp only [hother, reduceCtorEq, Option.some.injEq, false_iff]
            exact fun heq => hne heq.symm
      · intro hnone
        cases hnone
      · intro t' i job' hbusy hthread
        obtain rfl : t = t' := Option.some.inj hbusy
        simp only [State.goto, Function.update_self, Thread.job, Option.some.injEq,
          Prod.mk.injEq] at hthread
        obtain ⟨rfl, rfl⟩ := hthread
        exact ⟨order, fun j hj => by simpa [State.goto] using horder j hj⟩
  | announce i job ht hpending hwriter =>
      exact h.quiet hsame rfl (by rw [ht]; rfl) (fun _ => by rw [ht]; rfl) rfl
  | acquire i job ht hreaders =>
      exact h.quiet hsame rfl (by rw [ht]; rfl) (fun _ => by rw [ht]; rfl) rfl
  | proceed i job job' ht hid hop hnext =>
      have hmmu : s.mmu = some t := (h.mutex t).mp (by rw [ht]; rfl)
      obtain ⟨order, horder⟩ := h.pass ht
      constructor
      · intro t'
        simp only [State.goto, Function.update_apply]
        split
        · next heq => simpa [Thread.loops, heq, State.worked, State.setSlot] using hmmu
        · exact h.mutex t'
      · intro hnone
        exact absurd (hmmu.symm.trans hnone) (by simp)
      · intro t' i' job'' hbusy hthread
        obtain rfl : t = t' := Option.some.inj (hmmu.symm.trans hbusy)
        simp only [State.goto, Function.update_self, Thread.job, Option.some.injEq,
          Prod.mk.injEq] at hthread
        obtain ⟨rfl, rfl⟩ := hthread
        exact ⟨order, fun j hj => by rw [hid, hop]; exact horder j hj⟩
  | finish i job job' ht hid hop hlast =>
      obtain ⟨order, horder⟩ := h.pass ht
      constructor
      · intro t'
        simp only [State.goto, Function.update_apply]
        split
        · simp [Thread.loops]
        · next hne => simpa [State.worked, State.setSlot] using hout ht t' hne
      · intro _
        refine ⟨order ++ [(job.id, job.op)], fun j hj => ?_⟩
        have hlog := horder j hj
        rwa [if_pos (by omega)] at hlog
      · intro t' i' job'' hbusy
        cases hbusy
  | abort i job ht hk => cases hk

end Agree

theorem Reachable.agree (h : Reachable .go n fails s) : Agree n s := by
  induction h with
  | refl => exact Agree.init
  | tail _ hstep ih =>
      obtain ⟨t, a, hstep⟩ := hstep
      exact ih.move (step_move hstep)

/-- **In Go the resolvers agree.**  The maintenance calls are in one order; some first slots may
have had the call under way, which the others are yet to have.  While no thread is in the loop
all resolvers have had the same calls in the same order. -/
theorem go_resolvers_agree (n : Nat) (fails : List (Call Q M) → M → Option E) (s : State Q M E)
    (h : Reachable .go n fails s) :
    ∃ order, ∃ current : Option (Nat × M), ∃ i,
      (∀ j < n, (s.slots j).log = if j < i then order ++ current.toList else order) ∧
        ((∀ t, (s.threads t).loops = false) → current = none) := by
  have hagree := h.agree
  rcases hmmu : s.mmu with _ | t
  · obtain ⟨order, horder⟩ := hagree.free hmmu
    exact ⟨order, none, 0, fun j hj => by simpa using horder j hj, fun _ => rfl⟩
  · have hloops := (hagree.mutex t).mpr hmmu
    obtain ⟨i, job, hjob⟩ : ∃ i job, (s.threads t).job = some (i, job) := by
      rcases hthread : s.threads t with _ | _ | _ | _ | _ | ⟨i, job⟩ | ⟨i, job⟩ | ⟨i, job⟩ <;>
        simp [hthread, Thread.loops, Thread.job] at hloops ⊢
    obtain ⟨order, horder⟩ := hagree.busy t i job hmmu hjob
    exact ⟨order, some (job.id, job.op), i, horder, fun hall => by simp [hall t] at hloops⟩

namespace Sample

theorem go_resolvers_agree_busy :
    ∃ order, ∃ current : Option (Nat × Nat), ∃ i,
      (∀ j < 2, (busy.slots j).log = if j < i then order ++ current.toList else order) ∧
        ((∀ t, (busy.threads t).loops = false) → current = none) :=
  go_resolvers_agree 2 (fun _ _ => none) busy busy_reachable

/-- Without a mutex two maintenance calls overtake each other between the slots. -/
def crossing : List (Nat × Action Nat Nat) :=
  [(0, .maintain 7), (1, .maintain 8), (0, .go), (0, .go), (0, .go), (1, .go), (1, .go), (1, .go),
    (1, .go), (1, .go), (1, .go), (0, .go), (0, .go), (0, .go)]

/-- In Java the resolvers may come to rest with the calls in different orders. -/
example :
    (runs .java 2 (fun _ _ => none) crossing (.init : State Nat Nat Unit)).map (fun s =>
      ((s.slots 0).log, (s.slots 1).log, s.threads 0, s.threads 1)) =
        some ([(0, 7), (1, 8)], [(1, 8), (0, 7)], .idle, .idle) := by
  decide

end Sample

/-! ### Reads find a slot -/

/-- A slot that turns a read away is the one that the thread in the loop is at. -/
theorem busy_slot (h : Reachable .go n fails s) {i j : Nat}
    (hi : (s.slots i).admits .go = false) (hj : (s.slots j).admits .go = false) : i = j := by
  have hlocks : Locks s := by
    clear hi hj
    induction h with
    | refl => exact Locks.init
    | tail _ hstep ih =>
        obtain ⟨t, a, hstep⟩ := hstep
        exact ih.move (step_move hstep)
  have hagree := h.agree
  have hat : ∀ i, (s.slots i).admits .go = false →
      ∃ t r, s.mmu = some t ∧ (s.threads t).hold = some (r, i) := by
    intro i hi
    obtain ⟨t, r, hr, hheld⟩ : ∃ t r, r ≠ Role.reader ∧ (s.slots i).Held t r := by
      rcases hwriter : (s.slots i).writer with _ | t
      · rcases hpending : (s.slots i).pending with _ | t
        · simp [Slot.admits, hwriter, hpending] at hi
        · exact ⟨t, .waiter, by simp, hpending⟩
      · exact ⟨t, .writer, by simp, hwriter⟩
    have hhold := (hlocks.holds i r t).mp hheld
    refine ⟨t, r, (hagree.mutex t).mp ?_, hhold⟩
    rcases hthread : s.threads t <;> simp_all [Thread.hold, Thread.loops]
  obtain ⟨t, r, hmmu, hhold⟩ := hat i hi
  obtain ⟨t', r', hmmu', hhold'⟩ := hat j hj
  obtain rfl : t = t' := Option.some.inj (hmmu.symm.trans hmmu')
  rw [hhold] at hhold'
  cases hhold'
  rfl

/-- The thread goes on, `d` times, with no other thread in between. -/
def goOn (k : Impl) (n : Nat) (fails : List (Call Q M) → M → Option E) (t : Nat) :
    Nat → State Q M E → Option (State Q M E)
  | 0, s => some s
  | d + 1, s => (step k n fails t .go s).bind (goOn k n fails t d)

theorem goOn_refused (fails : List (Call Q M) → M → Option E) {q : Q} {since : List Nat}
    (ht : s.threads t = .trying q since)
    (hbusy : (s.slots (slotIndex k n ((s.rr + 1) % 2 ^ 64))).admits k = false) (d : Nat) :
    goOn k n fails t (d + 1) s = goOn k n fails t d { s with rr := (s.rr + 1) % 2 ^ 64 } := by
  simp [goOn, step, ht, hbusy, -Nat.reducePow]

theorem goOn_enters (fails : List (Call Q M) → M → Option E) {q : Q} {since : List Nat}
    (ht : s.threads t = .trying q since)
    (hfree : (s.slots (slotIndex k n ((s.rr + 1) % 2 ^ 64))).admits k = true) :
    ∃ s', goOn k n fails t 1 s = some s' ∧
      s'.threads t = .reading (slotIndex k n ((s.rr + 1) % 2 ^ 64)) q since := by
  simp [goOn, step, ht, hfree, State.goto, -Nat.reducePow]

/-- Of three values of the counter in a row two lie in different slots, also when it wraps. -/
theorem three_slots (hn : 2 ≤ n) (rr : Nat) :
    ¬ ((rr + 1) % 2 ^ 64 % n = ((rr + 1) % 2 ^ 64 + 1) % 2 ^ 64 % n ∧
      ((rr + 1) % 2 ^ 64 + 1) % 2 ^ 64 % n =
        (((rr + 1) % 2 ^ 64 + 1) % 2 ^ 64 + 1) % 2 ^ 64 % n) := by
  have hnext : ∀ c, c % n ≠ (c + 1) % n := fun c heq => by
    have hlt := Nat.mod_lt c (show 0 < n by omega)
    rw [Nat.add_mod, Nat.mod_eq_of_lt (show 1 < n by omega)] at heq
    rcases Nat.lt_or_ge (c % n + 1) n with hin | hout
    · rw [Nat.mod_eq_of_lt hin] at heq
      omega
    · rw [show c % n + 1 = n by omega, Nat.mod_self] at heq
      omega
  have hlt := Nat.mod_lt (rr + 1) (show 0 < 2 ^ 64 by decide)
  generalize (rr + 1) % 2 ^ 64 = c at hlt
  rintro ⟨hfirst, hsecond⟩
  by_cases hwrap : c + 1 < 2 ^ 64
  · rw [Nat.mod_eq_of_lt hwrap] at hfirst
    exact hnext c hfirst
  · -- The counter wraps between the first two, so it does not between the last two.
    rw [show c + 1 = 2 ^ 64 by omega, Nat.mod_self, Nat.zero_add,
      Nat.mod_eq_of_lt (show 1 < 2 ^ 64 by decide)] at hsecond
    exact hnext 0 hsecond

/-- **A read finds a resolver.**  In Go, with two slots at least, a read that is not interrupted
enters a slot at its third attempt or before, whatever maintenance is under way. -/
theorem go_read_enters (n : Nat) (hn : 2 ≤ n) (fails : List (Call Q M) → M → Option E)
    (s : State Q M E) (h : Reachable .go n fails s) (t : Nat) (q : Q) (since : List Nat)
    (ht : s.threads t = .trying q since) :
    ∃ d ∈ [1, 2, 3], ∃ s' i, goOn .go n fails t d s = some s' ∧ i < n ∧
      s'.threads t = .reading i q since := by
  have hin (rr : Nat) : slotIndex .go n rr < n := Nat.mod_lt rr (by omega)
  let rr₁ := (s.rr + 1) % 2 ^ 64
  let rr₂ := (rr₁ + 1) % 2 ^ 64
  let rr₃ := (rr₂ + 1) % 2 ^ 64
  let s₁ : State Q M E := { s with rr := rr₁ }
  let s₂ : State Q M E := { s with rr := rr₂ }
  -- The slots stay as they are: only this thread moves.
  rcases h₁ : (s.slots (slotIndex .go n rr₁)).admits .go with _ | _
  · have hfirst := goOn_refused fails ht h₁
    rcases h₂ : (s.slots (slotIndex .go n rr₂)).admits .go with _ | _
    · have hsecond := goOn_refused (s := s₁) fails ht h₂
      rcases h₃ : (s.slots (slotIndex .go n rr₃)).admits .go with _ | _
      · exact absurd ⟨busy_slot h h₁ h₂, busy_slot h h₂ h₃⟩ (three_slots hn s.rr)
      · obtain ⟨s', hrun, hread⟩ := goOn_enters (s := s₂) fails ht h₃
        exact ⟨3, by simp, s', _, by rw [hfirst, hsecond]; exact hrun, hin _, hread⟩
    · obtain ⟨s', hrun, hread⟩ := goOn_enters (s := s₁) fails ht h₂
      exact ⟨2, by simp, s', _, by rw [hfirst]; exact hrun, hin _, hread⟩
  · obtain ⟨s', hrun, hread⟩ := goOn_enters fails ht h₁
    exact ⟨1, by simp, s', _, hrun, hin _, hread⟩

/-- The first slot is taken; the read enters the second. -/
theorem Sample.go_read_enters_busy :
    ∃ d ∈ [1, 2, 3], ∃ s' i, goOn .go 2 (fun _ _ => none) 2 d busy = some s' ∧ i < 2 ∧
      s'.threads 2 = .reading i 5 [] :=
  go_read_enters 2 (by decide) (fun _ _ => none) busy busy_reachable 2 5 [] (by decide)

end Pool

end ConfidenceResolver
