import Mathlib.Algebra.BigOperators.Group.List.Basic
import Mathlib.Algebra.Ring.Nat
import Mathlib.Logic.Relation

/-!
# Support — queues flushed by bytes

A queue that is flushed into requests of a bounded size.  A flush moves events from the queue to a
list of pending ones, with their lengths, until that is enough for the request; then it writes
pending events as long as they fit.  Events are pushed at any time, also during a flush.

* `flush`: one flush with nothing in between.
* `Step`: one step of a flush, or a push; `flush_steps`: a flush is such steps.
* `Inv`: nothing is lost, and the bytes counted are those of the pending events and of the events
  that the flush in progress has written.

Sizes are machine integers whose additions saturate at `maxSize`.
-/

namespace ConfidenceResolver

structure ByteQueue (E : Type*) where
  queue : List E
  pending : List (E × Nat)
  pendingBytes : Nat

namespace ByteQueue

variable {E : Type*}

def empty : ByteQueue E := ⟨[], [], 0⟩

def push (s : ByteQueue E) (e : E) : ByteQueue E := { s with queue := s.queue ++ [e] }

section Flush

variable (maxSize : Nat) (len : E → Nat)

/-- Saturating addition. -/
def add (a b : Nat) : Nat := min (a + b) maxSize

/-- Move events from the queue to the pending ones until those have `limit` bytes. -/
def fill (limit : Nat) : List E → List (E × Nat) → Nat → ByteQueue E
  | [], pending, bytes => ⟨[], pending, bytes⟩
  | e :: queue, pending, bytes =>
      if bytes < limit then
        fill limit queue (pending ++ [(e, len e)]) (add maxSize bytes (len e))
      else ⟨e :: queue, pending, bytes⟩

/-- Write pending events as long as they fit; the first one may be too large if the request was
empty.  What is written, what stays pending, and the bytes written. -/
def write (start limit : Nat) : List (E × Nat) → Nat → List E × List (E × Nat) × Nat
  | [], written => ([], [], written)
  | p :: pending, written =>
      if add maxSize written p.2 ≤ limit ∨ (written = 0 ∧ start = 0) then
        let (events, rest, total) := write start limit pending (add maxSize written p.2)
        (p.1 :: events, rest, total)
      else ([], p :: pending, written)

/-- A flush: the queue after it, the events written, and their bytes. -/
def flush (s : ByteQueue E) (start limitBytes : Nat) (requireFull : Bool) :
    ByteQueue E × List E × Nat :=
  let limit := limitBytes - start
  let s := fill maxSize len limit s.queue s.pending s.pendingBytes
  if limit ≤ s.pendingBytes ∨ requireFull = false then
    let (events, rest, written) := write maxSize start limit s.pending 0
    (⟨s.queue, rest, s.pendingBytes - written⟩, events, written)
  else (s, [], 0)

end Flush

/-! ### Steps -/

/-- Where the flush in progress is, if there is one. -/
inductive Phase where
  | idle
  | filling (start limit : Nat) (requireFull : Bool)
  | writing (start limit written : Nat)

/-- The bytes written but not yet taken off. -/
def Phase.written : Phase → Nat
  | .idle | .filling _ _ _ => 0
  | .writing _ _ written => written

/-- A queue with a flush in progress.  Only for stating what follows: the events pushed and the
events written so far, and whether an addition has saturated. -/
structure Run (E : Type*) extends ByteQueue E where
  phase : Phase
  pushed : List E
  emitted : List E
  saturated : Bool

def Run.start : Run E := ⟨.empty, .idle, [], [], false⟩

section Steps

variable (maxSize : Nat) (len : E → Nat)

/-- A push, or a step of the one flush that holds the lock. -/
inductive Step : Run E → Run E → Prop where
  | push (r : Run E) (e : E) :
    Step r { r with queue := r.queue ++ [e], pushed := r.pushed ++ [e] }
  | begin {r : Run E} (start limitBytes : Nat) (requireFull : Bool) (h : r.phase = .idle) :
    Step r { r with phase := .filling start (limitBytes - start) requireFull }
  | pop {r : Run E} {start limit : Nat} {requireFull : Bool} {e : E} {queue : List E}
      (h : r.phase = .filling start limit requireFull) (hroom : r.pendingBytes < limit)
      (hqueue : r.queue = e :: queue) :
    Step r
      { r with
        queue := queue
        pending := r.pending ++ [(e, len e)]
        pendingBytes := add maxSize r.pendingBytes (len e)
        saturated := r.saturated || decide (maxSize < r.pendingBytes + len e) }
  | enough {r : Run E} {start limit : Nat} {requireFull : Bool}
      (h : r.phase = .filling start limit requireFull) (hstop : limit ≤ r.pendingBytes ∨ r.queue = [])
      (hwrite : limit ≤ r.pendingBytes ∨ requireFull = false) :
    Step r { r with phase := .writing start limit 0 }
  | notEnough {r : Run E} {start limit : Nat} {requireFull : Bool}
      (h : r.phase = .filling start limit requireFull) (hstop : limit ≤ r.pendingBytes ∨ r.queue = [])
      (hwrite : ¬ (limit ≤ r.pendingBytes ∨ requireFull = false)) :
    Step r { r with phase := .idle }
  | emit {r : Run E} {start limit written : Nat} {p : E × Nat} {pending : List (E × Nat)}
      (h : r.phase = .writing start limit written) (hpending : r.pending = p :: pending)
      (hfits : add maxSize written p.2 ≤ limit ∨ (written = 0 ∧ start = 0)) :
    Step r
      { r with
        pending := pending
        phase := .writing start limit (add maxSize written p.2)
        emitted := r.emitted ++ [p.1] }
  | finish {r : Run E} {start limit written : Nat} (h : r.phase = .writing start limit written)
      (hstop : ∀ p ∈ r.pending.head?,
        ¬ (add maxSize written p.2 ≤ limit ∨ (written = 0 ∧ start = 0))) :
    Step r { r with pendingBytes := r.pendingBytes - written, phase := .idle }

/-- Any number of steps. -/
abbrev Steps : Run E → Run E → Prop := Relation.ReflTransGen (Step maxSize len)

/-! ### The invariant -/

structure Inv (r : Run E) : Prop where
  order : r.emitted ++ r.pending.map (·.1) ++ r.queue = r.pushed
  lengths : ∀ p ∈ r.pending, p.2 = len p.1
  bounded : r.pendingBytes ≤ maxSize
  bytes : r.saturated = false → r.pendingBytes = (r.pending.map (·.2)).sum + r.phase.written

theorem inv_start : Inv maxSize len (Run.start : Run E) :=
  ⟨rfl, by simp [Run.start, empty], Nat.zero_le _, fun _ => rfl⟩

variable {maxSize len} {r r' : Run E}

theorem add_le (a b : Nat) : add maxSize a b ≤ maxSize := Nat.min_le_right _ _

theorem add_eq {a b : Nat} (h : a + b ≤ maxSize) : add maxSize a b = a + b := Nat.min_eq_left h

/-- An event moves from the queue to the pending ones. -/
theorem Inv.pop (h : Inv maxSize len r) {start limit : Nat} {requireFull : Bool} {e : E}
    {queue : List E} (hphase : r.phase = .filling start limit requireFull)
    (hqueue : r.queue = e :: queue) :
    Inv maxSize len
      { r with
        queue := queue
        pending := r.pending ++ [(e, len e)]
        pendingBytes := add maxSize r.pendingBytes (len e)
        saturated := r.saturated || decide (maxSize < r.pendingBytes + len e) } where
  order := by
    rw [← h.order, hqueue]
    simp
  lengths p hp := by
    rcases List.mem_append.mp hp with hp | hp
    · exact h.lengths p hp
    · rw [List.mem_singleton.mp hp]
  bounded := add_le _ _
  bytes hexact := by
    obtain ⟨hold, hroom⟩ := Bool.or_eq_false_iff.mp hexact
    have hbytes := h.bytes hold
    rw [add_eq (Nat.le_of_not_lt (of_decide_eq_false hroom)), hbytes, hphase]
    simp [Phase.written]

/-- A pending event is written. -/
theorem Inv.emit (h : Inv maxSize len r) {start limit written : Nat} {p : E × Nat}
    {pending : List (E × Nat)} (hphase : r.phase = .writing start limit written)
    (hpending : r.pending = p :: pending) :
    Inv maxSize len
      { r with
        pending := pending
        phase := .writing start limit (add maxSize written p.2)
        emitted := r.emitted ++ [p.1] } where
  order := by
    rw [← h.order, hpending]
    simp
  lengths q hq := h.lengths q (hpending ▸ List.mem_cons_of_mem p hq)
  bounded := h.bounded
  bytes hexact := by
    have hbytes := h.bytes hexact
    have hbounded := h.bounded
    rw [hpending, hphase, List.map_cons, List.sum_cons, Phase.written] at hbytes
    have hsum : r.pendingBytes = (pending.map (·.2)).sum + (written + p.2) := by omega
    rw [Phase.written, add_eq (by omega)]
    exact hsum

/-- **One step** keeps the invariant. -/
theorem Inv.step (h : Inv maxSize len r) (hstep : Step maxSize len r r') : Inv maxSize len r' := by
  cases hstep with
  | push e => exact ⟨by rw [← h.order, List.append_assoc _ _ [e]], h.lengths, h.bounded, h.bytes⟩
  | begin start limitBytes requireFull hphase =>
      exact ⟨h.order, h.lengths, h.bounded, fun hexact => (h.bytes hexact).trans (by rw [hphase]; rfl)⟩
  | pop hphase _ hqueue => exact h.pop hphase hqueue
  | enough hphase _ _ =>
      exact ⟨h.order, h.lengths, h.bounded, fun hexact => (h.bytes hexact).trans (by rw [hphase]; rfl)⟩
  | notEnough hphase _ _ =>
      exact ⟨h.order, h.lengths, h.bounded, fun hexact => (h.bytes hexact).trans (by rw [hphase]; rfl)⟩
  | emit hphase hpending _ => exact h.emit hphase hpending
  | finish hphase _ =>
      refine ⟨h.order, h.lengths, (Nat.sub_le _ _).trans h.bounded, fun hexact => ?_⟩
      have hbytes := h.bytes hexact
      rw [hphase] at hbytes
      exact Nat.sub_eq_of_eq_add hbytes

/-- **A run** keeps the invariant. -/
theorem Inv.steps (h : Inv maxSize len r) (hsteps : Steps maxSize len r r') :
    Inv maxSize len r' := by
  induction hsteps with
  | refl => exact h
  | tail _ hstep ih => exact ih.step hstep

/-! ### A flush is a run -/

variable (maxSize len)

/-- Filling, with nothing in between. -/
theorem fill_steps {start limit : Nat} {requireFull : Bool} (queue : List E) :
    ∀ r : Run E, r.queue = queue → r.phase = .filling start limit requireFull →
      ∃ b, Steps maxSize len r
          { r with
            toByteQueue := fill maxSize len limit queue r.pending r.pendingBytes, saturated := b } ∧
        (limit ≤ (fill maxSize len limit queue r.pending r.pendingBytes).pendingBytes ∨
          (fill maxSize len limit queue r.pending r.pendingBytes).queue = []) := by
  induction queue with
  | nil =>
      rintro ⟨⟨_, pending, bytes⟩, phase, pushed, emitted, saturated⟩ rfl -
      exact ⟨saturated, .refl, .inr rfl⟩
  | cons e queue ih =>
      rintro ⟨⟨_, pending, bytes⟩, _, pushed, emitted, saturated⟩ rfl rfl
      by_cases hroom : bytes < limit
      · rw [fill, if_pos hroom]
        obtain ⟨b, hsteps, hstop⟩ := ih ⟨⟨queue, pending ++ [(e, len e)], add maxSize bytes (len e)⟩,
          .filling start limit requireFull, pushed, emitted,
          saturated || decide (maxSize < bytes + len e)⟩ rfl rfl
        exact ⟨b, .head (.pop rfl hroom rfl) hsteps, hstop⟩
      · rw [fill, if_neg hroom]
        exact ⟨saturated, .refl, .inl (Nat.le_of_not_lt hroom)⟩

/-- Writing, with nothing in between. -/
theorem write_steps {start limit : Nat} (pending : List (E × Nat)) :
    ∀ (r : Run E) (written : Nat), r.pending = pending → r.phase = .writing start limit written →
      Steps maxSize len r
          { r with
            pending := (write maxSize start limit pending written).2.1
            phase := .writing start limit (write maxSize start limit pending written).2.2
            emitted := r.emitted ++ (write maxSize start limit pending written).1 } ∧
        ∀ p ∈ (write maxSize start limit pending written).2.1.head?,
          ¬ (add maxSize (write maxSize start limit pending written).2.2 p.2 ≤ limit ∨
            ((write maxSize start limit pending written).2.2 = 0 ∧ start = 0)) := by
  induction pending with
  | nil =>
      rintro ⟨⟨queue, _, bytes⟩, _, pushed, emitted, saturated⟩ written rfl rfl
      refine ⟨?_, by simp [write]⟩
      simp only [write, List.append_nil]
      exact .refl
  | cons p pending ih =>
      rintro ⟨⟨queue, _, bytes⟩, _, pushed, emitted, saturated⟩ written rfl rfl
      by_cases hfits : add maxSize written p.2 ≤ limit ∨ (written = 0 ∧ start = 0)
      · obtain ⟨hsteps, hstop⟩ := ih ⟨⟨queue, pending, bytes⟩,
          .writing start limit (add maxSize written p.2), pushed, emitted ++ [p.1], saturated⟩
          (add maxSize written p.2) rfl rfl
        rw [write, if_pos hfits]
        refine ⟨.head (.emit rfl rfl hfits) ?_, hstop⟩
        simpa using hsteps
      · rw [write, if_neg hfits]
        refine ⟨?_, by simpa using hfits⟩
        simp only [List.append_nil]
        exact .refl

/-- **A flush** of a queue at rest is a run: it writes what is returned. -/
theorem flush_steps (h : r.phase = .idle) (start limitBytes : Nat) (requireFull : Bool) :
    ∃ b, Steps maxSize len r
      { r with
        toByteQueue := (flush maxSize len r.toByteQueue start limitBytes requireFull).1
        emitted := r.emitted ++ (flush maxSize len r.toByteQueue start limitBytes requireFull).2.1
        saturated := b } := by
  obtain ⟨b, hfill, hstop⟩ := fill_steps maxSize len r.queue
    { r with phase := .filling start (limitBytes - start) requireFull } rfl rfl
  have hbegin := hfill.head (.begin start limitBytes requireFull h)
  refine ⟨b, ?_⟩
  rw [flush]
  generalize fill maxSize len (limitBytes - start) r.queue r.pending r.pendingBytes = filled at *
  by_cases hwrite : limitBytes - start ≤ filled.pendingBytes ∨ requireFull = false
  · obtain ⟨hsteps, hend⟩ := write_steps maxSize len filled.pending
      { r with
        toByteQueue := filled, phase := .writing start (limitBytes - start) 0, saturated := b } 0
      rfl rfl
    rw [if_pos hwrite, h]
    exact ((hbegin.tail (.enough rfl hstop hwrite)).trans hsteps).tail (.finish rfl hend)
  · rw [if_neg hwrite, h, List.append_nil]
    exact hbegin.tail (.notEnough rfl hstop hwrite)

end Steps

end ByteQueue

end ConfidenceResolver
