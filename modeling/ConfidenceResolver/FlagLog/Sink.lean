import ConfidenceResolver.FlagLog.Turns

/-!
# FlagLog — the buffer sink

An isolate and its tasks.  Between two awaits a task runs alone, so a run is a list of events, each
of which takes one task from one await to the next: a request offers a record or calls `tick`; the
future of a task is polled when what it awaits is there; or it is dropped.

* `Task`, `Event`, `World.exec`, `World.run`.  A task keeps its place in the list, also when it is
  over.
* `World.run_induction`: what every event keeps holds in every run.
* `exec_removes`: what an event does to the records.
-/

namespace ConfidenceResolver

namespace FlagLog

/-- `Deadline`. -/
structure Deadline where
  atMs : Int

def Deadline.remainingFrom (deadline : Deadline) (nowMs : Int) : Int := max (deadline.atMs - nowMs) 0

/-! ### Tasks -/

/-- What `drain_before_standing_down` knows.  Only for stating what follows: how many records had
been offered and how many were buffered when it started. -/
structure Drain where
  deadline : Deadline
  boundary : UInt64
  delivered : Nat
  startedAt : Nat
  owned : Nat

/-- A task at an await, or over. -/
inductive Task where
  /-- `deliver` of a batch that an offer returned. -/
  | batch (logs : List WriteFlagLogsRequest)
  /-- `tick`, asleep. -/
  | waiting (deadline : Deadline)
  /-- `tick`, in `deliver`. -/
  | delivering (deadline : Deadline) (logs : List WriteFlagLogsRequest)
  /-- `tick`, in `drain_before_standing_down`, in `deliver`. -/
  | draining (drain : Drain) (logs : List WriteFlagLogsRequest)
  | stoodDown (drain : Drain) (stop : Isolate.DrainStop)
  | done

/-- Whether a task holds an `InFlight`. -/
def Task.holdsSlot : Task → Bool
  | .batch _ | .delivering _ _ | .draining _ _ => true
  | .waiting _ | .stoodDown _ _ | .done => false

/-- Whether a task holds a `Waiter`. -/
def Task.holdsWaiter : Task → Bool
  | .waiting _ | .delivering _ _ => true
  | .batch _ | .draining _ _ | .stoodDown _ _ | .done => false

/-- The chunk that a task delivers. -/
def Task.chunk? : Task → Option (List WriteFlagLogsRequest)
  | .batch logs | .delivering _ logs | .draining _ logs => some logs
  | .waiting _ | .stoodDown _ _ | .done => none

/-- The drain of a task. -/
def Task.drain? : Task → Option Drain
  | .draining drain _ | .stoodDown drain _ => some drain
  | .batch _ | .waiting _ | .delivering _ _ | .done => none

variable {sizes : LogSizes}

namespace Isolate

/-- A turn of the loop of `drain_before_standing_down`, and what follows the loop. -/
def drainLoop (s : Isolate sizes) (task : Nat) (drain : Drain) (nowMs : Int) : Task × Isolate sizes :=
  match s.drainPass task drain.boundary (drain.deadline.remainingFrom nowMs) with
  | (.ok chunk, s) =>
      (.draining { drain with delivered := drain.delivered + chunk.length } chunk, s)
  | (.error stop, s) =>
      (.stoodDown drain stop, s.reportDrain "standing down on budget" drain.delivered)

/-- `drain_before_standing_down`, up to its first await. -/
def drainBeforeStandingDown (s : Isolate sizes) (task : Nat) (deadline : Deadline) (nowMs : Int) :
    Task × Isolate sizes :=
  s.drainLoop task ⟨deadline, s.buffer.nextSeq, 0, s.offered.length, s.buffer.logs.length⟩ nowMs

/-- `tick`, from the end of its sleep to its next await. -/
def wake (s : Isolate sizes) (task : Nat) (deadline : Deadline) (nowMs : Int) :
    Task × Isolate sizes :=
  if deadline.remainingFrom nowMs < retireAtRemainingMs then
    if s.buffer.logs.isEmpty then (.done, s.dropWaiter)
    else s.dropWaiter.drainBeforeStandingDown task deadline nowMs
  else
    match s.tickStep task nowMs with
    | (.done, s) => (.done, s.dropWaiter)
    | (.shed batch, s) =>
        let (records, chunks, s) := s.shedDown task batch.length 1
        (.waiting deadline, s.log (.shedFromTimer records chunks s.inFlight))
    | (.wait, s) => (.waiting deadline, s)
    | (.deliver batch, s) => (.delivering deadline batch, s)

/-- What a task awaits is there: the end of its delivery, or of its sleep. -/
def poll (s : Isolate sizes) (task : Nat) (nowMs : Int) : Task → Task × Isolate sizes
  | .batch _ => (.done, s.release)
  | .waiting deadline => s.wake task deadline nowMs
  | .delivering deadline _ => (.waiting deadline, s.release)
  | .draining drain _ => s.release.drainLoop task drain nowMs
  | .stoodDown drain stop => (.stoodDown drain stop, s)
  | .done => (.done, s)

/-- The future of a task is dropped, and what it holds with it. -/
def cancel (s : Isolate sizes) : Task → Task × Isolate sizes
  | .batch _ => (.done, s.release)
  | .waiting _ => (.done, s.dropWaiter)
  | .delivering _ _ => (.done, s.release.dropWaiter)
  | .draining drain _ => (.stoodDown drain .cancelled, s.release)
  | .stoodDown drain stop => (.stoodDown drain stop, s)
  | .done => (.done, s)

end Isolate

/-! ### Runs -/

/-- What happens at an isolate. -/
inductive Event where
  | offer (log : WriteFlagLogsRequest) (nowMs : Int)
  | tick (deadline : Deadline)
  | poll (task : Nat) (nowMs : Int)
  | cancel (task : Nat)

variable (sizes) in
structure World where
  isolate : Isolate sizes
  tasks : List Task

namespace World

def new : World sizes := ⟨.new, []⟩

/-- A task has moved on. -/
def move (w : World sizes) (task : Nat) (moved : Task × Isolate sizes) : World sizes :=
  ⟨moved.2, w.tasks.set task moved.1⟩

def exec (w : World sizes) : Event → World sizes
  | .offer log nowMs =>
      match w.isolate.offerAt log nowMs with
      | (none, s) => ⟨s, w.tasks⟩
      | (some batch, s) => ⟨s, w.tasks ++ [.batch batch]⟩
  | .tick deadline =>
      match w.isolate.claim with
      | none => w
      | some s => ⟨s, w.tasks ++ [.waiting deadline]⟩
  | .poll task nowMs =>
      match w.tasks[task]? with
      | none => w
      | some t => w.move task (w.isolate.poll task nowMs t)
  | .cancel task =>
      match w.tasks[task]? with
      | none => w
      | some t => w.move task (w.isolate.cancel t)

variable (sizes) in
def run (events : List Event) : World sizes := events.foldl exec .new

theorem run_concat (events : List Event) (e : Event) :
    run sizes (events ++ [e]) = (run sizes events).exec e := by
  simp [run]

/-- A property that holds at the start and that every event keeps holds in every run. -/
theorem run_induction {p : World sizes → Prop} (hnew : p .new) (hexec : ∀ w e, p w → p (w.exec e))
    (events : List Event) : p (run sizes events) := by
  induction events using List.reverseRecOn with
  | nil => exact hnew
  | append_singleton events e ih =>
      rw [run_concat]
      exact hexec _ e ih

/-- The deliveries that hold a slot. -/
def liveSlots (w : World sizes) : Nat := w.tasks.countP Task.holdsSlot

def liveWaiters (w : World sizes) : Nat := w.tasks.countP Task.holdsWaiter

end World

/-! ### What an event takes -/

/-- Who takes chunks at an event. -/
def Event.takes : Event → Taker → Prop
  | .offer _ _, taker => taker = .offer
  | .tick _, _ | .cancel _, _ => False
  | .poll task _, taker => taker = .timer task ∨ taker = .drain task

/-- The record that is offered is pushed first. -/
def Event.pushed (s : Isolate sizes) : Event → Isolate sizes
  | .offer log nowMs => s.push log nowMs
  | .tick _ | .poll _ _ | .cancel _ => s

section Removes

variable {p : Taker → Prop} (s : Isolate sizes)

theorem removes_reportDrain (reason : String) (delivered : Nat) :
    Removes p s (s.reportDrain reason delivered) := by
  rcases reportDrain_cases s reason delivered with hreport | ⟨line, -, hreport⟩
  · rw [hreport]
    exact .refl s
  · rw [hreport]
    exact removes_log s line

theorem removes_drainLoop (task : Nat) (drain : Drain) (nowMs : Int) (h : p (.drain task)) :
    Removes p s (s.drainLoop task drain nowMs).2 := by
  rw [Isolate.drainLoop]
  rcases drainPass_cases s task drain.boundary (drain.deadline.remainingFrom nowMs) with
    ⟨stop, hpass, -⟩ | ⟨hpass, -⟩ | ⟨hpass, -, -⟩
  · rw [hpass]
    exact removes_reportDrain s _ _
  · rw [hpass]
    exact ((removes_acquire_took s _ false h).trans (removes_release _)).trans
      (removes_reportDrain _ _ _)
  · rw [hpass]
    exact removes_acquire_took s _ false h

/-- **A waiter that wakes** stands down and drains, or stays one or ends, having taken chunks as a
timer. -/
theorem wake_cases (task : Nat) (deadline : Deadline) (nowMs : Int) :
    s.wake task deadline nowMs = s.dropWaiter.drainBeforeStandingDown task deadline nowMs ∨
      ((s.wake task deadline nowMs).1.drain? = none ∧
        Removes (· = .timer task) s (s.wake task deadline nowMs).2) := by
  unfold Isolate.wake
  split
  · split
    · exact .inr ⟨rfl, removes_dropWaiter s⟩
    · exact .inl rfl
  right
  rcases tickStep_cases s task nowMs with ⟨hstep, -⟩ | hstep | hstep | ⟨hstep, -⟩
  · rw [hstep]
    exact ⟨rfl, removes_dropWaiter s⟩
  · rw [hstep]
    exact ⟨rfl, .refl s⟩
  · rw [hstep]
    have htook : Removes (· = .timer task) s (s.took s.buffer.takeChunk (.timer task) true).2 :=
      removes_took s _ true rfl
    exact ⟨rfl, (htook.trans (shedDown_spec _ task _ 1).1).trans (removes_log _ _)⟩
  · rw [hstep]
    exact ⟨rfl, removes_acquire_took s _ false rfl⟩

theorem removes_wake (task : Nat) (deadline : Deadline) (nowMs : Int) (htimer : p (.timer task))
    (hdrain : p (.drain task)) : Removes p s (s.wake task deadline nowMs).2 := by
  rcases wake_cases s task deadline nowMs with hwake | ⟨-, hremoves⟩
  · rw [hwake]
    exact (removes_dropWaiter s).trans (removes_drainLoop _ task _ nowMs hdrain)
  · exact hremoves.mono fun t ht => ht ▸ htimer

theorem removes_poll (task : Nat) (nowMs : Int) (htimer : p (.timer task)) (hdrain : p (.drain task))
    (t : Task) : Removes p s (s.poll task nowMs t).2 := by
  cases t with
  | batch logs => exact removes_release s
  | waiting deadline => exact removes_wake s task deadline nowMs htimer hdrain
  | delivering deadline logs => exact removes_release s
  | draining drain logs =>
      exact (removes_release s).trans (removes_drainLoop s.release task drain nowMs hdrain)
  | stoodDown drain stop => exact .refl s
  | done => exact .refl s

theorem removes_cancel (t : Task) : Removes p s (s.cancel t).2 := by
  cases t with
  | batch logs => exact removes_release s
  | waiting deadline => exact removes_dropWaiter s
  | delivering deadline logs => exact (removes_release s).trans (removes_dropWaiter s.release)
  | draining drain logs => exact removes_release s
  | stoodDown drain stop => exact .refl s
  | done => exact .refl s

theorem removes_offerAt (log : WriteFlagLogsRequest) (nowMs : Int) (h : p .offer) :
    Removes p (s.push log nowMs) (s.offerAt log nowMs).2 := by
  rcases offerAt_cases s log nowMs with ⟨hoffer, -⟩ | ⟨hoffer, -⟩ | ⟨hoffer, -⟩
  · rw [hoffer]
    exact .refl _
  · rw [hoffer]
    exact (removes_took _ _ true h).trans (removes_log _ _)
  · rw [hoffer]
    exact removes_acquire_took _ _ false h

theorem removes_claim {s' : Isolate sizes} (h : s.claim = some s') : Removes p s s' := by
  unfold Isolate.claim at h
  split at h
  · exact absurd h (by simp)
  · obtain rfl := Option.some.inj h
    exact removes_of_eq rfl rfl rfl rfl rfl rfl

end Removes

/-- **An event** pushes a record if it is an offer, and then only takes chunks off the front. -/
theorem exec_removes (w : World sizes) (e : Event) :
    Removes e.takes (e.pushed w.isolate) (w.exec e).isolate := by
  cases e with
  | offer log nowMs =>
      have h := removes_offerAt (p := (Event.offer log nowMs).takes) w.isolate log nowMs rfl
      revert h
      rw [World.exec]
      rcases w.isolate.offerAt log nowMs with ⟨_ | batch, s⟩ <;> exact id
  | tick deadline =>
      rw [World.exec]
      cases h : w.isolate.claim with
      | none => exact .refl _
      | some s => exact removes_claim _ h
  | poll task nowMs =>
      rw [World.exec]
      cases w.tasks[task]? with
      | none => exact .refl _
      | some t => exact removes_poll w.isolate task nowMs (.inl rfl) (.inr rfl) t
  | cancel task =>
      rw [World.exec]
      cases w.tasks[task]? with
      | none => exact .refl _
      | some t => exact removes_cancel w.isolate t

end FlagLog

end ConfidenceResolver
