import Mathlib.Algebra.Order.Ring.Int
import Mathlib.Logic.Basic

/-!
# Hosts — the interval scheduler of the JS provider

`scheduleWithFixedInterval` of `util.ts`.  A firing timer runs the operation and arms the next timer
first; a run whose operation comes back arms it anew when the interval has changed meanwhile, and
runs again when it is late.  A step of the model is what runs from one `await` to the next.

Numbers are of any type with the comparisons that the code makes.

* `IntervalScheduler.step`: a timer fires, an operation comes back, or the scheduler is stopped.
* `IntervalScheduler.Inv`: the pending timer is the one that `nextRunTimeoutId` names.
* `interval_scheduler_exact`: one timer until it is stopped and none afterwards, at most
  `maxConcurrent` operations, and none that is started after the stop.
-/

namespace ConfidenceResolver

/-- What `getInterval()` and `Date.now()` return where a step calls them. -/
structure Readings (N : Type*) where
  /-- In `run`. -/
  now : N
  interval : N
  /-- Where the interval is compared with that of the run, and where the timer is armed anew. -/
  current : N
  renewed : N
  /-- Where the time since the last run is compared with the interval. -/
  later : N
  limit : N

inductive SchedulerEvent (N : Type*) where
  | fire (timeoutId : Nat) (readings : Readings N)
  /-- The promise of an operation is fulfilled or rejected, or the operation has thrown. -/
  | settled (operation : Nat) (readings : Readings N)
  /-- `stop` is called, or the signal is aborted. -/
  | stop

/-- The variables of `scheduleWithFixedInterval`, the timers that are pending with their delays,
and the operations that have not come back, each by its number and with the interval of its run. -/
structure IntervalScheduler (N : Type*) where
  timers : List (Nat × N)
  issued : Nat
  nextRunTimeoutId : Nat
  lastRunTime : N
  concurrent : Nat
  aborted : Bool
  running : List (Nat × N)
  started : Nat

namespace IntervalScheduler

variable {N : Type*}

/-- `nextRunTimeoutId = portableSetTimeout(run, delay)`; the ids are new and not 0. -/
def setTimeout (s : IntervalScheduler N) (delay : N) : IntervalScheduler N :=
  { s with
    timers := s.timers ++ [(s.issued + 1, delay)]
    issued := s.issued + 1
    nextRunTimeoutId := s.issued + 1 }

/-- `clearTimeout(timeoutId)`. -/
def clearTimeout (s : IntervalScheduler N) (timeoutId : Nat) : IntervalScheduler N :=
  { s with timers := s.timers.filter fun timer => timer.1 ≠ timeoutId }

/-- `scheduleWithFixedInterval`, with the interval there is at first. -/
def schedule [Zero N] (interval : N) : IntervalScheduler N :=
  setTimeout ⟨[], 0, 0, 0, 0, false, [], 0⟩ interval

/-- `run`, up to the `await`. -/
def run (maxConcurrent : Nat) (s : IntervalScheduler N) (readings : Readings N) :
    IntervalScheduler N :=
  let s := { s with lastRunTime := readings.now }
  let s := s.setTimeout readings.interval
  if s.concurrent ≥ maxConcurrent then s
  else
    { s with
      concurrent := s.concurrent + 1
      running := s.running ++ [(s.started, readings.interval)]
      started := s.started + 1 }

/-- What `stop` does. -/
def stop (s : IntervalScheduler N) : IntervalScheduler N :=
  { s.clearTimeout s.nextRunTimeoutId with
    nextRunTimeoutId := 0
    aborted := true }

/-! ### Timers -/

/-- The timer that is pending. -/
def nextRun (s : IntervalScheduler N) : List Nat :=
  if s.aborted then [] else [s.nextRunTimeoutId]

structure Inv (maxConcurrent : Nat) (s : IntervalScheduler N) : Prop where
  timers : s.timers.map (·.1) = s.nextRun
  stopped : s.aborted = true ↔ s.nextRunTimeoutId = 0
  concurrent : s.concurrent = s.running.length
  bounded : s.running.length ≤ maxConcurrent

variable {maxConcurrent : Nat} {s s' : IntervalScheduler N}

theorem inv_schedule [Zero N] (interval : N) : Inv maxConcurrent (schedule interval) where
  timers := rfl
  stopped := ⟨nofun, nofun⟩
  concurrent := rfl
  bounded := Nat.zero_le _

/-- The pending timer fires or is cleared, and there is none. -/
theorem Inv.cleared (h : Inv maxConcurrent s) :
    (s.clearTimeout s.nextRunTimeoutId).timers = [] := by
  rw [clearTimeout, List.filter_eq_nil_iff]
  intro timer htimer
  have hmem : timer.1 ∈ s.nextRun := h.timers ▸ List.mem_map_of_mem htimer
  rw [nextRun] at hmem
  split at hmem
  · cases hmem
  · rw [List.mem_singleton.mp hmem, decide_eq_true_iff]
    exact not_not_intro rfl

/-- A timer is armed where there is none. -/
theorem Inv.setTimeout (htimers : s.timers = []) (haborted : s.aborted = false)
    (hconcurrent : s.concurrent = s.running.length) (hbounded : s.running.length ≤ maxConcurrent)
    (delay : N) : Inv maxConcurrent (s.setTimeout delay) where
  timers := by
    show (s.timers ++ [(s.issued + 1, delay)]).map (·.1) = if s.aborted then _ else _
    rw [htimers, haborted]
    rfl
  stopped := by
    show s.aborted = true ↔ s.issued + 1 = 0
    rw [haborted]
    exact ⟨nofun, nofun⟩
  concurrent := hconcurrent
  bounded := hbounded

/-- **A run** leaves one timer, and one operation more unless there are enough. -/
theorem Inv.run (htimers : s.timers = []) (haborted : s.aborted = false)
    (hconcurrent : s.concurrent = s.running.length) (hbounded : s.running.length ≤ maxConcurrent)
    (readings : Readings N) : Inv maxConcurrent (s.run maxConcurrent readings) := by
  have hset := Inv.setTimeout (s := { s with lastRunTime := readings.now }) htimers haborted
    hconcurrent hbounded readings.interval
  rw [IntervalScheduler.run]
  split
  · exact hset
  · rename_i hroom
    have hlt : s.running.length < maxConcurrent := by
      rw [← hconcurrent]
      exact Nat.not_le.mp hroom
    refine ⟨hset.timers, hset.stopped, ?_, ?_⟩
    · rw [List.length_append]
      exact congrArg (· + 1) hconcurrent
    · rw [List.length_append]
      exact Nat.succ_le_of_lt hlt

/-- Only the pending timer fires. -/
theorem Inv.fires (h : Inv maxConcurrent s) {timeoutId : Nat}
    (hpending : (s.timers.any fun timer => timer.1 == timeoutId) = true) :
    s.aborted = false ∧ timeoutId = s.nextRunTimeoutId := by
  obtain ⟨timer, htimer, hid⟩ := List.any_eq_true.mp hpending
  have hmem : timer.1 ∈ s.nextRun := h.timers ▸ List.mem_map_of_mem htimer
  rw [nextRun] at hmem
  split at hmem
  · cases hmem
  · rename_i haborted
    refine ⟨Bool.eq_false_iff.mpr haborted, ?_⟩
    rw [← beq_iff_eq.mp hid, List.mem_singleton.mp hmem]

theorem Inv.stop (h : Inv maxConcurrent s) : Inv maxConcurrent s.stop where
  timers := congrArg (List.map (·.1)) h.cleared
  stopped := ⟨fun _ => rfl, fun _ => rfl⟩
  concurrent := h.concurrent
  bounded := h.bounded

/-! ### Steps -/

variable [BEq N] [Sub N] [LT N] [DecidableLT N]

/-- `run`, from the `await` on. -/
def resume (maxConcurrent : Nat) (s : IntervalScheduler N) (interval : N)
    (readings : Readings N) : IntervalScheduler N :=
  let s := { s with concurrent := s.concurrent - 1 }
  if !s.aborted && readings.current != interval then
    (s.clearTimeout s.nextRunTimeoutId).setTimeout readings.renewed
  else
    let timeSinceLast := readings.later - s.lastRunTime
    if timeSinceLast > readings.limit ∧ s.nextRunTimeoutId ≠ 0 then
      (s.clearTimeout s.nextRunTimeoutId).run maxConcurrent readings
    else s

/-- One step.  A timer fires only if it is pending, and an operation comes back once. -/
def step (maxConcurrent : Nat) (s : IntervalScheduler N) :
    SchedulerEvent N → Option (IntervalScheduler N)
  | .fire timeoutId readings =>
      if s.timers.any fun timer => timer.1 == timeoutId then
        some ((s.clearTimeout timeoutId).run maxConcurrent readings)
      else none
  | .settled operation readings =>
      (s.running.find? fun e => e.1 == operation).map fun e =>
        resume maxConcurrent { s with running := s.running.eraseP fun e => e.1 == operation } e.2
          readings
  | .stop => some s.stop

def steps (maxConcurrent : Nat) :
    List (SchedulerEvent N) → IntervalScheduler N → Option (IntervalScheduler N)
  | [], s => some s
  | e :: events, s => (s.step maxConcurrent e).bind (steps maxConcurrent events)

theorem Inv.resume (htimers : s.timers.map (·.1) = s.nextRun)
    (hstopped : s.aborted = true ↔ s.nextRunTimeoutId = 0)
    (hconcurrent : s.concurrent = s.running.length + 1)
    (hbounded : s.running.length < maxConcurrent) (interval : N) (readings : Readings N) :
    Inv maxConcurrent (resume maxConcurrent s interval readings) := by
  have hless : Inv maxConcurrent { s with concurrent := s.concurrent - 1 } :=
    ⟨htimers, hstopped, by rw [hconcurrent]; rfl, hbounded.le⟩
  rw [IntervalScheduler.resume]
  dsimp only
  split
  · -- the interval has changed
    rename_i hchanged
    have haborted : s.aborted = false := by
      cases hs : s.aborted with
      | false => rfl
      | true =>
          rw [hs] at hchanged
          cases hchanged
    exact Inv.setTimeout hless.cleared haborted hless.concurrent hless.bounded _
  · split
    · -- it is late
      rename_i hlate
      have haborted : s.aborted = false :=
        Bool.eq_false_iff.mpr fun habort => hlate.2 (hstopped.mp habort)
      exact Inv.run hless.cleared haborted hless.concurrent hless.bounded _
    · exact hless

theorem Inv.step (h : Inv maxConcurrent s) {e : SchedulerEvent N}
    (hstep : s.step maxConcurrent e = some s') : Inv maxConcurrent s' := by
  cases e with
  | fire timeoutId readings =>
      rw [IntervalScheduler.step] at hstep
      split at hstep
      · rename_i hpending
        obtain ⟨haborted, rfl⟩ := h.fires hpending
        cases hstep
        exact Inv.run h.cleared haborted h.concurrent h.bounded readings
      · cases hstep
  | settled operation readings =>
      obtain ⟨e, he, rfl⟩ := Option.map_eq_some_iff.mp hstep
      have hlength :
          (s.running.eraseP fun e => e.1 == operation).length + 1 = s.running.length := by
        have hmem := List.mem_of_find?_eq_some he
        rw [List.length_eraseP_of_mem hmem (List.find?_some he)]
        exact Nat.sub_add_cancel (List.length_pos_of_mem hmem)
      refine Inv.resume (s := { s with running := s.running.eraseP fun e => e.1 == operation })
        h.timers h.stopped ?_ ?_ e.2 readings
      · exact h.concurrent.trans hlength.symm
      · exact Nat.lt_of_succ_le (hlength.le.trans h.bounded)
  | stop =>
      cases hstep
      exact h.stop

theorem Inv.steps (h : Inv maxConcurrent s) {events : List (SchedulerEvent N)}
    (hsteps : steps maxConcurrent events s = some s') : Inv maxConcurrent s' := by
  induction events generalizing s with
  | nil =>
      cases hsteps
      exact h
  | cons e events ih =>
      obtain ⟨s₁, hstep, hsteps⟩ := Option.bind_eq_some_iff.mp hsteps
      exact ih (h.step hstep) hsteps

/-! ### Being stopped -/

/-- A scheduler is stopped by a stop, and by nothing else. -/
theorem aborted_step {e : SchedulerEvent N} (hstep : s.step maxConcurrent e = some s') :
    s'.aborted = true ↔ s.aborted = true ∨ e = .stop := by
  have hrun : ∀ (t : IntervalScheduler N) readings,
      (t.run maxConcurrent readings).aborted = t.aborted := by
    intro t readings
    rw [run]
    split <;> rfl
  cases e with
  | fire timeoutId readings =>
      rw [step] at hstep
      split at hstep
      · cases hstep
        rw [hrun, or_iff_left nofun]
        exact Iff.rfl
      · cases hstep
  | settled operation readings =>
      obtain ⟨e, he, rfl⟩ := Option.map_eq_some_iff.mp hstep
      rw [or_iff_left nofun, resume]
      dsimp only
      split
      · exact Iff.rfl
      · split
        · rw [hrun]
          exact Iff.rfl
        · exact Iff.rfl
  | stop =>
      cases hstep
      exact ⟨fun _ => .inr rfl, fun _ => rfl⟩

theorem aborted_steps {events : List (SchedulerEvent N)}
    (hsteps : steps maxConcurrent events s = some s') :
    s'.aborted = true ↔ s.aborted = true ∨ .stop ∈ events := by
  induction events generalizing s with
  | nil =>
      cases hsteps
      exact (or_iff_left List.not_mem_nil).symm
  | cons e events ih =>
      obtain ⟨s₁, hstep, hsteps⟩ := Option.bind_eq_some_iff.mp hsteps
      rw [ih hsteps, aborted_step hstep, List.mem_cons, or_assoc, eq_comm (a := e)]

/-- **No operation is started after the stop.** -/
theorem Inv.started_step (h : Inv maxConcurrent s) (haborted : s.aborted = true)
    {e : SchedulerEvent N} (hstep : s.step maxConcurrent e = some s') : s'.started = s.started := by
  cases e with
  | fire timeoutId readings =>
      rw [IntervalScheduler.step] at hstep
      split at hstep
      · rename_i hpending
        rw [(h.fires hpending).1] at haborted
        cases haborted
      · cases hstep
  | settled operation readings =>
      obtain ⟨e, he, rfl⟩ := Option.map_eq_some_iff.mp hstep
      rw [IntervalScheduler.resume]
      dsimp only
      split
      · rfl
      · split
        · rename_i hlate
          exact absurd (h.stopped.mp haborted) hlate.2
        · rfl
  | stop =>
      cases hstep
      rfl

theorem Inv.started_steps (h : Inv maxConcurrent s) (haborted : s.aborted = true)
    {events : List (SchedulerEvent N)}
    (hsteps : IntervalScheduler.steps maxConcurrent events s = some s') :
    s'.started = s.started := by
  induction events generalizing s with
  | nil =>
      cases hsteps
      rfl
  | cons e events ih =>
      obtain ⟨s₁, hstep, hsteps⟩ := Option.bind_eq_some_iff.mp hsteps
      have haborted' : s₁.aborted = true := (aborted_step hstep).mpr (.inl haborted)
      rw [ih (h.step hstep) haborted' hsteps, h.started_step haborted hstep]

/-! ### Main results -/

/-- **The interval scheduler is exact.**  In every run: until it is stopped there is one timer,
which can fire; after that there is none, and no operation is started; there are never more than
`maxConcurrent` operations. -/
theorem interval_scheduler_exact [Zero N] (maxConcurrent : Nat) (interval : N)
    {events : List (SchedulerEvent N)} {s : IntervalScheduler N}
    (h : steps maxConcurrent events (schedule interval) = some s) :
    (.stop ∉ events → s.timers.map (·.1) = [s.nextRunTimeoutId]) ∧
      (.stop ∈ events → s.timers = []) ∧
      s.running.length ≤ maxConcurrent ∧
      ∀ later s', .stop ∈ events → steps maxConcurrent later s = some s' →
        s'.started = s.started := by
  have hinv := (inv_schedule interval).steps h
  have hiff : s.aborted = true ↔ .stop ∈ events := by
    rw [aborted_steps h, or_iff_right]
    exact nofun
  refine ⟨?_, ?_, hinv.bounded, ?_⟩
  · intro hstop
    have htimers := hinv.timers
    rwa [nextRun, if_neg (mt hiff.mp hstop)] at htimers
  · intro hstop
    have htimers := hinv.timers
    rw [nextRun, if_pos (hiff.mpr hstop)] at htimers
    exact List.map_eq_nil_iff.mp htimers
  · intro later s' hstop hlater
    exact hinv.started_steps (hiff.mpr hstop) hlater

/-- The second run finds an operation that has not come back; when it does, the interval has
doubled; the stop falls into the operation of the third run. -/
def overlappingRuns : List (SchedulerEvent Int) :=
  let readings : Int → Int → Readings Int := fun now interval =>
    ⟨now, interval, interval, interval, now, interval⟩
  [.fire 1 (readings 10 10), .fire 2 (readings 20 10), .settled 0 (readings 25 20),
    .fire 4 (readings 45 20), .stop, .settled 1 (readings 99 20)]

theorem interval_scheduler_exact_sample :
    ∃ s, steps 1 overlappingRuns (schedule 10) = some s ∧ s.timers = [] ∧ s.started = 2 ∧
      ∀ later s', steps 1 later s = some s' → s'.started = 2 := by
  have h : steps 1 overlappingRuns (schedule 10) = some _ := rfl
  have hstop : SchedulerEvent.stop ∈ overlappingRuns := by simp [overlappingRuns]
  obtain ⟨-, hnone, -, hstarted⟩ := interval_scheduler_exact 1 10 h
  refine ⟨_, h, hnone hstop, rfl, ?_⟩
  intro later s' hlater
  exact hstarted later s' hstop hlater

end IntervalScheduler

end ConfidenceResolver
