import ConfidenceResolver.FlagLog.Sink

/-!
# FlagLog — no record is lost or delivered twice

The invariant of the buffer sink, over every order of offers, ticks, turns and cancellations.

* `Isolate.Inv`: the records, the sequence numbers and the byte count against the history;
  `Inv.push`, `Inv.removes`.
* `Keeps`: slots and waiters go where tasks go; `keeps_poll`, `keeps_cancel`.
* `dispatched_run`: what is taken to be delivered is what tasks are given.
* `World.Inv`: both, the limits, and the shed records on the console.
* `sink_invariant`: it holds in every run.  `sequence_wraps`: two limits of the machine integers.
-/

namespace ConfidenceResolver

namespace FlagLog

variable {sizes : LogSizes}

/-! ### Records -/

/-- How many records have been taken. -/
def Isolate.taken (s : Isolate sizes) : Nat := (s.takes.flatMap (·.chunk)).length

/-- The chunks taken and the records buffered are the records offered, in their order; the sequence
number of a record is its place, in 64 bits; the byte count is exact until it saturates. -/
structure Isolate.Inv (s : Isolate sizes) : Prop where
  order : s.takes.flatMap (·.chunk) ++ s.buffer.logs.map (·.log) = s.offered
  seqs : ∀ k e, s.buffer.logs[k]? = some e → e.seq = UInt64.ofNat (s.taken + k)
  nextSeq : s.buffer.nextSeq = UInt64.ofNat s.offered.length
  bytes : s.saturated = false → s.buffer.bytes = (s.buffer.logs.map (·.len)).sum

namespace Isolate

theorem inv_new : Inv (new : Isolate sizes) where
  order := rfl
  seqs k e he := by simp [new, Buffer.new] at he
  nextSeq := rfl
  bytes _ := rfl

variable {s s' : Isolate sizes} {p : Taker → Prop}

theorem Inv.length (h : s.Inv) : s.taken + s.buffer.logs.length = s.offered.length := by
  rw [← h.order, List.length_append, List.length_map, taken]

/-- **A push** gives the next number to the new record. -/
theorem Inv.push (h : s.Inv) (log : WriteFlagLogsRequest) (nowMs : Int) : (s.push log nowMs).Inv where
  order := by
    rw [Isolate.push, ← h.order]
    simp [Buffer.push]
  seqs k e he := by
    by_cases hk : k < s.buffer.logs.length
    · exact h.seqs k e (by rwa [← List.getElem?_append_left hk])
    · -- the new record is the last one
      have hlast : k = s.buffer.logs.length ∧ s.buffer.nextSeq = e.seq := by
        have hlt := (List.getElem?_eq_some_iff.mp he).1
        have hlen : (s.push log nowMs).buffer.logs.length = s.buffer.logs.length + 1 := by
          simp [Isolate.push, Buffer.push]
        obtain rfl : k = s.buffer.logs.length := by omega
        simp only [Isolate.push, Buffer.push, List.getElem?_concat_length, Option.some.injEq] at he
        exact ⟨rfl, by rw [← he]⟩
      rw [← hlast.2, h.nextSeq, hlast.1, ← h.length]
      rfl
  nextSeq := by
    simp [Isolate.push, Buffer.push, h.nextSeq, UInt64.ofNat_add]
  bytes hexact := by
    obtain ⟨hold, hroom⟩ := Bool.or_eq_false_iff.mp hexact
    have hfits := Nat.le_of_not_lt (of_decide_eq_false hroom)
    simp only [Isolate.push, Buffer.push, List.map_append, List.map_cons, List.map_nil,
      List.sum_append, List.sum_cons, List.sum_nil, Nat.add_zero]
    rw [ByteQueue.add_eq hfits, h.bytes hold]

/-- **Chunks off the front** leave the rest as it was. -/
theorem Inv.removes (h : s.Inv) (hr : Removes p s s') : s'.Inv := by
  obtain ⟨removed, new, hr⟩ := hr
  have htaken : s'.taken = s.taken + removed.length := by
    rw [taken, hr.takes, List.flatMap_append, List.length_append, hr.chunks, List.length_map, taken]
  refine ⟨?_, fun k e he => ?_, ?_, fun hexact => ?_⟩
  · rw [hr.offered, ← h.order, hr.takes, hr.logs, List.flatMap_append, hr.chunks, List.map_append,
      List.append_assoc]
  · have hold : s.buffer.logs[removed.length + k]? = some e := by
      rw [hr.logs, List.getElem?_append_right (Nat.le_add_right _ _), Nat.add_sub_cancel_left]
      exact he
    rw [h.seqs _ e hold, htaken, Nat.add_assoc]
  · rw [hr.nextSeq, hr.offered, h.nextSeq]
  · rw [hr.bytes, h.bytes (hr.saturated ▸ hexact), hr.logs, List.map_append, List.sum_append,
      Nat.add_sub_cancel_left]

/-- The numbers are those of the places, as long as these fit 64 bits. -/
theorem Inv.sorted (h : s.Inv) (hwrap : s.offered.length ≤ 2 ^ 64) :
    (s.buffer.logs.map (·.seq)).Pairwise (· < ·) := by
  rw [List.pairwise_iff_getElem]
  intro i j hi hj hij
  have hlen := h.length
  rw [List.length_map] at hi hj
  rw [List.getElem_map, List.getElem_map, h.seqs i _ (List.getElem?_eq_getElem hi),
    h.seqs j _ (List.getElem?_eq_getElem hj)]
  have hplace : s.taken + j < 2 ^ 64 := by omega
  have hplace' : s.taken + i < 2 ^ 64 := by omega
  exact (UInt64.ofNat_lt_iff_lt hplace' hplace).mpr (by omega)

end Isolate

/-! ### Slots and waiters -/

def Task.slots (t : Task) : Nat := if t.holdsSlot then 1 else 0

def Task.waiters (t : Task) : Nat := if t.holdsWaiter then 1 else 0

/-- A task moves from `t` to `t'`, and its slot and its waiter are counted in `s` and in `s'`.  What
is shed in between is reported. -/
structure Keeps (t t' : Task) (s s' : Isolate sizes) : Prop where
  slots : s'.inFlight + t.slots = s.inFlight + t'.slots
  waiters : s'.buffer.waiterActive.toNat + t.waiters = s.buffer.waiterActive.toNat + t'.waiters
  hard : s.inFlight ≤ hardInFlight → s'.inFlight ≤ hardInFlight
  shed : s'.reported + s.shedRecords = s.reported + s'.shedRecords

section Keeps

variable {s s' s'' : Isolate sizes} {t t' t'' : Task}

theorem waiterActive_of_waiters {t : Task} (hheld : t.waiters = 1)
    (hwaiters : t.waiters ≤ s.buffer.waiterActive.toNat) : s.buffer.waiterActive = true := by
  by_contra hvacant
  rw [hheld, Bool.eq_false_iff.mpr hvacant] at hwaiters
  exact Nat.not_succ_le_zero 0 hwaiters

theorem Keeps.refl (t : Task) (s : Isolate sizes) : Keeps t t s s := ⟨rfl, rfl, id, rfl⟩

theorem Keeps.trans (h : Keeps t t' s s') (h' : Keeps t' t'' s' s'') : Keeps t t'' s s'' where
  slots := by
    have := h.slots
    have := h'.slots
    omega
  waiters := by
    have := h.waiters
    have := h'.waiters
    omega
  hard hs := h'.hard (h.hard hs)
  shed := by
    have := h.shed
    have := h'.shed
    omega

/-- A slot that is held is dropped. -/
theorem keeps_release (hheld : t.slots = 1) (hslots : t'.slots = 0)
    (hwaiters : t'.waiters = t.waiters) (hpos : 0 < s.inFlight) : Keeps t t' s s.release where
  slots := by
    rw [hheld, hslots]
    exact Nat.sub_add_cancel hpos
  waiters := by rw [hwaiters]; rfl
  hard hs := Nat.le_trans (Nat.sub_le _ _) hs
  shed := rfl

/-- A waiter that is held is dropped. -/
theorem keeps_dropWaiter (hheld : t.waiters = 1) (hwaiters : t'.waiters = 0)
    (hslots : t'.slots = t.slots) (hactive : s.buffer.waiterActive = true) :
    Keeps t t' s s.dropWaiter where
  slots := by rw [hslots]; rfl
  waiters := by
    rw [hheld, hwaiters, hactive]
    rfl
  hard := id
  shed := rfl

/-- A slot is acquired while one is left, and a chunk is taken with it. -/
theorem keeps_acquire (hslots : t.slots = 0) (hheld : t'.slots = 1)
    (hwaiters : t'.waiters = t.waiters) (hleft : s.inFlight < hardInFlight)
    (stop : Entry sizes → Bool) (taker : Taker) :
    Keeps t t' s (s.acquire.took (s.buffer.drain stop) taker false).2 where
  slots := by
    rw [hslots, hheld]
    rfl
  waiters := by rw [hwaiters]; rfl
  hard _ := hleft
  shed := by
    rw [shedRecords_took_false]
    rfl

/-- What a drain writes changes neither. -/
theorem keeps_reportDrain (s : Isolate sizes) (reason : String) (delivered : Nat)
    (hslots : t'.slots = t.slots) (hwaiters : t'.waiters = t.waiters) :
    Keeps t t' s (s.reportDrain reason delivered) := by
  rcases reportDrain_cases s reason delivered with hreport | ⟨line, hline, hreport⟩
  · rw [hreport]
    exact ⟨by rw [hslots], by rw [hwaiters], id, rfl⟩
  · rw [hreport]
    exact ⟨by rw [hslots]; rfl, by rw [hwaiters]; rfl, id, by rw [reported_log, hline]; rfl⟩

theorem keeps_drainLoop (s : Isolate sizes) (task : Nat) (drain : Drain) (nowMs : Int) :
    Keeps .done (s.drainLoop task drain nowMs).1 s (s.drainLoop task drain nowMs).2 := by
  rw [Isolate.drainLoop]
  rcases drainPass_cases s task drain.boundary (drain.deadline.remainingFrom nowMs) with
    ⟨stop, hpass, -⟩ | ⟨hpass, -⟩ | ⟨hpass, -, hleft⟩
  · rw [hpass]
    exact keeps_reportDrain s _ _ rfl rfl
  · rw [hpass]
    -- the slot of an empty chunk is dropped again
    have hback : Keeps .done .done s ((s.acquire.took (s.buffer.takeChunkBefore drain.boundary)
        (.drain task) false).2.release) := by
      refine ⟨?_, rfl, ?_, ?_⟩
      · exact congrArg (· + 0) (Nat.add_sub_cancel s.inFlight 1)
      · exact fun hs => Nat.le_trans (Nat.le_of_eq (Nat.add_sub_cancel s.inFlight 1)) hs
      · exact congrArg (s.reported + ·) (shedRecords_took_false s.acquire _ _).symm
    exact hback.trans (keeps_reportDrain _ _ _ rfl rfl)
  · rw [hpass]
    refine keeps_acquire ?_ ?_ ?_ hleft _ _ <;> rfl

theorem keeps_wake (s : Isolate sizes) (task : Nat) (deadline : Deadline) (nowMs : Int)
    (hactive : s.buffer.waiterActive = true) :
    Keeps (.waiting deadline) (s.wake task deadline nowMs).1 s (s.wake task deadline nowMs).2 := by
  unfold Isolate.wake
  split
  · split
    · exact keeps_dropWaiter rfl rfl rfl hactive
    · have hdrop : Keeps (.waiting deadline) .done s s.dropWaiter :=
        keeps_dropWaiter rfl rfl rfl hactive
      exact hdrop.trans (keeps_drainLoop s.dropWaiter task _ nowMs)
  rcases tickStep_cases s task nowMs with ⟨hstep, -⟩ | hstep | hstep | ⟨hstep, hleft, -⟩
  · rw [hstep]
    exact keeps_dropWaiter rfl rfl rfl hactive
  · rw [hstep]
    exact .refl _ s
  · rw [hstep]
    obtain ⟨-, hslots, hwaiter, hreported, hshed⟩ := shedDown_spec
      (s.took s.buffer.takeChunk (.timer task) true).2 task s.buffer.takeChunk.1.length 1
    rw [shedRecords_took_true] at hshed
    refine ⟨congrArg (· + 0) hslots, congrArg (·.toNat + 1) hwaiter, fun hs => hslots.symm ▸ hs, ?_⟩
    -- the line counts the first chunk and those of the loop
    rw [reported_log, hreported, Nat.add_right_comm, Nat.add_assoc]
    have hsum := Nat.add_right_cancel (hshed.trans (Nat.add_right_comm _ _ _))
    exact congrArg (s.reported + ·) hsum.symm
  · rw [hstep]
    refine keeps_acquire ?_ ?_ ?_ hleft _ _ <;> rfl

/-- **A task that is polled** moves with what it holds. -/
theorem keeps_poll (s : Isolate sizes) (task : Nat) (nowMs : Int) (t : Task)
    (hslots : t.slots ≤ s.inFlight) (hwaiters : t.waiters ≤ s.buffer.waiterActive.toNat) :
    Keeps t (s.poll task nowMs t).1 s (s.poll task nowMs t).2 := by
  cases t with
  | batch logs => exact keeps_release rfl rfl rfl hslots
  | waiting deadline =>
      exact keeps_wake s task deadline nowMs (waiterActive_of_waiters rfl hwaiters)
  | delivering deadline logs => exact keeps_release rfl rfl rfl hslots
  | draining drain logs =>
      have hrelease : Keeps (.draining drain logs) .done s s.release :=
        keeps_release rfl rfl rfl hslots
      exact hrelease.trans (keeps_drainLoop s.release task drain nowMs)
  | stoodDown drain stop => exact .refl _ s
  | done => exact .refl _ s

/-- **A task that is dropped** drops what it holds. -/
theorem keeps_cancel (s : Isolate sizes) (t : Task) (hslots : t.slots ≤ s.inFlight)
    (hwaiters : t.waiters ≤ s.buffer.waiterActive.toNat) :
    Keeps t (s.cancel t).1 s (s.cancel t).2 := by
  cases t with
  | batch logs => exact keeps_release rfl rfl rfl hslots
  | waiting deadline => exact keeps_dropWaiter rfl rfl rfl (waiterActive_of_waiters rfl hwaiters)
  | delivering deadline logs =>
      have hrelease : Keeps (.delivering deadline logs) (.waiting deadline) s s.release :=
        keeps_release rfl rfl rfl hslots
      exact hrelease.trans (keeps_dropWaiter rfl rfl rfl (waiterActive_of_waiters rfl hwaiters))
  | draining drain logs => exact keeps_release rfl rfl rfl hslots
  | stoodDown drain stop => exact .refl _ s
  | done => exact .refl _ s

end Keeps

/-! ### Chunks handed to tasks -/

/-- The chunk of a task is one that was taken to be delivered. -/
def Handed (s : Isolate sizes) (t : Task) : Prop :=
  ∀ chunk ∈ t.chunk?, ∃ k ∈ s.takes, k.shed = false ∧ k.chunk = chunk

section Handed

variable {s s' : Isolate sizes} {p : Taker → Prop} {t : Task}

theorem Handed.removes (h : Handed s t) (hr : Removes p s s') : Handed s' t := by
  obtain ⟨removed, new, hr⟩ := hr
  intro chunk hchunk
  obtain ⟨k, hk, hkept⟩ := h chunk hchunk
  exact ⟨k, hr.takes ▸ List.mem_append_left new hk, hkept⟩

theorem handed_of_none (h : t.chunk? = none) : Handed s t := by
  intro chunk hchunk
  rw [h] at hchunk
  exact absurd hchunk (by simp)

theorem handed_took (taken : List WriteFlagLogsRequest × Buffer sizes) (taker : Taker)
    (h : t.chunk? = some taken.1) : Handed (s.took taken taker false).2 t := by
  intro chunk hchunk
  rw [h] at hchunk
  exact ⟨⟨taker, false, taken.1⟩, List.mem_append_right _ List.mem_cons_self, rfl,
    Option.some.inj hchunk⟩

theorem handed_drainLoop (s : Isolate sizes) (task : Nat) (drain : Drain) (nowMs : Int) :
    Handed (s.drainLoop task drain nowMs).2 (s.drainLoop task drain nowMs).1 := by
  rw [Isolate.drainLoop]
  rcases drainPass_cases s task drain.boundary (drain.deadline.remainingFrom nowMs) with
    ⟨stop, hpass, -⟩ | ⟨hpass, -⟩ | ⟨hpass, -, -⟩
  · rw [hpass]
    exact handed_of_none rfl
  · rw [hpass]
    exact handed_of_none rfl
  · rw [hpass]
    exact handed_took _ _ rfl

theorem handed_wake (s : Isolate sizes) (task : Nat) (deadline : Deadline) (nowMs : Int) :
    Handed (s.wake task deadline nowMs).2 (s.wake task deadline nowMs).1 := by
  unfold Isolate.wake
  split
  · split
    · exact handed_of_none rfl
    · exact handed_drainLoop s.dropWaiter task _ nowMs
  rcases tickStep_cases s task nowMs with ⟨hstep, -⟩ | hstep | hstep | ⟨hstep, -⟩
  · rw [hstep]
    exact handed_of_none rfl
  · rw [hstep]
    exact handed_of_none rfl
  · rw [hstep]
    exact handed_of_none rfl
  · rw [hstep]
    exact handed_took _ _ rfl

theorem handed_poll (s : Isolate sizes) (task : Nat) (nowMs : Int) (t : Task) :
    Handed (s.poll task nowMs t).2 (s.poll task nowMs t).1 := by
  cases t with
  | batch logs => exact handed_of_none rfl
  | waiting deadline => exact handed_wake s task deadline nowMs
  | delivering deadline logs => exact handed_of_none rfl
  | draining drain logs => exact handed_drainLoop s.release task drain nowMs
  | stoodDown drain stop => exact handed_of_none rfl
  | done => exact handed_of_none rfl

theorem handed_cancel (s : Isolate sizes) (t : Task) : Handed (s.cancel t).2 (s.cancel t).1 := by
  cases t <;> exact handed_of_none rfl

end Handed

/-! ### Chunks taken to be delivered -/

/-- The chunks with records that were taken to be delivered, in order. -/
def Isolate.dispatched (s : Isolate sizes) : List (List WriteFlagLogsRequest) :=
  (s.takes.filter fun k => !k.shed && !k.chunk.isEmpty).map (·.chunk)

section Dispatched

theorem dispatched_took_true (s : Isolate sizes)
    (taken : List WriteFlagLogsRequest × Buffer sizes) (taker : Taker) :
    (s.took taken taker true).2.dispatched = s.dispatched := by
  simp [Isolate.dispatched, Isolate.took]

theorem dispatched_took_empty (s : Isolate sizes)
    {taken : List WriteFlagLogsRequest × Buffer sizes} (taker : Taker) (h : taken.1 = []) :
    (s.took taken taker false).2.dispatched = s.dispatched := by
  simp [Isolate.dispatched, Isolate.took, h]

theorem dispatched_took (s : Isolate sizes)
    {taken : List WriteFlagLogsRequest × Buffer sizes} (taker : Taker) (h : taken.1 ≠ []) :
    (s.took taken taker false).2.dispatched = s.dispatched ++ [taken.1] := by
  simp [Isolate.dispatched, Isolate.took, h]

theorem dispatched_shedDown (s : Isolate sizes) (task records chunks : Nat) :
    (s.shedDown task records chunks).2.2.dispatched = s.dispatched := by
  induction s, records, chunks using Isolate.shedDown.induct task with
  | case1 s records chunks h => rw [Isolate.shedDown, dif_pos h]
  | case2 s records chunks h more ih =>
      have hloop : s.shedDown task records chunks =
          more.2.shedDown task (records + more.1.length) (chunks + 1) := by
        rw [Isolate.shedDown, dif_neg h]
      rw [hloop, ih]
      exact dispatched_took_true s _ _

theorem dispatched_reportDrain (s : Isolate sizes) (reason : String) (delivered : Nat) :
    (s.reportDrain reason delivered).dispatched = s.dispatched := by
  rcases reportDrain_cases s reason delivered with hreport | ⟨line, -, hreport⟩ <;> rw [hreport]
  rfl

theorem dispatched_drainLoop (s : Isolate sizes) (task : Nat) (drain : Drain) (nowMs : Int) :
    (s.drainLoop task drain nowMs).2.dispatched =
      s.dispatched ++ (s.drainLoop task drain nowMs).1.chunk?.toList := by
  rw [Isolate.drainLoop]
  rcases drainPass_cases s task drain.boundary (drain.deadline.remainingFrom nowMs) with
    ⟨stop, hpass, -⟩ | ⟨hpass, hempty⟩ | ⟨hpass, hne, -⟩
  · rw [hpass]
    exact (dispatched_reportDrain s _ _).trans (List.append_nil _).symm
  · rw [hpass]
    refine (dispatched_reportDrain _ _ _).trans (Eq.trans ?_ (List.append_nil _).symm)
    exact dispatched_took_empty s.acquire _ hempty
  · rw [hpass]
    exact dispatched_took s.acquire _ hne

theorem dispatched_wake (s : Isolate sizes) (task : Nat) (deadline : Deadline) (nowMs : Int) :
    (s.wake task deadline nowMs).2.dispatched =
      s.dispatched ++ (s.wake task deadline nowMs).1.chunk?.toList := by
  unfold Isolate.wake
  split
  · split
    · exact (List.append_nil _).symm
    · exact dispatched_drainLoop s.dropWaiter task _ nowMs
  rcases tickStep_cases s task nowMs with ⟨hstep, -⟩ | hstep | hstep | ⟨hstep, -, hne⟩
  · rw [hstep]
    exact (List.append_nil _).symm
  · rw [hstep]
    exact (List.append_nil _).symm
  · rw [hstep]
    exact ((dispatched_shedDown _ _ _ _).trans (dispatched_took_true s _ _)).trans
      (List.append_nil _).symm
  · rw [hstep]
    exact dispatched_took s.acquire _ (Buffer.takeChunk_ne_nil hne)

/-- **A task that is polled** delivers what is taken for it. -/
theorem dispatched_poll (s : Isolate sizes) (task : Nat) (nowMs : Int) (t : Task) :
    (s.poll task nowMs t).2.dispatched =
      s.dispatched ++ (s.poll task nowMs t).1.chunk?.toList := by
  cases t with
  | waiting deadline => exact dispatched_wake s task deadline nowMs
  | draining drain logs => exact dispatched_drainLoop s.release task drain nowMs
  | batch | delivering | stoodDown | done => exact (List.append_nil _).symm

theorem dispatched_cancel (s : Isolate sizes) (t : Task) :
    (s.cancel t).2.dispatched = s.dispatched := by
  cases t <;> rfl

theorem dispatched_offerAt (s : Isolate sizes) (log : WriteFlagLogsRequest) (nowMs : Int) :
    (s.offerAt log nowMs).2.dispatched = s.dispatched ++ (s.offerAt log nowMs).1.toList := by
  have hpush : (s.push log nowMs).dispatched = s.dispatched := rfl
  rcases offerAt_cases s log nowMs with ⟨hoffer, -⟩ | ⟨hoffer, -⟩ | ⟨hoffer, -⟩
  · rw [hoffer]
    exact (List.append_nil _).symm
  · rw [hoffer, ← hpush]
    exact (dispatched_took_true (s.push log nowMs) _ _).trans (List.append_nil _).symm
  · rw [hoffer, ← hpush]
    refine dispatched_took (s.push log nowMs).acquire _ (Buffer.takeChunk_ne_nil ?_)
    simp [Isolate.push, Buffer.push]

end Dispatched

namespace World

/-- The chunk that an event gives to a task that it starts or moves. -/
def chunkGiven (w : World sizes) : Event → Option (List WriteFlagLogsRequest)
  | .offer log nowMs => (w.isolate.offerAt log nowMs).1
  | .tick _ | .cancel _ => none
  | .poll task nowMs => w.tasks[task]?.bind fun t => (w.isolate.poll task nowMs t).1.chunk?

variable (sizes) in
/-- The chunks that tasks were given over a run, in order. -/
def chunksGiven (events : List Event) : List (List WriteFlagLogsRequest) :=
  (events.foldl (fun out e => (out.1.exec e, out.2 ++ (out.1.chunkGiven e).toList))
    ((new : World sizes), [])).2

theorem chunksGiven_concat (events : List Event) (e : Event) :
    chunksGiven sizes (events ++ [e]) =
      chunksGiven sizes events ++ ((run sizes events).chunkGiven e).toList := by
  have hworld : (events.foldl (fun out e => (out.1.exec e, out.2 ++ (out.1.chunkGiven e).toList))
      ((new : World sizes), [])).1 = run sizes events := by
    induction events using List.reverseRecOn with
    | nil => rfl
    | append_singleton events e ih => rw [List.foldl_append, run_concat, ← ih]; rfl
  rw [chunksGiven, List.foldl_append, ← hworld]
  rfl

/-- **An event** gives a task what it takes to be delivered. -/
theorem dispatched_exec (w : World sizes) (e : Event) :
    (w.exec e).isolate.dispatched = w.isolate.dispatched ++ (w.chunkGiven e).toList := by
  cases e with
  | offer log nowMs =>
      have h := dispatched_offerAt w.isolate log nowMs
      revert h
      rw [exec, chunkGiven]
      rcases w.isolate.offerAt log nowMs with ⟨_ | batch, s⟩ <;> exact id
  | tick deadline =>
      rw [exec, chunkGiven, Option.toList_none, List.append_nil]
      cases hclaim : w.isolate.claim with
      | none => rfl
      | some s =>
          rw [Isolate.claim] at hclaim
          split at hclaim
          · cases hclaim
          · cases hclaim; rfl
  | poll task nowMs =>
      rw [exec, chunkGiven]
      cases w.tasks[task]? with
      | none => exact (List.append_nil _).symm
      | some t => exact dispatched_poll w.isolate task nowMs t
  | cancel task =>
      rw [exec, chunkGiven, Option.toList_none, List.append_nil]
      cases w.tasks[task]? with
      | none => rfl
      | some t => exact dispatched_cancel w.isolate t

/-- Over a run, what was taken to be delivered is what the tasks were given. -/
theorem dispatched_run (events : List Event) :
    (run sizes events).isolate.dispatched = chunksGiven sizes events := by
  induction events using List.reverseRecOn with
  | nil => rfl
  | append_singleton events e ih => rw [run_concat, dispatched_exec, ih, chunksGiven_concat]

end World

/-! ### The invariant -/

structure World.Inv (w : World sizes) : Prop where
  records : w.isolate.Inv
  slots : w.isolate.inFlight = w.liveSlots
  hard : w.isolate.inFlight ≤ hardInFlight
  waiters : w.isolate.buffer.waiterActive.toNat = w.liveWaiters
  room : w.isolate.buffer.logs.length < maxBufferRecords
  shed : w.isolate.reported = w.isolate.shedRecords
  handed : ∀ t ∈ w.tasks, Handed w.isolate t

namespace World

variable {w : World sizes}

theorem inv_new : Inv (new : World sizes) where
  records := Isolate.inv_new
  slots := rfl
  hard := Nat.zero_le _
  waiters := rfl
  room := Nat.zero_lt_succ _
  shed := rfl
  handed _ ht := absurd ht List.not_mem_nil

/-- The count of a list in which one task has moved. -/
theorem countP_set_add (p : Task → Bool) {tasks : List Task} {task : Nat} {t : Task}
    (ht : tasks[task]? = some t) (t' : Task) :
    (tasks.set task t').countP p + (if p t then 1 else 0) =
      tasks.countP p + (if p t' then 1 else 0) := by
  obtain ⟨hlt, hget⟩ := List.getElem?_eq_some_iff.mp ht
  have hpos := List.boole_getElem_le_countP (p := p) hlt
  rw [List.countP_set hlt, hget]
  rw [hget] at hpos
  omega

/-- One task moves. -/
theorem Inv.move (h : w.Inv) {task : Nat} {t : Task} (ht : w.tasks[task]? = some t)
    {moved : Task × Isolate sizes} {p : Taker → Prop} (hkeeps : Keeps t moved.1 w.isolate moved.2)
    (hremoves : Removes p w.isolate moved.2) (hhanded : Handed moved.2 moved.1) :
    (w.move task moved).Inv := by
  refine ⟨h.records.removes hremoves, ?_, hkeeps.hard h.hard, ?_, ?_, ?_, fun t' ht' => ?_⟩
  · have hcount := countP_set_add Task.holdsSlot ht moved.1
    have hslots := hkeeps.slots
    rw [h.slots] at hslots
    exact Nat.add_right_cancel (hslots.trans hcount.symm)
  · have hcount := countP_set_add Task.holdsWaiter ht moved.1
    have hwaiters := hkeeps.waiters
    rw [h.waiters] at hwaiters
    exact Nat.add_right_cancel (hwaiters.trans hcount.symm)
  · obtain ⟨removed, new, hr⟩ := hremoves
    have hroom := h.room
    rw [hr.logs, List.length_append] at hroom
    exact Nat.lt_of_le_of_lt (Nat.le_add_left _ _) hroom
  · have hshed := hkeeps.shed
    rw [h.shed, Nat.add_comm] at hshed
    exact Nat.add_left_cancel hshed
  · rcases List.mem_or_eq_of_mem_set ht' with hold | rfl
    · exact (h.handed t' hold).removes hremoves
    · exact hhanded

/-- A task starts, or none does. -/
theorem Inv.start (h : w.Inv) {s' : Isolate sizes} (started : Option Task) (hrecords : s'.Inv)
    (hkeeps : Keeps .done (started.getD .done) w.isolate s')
    (hroom : s'.buffer.logs.length < maxBufferRecords)
    (hold : ∀ t ∈ w.tasks, Handed s' t) (hnew : ∀ t ∈ started, Handed s' t) :
    Inv ⟨s', w.tasks ++ started.toList⟩ := by
  have hshed := hkeeps.shed
  rw [h.shed, Nat.add_comm] at hshed
  refine ⟨hrecords, ?_, hkeeps.hard h.hard, ?_, hroom, Nat.add_left_cancel hshed, ?_⟩
  · rw [liveSlots, List.countP_append, ← liveSlots, ← h.slots]
    cases started with
    | none => exact hkeeps.slots
    | some t =>
        rw [Option.toList_some, List.countP_singleton]
        exact hkeeps.slots
  · rw [liveWaiters, List.countP_append, ← liveWaiters, ← h.waiters]
    cases started with
    | none => exact hkeeps.waiters
    | some t =>
        rw [Option.toList_some, List.countP_singleton]
        exact hkeeps.waiters
  · intro t ht
    rcases List.mem_append.mp ht with ht | ht
    · exact hold t ht
    · exact hnew t (Option.mem_toList.mp ht)

/-- After an offer the buffer is below its limit again. -/
theorem room_offerAt (s : Isolate sizes) (log : WriteFlagLogsRequest) (nowMs : Int)
    (h : s.buffer.logs.length < maxBufferRecords) :
    (s.offerAt log nowMs).2.buffer.logs.length < maxBufferRecords := by
  have hpush : (s.push log nowMs).buffer.logs.length = s.buffer.logs.length + 1 := by
    simp [Isolate.push, Buffer.push]
  have hchunk : (s.push log nowMs).buffer.takeChunk.2.logs.length < s.buffer.logs.length + 1 := by
    rw [← hpush]
    refine Buffer.takeChunk_length_lt fun hnil => ?_
    rw [hnil] at hpush
    exact Nat.succ_ne_zero _ hpush.symm
  rcases offerAt_cases s log nowMs with ⟨hoffer, hceiling⟩ | ⟨hoffer, -⟩ | ⟨hoffer, -⟩
  · rw [hoffer]
    simp only [Buffer.atCeiling, Bool.or_eq_false_iff, decide_eq_false_iff_not] at hceiling
    exact Nat.lt_of_not_le hceiling.2
  · rw [hoffer]
    exact Nat.lt_of_lt_of_le hchunk h
  · rw [hoffer]
    exact Nat.lt_of_lt_of_le hchunk h

theorem Inv.offer (h : w.Inv) (log : WriteFlagLogsRequest) (nowMs : Int) :
    (w.exec (.offer log nowMs)).Inv := by
  have hremoves : Removes (· = .offer) (w.isolate.push log nowMs) (w.isolate.offerAt log nowMs).2 :=
    removes_offerAt w.isolate log nowMs rfl
  have hrecords := (h.records.push log nowMs).removes hremoves
  have hroom := room_offerAt w.isolate log nowMs h.room
  have hold : ∀ t ∈ w.tasks, Handed (w.isolate.offerAt log nowMs).2 t := fun t ht =>
    Handed.removes (s := w.isolate.push log nowMs) (h.handed t ht) hremoves
  rw [World.exec]
  rcases offerAt_cases w.isolate log nowMs with ⟨hoffer, -⟩ | ⟨hoffer, -⟩ | ⟨hoffer, hleft⟩
  · rw [hoffer] at hrecords hroom hold ⊢
    have hstart := h.start none hrecords ⟨rfl, rfl, id, rfl⟩ hroom hold (by simp)
    rwa [Option.toList_none, List.append_nil] at hstart
  · rw [hoffer] at hrecords hroom hold ⊢
    have hkeeps : Keeps .done .done w.isolate (((w.isolate.push log nowMs).took
        (w.isolate.push log nowMs).buffer.takeChunk .offer true).2.log
        (.shed (w.isolate.push log nowMs).buffer.takeChunk.1.length w.isolate.inFlight)) := by
      refine ⟨rfl, rfl, id, ?_⟩
      -- the line counts the chunk
      rw [reported_log, Nat.add_right_comm, Nat.add_assoc]
      exact congrArg (w.isolate.reported + ·)
        (shedRecords_took_true (w.isolate.push log nowMs) _ _).symm
    have hstart := h.start none hrecords hkeeps hroom hold (by simp)
    rwa [Option.toList_none, List.append_nil] at hstart
  · rw [hoffer] at hrecords hroom hold ⊢
    refine h.start (some _) hrecords ⟨rfl, rfl, fun _ => hleft, ?_⟩ hroom hold fun t ht => ?_
    · exact congrArg (w.isolate.reported + ·)
        (shedRecords_took_false (w.isolate.push log nowMs).acquire _ _).symm
    · obtain rfl := Option.some.inj ht
      exact handed_took _ _ rfl

theorem Inv.tick (h : w.Inv) (deadline : Deadline) : (w.exec (.tick deadline)).Inv := by
  rw [World.exec]
  cases hclaim : w.isolate.claim with
  | none => exact h
  | some s' =>
      have hremoves : Removes (fun _ => False) w.isolate s' := removes_claim w.isolate hclaim
      unfold Isolate.claim at hclaim
      split at hclaim
      · exact absurd hclaim (by simp)
      · rename_i hvacant
        obtain rfl := Option.some.inj hclaim
        obtain ⟨-, hactive⟩ :
            w.isolate.buffer.logs ≠ [] ∧ w.isolate.buffer.waiterActive = false := by
          simpa using hvacant
        refine h.start (some _) (h.records.removes hremoves) ⟨rfl, ?_, id, rfl⟩ h.room
          (fun t ht => (h.handed t ht).removes hremoves) fun t ht => ?_
        · rw [hactive]
          rfl
        · obtain rfl := Option.some.inj ht
          exact handed_of_none rfl

/-- What a task holds is counted. -/
theorem Inv.held (h : w.Inv) {task : Nat} {t : Task} (ht : w.tasks[task]? = some t) :
    t.slots ≤ w.isolate.inFlight ∧ t.waiters ≤ w.isolate.buffer.waiterActive.toNat := by
  obtain ⟨hlt, rfl⟩ := List.getElem?_eq_some_iff.mp ht
  rw [h.slots, h.waiters]
  exact ⟨List.boole_getElem_le_countP hlt, List.boole_getElem_le_countP hlt⟩

/-- **An event** keeps the invariant. -/
theorem Inv.exec (h : w.Inv) (e : Event) : (w.exec e).Inv := by
  cases e with
  | offer log nowMs => exact h.offer log nowMs
  | tick deadline => exact h.tick deadline
  | poll task nowMs =>
      rw [World.exec]
      cases ht : w.tasks[task]? with
      | none => exact h
      | some t =>
          obtain ⟨hslots, hwaiters⟩ := h.held ht
          exact h.move ht (keeps_poll _ task nowMs t hslots hwaiters)
            (removes_poll (p := (Event.poll task nowMs).takes) _ task nowMs (.inl rfl) (.inr rfl) t)
            (handed_poll _ task nowMs t)
  | cancel task =>
      rw [World.exec]
      cases ht : w.tasks[task]? with
      | none => exact h
      | some t =>
          obtain ⟨hslots, hwaiters⟩ := h.held ht
          exact h.move ht (keeps_cancel _ t hslots hwaiters)
            (removes_cancel (p := (Event.cancel task).takes) _ t) (handed_cancel _ t)

theorem inv_run (events : List Event) : (run sizes events).Inv :=
  run_induction inv_new (fun _ e h => h.exec e) events

/-- The byte count is that of the records buffered. -/
def Exact (w : World sizes) : Prop :=
  w.isolate.buffer.bytes = (w.isolate.buffer.logs.map (·.len)).sum

/-- The sequence numbers in the buffer increase. -/
def Ordered (w : World sizes) : Prop := (w.isolate.buffer.logs.map (·.seq)).Pairwise (· < ·)

/-- **In every run** the count of deliveries is that of the slots that are held, and within its
limit; the buffer is within its limit, its byte count exact until it saturates, and its numbers
increase until they wrap; there is at most one waiter; and every record is buffered, or in one chunk
that was taken to be delivered, or in one that was shed and counted, in the order of the offers.
The chunks that were taken to be delivered are those that tasks were given, one by one. -/
theorem sink_invariant (events : List Event) :
    let w := run sizes events
    w.isolate.inFlight = w.liveSlots ∧ w.isolate.inFlight ≤ hardInFlight ∧
      (w.isolate.saturated = false → w.Exact) ∧
      (w.isolate.offered.length ≤ 2 ^ 64 → w.Ordered) ∧
      w.isolate.buffer.logs.length ≤ maxBufferRecords ∧
      w.liveWaiters ≤ 1 ∧
      w.isolate.takes.flatMap (·.chunk) ++ w.isolate.buffer.logs.map (·.log) = w.isolate.offered ∧
      w.isolate.reported = w.isolate.shedRecords ∧
      (∀ t ∈ w.tasks, Handed w.isolate t) ∧ w.isolate.dispatched = chunksGiven sizes events := by
  intro w
  have h : w.Inv := inv_run events
  refine ⟨h.slots, h.hard, h.records.bytes, h.records.sorted, Nat.le_of_lt h.room, ?_,
    h.records.order, h.shed, h.handed, dispatched_run events⟩
  rw [← h.waiters]
  exact Bool.toNat_le _

end World

/-! ### Limits of the machine integers -/

/-- Records with empty envelopes only, of two bytes each; sizes of 32 bits. -/
def sampleSizes : LogSizes where
  usizeMax := 2 ^ 32 - 1
  encodedLen log := min (2 * log.flagAssigned.length) (2 ^ 32 - 1)
  encodedLen_le _ := Nat.min_le_right _ _
  maxBufferBytes_le := by decide

/-- A record with `n` empty envelopes. -/
def envelopes (n : Nat) : WriteFlagLogsRequest :=
  { flagAssigned := List.replicate n ⟨"", none, []⟩ }

theorem encodedLen_envelopes (n : Nat) (h : 2 * n ≤ 2 ^ 32 - 1) :
    sampleSizes.encodedLen (envelopes n) = 2 * n := by
  have hlength : (envelopes n).flagAssigned.length = n := List.length_replicate
  simp only [sampleSizes, hlength]
  exact Nat.min_eq_left h

/-- Records of half a mebibyte for each envelope, so that a chunk has one record. -/
def bulkSizes : LogSizes where
  usizeMax := 2 ^ 32 - 1
  encodedLen log := min (2 ^ 19 * log.flagAssigned.length) (2 ^ 32 - 1)
  encodedLen_le _ := Nat.min_le_right _ _
  maxBufferBytes_le := by decide

section Limits

open World

/-- A record of almost all bytes saturates the count, and the chunk before it is taken off what is
left. -/
theorem saturated_run (sizes : LogSizes) {tiny huge : WriteFlagLogsRequest}
    (hmax : sizes.usizeMax = 2 ^ 32 - 1)
    (htiny : sizes.encodedLen tiny = 2) (hhuge : sizes.encodedLen huge = 2 ^ 32 - 2) :
    let w := run sizes [.offer tiny 0, .offer huge 0]
    w.isolate.buffer.bytes = 2 ^ 32 - 3 ∧ (w.isolate.buffer.logs.map (·.len)).sum = 2 ^ 32 - 2 := by
  simp [run, exec, World.new, Isolate.new, Isolate.offerAt, Isolate.push, Isolate.acquire,
    Isolate.took, Buffer.new, Buffer.push, Buffer.sizeDue, Buffer.atCeiling, Buffer.takeChunk,
    Buffer.drain, Decision.decide, FrontCut.cut, FrontCut.extent, ByteQueue.add, flushBytes,
    protoChunkBytes, flushRecords, maxBufferRecords, maxBufferBytes, hardInFlight, maxInFlight, hmax,
    htiny, hhuge]

/-- After `n` empty records, with every full batch delivered at once. -/
structure Counted (n : Nat) (s : Isolate sampleSizes) : Prop where
  offered : s.offered.length = n
  idle : s.inFlight = 0
  bytes : s.buffer.bytes = 0
  lens : ∀ e ∈ s.buffer.logs, e.len = 0
  length : s.buffer.logs.length = n % flushRecords
  vacant : s.buffer.waiterActive = false

/-- One more record waits, or fills a batch, which is taken whole. -/
theorem Counted.offer {n : Nat} {s : Isolate sampleSizes} (h : Counted n s) :
    (∃ s', s.offerAt (envelopes 0) 0 = (none, s') ∧ Counted (n + 1) s') ∨
      ∃ batch s', s.offerAt (envelopes 0) 0 = (some batch, s') ∧ Counted (n + 1) s'.release := by
  have hempty : sampleSizes.encodedLen (envelopes 0) = 0 := encodedLen_envelopes 0 (by decide)
  have hmod : n % flushRecords < flushRecords := Nat.mod_lt _ (by decide)
  have hdiv := Nat.div_add_mod n flushRecords
  obtain ⟨t, ht⟩ : ∃ t, s.push (envelopes 0) 0 = t := ⟨_, rfl⟩
  have hoffered : t.offered.length = n + 1 := by simp [← ht, Isolate.push, h.offered]
  have hidle : t.inFlight = 0 := ht ▸ h.idle
  have hvacant : t.buffer.waiterActive = false := ht ▸ h.vacant
  have hbytes : t.buffer.bytes = 0 := by
    simp [← ht, Isolate.push, Buffer.push, ByteQueue.add, h.bytes, hempty]
  have hlens : ∀ e ∈ t.buffer.logs, e.len = 0 := by
    rw [← ht]
    exact List.forall_mem_append.mpr ⟨h.lens, by simp [hempty]⟩
  have hlength : t.buffer.logs.length = n % flushRecords + 1 := by
    simp [← ht, Isolate.push, Buffer.push, h.length]
  -- the offer completes a chunk, which is taken whole, or is only buffered
  by_cases hfull : n % flushRecords + 1 = flushRecords
  · have hsum : (t.buffer.logs.map (·.len)).sum = 0 := by
      refine List.sum_eq_zero fun x hx => ?_
      obtain ⟨e, he, rfl⟩ := List.mem_map.mp hx
      exact hlens e he
    have hcut : FrontCut.cut sampleSizes.usizeMax Entry.len flushBytes flushRecords (fun _ => false)
        t.buffer.logs = (t.buffer.logs, [], (t.buffer.logs.map (·.len)).sum) :=
      FrontCut.cut_all sampleSizes.flushBytes_lt (by simp) (by rw [hsum]; exact Nat.zero_le _)
        (by rw [hlength, hfull])
    have hdue : t.buffer.sizeDue = true := by simp [Buffer.sizeDue, hlength, hfull]
    have hceiling : t.buffer.atCeiling = false := by
      rw [Buffer.atCeiling, hbytes, hlength, hfull]
      decide
    have hdecide : Decision.decide false 0 = .deliver := by decide
    refine .inr ⟨t.buffer.takeChunk.1, (t.acquire.took t.buffer.takeChunk .offer false).2, ?_, ?_⟩
    · simp only [Isolate.offerAt, ht, hdue, hceiling, hidle, hdecide]
      rfl
    · have hrest : t.buffer.takeChunk.2.logs = [] := by rw [Buffer.takeChunk, Buffer.drain, hcut]
      refine ⟨hoffered, congrArg (· + 1 - 1) hidle, ?_, ?_, ?_, hvacant⟩
      · exact (congrArg (· - _) hbytes).trans (Nat.zero_sub _)
      · intro e he
        exact absurd (hrest ▸ he) List.not_mem_nil
      · have hnext : (n + 1) % flushRecords = 0 := by
          refine Nat.mod_eq_zero_of_dvd ⟨n / flushRecords + 1, ?_⟩
          rw [Nat.mul_add_one]
          omega
        rw [hnext]
        exact congrArg List.length hrest
  · have hdue : t.buffer.sizeDue = false := by
      have hflush : 0 < flushBytes := by decide
      simp only [Buffer.sizeDue, hbytes, hlength, Bool.or_eq_false_iff, decide_eq_false_iff_not]
      omega
    refine .inl ⟨t, ?_, hoffered, hidle, hbytes, hlens, ?_, hvacant⟩
    · simp only [Isolate.offerAt, ht, hdue]
      rfl
    · rw [hlength, Nat.add_mod, Nat.mod_eq_of_lt (show 1 < flushRecords by decide)]
      exact (Nat.mod_eq_of_lt (by omega)).symm

/-- Any number of empty records can be offered. -/
theorem exists_run_counted (n : Nat) : ∃ events, Counted n (run sampleSizes events).isolate := by
  induction n with
  | zero => exact ⟨[], rfl, rfl, rfl, fun e he => absurd he List.not_mem_nil, rfl, rfl⟩
  | succ n ih =>
      obtain ⟨events, h⟩ := ih
      rcases h.offer with ⟨s', hoffer, hs'⟩ | ⟨batch, s', hoffer, hs'⟩
      · refine ⟨events ++ [.offer (envelopes 0) 0], ?_⟩
        rw [run_concat, exec, hoffer]
        exact hs'
      · -- the batch is delivered before the next record
        refine ⟨events ++ [.offer (envelopes 0) 0] ++
          [.poll (run sampleSizes events).tasks.length 0], ?_⟩
        have hstarted : (run sampleSizes (events ++ [.offer (envelopes 0) 0])) =
            ⟨s', (run sampleSizes events).tasks ++ [.batch batch]⟩ := by
          rw [run_concat, exec, hoffer]
        rw [run_concat, hstarted, exec, List.getElem?_concat_length]
        exact hs'

/-- **Wrapping**: the number after the last one is zero again.  **Saturation**: the byte count of a
huge record is lost. -/
theorem sequence_wraps :
    (∃ events, ¬ (run sampleSizes events).Ordered) ∧ ∃ events, ¬ (run sampleSizes events).Exact := by
  constructor
  · obtain ⟨events, h⟩ := exists_run_counted (2 ^ 64 + 1)
    refine ⟨events, fun hordered => ?_⟩
    have hinv : (run sampleSizes events).isolate.Inv := (inv_run events).records
    have hlength : (run sampleSizes events).isolate.buffer.logs.length = 367 := h.length
    have htaken := hinv.length
    rw [hlength, h.offered] at htaken
    have hlt := List.pairwise_iff_getElem.mp hordered 365 366 (by simp [hlength]) (by simp [hlength])
      (by decide)
    rw [List.getElem_map, List.getElem_map, hinv.seqs 365 _ (List.getElem?_eq_getElem _),
      hinv.seqs 366 _ (List.getElem?_eq_getElem _)] at hlt
    have hlast : (run sampleSizes events).isolate.taken = 2 ^ 64 - 366 := by omega
    rw [hlast] at hlt
    exact absurd hlt (by decide)
  · refine ⟨[.offer (envelopes 1) 0, .offer (envelopes (2 ^ 31 - 1)) 0], fun hexact => ?_⟩
    obtain ⟨hbytes, hsum⟩ := saturated_run sampleSizes rfl
      (encodedLen_envelopes 1 (by decide)) (encodedLen_envelopes (2 ^ 31 - 1) (by decide))
    rw [World.Exact, hbytes, hsum] at hexact
    exact absurd hexact (by decide)

end Limits

end FlagLog

end ConfidenceResolver
