import ConfidenceResolver.FlagLog.SinkInvariant

/-!
# FlagLog — a waiter that stands down

What a drain takes while others push and take.  A record is older than a drain if it was offered
before the drain started; a drain knows this by the sequence number at its start.

* `Owns`: what a drain has taken, and how many takes are left to it; `Owns.push`, `Owns.removes`:
  others do not change it; `drains_drainLoop`: its own turns.
* `Drains`: every task against the history; `drains_run`.
* `drain_owned`: a drain takes older records only, in their order, and ends.
* `drain_leaves`: it may end with older records left, or find none after the number has wrapped.
-/

namespace ConfidenceResolver

namespace FlagLog

variable {sizes : LogSizes}

/-- How many chunks the drain of a task has taken. -/
def Isolate.drainTakes (s : Isolate sizes) (task : Nat) : Nat :=
  s.takes.countP fun t => t.taker = .drain task

/-- How many of the first `n` records offered are still buffered. -/
def Isolate.older (s : Isolate sizes) (n : Nat) : Nat := n - s.taken

/-- The chunks of a drain lie before its start, and every one has made fewer records older than the
drain, up to `extra` of them. -/
structure Owns (s : Isolate sizes) (task : Nat) (drain : Drain) (extra : Nat) : Prop where
  boundary : drain.boundary = UInt64.ofNat drain.startedAt
  started : drain.startedAt ≤ s.offered.length
  own : ∀ (k : Nat) (t : Take), s.takes[k]? = some t → t.taker = .drain task → t.chunk ≠ [] →
    ((s.takes.take (k + 1)).flatMap (·.chunk)).length ≤ drain.startedAt
  count : s.drainTakes task + s.older drain.startedAt ≤ drain.owned + extra

section Frame

variable {s s' : Isolate sizes} {task extra : Nat} {drain : Drain} {p : Taker → Prop}

theorem Owns.mono (h : Owns s task drain extra) {extra' : Nat} (hle : extra ≤ extra') :
    Owns s task drain extra' :=
  ⟨h.boundary, h.started, h.own, Nat.le_trans h.count (Nat.add_le_add_left hle _)⟩

/-- A record that arrives is not older. -/
theorem Owns.push (h : Owns s task drain extra) (log : WriteFlagLogsRequest) (nowMs : Int) :
    Owns (s.push log nowMs) task drain extra := by
  refine ⟨h.boundary, ?_, h.own, h.count⟩
  have hle : s.offered.length ≤ (s.push log nowMs).offered.length := by simp [Isolate.push]
  exact Nat.le_trans h.started hle

theorem taken_le (hr : Removes p s s') : s.taken ≤ s'.taken := by
  obtain ⟨removed, new, hr⟩ := hr
  rw [Isolate.taken, Isolate.taken, hr.takes, List.flatMap_append, List.length_append]
  exact Nat.le_add_right _ _

theorem older_le (hr : Removes p s s') (n : Nat) : s'.older n ≤ s.older n :=
  Nat.sub_le_sub_left (taken_le hr) n

/-- **Chunks that others take** may be older: then fewer are left. -/
theorem Owns.removes (h : Owns s task drain extra) (hr : Removes p s s') (hp : ¬ p (.drain task)) :
    Owns s' task drain extra := by
  have holder := older_le hr drain.startedAt
  obtain ⟨removed, new, hr⟩ := hr
  refine ⟨h.boundary, by rw [hr.offered]; exact h.started, fun k t hk htaker hchunk => ?_, ?_⟩
  · by_cases hlt : k < s.takes.length
    · rw [hr.takes, List.getElem?_append_left hlt] at hk
      rw [hr.takes, List.take_append_of_le_length hlt]
      exact h.own k t hk htaker hchunk
    · -- a new chunk went to another taker
      rw [hr.takes, List.getElem?_append_right (Nat.le_of_not_lt hlt)] at hk
      exact absurd (htaker ▸ hr.takers t (List.mem_of_getElem? hk)) hp
  · have hnone : new.countP (fun t => t.taker = .drain task) = 0 := by
      rw [List.countP_eq_zero]
      intro t ht htaker
      exact hp (of_decide_eq_true htaker ▸ hr.takers t ht)
    have hcount := h.count
    rw [Isolate.drainTakes] at hcount ⊢
    rw [hr.takes, List.countP_append, hnone]
    omega

/-- A task that has taken nothing as a drain still has not. -/
theorem untaken_removes (h : ∀ t ∈ s.takes, t.taker ≠ .drain task) (hr : Removes p s s')
    (hp : ¬ p (.drain task)) : ∀ t ∈ s'.takes, t.taker ≠ .drain task := by
  obtain ⟨removed, new, hr⟩ := hr
  intro t ht htaker
  rw [hr.takes] at ht
  rcases List.mem_append.mp ht with hold | hnew
  · exact h t hold htaker
  · exact hp (htaker ▸ hr.takers t hnew)

end Frame

/-! ### A turn -/

section Turn

variable {s : Isolate sizes} {task : Nat} {drain : Drain}

/-- **A chunk before the boundary** lies before it; there is none only if nothing older is left. -/
theorem takeChunkBefore_older (h : s.Inv) (hwrap : s.offered.length < 2 ^ 64) {n : Nat}
    (hn : n ≤ s.offered.length) :
    ((s.buffer.takeChunkBefore (UInt64.ofNat n)).1 ≠ [] →
        s.taken + (s.buffer.takeChunkBefore (UInt64.ofNat n)).1.length ≤ n) ∧
      ((s.buffer.takeChunkBefore (UInt64.ofNat n)).1 = [] → n ≤ s.taken) := by
  have hlength := h.length
  -- within 64 bits the numbers are compared as the places are
  have hplace : ∀ (k : Nat) (e : Entry sizes), s.buffer.logs[k]? = some e →
      (UInt64.ofNat n ≤ e.seq ↔ n ≤ s.taken + k) := by
    intro k e he
    have hk := (List.getElem?_eq_some_iff.mp he).1
    have hplace : s.taken + k < 2 ^ 64 := by omega
    have hstart : n < 2 ^ 64 := by omega
    rw [h.seqs k e he]
    exact UInt64.ofNat_le_iff_le hstart hplace
  obtain ⟨entries, hlogs, hchunk, hopen, hempty⟩ :=
    s.buffer.drain_entries fun e => UInt64.ofNat n ≤ e.seq
  have hentry : ∀ (k : Nat) (e : Entry sizes), entries[k]? = some e → s.buffer.logs[k]? = some e := by
    intro k e he
    rw [hlogs, List.getElem?_append_left (List.getElem?_eq_some_iff.mp he).1]
    exact he
  rw [Buffer.takeChunkBefore, hchunk, List.length_map]
  constructor
  · intro hne
    -- the last entry of the chunk lies before the boundary
    have hpos : 0 < entries.length :=
      List.length_pos_iff.mpr fun hnil => hne (by rw [hnil, List.map_nil])
    have hlast : entries[entries.length - 1]? = some entries[entries.length - 1] :=
      List.getElem?_eq_getElem (by omega)
    have hbefore := of_decide_eq_false (hopen _ (List.mem_of_getElem? hlast))
    rw [hplace _ _ (hentry _ _ hlast)] at hbefore
    omega
  · intro hnil
    cases hfirst : s.buffer.logs with
    | nil =>
        rw [hfirst, List.length_nil] at hlength
        omega
    | cons e logs =>
        have hstop := hempty (List.map_eq_nil_iff.mp hnil) e (by rw [hfirst]; rfl)
        exact (hplace 0 e (by rw [hfirst]; rfl)).mp (of_decide_eq_true hstop)

/-- A drain starts with what is buffered. -/
theorem owns_start (h : s.Inv) (hnone : ∀ t ∈ s.takes, t.taker ≠ .drain task) (deadline : Deadline) :
    Owns s task ⟨deadline, s.buffer.nextSeq, 0, s.offered.length, s.buffer.logs.length⟩ 0 where
  boundary := h.nextSeq
  started := le_refl _
  own k t hk htaker _ := absurd htaker (hnone t (List.mem_of_getElem? hk))
  count := by
    have hzero : s.drainTakes task = 0 :=
      List.countP_eq_zero.mpr fun t ht htaker => hnone t ht (of_decide_eq_true htaker)
    have hlength := h.length
    simp only [Isolate.older, hzero]
    omega

theorem taken_took (s : Isolate sizes) (taken : List WriteFlagLogsRequest × Buffer sizes)
    (taker : Taker) (shed : Bool) :
    (s.took taken taker shed).2.taken = s.taken + taken.1.length := by
  simp [Isolate.taken, Isolate.took]

theorem length_flatMap_take_le (takes : List Take) (k : Nat) :
    ((takes.take k).flatMap (·.chunk)).length ≤ (takes.flatMap (·.chunk)).length := by
  have hall := congrArg (fun l => (List.flatMap Take.chunk l).length) (List.take_append_drop k takes)
  simp only [List.flatMap_append, List.length_append] at hall
  exact hall ▸ Nat.le_add_right _ _

/-- A chunk that the drain takes. -/
theorem Owns.took (h : Owns s task drain 0) {taken : List WriteFlagLogsRequest × Buffer sizes}
    (hle : taken.1 ≠ [] → s.taken + taken.1.length ≤ drain.startedAt) (extra : Nat)
    (hcount : taken.1 = [] → extra = 1) :
    Owns (s.took taken (.drain task) false).2 task drain extra := by
  have htakes : (s.took taken (.drain task) false).2.takes =
      s.takes ++ [⟨.drain task, false, taken.1⟩] :=
    rfl
  have htaken := taken_took s taken (.drain task) false
  refine ⟨h.boundary, h.started, fun k t hk htaker hchunk => ?_, ?_⟩
  · by_cases hlt : k < s.takes.length
    · rw [htakes, List.getElem?_append_left hlt] at hk
      rw [htakes, List.take_append_of_le_length hlt]
      exact h.own k t hk htaker hchunk
    · -- the new chunk is the last one
      rw [htakes, List.getElem?_append_right (Nat.le_of_not_lt hlt)] at hk
      obtain rfl := List.mem_singleton.mp (List.mem_of_getElem? hk)
      refine Nat.le_trans ?_ (hle hchunk)
      rw [← htaken, Isolate.taken]
      exact length_flatMap_take_le _ _
  · have hold := h.count
    have hnew : (s.took taken (.drain task) false).2.drainTakes task = s.drainTakes task + 1 := by
      rw [Isolate.drainTakes, htakes, List.countP_append, Isolate.drainTakes]
      simp
    rw [Isolate.older] at hold ⊢
    rw [hnew, htaken]
    by_cases hnil : taken.1 = []
    · have := hcount hnil
      omega
    · have := hle hnil
      have := List.length_pos_iff.mpr hnil
      omega

end Turn

/-! ### Every task -/

/-- What has been taken by a task as a drain: nothing, or what it owns.  One that stopped because
the buffer was empty or nothing of its own was left has left nothing older. -/
def Drains (s : Isolate sizes) (task : Nat) : Option Task → Prop
  | some (.draining drain _) => Owns s task drain 0
  | some (.stoodDown drain stop) =>
      Owns s task drain 1 ∧ (stop = .emptied ∨ stop = .nothingOwned → drain.startedAt ≤ s.taken)
  | none | some (.batch _) | some (.waiting _) | some (.delivering _ _) | some .done =>
      ∀ t ∈ s.takes, t.taker ≠ .drain task

section Tasks

variable {s s' : Isolate sizes} {task : Nat} {p : Taker → Prop}

theorem drains_of_untaken {t : Task} (ht : t.drain? = none)
    (h : ∀ k ∈ s.takes, k.taker ≠ .drain task) : Drains s task (some t) := by
  cases t with
  | draining drain logs => simp [Task.drain?] at ht
  | stoodDown drain stop => simp [Task.drain?] at ht
  | _ => exact h

theorem Drains.push {t? : Option Task} (h : Drains s task t?) (log : WriteFlagLogsRequest)
    (nowMs : Int) : Drains (s.push log nowMs) task t? := by
  rcases t? with _ | _ | _ | _ | ⟨drain, logs⟩ | ⟨drain, stop⟩ | _
  case some.draining => exact Owns.push h log nowMs
  case some.stoodDown => exact ⟨Owns.push h.1 log nowMs, h.2⟩
  all_goals exact h

/-- **What others take** does not matter. -/
theorem Drains.removes {t? : Option Task} (h : Drains s task t?) (hr : Removes p s s')
    (hp : ¬ p (.drain task)) : Drains s' task t? := by
  rcases t? with _ | _ | _ | _ | ⟨drain, logs⟩ | ⟨drain, stop⟩ | _
  case some.draining => exact Owns.removes h hr hp
  case some.stoodDown =>
    exact ⟨h.1.removes hr hp, fun hstop => Nat.le_trans (h.2 hstop) (taken_le hr)⟩
  all_goals exact untaken_removes h hr hp

/-- **A turn** keeps to what the drain owns, and ends it or makes fewer records older. -/
theorem drains_drainLoop (h : s.Inv) (hwrap : s.offered.length < 2 ^ 64) {drain : Drain}
    (ho : Owns s task drain 0) (nowMs : Int) :
    Drains (s.drainLoop task drain nowMs).2 task (some (s.drainLoop task drain nowMs).1) ∧
      ((∃ stop, (s.drainLoop task drain nowMs).1 = .stoodDown drain stop) ∨
        ∃ drain' chunk, (s.drainLoop task drain nowMs).1 = .draining drain' chunk ∧
          drain'.startedAt = drain.startedAt ∧
          (s.drainLoop task drain nowMs).2.older drain.startedAt < s.older drain.startedAt) := by
  have hchunk := takeChunkBefore_older h hwrap ho.started
  rw [← ho.boundary] at hchunk
  rw [Isolate.drainLoop]
  -- the pass stands down, finds no record that it owns, or takes a chunk
  rcases drainPass_cases s task drain.boundary (drain.deadline.remainingFrom nowMs) with
    ⟨stop, hpass, hstop⟩ | ⟨hpass, hnil⟩ | ⟨hpass, hne, -⟩
  · rw [hpass]
    have hreport : Removes (fun _ => False) s
        (s.reportDrain "standing down on budget" drain.delivered) := removes_reportDrain s _ _
    refine ⟨⟨(ho.mono (Nat.zero_le 1)).removes hreport id, fun hend => ?_⟩, .inl ⟨stop, rfl⟩⟩
    refine Nat.le_trans ?_ (taken_le hreport)
    have hempty : s.buffer.logs = [] := by
      rcases hstop with rfl | rfl | ⟨-, hempty⟩
      · simp at hend
      · simp at hend
      · exact hempty
    have hlength := h.length
    rw [hempty, List.length_nil, Nat.add_zero] at hlength
    exact hlength ▸ ho.started
  · rw [hpass]
    have hreport : Removes (fun _ => False)
        (s.acquire.took (s.buffer.takeChunkBefore drain.boundary) (.drain task) false).2
        ((s.acquire.took (s.buffer.takeChunkBefore drain.boundary)
          (.drain task) false).2.release.reportDrain "standing down on budget" drain.delivered) :=
      (removes_release _).trans (removes_reportDrain _ _ _)
    have htook := (Owns.removes ho (removes_acquire (p := fun _ => False) s) id).took hchunk.1 1
      fun _ => rfl
    refine ⟨⟨htook.removes hreport id, fun _ => ?_⟩, .inl ⟨_, rfl⟩⟩
    have htaken : s.taken ≤ (s.acquire.took (s.buffer.takeChunkBefore drain.boundary)
        (.drain task) false).2.taken := by
      rw [taken_took]
      exact Nat.le_add_right _ _
    exact Nat.le_trans (hchunk.2 hnil) (Nat.le_trans htaken (taken_le hreport))
  · rw [hpass]
    have htook := (Owns.removes ho (removes_acquire (p := fun _ => False) s) id).took hchunk.1 0
      fun hnil => absurd hnil hne
    refine ⟨⟨htook.boundary, htook.started, htook.own, htook.count⟩, .inr ⟨_, _, rfl, rfl, ?_⟩⟩
    have htaken : (s.acquire.took (s.buffer.takeChunkBefore drain.boundary)
        (.drain task) false).2.taken = s.taken + (s.buffer.takeChunkBefore drain.boundary).1.length :=
      taken_took s.acquire _ _ _
    have hpos := List.length_pos_iff.mpr hne
    have hle := hchunk.1 hne
    simp only [Isolate.older, htaken]
    omega

/-- A task that is polled. -/
theorem drains_poll (h : s.Inv) (hwrap : s.offered.length < 2 ^ 64) {t : Task}
    (hd : Drains s task (some t)) (nowMs : Int) :
    Drains (s.poll task nowMs t).2 task (some (s.poll task nowMs t).1) := by
  cases t with
  | batch logs => exact untaken_removes hd (removes_release (p := fun _ => False) s) id
  | waiting deadline =>
      rw [Isolate.poll]
      rcases wake_cases s task deadline nowMs with hwake | ⟨hnone, hremoves⟩
      · rw [hwake]
        have hdrop : Removes (fun _ => False) s s.dropWaiter := removes_dropWaiter s
        exact (drains_drainLoop (h.removes hdrop) hwrap
          (owns_start (h.removes hdrop) (untaken_removes hd hdrop id) deadline) nowMs).1
      · -- what it takes as a timer is not taken as a drain
        exact drains_of_untaken hnone (untaken_removes hd hremoves Taker.noConfusion)
  | delivering deadline logs => exact untaken_removes hd (removes_release (p := fun _ => False) s) id
  | draining drain logs =>
      have hrelease : Removes (fun _ => False) s s.release := removes_release s
      exact (drains_drainLoop (h.removes hrelease) hwrap (Owns.removes hd hrelease id) nowMs).1
  | stoodDown drain stop => exact hd
  | done => exact hd

/-- A task that is dropped. -/
theorem drains_cancel {t : Task} (hd : Drains s task (some t)) :
    Drains (s.cancel t).2 task (some (s.cancel t).1) := by
  have hrelease : Removes (fun _ => False) s s.release := removes_release s
  have hdrop : Removes (fun _ => False) s s.dropWaiter := removes_dropWaiter s
  cases t with
  | batch logs => exact untaken_removes hd hrelease id
  | waiting deadline => exact untaken_removes hd hdrop id
  | delivering deadline logs =>
      exact untaken_removes hd (hrelease.trans (removes_dropWaiter s.release)) id
  | draining drain logs =>
      exact ⟨(Owns.removes hd hrelease id).mono (Nat.zero_le 1), by simp⟩
  | stoodDown drain stop => exact hd
  | done => exact hd

end Tasks

/-! ### Runs -/

/-- A turn of a task. -/
def Event.isTurn (task : Nat) : Event → Bool
  | .poll i _ => i == task
  | .offer _ _ | .tick _ | .cancel _ => false

namespace World

variable {w : World sizes}

/-- A task that starts has taken nothing. -/
theorem drains_concat {s : Isolate sizes} {tasks : List Task}
    (hd : ∀ task, Drains s task tasks[task]?) {t : Task} (ht : t.drain? = none) (task : Nat) :
    Drains s task (tasks ++ [t])[task]? := by
  by_cases hlt : task < tasks.length
  · rw [List.getElem?_append_left hlt]
    exact hd task
  · have hle := Nat.le_of_not_lt hlt
    have huntaken := hd task
    rw [List.getElem?_eq_none hle] at huntaken
    rw [List.getElem?_append_right hle]
    cases hget : [t][task - tasks.length]? with
    | none => exact huntaken
    | some t' =>
        obtain rfl := List.mem_singleton.mp (List.mem_of_getElem? hget)
        exact drains_of_untaken ht huntaken

/-- A task that has moved, among the others. -/
theorem drains_move (hd : ∀ task, Drains w.isolate task w.tasks[task]?) {i : Nat} {t : Task}
    (ht : w.tasks[i]? = some t) {moved : Task × Isolate sizes} {p : Taker → Prop}
    (hremoves : Removes p w.isolate moved.2) (hp : ∀ task, task ≠ i → ¬ p (.drain task))
    (hmoved : Drains moved.2 i (some moved.1)) (task : Nat) :
    Drains (w.move i moved).isolate task (w.move i moved).tasks[task]? := by
  by_cases htask : task = i
  · rw [htask, World.move, List.getElem?_set_self (List.getElem?_eq_some_iff.mp ht).1]
    exact hmoved
  · rw [World.move, List.getElem?_set_ne (Ne.symm htask)]
    exact (hd task).removes hremoves (hp task htask)

/-- **An event** keeps every task to what it owns. -/
theorem drains_exec (h : w.Inv) (hwrap : w.isolate.offered.length < 2 ^ 64)
    (hd : ∀ task, Drains w.isolate task w.tasks[task]?) (e : Event) (task : Nat) :
    Drains (w.exec e).isolate task (w.exec e).tasks[task]? := by
  -- an event that is not of the drain itself takes nothing in its name
  cases e with
  | offer log nowMs =>
      have hframe : ∀ task, Drains (w.isolate.offerAt log nowMs).2 task w.tasks[task]? := fun task =>
        ((hd task).push log nowMs).removes (removes_offerAt (p := (· = .offer)) _ log nowMs rfl)
          Taker.noConfusion
      revert hframe
      rw [exec]
      rcases w.isolate.offerAt log nowMs with ⟨_ | batch, s⟩
      · exact fun hframe => hframe task
      · exact fun hframe => drains_concat hframe rfl task
  | tick deadline =>
      rw [exec]
      cases hclaim : w.isolate.claim with
      | none => exact hd task
      | some s =>
          have hframe : ∀ task, Drains s task w.tasks[task]? := fun task =>
            (hd task).removes (removes_claim (p := fun _ => False) _ hclaim) id
          exact drains_concat hframe rfl task
  | poll i nowMs =>
      rw [exec]
      cases ht : w.tasks[i]? with
      | none => exact hd task
      | some t =>
          refine drains_move hd ht (removes_poll (p := fun k => k = .timer i ∨ k = .drain i) _ i nowMs
            (.inl rfl) (.inr rfl) t) (fun task htask => ?_) ?_ task
          · rintro (htimer | hdrain)
            · exact Taker.noConfusion htimer
            · exact htask (Taker.drain.inj hdrain)
          · exact drains_poll h.records hwrap (ht ▸ hd i) nowMs
  | cancel i =>
      rw [exec]
      cases ht : w.tasks[i]? with
      | none => exact hd task
      | some t =>
          exact drains_move hd ht (removes_cancel (p := fun _ => False) _ t) (fun _ _ => id)
            (drains_cancel (ht ▸ hd i)) task

theorem offered_exec (w : World sizes) (e : Event) :
    w.isolate.offered.length ≤ (w.exec e).isolate.offered.length := by
  obtain ⟨removed, new, hr⟩ := exec_removes w e
  rw [hr.offered]
  cases e with
  | offer log nowMs => simp [Event.pushed, Isolate.push]
  | _ => exact le_refl _

/-- **In every run** with less than `2 ^ 64` records, every task keeps to what it owns. -/
theorem drains_run (events : List Event) :
    (run sizes events).isolate.offered.length < 2 ^ 64 →
      ∀ task, Drains (run sizes events).isolate task (run sizes events).tasks[task]? := by
  induction events using List.reverseRecOn with
  | nil => exact fun _ task t ht => absurd ht List.not_mem_nil
  | append_singleton events e ih =>
      rw [run_concat]
      intro hwrap task
      have hbefore := Nat.lt_of_le_of_lt (offered_exec (run sizes events) e) hwrap
      exact drains_exec (inv_run events) hbefore (ih hbefore) e task

theorem older_exec (w : World sizes) (e : Event) (n : Nat) :
    (w.exec e).isolate.older n ≤ w.isolate.older n := by
  have hle := older_le (exec_removes w e) n
  cases e <;> exact hle

/-- A task keeps its place, and moves only when it is polled or dropped. -/
theorem exec_getElem? (w : World sizes) {task : Nat} {t : Task} (ht : w.tasks[task]? = some t)
    (e : Event) :
    ((w.exec e).tasks[task]? = some t ∧ e.isTurn task = false) ∨
      (∃ nowMs, e = .poll task nowMs ∧
        w.exec e = w.move task (w.isolate.poll task nowMs t)) ∨
      (e = .cancel task ∧ w.exec e = w.move task (w.isolate.cancel t)) := by
  have hlt := (List.getElem?_eq_some_iff.mp ht).1
  cases e with
  | offer log nowMs =>
      rw [exec]
      rcases w.isolate.offerAt log nowMs with ⟨_ | batch, s⟩
      · exact .inl ⟨ht, rfl⟩
      · exact .inl ⟨(List.getElem?_append_left hlt).trans ht, rfl⟩
  | tick deadline =>
      rw [exec]
      cases w.isolate.claim with
      | none => exact .inl ⟨ht, rfl⟩
      | some s => exact .inl ⟨(List.getElem?_append_left hlt).trans ht, rfl⟩
  | poll i nowMs =>
      by_cases hi : i = task
      · refine .inr (.inl ⟨nowMs, by rw [hi], ?_⟩)
        rw [hi, exec, ht]
      · have hturn : (Event.poll i nowMs).isTurn task = false := beq_false_of_ne hi
        rw [exec]
        cases w.tasks[i]? with
        | none => exact .inl ⟨ht, hturn⟩
        | some t' => exact .inl ⟨(List.getElem?_set_ne hi).trans ht, hturn⟩
  | cancel i =>
      by_cases hi : i = task
      · refine .inr (.inr ⟨by rw [hi], ?_⟩)
        rw [hi, exec, ht]
      · rw [exec]
        cases w.tasks[i]? with
        | none => exact .inl ⟨ht, rfl⟩
        | some t' => exact .inl ⟨(List.getElem?_set_ne hi).trans ht, rfl⟩

/-- **A running drain** ends, or goes on with as many records fewer as it has had turns. -/
theorem exec_draining (h : w.Inv) (hwrap : w.isolate.offered.length < 2 ^ 64) {task : Nat}
    (hd : Drains w.isolate task w.tasks[task]?) {drain : Drain} {chunk : List WriteFlagLogsRequest}
    (ht : w.tasks[task]? = some (.draining drain chunk)) (e : Event) :
    (∃ stop, (w.exec e).tasks[task]? = some (.stoodDown drain stop)) ∨
      ∃ drain' chunk', (w.exec e).tasks[task]? = some (.draining drain' chunk') ∧
        drain'.startedAt = drain.startedAt ∧
        (if e.isTurn task then 1 else 0) + (w.exec e).isolate.older drain.startedAt ≤
          w.isolate.older drain.startedAt := by
  have hlt := (List.getElem?_eq_some_iff.mp ht).1
  have hself : ∀ moved : Task × Isolate sizes, (w.move task moved).tasks[task]? = some moved.1 :=
    fun moved => List.getElem?_set_self hlt
  rcases exec_getElem? w ht e with ⟨hsame, hturn⟩ | ⟨nowMs, rfl, hmove⟩ | ⟨rfl, hmove⟩
  · refine .inr ⟨drain, chunk, hsame, rfl, ?_⟩
    rw [hturn, if_neg Bool.false_ne_true, Nat.zero_add]
    exact older_exec w e drain.startedAt
  · rw [hmove, hself]
    rw [ht] at hd
    have hrelease : Removes (fun _ => False) w.isolate w.isolate.release := removes_release _
    have hturn := (drains_drainLoop (h.records.removes hrelease) hwrap (Owns.removes hd hrelease id)
      nowMs).2
    rcases hturn with ⟨stop, hstop⟩ | ⟨drain', chunk', hgoes, hstart, hless⟩
    · exact .inl ⟨stop, congrArg some hstop⟩
    · refine .inr ⟨drain', chunk', congrArg some hgoes, hstart, ?_⟩
      have hone : (Event.poll task nowMs).isTurn task = true := beq_self_eq_true task
      rw [hone, if_pos rfl, Nat.add_comm]
      exact hless
  · rw [hmove, hself]
    exact .inl ⟨.cancelled, rfl⟩

theorem exec_stoodDown (w : World sizes) {task : Nat} {drain : Drain} {stop : Isolate.DrainStop}
    (ht : w.tasks[task]? = some (.stoodDown drain stop)) (e : Event) :
    (w.exec e).tasks[task]? = some (.stoodDown drain stop) := by
  have hself : ∀ moved : Task × Isolate sizes, (w.move task moved).tasks[task]? = some moved.1 :=
    fun moved => List.getElem?_set_self (List.getElem?_eq_some_iff.mp ht).1
  rcases exec_getElem? w ht e with ⟨hsame, -⟩ | ⟨nowMs, rfl, hmove⟩ | ⟨rfl, hmove⟩
  · exact hsame
  · rw [hmove, hself]
    rfl
  · rw [hmove, hself]
    rfl

/-- **A loop** ends after at most as many turns as older records are left, whatever else happens. -/
theorem drain_ends (events : List Event) {task : Nat} {drain : Drain}
    {chunk : List WriteFlagLogsRequest}
    (ht : (run sizes events).tasks[task]? = some (.draining drain chunk)) (more : List Event) :
    (run sizes (events ++ more)).isolate.offered.length < 2 ^ 64 →
      (∃ drain' stop, (run sizes (events ++ more)).tasks[task]? = some (.stoodDown drain' stop)) ∨
        ∃ drain' chunk', (run sizes (events ++ more)).tasks[task]? = some (.draining drain' chunk') ∧
          drain'.startedAt = drain.startedAt ∧
          more.countP (·.isTurn task) +
              (run sizes (events ++ more)).isolate.older drain.startedAt ≤
            (run sizes events).isolate.older drain.startedAt := by
  induction more using List.reverseRecOn with
  | nil =>
      rw [List.append_nil]
      exact fun _ => .inr ⟨drain, chunk, ht, rfl, by simp⟩
  | append_singleton more e ih =>
      rw [← List.append_assoc, run_concat]
      intro hwrap
      have hbefore := Nat.lt_of_le_of_lt (offered_exec (run sizes (events ++ more)) e) hwrap
      rcases ih hbefore with ⟨drain', stop, hstopped⟩ | ⟨drain', chunk', hruns, hstart, hcount⟩
      · exact .inl ⟨drain', stop, exec_stoodDown _ hstopped e⟩
      · rcases exec_draining (inv_run _) hbefore (drains_run _ hbefore task) hruns e with
          ⟨stop, hstops⟩ | ⟨drain'', chunk'', hgoes, hstart', hless⟩
        · exact .inl ⟨drain', stop, hstops⟩
        · refine .inr ⟨drain'', chunk'', hgoes, hstart'.trans hstart, ?_⟩
          rw [hstart] at hless
          rw [List.countP_append, List.countP_singleton]
          omega

/-- The chunk of a drain continues what was taken before, and ends before the drain started. -/
theorem own_chunk {s : Isolate sizes} (h : s.Inv) {task extra : Nat} {drain : Drain}
    (ho : Owns s task drain extra) {k : Nat} {t : Take} (hk : s.takes[k]? = some t)
    (htaker : t.taker = .drain task) :
    ∃ n, (s.takes.take k).flatMap (·.chunk) = s.offered.take n ∧
      t.chunk = (s.offered.drop n).take t.chunk.length ∧
      (t.chunk ≠ [] → n + t.chunk.length ≤ drain.startedAt) := by
  have hsplit : s.offered = (s.takes.take k).flatMap (·.chunk) ++ (t.chunk ++
      ((s.takes.drop (k + 1)).flatMap (·.chunk) ++ s.buffer.logs.map (·.log))) := by
    obtain ⟨hlt, hget⟩ := List.getElem?_eq_some_iff.mp hk
    rw [← h.order]
    conv =>
      lhs
      rw [← List.take_append_drop k s.takes, List.drop_eq_getElem_cons hlt, hget]
    simp
  refine ⟨((s.takes.take k).flatMap (·.chunk)).length, ?_, ?_, fun hne => ?_⟩
  · conv => rhs; rw [hsplit]
    rw [List.take_left]
  · conv => rhs; rw [hsplit]
    rw [List.drop_left, List.take_left]
  · have hown := ho.own k t hk htaker hne
    obtain ⟨hlt, hget⟩ := List.getElem?_eq_some_iff.mp hk
    rw [← List.take_concat_get' _ k hlt, hget, List.flatMap_append, List.length_append,
      List.flatMap_singleton] at hown
    exact hown

/-- When all older records are taken, the buffer has newer numbers only. -/
theorem newer_of_taken {s : Isolate sizes} (h : s.Inv) (hwrap : s.offered.length < 2 ^ 64)
    {task extra : Nat} {drain : Drain} (ho : Owns s task drain extra)
    (hle : drain.startedAt ≤ s.taken) : ∀ e ∈ s.buffer.logs, drain.boundary ≤ e.seq := by
  intro e he
  obtain ⟨k, hk⟩ := List.mem_iff_getElem?.mp he
  have hlt := (List.getElem?_eq_some_iff.mp hk).1
  have hlength := h.length
  have hplace : s.taken + k < 2 ^ 64 := by omega
  have hstart : drain.startedAt < 2 ^ 64 := by omega
  rw [ho.boundary, h.seqs k e hk]
  exact (UInt64.ofNat_le_iff_le hstart hplace).mpr (Nat.le_trans hle (Nat.le_add_right _ _))

/-- **A drain**, as long as fewer than `2 ^ 64` records are offered: a chunk it takes continues what
was taken before and has only older records; it takes finitely many; a loop that has ended, for
another reason than the budget, the limit of deliveries or a cancellation, has left nothing older;
and a running one ends after finitely many turns, whatever else happens. -/
theorem drain_owned (events : List Event)
    (hwrap : (run sizes events).isolate.offered.length < 2 ^ 64) {task : Nat} {t : Task}
    {drain : Drain} (ht : (run sizes events).tasks[task]? = some t) (hd : t.drain? = some drain) :
    let s := (run sizes events).isolate
    (∀ (k : Nat) (taken : Take), s.takes[k]? = some taken → taken.taker = .drain task →
        ∃ n, (s.takes.take k).flatMap (·.chunk) = s.offered.take n ∧
          taken.chunk = (s.offered.drop n).take taken.chunk.length ∧
          (taken.chunk ≠ [] → n + taken.chunk.length ≤ drain.startedAt)) ∧
      s.drainTakes task ≤ drain.owned + 1 ∧
      (∀ stop, t = .stoodDown drain stop →
        stop = .budget ∨ stop = .inFlight ∨ stop = .cancelled ∨
          ∀ e ∈ s.buffer.logs, drain.boundary ≤ e.seq) ∧
      ∀ chunk more, t = .draining drain chunk →
        (run sizes (events ++ more)).isolate.offered.length < 2 ^ 64 →
        s.older drain.startedAt < more.countP (·.isTurn task) →
        ∃ drain' stop, (run sizes (events ++ more)).tasks[task]? = some (.stoodDown drain' stop) := by
  intro s
  have hinv : s.Inv := (inv_run events).records
  have hdrains := drains_run events hwrap task
  rw [ht] at hdrains
  -- a drain owns the records before its boundary, running or stood down
  have howns : Owns s task drain 1 := by
    cases t with
    | draining drain' logs =>
        obtain rfl := Option.some.inj hd
        exact Owns.mono hdrains (Nat.zero_le 1)
    | stoodDown drain' stop =>
        obtain rfl := Option.some.inj hd
        exact hdrains.1
    | _ => exact absurd hd (by simp [Task.drain?])
  refine ⟨fun k taken hk htaker => own_chunk hinv howns hk htaker, ?_, fun stop hstop => ?_,
    fun chunk more hrunning hwrap' hturns => ?_⟩
  · exact Nat.le_trans (Nat.le_add_right _ _) howns.count
  · obtain rfl := hstop
    have hleft : drain.startedAt ≤ s.taken → ∀ e ∈ s.buffer.logs, drain.boundary ≤ e.seq :=
      fun hle => newer_of_taken hinv hwrap howns hle
    cases stop with
    | budget => exact .inl rfl
    | inFlight => exact .inr (.inl rfl)
    | cancelled => exact .inr (.inr (.inl rfl))
    | emptied => exact .inr (.inr (.inr (hleft (hdrains.2 (.inl rfl)))))
    | nothingOwned => exact .inr (.inr (.inr (hleft (hdrains.2 (.inr rfl)))))
  · rcases drain_ends events (ht.trans (congrArg some hrunning)) more hwrap' with
      hstopped | ⟨drain', chunk', -, -, hcount⟩
    · exact hstopped
    · exact absurd hturns (Nat.not_lt.mpr (Nat.le_trans (Nat.le_add_right _ _) hcount))

/-- Four records are in delivery and four are buffered when a waiter stands down, which takes the
first of these.  Two records arrive, and a batch takes the second. -/
def standingDown : List Event :=
  List.replicate 8 (.offer (envelopes 1) 0) ++ [.tick ⟨5000⟩, .poll 0 0, .poll 1 0, .poll 4 0] ++
    List.replicate 2 (.offer (envelopes 1) 0)

/-- Three turns more, and one more record. -/
def threeTurns : List Event := [.poll 4 1, .offer (envelopes 1) 1, .poll 4 2, .poll 4 3]

set_option maxRecDepth 4000 in
/-- The waiter takes the last two of its records, one a turn, and leaves the three that arrived. -/
theorem drain_owned_sample :
    (run bulkSizes standingDown).isolate.drainTakes 4 ≤ 5 ∧
      (∃ drain stop, (run bulkSizes (standingDown ++ threeTurns)).tasks[4]? =
        some (.stoodDown drain stop)) ∧
      (∀ e ∈ (run bulkSizes (standingDown ++ threeTurns)).isolate.buffer.logs, 8 ≤ e.seq) ∧
      (run bulkSizes (standingDown ++ threeTurns)).isolate.buffer.logs.length = 3 := by
  have hruns : (run bulkSizes standingDown).tasks[4]? =
      some (.draining ⟨⟨5000⟩, 8, 1, 8, 4⟩ [envelopes 1]) := rfl
  have hends : (run bulkSizes (standingDown ++ threeTurns)).tasks[4]? =
      some (.stoodDown ⟨⟨5000⟩, 8, 3, 8, 4⟩ .nothingOwned) := rfl
  have h := drain_owned standingDown (by decide +kernel) hruns rfl
  have hend := drain_owned (standingDown ++ threeTurns) (by decide +kernel) hends rfl
  refine ⟨h.2.1, h.2.2.2 _ threeTurns rfl (by decide +kernel) (by decide +kernel), ?_, ?_⟩
  · simpa using hend.2.2.1 .nothingOwned rfl
  · decide +kernel

/-- A waiter that stands down with an idle pipe, and finds nothing of its own. -/
theorem wake_nothingOwned {s : Isolate sizes} (hne : s.buffer.logs.isEmpty = false)
    (hidle : s.inFlight = 0) (hchunk : (s.buffer.takeChunkBefore s.buffer.nextSeq).1 = [])
    (task : Nat) :
    ∃ drain, (s.wake task ⟨5000⟩ 0).1 = .stoodDown drain .nothingOwned ∧
      drain.startedAt = s.offered.length ∧ (s.wake task ⟨5000⟩ 0).2.inFlight = 0 ∧
      (s.wake task ⟨5000⟩ 0).2.taken = s.taken := by
  have hretire : Deadline.remainingFrom ⟨5000⟩ 0 < retireAtRemainingMs := by decide
  have hbudget : ¬ Deadline.remainingFrom ⟨5000⟩ 0 < minDrainBudgetMs := by decide
  have hwake : s.wake task ⟨5000⟩ 0 = s.dropWaiter.drainBeforeStandingDown task ⟨5000⟩ 0 := by
    rw [Isolate.wake, if_pos hretire, hne]
    rfl
  have hpass : s.dropWaiter.drainPass task s.buffer.nextSeq (Deadline.remainingFrom ⟨5000⟩ 0) =
      (.error .nothingOwned, (s.dropWaiter.acquire.took
        (s.dropWaiter.buffer.takeChunkBefore s.buffer.nextSeq) (.drain task) false).2.release) := by
    have hslots : s.dropWaiter.inFlight = 0 := hidle
    have hlogs : s.dropWaiter.buffer.logs.isEmpty = false := hne
    have hnil : (s.dropWaiter.buffer.takeChunkBefore s.buffer.nextSeq).1 = [] := hchunk
    rw [Isolate.drainPass, if_neg hbudget, hlogs, if_neg Bool.false_ne_true, hslots,
      if_neg (by simp [maxInFlight]), if_neg (by decide)]
    show (if (s.dropWaiter.buffer.takeChunkBefore s.buffer.nextSeq).1.isEmpty then _ else _) = _
    rw [if_pos (List.isEmpty_iff.mpr hnil)]
    rfl
  have hreport : ∀ (s' : Isolate sizes) reason delivered,
      (s'.reportDrain reason delivered).inFlight = s'.inFlight ∧
        (s'.reportDrain reason delivered).taken = s'.taken := by
    intro s' reason delivered
    rcases reportDrain_cases s' reason delivered with hreport | ⟨line, -, hreport⟩ <;>
      rw [hreport] <;> exact ⟨rfl, rfl⟩
  have hturn : (s.wake task ⟨5000⟩ 0) = (.stoodDown
      ⟨⟨5000⟩, s.buffer.nextSeq, 0, s.offered.length, s.buffer.logs.length⟩ .nothingOwned,
      (s.dropWaiter.acquire.took (s.dropWaiter.buffer.takeChunkBefore s.buffer.nextSeq)
        (.drain task) false).2.release.reportDrain "standing down on budget" 0) := by
    have hnext : s.dropWaiter.buffer.nextSeq = s.buffer.nextSeq := rfl
    rw [hwake, Isolate.drainBeforeStandingDown, Isolate.drainLoop]
    simp only [hnext, hpass]
    rfl
  rw [hturn]
  refine ⟨_, rfl, rfl, (hreport _ _ _).1.trans ?_, (hreport _ _ _).2.trans ?_⟩
  · exact (Nat.add_sub_cancel _ 1).trans hidle
  · refine (taken_took s.dropWaiter.acquire _ _ _).trans ?_
    exact congrArg (s.taken + ·) (congrArg List.length hchunk)

/-- **Older records left**: without the budget for a delivery a drain takes nothing; and after
`2 ^ 64` records its boundary is zero, and it finds nothing of its own. -/
theorem drain_leaves :
    (∃ (events : List Event) (task : Nat) (drain : Drain),
        (run sampleSizes events).tasks[task]? = some (.stoodDown drain .budget) ∧
        (run sampleSizes events).isolate.inFlight = 0 ∧
        ∃ e ∈ (run sampleSizes events).isolate.buffer.logs, e.seq < drain.boundary) ∧
      ∃ (events : List Event) (task : Nat) (drain : Drain),
        (run sampleSizes events).tasks[task]? = some (.stoodDown drain .nothingOwned) ∧
        (run sampleSizes events).isolate.inFlight = 0 ∧
        0 < (run sampleSizes events).isolate.older drain.startedAt := by
  constructor
  · refine ⟨[.offer (envelopes 1) 0, .tick ⟨0⟩, .poll 0 0], 0, ⟨⟨0⟩, 1, 0, 1, 1⟩, rfl, rfl, ?_⟩
    exact ⟨_, List.mem_cons_self, by decide⟩
  · obtain ⟨events, h⟩ := exists_run_counted (2 ^ 64)
    generalize hw : run sampleSizes events = w at h
    have hinv : w.isolate.Inv := hw ▸ (inv_run events).records
    have hlength : w.isolate.buffer.logs.length = 366 := h.length
    have hne : w.isolate.buffer.logs.isEmpty = false := by
      simp [List.isEmpty_eq_false_iff, ← List.length_pos_iff, hlength]
    have hboundary : w.isolate.buffer.nextSeq = 0 := by
      rw [hinv.nextSeq, h.offered]
      decide
    -- every number is at least zero
    have hchunk : (w.isolate.buffer.takeChunkBefore 0).1 = [] := by
      obtain ⟨entries, -, hchunk, hopen, -⟩ :=
        w.isolate.buffer.drain_entries fun e => (0 : UInt64) ≤ e.seq
      rw [Buffer.takeChunkBefore, hchunk, List.map_eq_nil_iff, List.eq_nil_iff_forall_not_mem]
      intro e he
      exact of_decide_eq_false (hopen e he) UInt64.zero_le
    have hclaim : w.isolate.claim =
        some { w.isolate with buffer := { w.isolate.buffer with waiterActive := true } } := by
      rw [Isolate.claim, hne, h.vacant]
      rfl
    generalize hs : { w.isolate with buffer := { w.isolate.buffer with waiterActive := true } } = s
      at hclaim
    obtain ⟨drain, hstopped, hstart, hidle, htaken⟩ : ∃ drain,
        (s.wake w.tasks.length ⟨5000⟩ 0).1 = .stoodDown drain .nothingOwned ∧
        drain.startedAt = s.offered.length ∧ (s.wake w.tasks.length ⟨5000⟩ 0).2.inFlight = 0 ∧
        (s.wake w.tasks.length ⟨5000⟩ 0).2.taken = s.taken := by
      subst hs
      exact wake_nothingOwned hne h.idle (by rw [← hboundary] at hchunk; exact hchunk) _
    have hrun : run sampleSizes (events ++ [.tick ⟨5000⟩] ++ [.poll w.tasks.length 0]) =
        ⟨(s.wake w.tasks.length ⟨5000⟩ 0).2,
          (w.tasks ++ [Task.waiting ⟨5000⟩]).set w.tasks.length
            (s.wake w.tasks.length ⟨5000⟩ 0).1⟩ := by
      rw [run_concat, run_concat, hw, exec, hclaim, exec, List.getElem?_concat_length]
      rfl
    refine ⟨events ++ [.tick ⟨5000⟩] ++ [.poll w.tasks.length 0], w.tasks.length, drain, ?_⟩
    rw [hrun, hstopped]
    refine ⟨List.getElem?_set_self (by simp), hidle, ?_⟩
    have hoffered : s.offered.length = 2 ^ 64 := hs ▸ h.offered
    have hlast := hinv.length
    have hsame : s.taken = w.isolate.taken := by rw [← hs]; rfl
    rw [hlength, h.offered] at hlast
    rw [Isolate.older, hstart, hoffered, htaken, hsame]
    omega

end World

end FlagLog

end ConfidenceResolver
