import ConfidenceResolver.Hosts.ReloadingResolver

/-!
# Hosts — calls into the Python resolver

The threads of `ConfidenceProvider` flush the logs of `LocalResolver` and pass them to
`_write_logs`.  The poll loop and the flush loop call the resolver under `_resolver_lock`;
`initialize` and `shutdown` call it without.  A step of the model is what a call does to the buffer
of the resolver, one access at a time.

* `PyCustody.step`: the calls into the resolver, and the data on their way to `_write_logs`.
* `PyCustody.does_step`: what a step can do.
* `PyCustody.Alone`: at most one call is in progress.  `PyCustody.flushLogs_alone`: then
  `flush_logs` is that of the resolver.
-/

namespace ConfidenceResolver

/-! ### The model -/

/-- Log data.  For stating what follows: the chunks that were joined. -/
structure LogData where
  bytes : List UInt8
  parts : List (List UInt8)

/-- With `_resolver_lock`, or without. -/
inductive LockSide where
  | locked
  | unlocked
deriving DecidableEq

def LockSide.other : LockSide → LockSide
  | .locked => .unlocked
  | .unlocked => .locked

/-- Who calls `flush_logs`. -/
inductive FlushCaller where
  | statePollLoop
  | logFlushLoop
  | shutdown

def FlushCaller.side : FlushCaller → LockSide
  | .statePollLoop | .logFlushLoop => .locked
  | .shutdown => .unlocked

/-- Where a call into the resolver is. -/
inductive ResolverCall where
  /-- `flush_logs` has the logs of the delegate. -/
  | flushed (caller : FlushCaller) (currentLogs : List UInt8)
  /-- It measures the buffered logs, from the `i`-th on. -/
  | measuring (caller : FlushCaller) (i totalLength : Nat)
  /-- It copies the buffered logs, behind those that are copied. -/
  | copying (caller : FlushCaller) (totalLength : Nat) (copied : List (List UInt8))
  /-- It is before the buffer is cleared. -/
  | joined (caller : FlushCaller) (totalLength : Nat) (copied : List (List UInt8))
  /-- The poll loop has the flushed logs, and is before `set_resolver_state`. -/
  | installing (flushedLogs : LogData)
  /-- `_reload_instance` has the logs of the old instance. -/
  | reloading (logs : List UInt8)

/-- The `bytearray` of `flush_logs`: the chunks from its start, and what is left of its zeros. -/
def joinedLogs (totalLength : Nat) (copied : List (List UInt8)) : LogData :=
  ⟨copied.flatten ++ List.replicate (totalLength - copied.flatten.length) 0, copied⟩

/-- The provider: the buffer of its resolver, the call on each side of the lock, and the data on
their way to `_write_logs`.  For stating what follows: the data that were passed to it, and the
chunks that instances have returned. -/
structure PyCustody where
  bufferedLogs : List (List UInt8)
  calls : LockSide → Option ResolverCall
  inHand : List LogData
  written : List LogData
  returned : List (List UInt8)

inductive CustodyEvent where
  /-- `flush_logs` is called.  If the delegate fails, `rescued` are the logs that the reload
  flushes. -/
  | flushLogs (caller : FlushCaller) (outcome : CallOutcome (List UInt8))
      (rescued : Option (List UInt8))
  /-- Another call fails and reloads: a resolve, a snapshot, the first installation. -/
  | crash (side : LockSide) (rescued : Option (List UInt8))
  /-- The call makes its next access to the buffer. -/
  | advance (side : LockSide)
  /-- The poll loop installs the state that it has fetched. -/
  | setResolverState (outcome : CallOutcome Unit) (rescued : Option (List UInt8))
  | flushAssigned (outcome : CallOutcome (List UInt8))
  /-- The `i`-th data that are in hand are passed to `_write_logs`. -/
  | writeLogs (i : Nat)

namespace PyCustody

def new : PyCustody := ⟨[], fun _ => none, [], [], []⟩

/-- A call comes to its next access, or ends. -/
def become (w : PyCustody) (side : LockSide) (call : Option ResolverCall) : PyCustody :=
  { w with calls := Function.update w.calls side call }

/-- The first half of `_reload_instance`: the logs of the old instance are flushed, if they can
be. -/
def reload (w : PyCustody) (side : LockSide) : Option (List UInt8) → PyCustody
  | some logs => { w.become side (some (.reloading logs)) with returned := w.returned ++ [logs] }
  | none => w.become side none

/-- `flush_logs` returns its result. -/
def giveBack (w : PyCustody) (side : LockSide) (result : LogData) : FlushCaller → PyCustody
  | .statePollLoop => w.become side (some (.installing result))
  | .logFlushLoop | .shutdown => { w.become side none with inHand := w.inHand ++ [result] }

/-- The next access of a call to the buffer. -/
def access (w : PyCustody) (side : LockSide) : ResolverCall → PyCustody
  | .flushed caller currentLogs =>
      { w.become side (some (.measuring caller 0 0)) with
        bufferedLogs := w.bufferedLogs ++ [currentLogs] }
  | .measuring caller i totalLength =>
      match w.bufferedLogs[i]? with
      | some chunk =>
          w.become side (some (.measuring caller (i + 1) (totalLength + chunk.length)))
      | none => w.become side (some (.copying caller totalLength []))
  | .copying caller totalLength copied =>
      match w.bufferedLogs[copied.length]? with
      | some chunk => w.become side (some (.copying caller totalLength (copied ++ [chunk])))
      | none => w.become side (some (.joined caller totalLength copied))
  | .joined caller totalLength copied =>
      { w with bufferedLogs := [] }.giveBack side (joinedLogs totalLength copied) caller
  | .reloading logs =>
      { w.become side none with bufferedLogs := PyResolver.keepLogs w.bufferedLogs (some logs) }
  | .installing _ => w

def step (w : PyCustody) : CustodyEvent → PyCustody
  | .flushLogs caller outcome rescued =>
      match w.calls caller.side, outcome with
      | some _, _ => w
      | none, .returned logs =>
          { w.become caller.side (some (.flushed caller logs)) with
            returned := w.returned ++ [logs] }
      | none, .guestError | none, .trapped => w.reload caller.side rescued
  | .crash side rescued =>
      match w.calls side with
      | some _ => w
      | none => w.reload side rescued
  | .advance side =>
      match w.calls side with
      | some call => w.access side call
      | none => w
  | .setResolverState outcome rescued =>
      match w.calls .locked, outcome with
      | some (.installing flushedLogs), .returned _ =>
          { w.become .locked none with inHand := w.inHand ++ [flushedLogs] }
      | some (.installing _), .guestError | some (.installing _), .trapped =>
          -- the error leaves the `with` block and the flushed logs behind
          w.reload .locked rescued
      | _, _ => w
  | .flushAssigned outcome =>
      match w.calls .locked, outcome with
      | none, .returned [] => { w with returned := w.returned ++ [[]] }
      | none, .returned logs =>
          { w with inHand := w.inHand ++ [⟨logs, [logs]⟩], returned := w.returned ++ [logs] }
      | _, _ => w
  | .writeLogs i =>
      match w.inHand[i]? with
      | some data =>
          { w with inHand := w.inHand.eraseIdx i, written := w.written ++ [data] }
      | none => w

def run (w : PyCustody) (es : List CustodyEvent) : PyCustody := es.foldl step w

/-! ### Steps -/

/-- Data are whole if what was measured was copied. -/
theorem joinedLogs_whole {totalLength : Nat} {copied : List (List UInt8)}
    (h : totalLength ≤ copied.flatten.length) :
    (joinedLogs totalLength copied).bytes = (joinedLogs totalLength copied).parts.flatten := by
  rw [joinedLogs, Nat.sub_eq_zero_of_le h, List.replicate_zero, List.append_nil]

variable {w : PyCustody}

/-- What a step does, if it does anything. -/
inductive Does (w : PyCustody) : CustodyEvent → PyCustody → Prop where
  | nothing (e : CustodyEvent) : Does w e w
  | flushes (caller : FlushCaller) (logs : List UInt8) (rescued : Option (List UInt8))
      (hfree : w.calls caller.side = none) :
      Does w (.flushLogs caller (.returned logs) rescued)
        { w.become caller.side (some (.flushed caller logs)) with returned := w.returned ++ [logs] }
  | flushFails (caller : FlushCaller) (outcome : CallOutcome (List UInt8))
      (rescued : Option (List UInt8)) (hfree : w.calls caller.side = none) :
      Does w (.flushLogs caller outcome rescued) (w.reload caller.side rescued)
  | crashes (side : LockSide) (rescued : Option (List UInt8)) (hfree : w.calls side = none) :
      Does w (.crash side rescued) (w.reload side rescued)
  | accesses (side : LockSide) (call : ResolverCall) (hcall : w.calls side = some call) :
      Does w (.advance side) (w.access side call)
  | installs (data : LogData) (value : Unit) (rescued : Option (List UInt8))
      (hcall : w.calls .locked = some (.installing data)) :
      Does w (.setResolverState (.returned value) rescued)
        { w.become .locked none with inHand := w.inHand ++ [data] }
  | installFails (data : LogData) (outcome : CallOutcome Unit) (rescued : Option (List UInt8))
      (hcall : w.calls .locked = some (.installing data)) (hfails : outcome ≠ .returned ()) :
      Does w (.setResolverState outcome rescued) (w.reload .locked rescued)
  | assignsNone (hfree : w.calls .locked = none) :
      Does w (.flushAssigned (.returned [])) { w with returned := w.returned ++ [[]] }
  | assigns (byte : UInt8) (logs : List UInt8) (hfree : w.calls .locked = none) :
      Does w (.flushAssigned (.returned (byte :: logs)))
        { w with
          inHand := w.inHand ++ [⟨byte :: logs, [byte :: logs]⟩]
          returned := w.returned ++ [byte :: logs] }
  | writes (i : Nat) (data : LogData) (hdata : w.inHand[i]? = some data) :
      Does w (.writeLogs i)
        { w with inHand := w.inHand.eraseIdx i, written := w.written ++ [data] }

/-- **Inversion** of a step. -/
theorem does_step (w : PyCustody) (e : CustodyEvent) : Does w e (w.step e) := by
  -- an event does something only where no call is in progress on its side, or one that waits for it
  cases e with
  | flushLogs caller outcome rescued =>
      cases hcall : w.calls caller.side with
      | some call =>
          simp only [step, hcall]
          exact .nothing _
      | none =>
          cases outcome with
          | returned logs =>
              simp only [step, hcall]
              exact .flushes caller logs rescued hcall
          | guestError | trapped =>
              simp only [step, hcall]
              exact .flushFails caller _ rescued hcall
  | crash side rescued =>
      cases hcall : w.calls side with
      | some call =>
          simp only [step, hcall]
          exact .nothing _
      | none =>
          simp only [step, hcall]
          exact .crashes side rescued hcall
  | advance side =>
      cases hcall : w.calls side with
      | none =>
          simp only [step, hcall]
          exact .nothing _
      | some call =>
          simp only [step, hcall]
          exact .accesses side call hcall
  | setResolverState outcome rescued =>
      cases hcall : w.calls .locked with
      | none =>
          simp only [step, hcall]
          exact .nothing _
      | some call =>
          cases call with
          | flushed _ _ | measuring _ _ _ | copying _ _ _ | joined _ _ _ | reloading _ =>
              simp only [step, hcall]
              exact .nothing _
          | installing data =>
              cases outcome with
              | returned value =>
                  simp only [step, hcall]
                  exact .installs data value rescued hcall
              | guestError | trapped =>
                  simp only [step, hcall]
                  exact .installFails data _ rescued hcall (by simp)
  | flushAssigned outcome =>
      cases hcall : w.calls .locked with
      | some call =>
          simp only [step, hcall]
          exact .nothing _
      | none =>
          cases outcome with
          | returned logs =>
              cases logs with
              | nil =>
                  simp only [step, hcall]
                  exact .assignsNone hcall
              | cons byte logs =>
                  simp only [step, hcall]
                  exact .assigns byte logs hcall
          | guestError | trapped =>
              simp only [step, hcall]
              exact .nothing _
  | writeLogs i =>
      cases hdata : w.inHand[i]? with
      | none =>
          simp only [step, hdata]
          exact .nothing _
      | some data =>
          simp only [step, hdata]
          exact .writes i data hdata

theorem become_calls (side : LockSide) (call : Option ResolverCall) (side' : LockSide) :
    (w.become side call).calls side' = if side' = side then call else w.calls side' :=
  Function.update_apply _ _ _ _

theorem become_bufferedLogs (side : LockSide) (call : Option ResolverCall) :
    (w.become side call).bufferedLogs = w.bufferedLogs := rfl

theorem become_self {side : LockSide} {call : Option ResolverCall} (h : w.calls side = call) :
    w.become side call = w := by
  rw [become, ← h, Function.update_eq_self]

/-! ### One call at a time -/

/-- What is measured and copied is the buffer so far. -/
def InAccord (bufferedLogs : List (List UInt8)) : ResolverCall → Prop
  | .measuring _ i totalLength => totalLength = (bufferedLogs.take i).flatten.length
  | .copying _ totalLength copied =>
      totalLength = bufferedLogs.flatten.length ∧ copied = bufferedLogs.take copied.length
  | .joined _ totalLength copied =>
      totalLength = bufferedLogs.flatten.length ∧ copied = bufferedLogs
  | .flushed _ _ | .installing _ | .reloading _ => True

/-- At most one call is in progress, and it is in accord with the buffer. -/
structure Alone (w : PyCustody) : Prop where
  only : ∀ side call, w.calls side = some call → w.calls side.other = none
  accord : ∀ side call, w.calls side = some call → InAccord w.bufferedLogs call

/-- A call begins when the other side has none. -/
def Apart (w : PyCustody) : CustodyEvent → Prop
  | .flushLogs caller _ _ => w.calls caller.side.other = none
  | .crash side _ => w.calls side.other = none
  | .setResolverState _ _ | .advance _ | .flushAssigned _ | .writeLogs _ => True

theorem alone_new : new.Alone where
  only := by
    intro side call hcall
    cases hcall
  accord := by
    intro side call hcall
    cases hcall

theorem eq_other {side side' : LockSide} (h : side' ≠ side) : side' = side.other := by
  cases side with
  | locked =>
      cases side' with
      | locked => exact absurd rfl h
      | unlocked => rfl
  | unlocked =>
      cases side' with
      | locked => rfl
      | unlocked => exact absurd rfl h

theorem other_ne (side : LockSide) : side.other ≠ side := by
  cases side with
  | locked => decide
  | unlocked => decide

/-- The only call changes, in accord with the buffer. -/
theorem alone_of_calls {w' : PyCustody} {side : LockSide} (call : Option ResolverCall)
    (hcalls : w'.calls = (w.become side call).calls) (hother : w.calls side.other = none)
    (haccord : ∀ c, call = some c → InAccord w'.bufferedLogs c) : w'.Alone where
  only := by
    intro side' c hcall
    rw [hcalls, become_calls] at hcall
    split at hcall
    · next hside =>
        subst hside
        rw [hcalls, become_calls, if_neg (other_ne side')]
        exact hother
    · next hside =>
        rw [eq_other hside, hother] at hcall
        cases hcall
  accord := by
    intro side' c hcall
    rw [hcalls, become_calls] at hcall
    split at hcall
    · exact haccord c hcall
    · next hside =>
        rw [eq_other hside, hother] at hcall
        cases hcall

/-- The only call comes to its next access. -/
theorem alone_of_some {w' : PyCustody} {side : LockSide} (call : ResolverCall)
    (hcalls : w'.calls = (w.become side (some call)).calls) (hother : w.calls side.other = none)
    (haccord : InAccord w'.bufferedLogs call) : w'.Alone := by
  refine alone_of_calls (some call) hcalls hother ?_
  intro c hc
  cases hc
  exact haccord

/-- The only call ends. -/
theorem alone_of_none {w' : PyCustody} {side : LockSide}
    (hcalls : w'.calls = (w.become side none).calls) (hother : w.calls side.other = none) :
    w'.Alone := by
  refine alone_of_calls none hcalls hother ?_
  intro c hc
  cases hc

theorem alone_reload {side : LockSide} (hother : w.calls side.other = none)
    (rescued : Option (List UInt8)) : (w.reload side rescued).Alone := by
  cases rescued with
  | none => exact alone_of_none rfl hother
  | some logs => exact alone_of_some (.reloading logs) rfl hother trivial

theorem Alone.access (h : w.Alone) {side : LockSide} {call : ResolverCall}
    (hcall : w.calls side = some call) : (w.access side call).Alone := by
  -- no call is in progress on the other side, so the buffer is what this one has seen
  have hother := h.only side call hcall
  have haccord := h.accord side call hcall
  cases call with
  | flushed caller currentLogs => exact alone_of_some (.measuring caller 0 0) rfl hother rfl
  | measuring caller i totalLength =>
      rw [InAccord] at haccord
      rw [PyCustody.access]
      split
      · next chunk hchunk =>
          refine alone_of_some _ rfl hother ?_
          rw [InAccord, become_bufferedLogs, haccord, List.take_add_one, hchunk,
            List.flatten_append, List.length_append]
          simp
      · next hend =>
          rw [List.take_of_length_le (List.getElem?_eq_none_iff.mp hend)] at haccord
          exact alone_of_some _ rfl hother ⟨haccord, rfl⟩
  | copying caller totalLength copied =>
      obtain ⟨hlength, hcopied⟩ := haccord
      rw [PyCustody.access]
      split
      · next chunk hchunk =>
          refine alone_of_some _ rfl hother ⟨hlength, ?_⟩
          rw [become_bufferedLogs, List.length_append, List.length_singleton, List.take_add_one,
            hchunk, ← hcopied]
          rfl
      · next hend =>
          rw [List.take_of_length_le (List.getElem?_eq_none_iff.mp hend)] at hcopied
          exact alone_of_some _ rfl hother ⟨hlength, hcopied⟩
  | joined caller totalLength copied =>
      cases caller with
      | statePollLoop => exact alone_of_some (.installing _) rfl hother trivial
      | logFlushLoop | shutdown => exact alone_of_none rfl hother
  | installing flushedLogs => exact h
  | reloading logs => exact alone_of_none rfl hother

theorem Alone.step (h : w.Alone) {e : CustodyEvent} (hapart : w.Apart e) : (w.step e).Alone := by
  have hdoes := does_step w e
  generalize w.step e = w' at hdoes ⊢
  cases hdoes with
  | nothing => exact h
  | flushes caller logs rescued hfree =>
      exact alone_of_some (.flushed caller logs) rfl hapart trivial
  | flushFails caller outcome rescued hfree => exact alone_reload hapart rescued
  | crashes side rescued hfree => exact alone_reload hapart rescued
  | accesses side call hcall => exact h.access hcall
  | installs data value rescued hcall =>
      exact alone_of_none rfl (h.only .locked _ hcall)
  | installFails data outcome rescued hcall hfails =>
      exact alone_reload (h.only .locked _ hcall) rescued
  | assignsNone hfree => exact ⟨h.only, h.accord⟩
  | assigns byte logs hfree => exact ⟨h.only, h.accord⟩
  | writes i data hdata => exact ⟨h.only, h.accord⟩

/-! The calls of the resolver, from these steps. -/

theorem become_become (side : LockSide) (call call' : Option ResolverCall) :
    (w.become side call).become side call' = w.become side call' := by
  rw [become, become, become, Function.update_idem]

/-- The call on a side comes there by itself. -/
def Reaches (side : LockSide) (w w' : PyCustody) : Prop :=
  ∃ n, w.run (List.replicate n (.advance side)) = w'

theorem reaches_access {side : LockSide} {call : ResolverCall} {w' : PyCustody}
    (hcall : w.calls side = some call) (h : Reaches side (w.access side call) w') :
    Reaches side w w' := by
  obtain ⟨n, hn⟩ := h
  refine ⟨n + 1, ?_⟩
  have hstep : w.step (.advance side) = w.access side call := by
    simp only [step, hcall]
  rw [List.replicate_succ, run, List.foldl_cons, hstep]
  exact hn

theorem become_self_calls (side : LockSide) (call : Option ResolverCall) :
    (w.become side call).calls side = call := by
  rw [become_calls, if_pos rfl]

/-- The buffer at the position behind some of its chunks. -/
theorem getElem?_behind {chunks done rest : List (List UInt8)} (h : chunks = done ++ rest) :
    chunks[done.length]? = rest.head? := by
  rw [h, List.getElem?_append_right (Nat.le_refl _), Nat.sub_self, List.head?_eq_getElem?]

theorem measuring_reaches (side : LockSide) (caller : FlushCaller) {w' : PyCustody}
    (done rest : List (List UInt8)) (totalLength : Nat) (hbuffered : w.bufferedLogs = done ++ rest)
    (h : Reaches side
      (w.become side (some (.copying caller (totalLength + rest.flatten.length) []))) w') :
    Reaches side (w.become side (some (.measuring caller done.length totalLength))) w' := by
  induction rest generalizing done totalLength with
  | nil =>
      refine reaches_access (become_self_calls side _) ?_
      simp only [access, become_bufferedLogs, getElem?_behind hbuffered, List.head?_nil,
        become_become]
      exact h
  | cons chunk rest ih =>
      refine reaches_access (become_self_calls side _) ?_
      simp only [access, become_bufferedLogs, getElem?_behind hbuffered, List.head?_cons,
        become_become]
      have hrest := ih (done ++ [chunk]) (totalLength + chunk.length) (by simp [hbuffered])
      rw [List.length_append] at hrest
      refine hrest ?_
      rwa [List.flatten_cons, List.length_append, ← Nat.add_assoc] at h

theorem copying_reaches (side : LockSide) (caller : FlushCaller) {w' : PyCustody}
    (done rest : List (List UInt8)) (totalLength : Nat) (hbuffered : w.bufferedLogs = done ++ rest)
    (h : Reaches side (w.become side (some (.joined caller totalLength w.bufferedLogs))) w') :
    Reaches side (w.become side (some (.copying caller totalLength done))) w' := by
  induction rest generalizing done with
  | nil =>
      refine reaches_access (become_self_calls side _) ?_
      simp only [access, become_bufferedLogs, getElem?_behind hbuffered, List.head?_nil,
        become_become]
      rwa [hbuffered, List.append_nil] at h
  | cons chunk rest ih =>
      refine reaches_access (become_self_calls side _) ?_
      simp only [access, become_bufferedLogs, getElem?_behind hbuffered, List.head?_cons,
        become_become]
      exact ih (done ++ [chunk]) (by simp [hbuffered])

/-- The result does not depend on where the call was. -/
theorem giveBack_become (side : LockSide) (call : Option ResolverCall) (result : LogData)
    (caller : FlushCaller) :
    (w.become side call).giveBack side result caller = w.giveBack side result caller := by
  cases caller with
  | statePollLoop => exact become_become side call _
  | logFlushLoop | shutdown =>
      rw [giveBack, giveBack, become_become]
      rfl

/-- **`flush_logs` is that of the resolver** if no other call touches the buffer. -/
theorem flushLogs_alone {S : Type*} [DecidableEq S] (caller : FlushCaller) (logs : List UInt8)
    (hfree : w.calls caller.side = none) (r : ReloadingResolver S UInt8)
    (hbuffered : r.bufferedLogs = w.bufferedLogs) (reload : Reload UInt8) :
    ∃ data, (PyResolver.flushLogs r (.returned logs) reload).2 = some data.bytes ∧
      Reaches caller.side (w.step (.flushLogs caller (.returned logs) none))
        ({ w with
          bufferedLogs := (PyResolver.flushLogs r (.returned logs) reload).1.bufferedLogs
          returned := w.returned ++ [logs] }.giveBack caller.side data caller) := by
  let flushed : PyCustody := { w with returned := w.returned ++ [logs] }
  let appended : PyCustody := { flushed with bufferedLogs := w.bufferedLogs ++ [logs] }
  let cleared : PyCustody := { flushed with bufferedLogs := [] }
  refine ⟨joinedLogs appended.bufferedLogs.flatten.length appended.bufferedLogs, ?_, ?_⟩
  · rw [joinedLogs_whole (Nat.le_refl _), PyResolver.flushLogs, hbuffered]
    rfl
  · have hflushed : w.step (.flushLogs caller (.returned logs) none) =
        flushed.become caller.side (some (.flushed caller logs)) := by
      simp only [step, hfree]
      rfl
    have happended : (flushed.become caller.side (some (.flushed caller logs))).access caller.side
        (.flushed caller logs) = appended.become caller.side (some (.measuring caller 0 0)) :=
      become_become (w := appended) caller.side _ _
    have hcleared : ∀ totalLength copied,
        (appended.become caller.side (some (.joined caller totalLength copied))).access caller.side
          (.joined caller totalLength copied) =
        cleared.giveBack caller.side (joinedLogs totalLength copied) caller :=
      fun totalLength copied => giveBack_become (w := cleared) caller.side _ _ caller
    rw [hflushed]
    refine reaches_access (become_self_calls caller.side _) ?_
    rw [happended]
    refine measuring_reaches caller.side caller [] appended.bufferedLogs 0 rfl ?_
    rw [Nat.zero_add]
    refine copying_reaches caller.side caller [] appended.bufferedLogs _ rfl ?_
    refine reaches_access (become_self_calls caller.side _) ?_
    rw [hcleared]
    exact ⟨0, rfl⟩

end PyCustody

end ConfidenceResolver
