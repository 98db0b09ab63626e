import ConfidenceResolver.Hosts.ResolverCalls
import Mathlib.Algebra.Order.Group.Multiset
import Mathlib.Algebra.Ring.Nat
import Mathlib.Tactic.Abel

/-!
# Hosts — custody of flushed logs

A flush empties the instance and the buffer of its resolver, so the threads of `ConfidenceProvider`
have the only copy of what it returns until they pass it to `_write_logs`.

* `PyCustody.Custody`: every chunk that an instance returned is in one place.
* `PyCustody.Undisturbed`: a step that drops no chunk.  `PyCustody.Alone.undisturbed`: with one call
  at a time, only a failed installation does.
* `python_custody`: in every run whose steps are undisturbed, what was returned is in custody.
-/

namespace ConfidenceResolver

/-! ### What is claimed -/

namespace PyCustody

/-- The chunks that are not empty.  An empty one may be dropped. -/
def nonEmpty (chunks : List (List UInt8)) : Multiset (List UInt8) :=
  (chunks.filter fun chunk => !chunk.isEmpty : List (List UInt8))

/-- The chunks in data. -/
def partsOf (data : List LogData) : List (List UInt8) := data.flatMap (·.parts)

/-- The chunks that only the call has. -/
def carriedBy : Option ResolverCall → Multiset (List UInt8)
  | some (.flushed _ logs) | some (.reloading logs) => nonEmpty [logs]
  | some (.installing flushedLogs) => nonEmpty flushedLogs.parts
  | some (.measuring _ _ _) | some (.copying _ _ _) | some (.joined _ _ _) | none => 0

def carried (w : PyCustody) : Multiset (List UInt8) :=
  carriedBy (w.calls .locked) + carriedBy (w.calls .unlocked)

/-- What was returned was passed to `_write_logs`, or is on its way, or is buffered. -/
def Balanced (w : PyCustody) : Prop :=
  nonEmpty w.returned = nonEmpty (partsOf w.written) + nonEmpty (partsOf w.inHand) + w.carried +
    nonEmpty w.bufferedLogs

instance (w : PyCustody) : Decidable w.Balanced := inferInstanceAs (Decidable (_ = _))

/-- Every chunk that was returned is in one place, and data are the chunks that were joined. -/
structure Custody (w : PyCustody) : Prop where
  balanced : w.Balanced
  whole : ∀ data ∈ w.written, data.bytes = data.parts.flatten

/-- No call is in progress. -/
def Idle (w : PyCustody) : Prop := (∀ side, w.calls side = none) ∧ w.inHand = []

/-- The step leaves no chunk behind: the state is installed, or nothing was flushed before; and a
buffer that is cleared is the one that was measured and copied. -/
def Undisturbed (w : PyCustody) : CustodyEvent → Prop
  | .setResolverState outcome _ =>
      outcome = .returned () ∨
        ∀ flushedLogs, w.calls .locked = some (.installing flushedLogs) → flushedLogs.bytes = []
  | .advance side =>
      ∀ caller totalLength copied, w.calls side = some (.joined caller totalLength copied) →
        nonEmpty copied = nonEmpty w.bufferedLogs ∧ totalLength ≤ copied.flatten.length
  | .flushLogs _ _ _ | .crash _ _ | .flushAssigned _ | .writeLogs _ => True

/-- Every step of the run is. -/
def RunUndisturbed (w : PyCustody) : List CustodyEvent → Prop
  | [] => True
  | e :: es => w.Undisturbed e ∧ (w.step e).RunUndisturbed es

/-! ### Chunks -/

@[simp] theorem nonEmpty_nil : nonEmpty [] = 0 := rfl

@[simp] theorem nonEmpty_append (chunks chunks' : List (List UInt8)) :
    nonEmpty (chunks ++ chunks') = nonEmpty chunks + nonEmpty chunks' := by
  rw [nonEmpty, List.filter_append, ← Multiset.coe_add, nonEmpty, nonEmpty]

@[simp] theorem nonEmpty_empty : nonEmpty [[]] = 0 := rfl

@[simp] theorem nonEmpty_keepLogs (bufferedLogs : List (List UInt8)) (logs : List UInt8) :
    nonEmpty (PyResolver.keepLogs bufferedLogs (some logs)) =
      nonEmpty bufferedLogs + nonEmpty [logs] := by
  cases logs with
  | nil => exact (add_zero _).symm
  | cons byte logs => exact nonEmpty_append bufferedLogs _

/-- Chunks without a byte. -/
theorem nonEmpty_of_flatten {chunks : List (List UInt8)} (h : chunks.flatten = []) :
    nonEmpty chunks = 0 := by
  rw [nonEmpty, Multiset.coe_eq_zero, List.filter_eq_nil_iff]
  intro chunk hchunk
  rw [List.flatten_eq_nil_iff.mp h chunk hchunk]
  decide

@[simp] theorem partsOf_append (data data' : List LogData) :
    partsOf (data ++ data') = partsOf data ++ partsOf data' := List.flatMap_append

@[simp] theorem partsOf_singleton (data : LogData) : partsOf [data] = data.parts :=
  List.flatMap_singleton _ _

/-- One of the data is taken out. -/
theorem nonEmpty_eraseIdx {data : List LogData} {i : Nat} {d : LogData} (h : data[i]? = some d) :
    nonEmpty (partsOf data) = nonEmpty (partsOf (data.eraseIdx i)) + nonEmpty d.parts := by
  induction data generalizing i with
  | nil => cases h
  | cons d' data ih =>
      have hcons : ∀ rest, partsOf (d' :: rest) = d'.parts ++ partsOf rest := fun _ => List.flatMap_cons
      cases i with
      | zero =>
          cases h
          rw [hcons, nonEmpty_append, add_comm]
          rfl
      | succ i =>
          rw [hcons, List.eraseIdx_cons_succ, hcons, nonEmpty_append, nonEmpty_append, ih h,
            add_assoc]

/-! ### Steps -/

variable {w : PyCustody}

/-- What the calls have, with that of one side apart. -/
theorem carried_become (side : LockSide) (call : Option ResolverCall) :
    (w.become side call).carried + carriedBy (w.calls side) = w.carried + carriedBy call := by
  cases side with
  | locked =>
      simp only [carried, become_calls, reduceIte, reduceCtorEq]
      abel
  | unlocked =>
      simp only [carried, become_calls, reduceIte, reduceCtorEq]
      abel

/-- **A call changes**, and with it the buffer, what is in hand and what is returned. -/
theorem Balanced.exchange (h : w.Balanced) (side : LockSide) (call : Option ResolverCall)
    (bufferedLogs : List (List UInt8)) (inHand : List LogData) (chunks : List (List UInt8))
    (hmoved : nonEmpty (partsOf inHand) + carriedBy call + nonEmpty bufferedLogs =
      nonEmpty (partsOf w.inHand) + carriedBy (w.calls side) + nonEmpty w.bufferedLogs +
        nonEmpty chunks) :
    ({ w.become side call with
      bufferedLogs := bufferedLogs
      inHand := inHand
      returned := w.returned ++ chunks } : PyCustody).Balanced := by
  have hcarried := carried_become (w := w) side call
  rw [Balanced] at h
  change nonEmpty (w.returned ++ chunks) = nonEmpty (partsOf w.written) +
    nonEmpty (partsOf inHand) + (w.become side call).carried + nonEmpty bufferedLogs
  rw [nonEmpty_append, h, ← add_right_cancel_iff (a := carriedBy (w.calls side))]
  calc nonEmpty (partsOf w.written) + nonEmpty (partsOf w.inHand) + w.carried +
          nonEmpty w.bufferedLogs + nonEmpty chunks + carriedBy (w.calls side)
      = nonEmpty (partsOf w.written) + (nonEmpty (partsOf w.inHand) + carriedBy (w.calls side) +
          nonEmpty w.bufferedLogs + nonEmpty chunks) + w.carried := by abel
    _ = nonEmpty (partsOf w.written) + nonEmpty (partsOf inHand) + nonEmpty bufferedLogs +
          (w.carried + carriedBy call) := by
        rw [← hmoved]
        abel
    _ = nonEmpty (partsOf w.written) + nonEmpty (partsOf inHand) +
          (w.become side call).carried + nonEmpty bufferedLogs + carriedBy (w.calls side) := by
        rw [← hcarried]
        abel

/-- Data are the chunks that were joined. -/
def Whole (data : LogData) : Prop := data.bytes = data.parts.flatten

theorem whole_append {data : List LogData} {last : LogData} (h : ∀ d ∈ data, Whole d)
    (hlast : Whole last) : ∀ d ∈ data ++ [last], Whole d := by
  intro d hd
  obtain hd | hd := List.mem_append.mp hd
  · exact h d hd
  · rw [List.mem_singleton.mp hd]
    exact hlast

structure Inv (w : PyCustody) : Prop where
  balanced : w.Balanced
  written : ∀ data ∈ w.written, Whole data
  inHand : ∀ data ∈ w.inHand, Whole data
  installing : ∀ side data, w.calls side = some (.installing data) → Whole data

theorem inv_new : new.Inv where
  balanced := rfl
  written := by
    intro data hdata
    cases hdata
  inHand := by
    intro data hdata
    cases hdata
  installing := by
    intro side data hcall
    cases hcall

theorem Inv.exchange (h : w.Inv) (side : LockSide) (call : Option ResolverCall)
    (bufferedLogs : List (List UInt8)) (inHand : List LogData) (chunks : List (List UInt8))
    (hmoved : nonEmpty (partsOf inHand) + carriedBy call + nonEmpty bufferedLogs =
      nonEmpty (partsOf w.inHand) + carriedBy (w.calls side) + nonEmpty w.bufferedLogs +
        nonEmpty chunks)
    (hinHand : ∀ data ∈ inHand, Whole data)
    (hinstalling : ∀ data, call = some (.installing data) → Whole data) :
    ({ w.become side call with
      bufferedLogs := bufferedLogs
      inHand := inHand
      returned := w.returned ++ chunks } : PyCustody).Inv where
  balanced := h.balanced.exchange side call bufferedLogs inHand chunks hmoved
  written := h.written
  inHand := hinHand
  installing := by
    intro side' data hcall
    replace hcall : (w.become side call).calls side' = some (.installing data) := hcall
    rw [become_calls] at hcall
    split at hcall
    · exact hinstalling data hcall
    · exact h.installing side' data hcall

/-- A call only changes its own state. -/
theorem Inv.become (h : w.Inv) {side : LockSide} {call : Option ResolverCall}
    (hmoved : carriedBy call = carriedBy (w.calls side))
    (hinstalling : ∀ data, call ≠ some (.installing data)) : (w.become side call).Inv := by
  have hexchange := h.exchange side call w.bufferedLogs w.inHand [] (by simp [hmoved]) h.inHand
    (fun data hcall => absurd hcall (hinstalling data))
  rwa [List.append_nil] at hexchange

/-- A call that has no chunk of its own reloads. -/
theorem Inv.reload (h : w.Inv) {side : LockSide} (hcarried : carriedBy (w.calls side) = 0)
    (rescued : Option (List UInt8)) : (w.reload side rescued).Inv := by
  cases rescued with
  | none => exact h.become hcarried.symm (by simp)
  | some logs =>
      refine h.exchange side _ w.bufferedLogs w.inHand [logs] ?_ h.inHand (by simp)
      rw [hcarried, carriedBy]
      abel

/-- A joined buffer is given back. -/
theorem Inv.giveBack (h : w.Inv) {side : LockSide} {caller : FlushCaller} {totalLength : Nat}
    {copied : List (List UInt8)} (hcall : w.calls side = some (.joined caller totalLength copied))
    (hcopied : nonEmpty copied = nonEmpty w.bufferedLogs)
    (hlength : totalLength ≤ copied.flatten.length) :
    ({ w with bufferedLogs := [] }.giveBack side (joinedLogs totalLength copied) caller).Inv := by
  have hwhole : Whole (joinedLogs totalLength copied) := joinedLogs_whole hlength
  have hparts : nonEmpty (joinedLogs totalLength copied).parts = nonEmpty w.bufferedLogs := hcopied
  cases caller with
  | statePollLoop =>
      have hexchange := h.exchange side (some (.installing (joinedLogs totalLength copied))) []
        w.inHand [] ?_ h.inHand ?_
      · rwa [List.append_nil] at hexchange
      · rw [hcall, carriedBy, carriedBy, hparts]
        simp only [nonEmpty_nil, add_zero]
      · intro data hdata
        cases hdata
        exact hwhole
  | logFlushLoop | shutdown =>
      have hexchange := h.exchange side none [] (w.inHand ++ [joinedLogs totalLength copied]) [] ?_
        (whole_append h.inHand hwhole) (by simp)
      · rwa [List.append_nil] at hexchange
      · rw [hcall, carriedBy, carriedBy, partsOf_append, partsOf_singleton, nonEmpty_append, hparts]
        simp only [nonEmpty_nil, add_zero]

/-- What a call does to the buffer. -/
theorem Inv.access (h : w.Inv) {side : LockSide} {call : ResolverCall}
    (hcall : w.calls side = some call) (hundisturbed : w.Undisturbed (.advance side)) :
    (w.access side call).Inv := by
  cases call with
  | flushed caller currentLogs =>
      have hexchange := h.exchange side (some (.measuring caller 0 0))
        (w.bufferedLogs ++ [currentLogs]) w.inHand [] ?_ h.inHand (by simp)
      · rwa [List.append_nil] at hexchange
      · rw [hcall, carriedBy, carriedBy, nonEmpty_append, nonEmpty_nil]
        abel
  | measuring caller i totalLength =>
      rw [PyCustody.access]
      split
      · exact h.become (by rw [hcall]; rfl) (by simp)
      · exact h.become (by rw [hcall]; rfl) (by simp)
  | copying caller totalLength copied =>
      rw [PyCustody.access]
      split
      · exact h.become (by rw [hcall]; rfl) (by simp)
      · exact h.become (by rw [hcall]; rfl) (by simp)
  | joined caller totalLength copied =>
      obtain ⟨hcopied, hlength⟩ := hundisturbed caller totalLength copied hcall
      exact h.giveBack hcall hcopied hlength
  | installing flushedLogs => exact h
  | reloading logs =>
      have hexchange := h.exchange side none (PyResolver.keepLogs w.bufferedLogs (some logs))
        w.inHand [] ?_ h.inHand (by simp)
      · rwa [List.append_nil] at hexchange
      · rw [hcall, carriedBy, carriedBy, nonEmpty_keepLogs, nonEmpty_nil]
        abel

/-- Data are passed to `_write_logs`. -/
theorem Inv.written_append (h : w.Inv) {i : Nat} {data : LogData} (hdata : w.inHand[i]? = some data) :
    ({ w with inHand := w.inHand.eraseIdx i, written := w.written ++ [data] } : PyCustody).Inv where
  balanced := by
    have hbalanced := h.balanced
    rw [Balanced, nonEmpty_eraseIdx hdata] at hbalanced
    rw [Balanced, partsOf_append, partsOf_singleton, nonEmpty_append]
    refine hbalanced.trans ?_
    change _ = nonEmpty (partsOf w.written) + nonEmpty data.parts +
      nonEmpty (partsOf (w.inHand.eraseIdx i)) + w.carried + nonEmpty w.bufferedLogs
    abel
  written := whole_append h.written (h.inHand data (List.mem_of_getElem? hdata))
  inHand := by
    intro data' hrest
    exact h.inHand data' (List.mem_of_mem_eraseIdx hrest)
  installing := h.installing

/-- **Step lemma.** -/
theorem Inv.step (h : w.Inv) {e : CustodyEvent} (hundisturbed : w.Undisturbed e) :
    (w.step e).Inv := by
  have hdoes := does_step w e
  generalize w.step e = w' at hdoes ⊢
  cases hdoes with
  | nothing => exact h
  | flushes caller logs rescued hfree =>
      refine h.exchange caller.side _ w.bufferedLogs w.inHand [logs] ?_ h.inHand (by simp)
      rw [hfree, carriedBy, carriedBy]
      abel
  | flushFails caller outcome rescued hfree => exact h.reload (by rw [hfree, carriedBy]) rescued
  | crashes side rescued hfree => exact h.reload (by rw [hfree, carriedBy]) rescued
  | accesses side call hcall => exact h.access hcall hundisturbed
  | installs data value rescued hcall =>
      have hexchange := h.exchange .locked none w.bufferedLogs (w.inHand ++ [data]) [] ?_
        (whole_append h.inHand (h.installing .locked data hcall)) (by simp)
      · rwa [List.append_nil] at hexchange
      · rw [hcall, carriedBy, carriedBy, partsOf_append, partsOf_singleton, nonEmpty_append,
          nonEmpty_nil]
        abel
  | installFails data outcome rescued hcall hfails =>
      -- the chunks in the data are given up: there are none
      have hempty := hundisturbed.resolve_left hfails data hcall
      have hwhole := h.installing .locked data hcall
      refine h.reload ?_ rescued
      rw [hcall]
      exact nonEmpty_of_flatten (hwhole.symm.trans hempty)
  | assignsNone hfree =>
      have hexchange := h.exchange .locked none w.bufferedLogs w.inHand [[]] ?_ h.inHand (by simp)
      · rwa [become_self hfree] at hexchange
      · rw [hfree, carriedBy, nonEmpty_empty, add_zero, add_zero]
  | assigns byte logs hfree =>
      have hwhole : Whole ⟨byte :: logs, [byte :: logs]⟩ := (List.append_nil _).symm
      have hexchange := h.exchange .locked none w.bufferedLogs
        (w.inHand ++ [⟨byte :: logs, [byte :: logs]⟩]) [byte :: logs] ?_
        (whole_append h.inHand hwhole) (by simp)
      · rwa [become_self hfree] at hexchange
      · rw [hfree, carriedBy, partsOf_append, partsOf_singleton, nonEmpty_append]
        abel
  | writes i data hdata => exact h.written_append hdata

/-- **Run lemma.** -/
theorem Inv.run (h : w.Inv) {es : List CustodyEvent} (hundisturbed : w.RunUndisturbed es) :
    (w.run es).Inv := by
  induction es generalizing w with
  | nil => exact h
  | cons e es ih =>
      obtain ⟨hstep, hrest⟩ := hundisturbed
      exact ih (h.step hstep) hrest

theorem Inv.custody (h : w.Inv) : w.Custody := ⟨h.balanced, h.written⟩

/-- Between the calls, what was returned was passed on or is buffered. -/
theorem Custody.idle (h : w.Custody) (hidle : w.Idle) :
    nonEmpty w.returned = nonEmpty (partsOf w.written) + nonEmpty w.bufferedLogs := by
  obtain ⟨hcalls, hinHand⟩ := hidle
  have hcarried : w.carried = 0 := by
    rw [carried, hcalls, hcalls, carriedBy, add_zero]
  have hbalanced := h.balanced
  rw [Balanced, hinHand, hcarried] at hbalanced
  refine hbalanced.trans ?_
  rw [add_zero]
  exact congrArg (· + _) (add_zero _)

/-! ### One call at a time -/

/-- A call begins when the other side has none, and an installation leaves nothing behind. -/
def KeepsApart (w : PyCustody) : CustodyEvent → Prop
  | .setResolverState outcome rescued => w.Undisturbed (.setResolverState outcome rescued)
  | e => w.Apart e

def RunKeepsApart (w : PyCustody) : List CustodyEvent → Prop
  | [] => True
  | e :: es => w.KeepsApart e ∧ (w.step e).RunKeepsApart es

theorem KeepsApart.apart {e : CustodyEvent} (h : w.KeepsApart e) : w.Apart e := by
  cases e with
  | setResolverState _ _ => trivial
  | flushLogs _ _ _ | crash _ _ | advance _ | flushAssigned _ | writeLogs _ => exact h

/-- A call that is alone clears what it has joined. -/
theorem Alone.undisturbed (h : w.Alone) {e : CustodyEvent} (hkeeps : w.KeepsApart e) :
    w.Undisturbed e := by
  cases e with
  | advance side =>
      intro caller totalLength copied hcall
      obtain ⟨hlength, hcopied⟩ := h.accord side _ hcall
      rw [hcopied]
      exact ⟨rfl, Nat.le_of_eq hlength⟩
  | setResolverState outcome rescued => exact hkeeps
  | flushLogs _ _ _ | crash _ _ | flushAssigned _ | writeLogs _ => trivial

/-- **One call at a time**: then only a failed installation leaves a chunk behind. -/
theorem Alone.runUndisturbed (h : w.Alone) {es : List CustodyEvent} (hkeeps : w.RunKeepsApart es) :
    w.RunUndisturbed es := by
  induction es generalizing w with
  | nil => trivial
  | cons e es ih =>
      obtain ⟨hstep, hrest⟩ := hkeeps
      exact ⟨h.undisturbed hstep, ih (h.step hstep.apart) hrest⟩

end PyCustody

/-! ### Main result -/

/-- **Custody of flushed logs.**  In every run whose steps are undisturbed, each chunk that an
instance returned is in one place; between the calls, it was passed to `_write_logs` or is
buffered. -/
theorem python_custody (es : List CustodyEvent) (h : PyCustody.new.RunUndisturbed es) :
    (PyCustody.new.run es).Custody ∧
      ((PyCustody.new.run es).Idle →
        PyCustody.nonEmpty (PyCustody.new.run es).returned =
          PyCustody.nonEmpty (PyCustody.partsOf (PyCustody.new.run es).written) +
            PyCustody.nonEmpty (PyCustody.new.run es).bufferedLogs) :=
  have hcustody := (PyCustody.inv_new.run h).custody
  ⟨hcustody, hcustody.idle⟩

namespace Sample

/-- A resolve crashes, the poll loop flushes and installs, and the last flush fails. -/
def crashThenFlush : List CustodyEvent :=
  [.crash .locked (some [1]), .advance .locked, .flushLogs .statePollLoop (.returned [2]) none,
    .advance .locked, .advance .locked, .advance .locked, .advance .locked, .advance .locked,
    .advance .locked, .advance .locked, .advance .locked, .setResolverState (.returned ()) none,
    .writeLogs 0, .flushLogs .shutdown .trapped (some [3]), .advance .unlocked]

/-- The poll loop flushes one chunk, and the state that it has fetched is rejected. -/
def rejectedBehindFlush : List CustodyEvent :=
  [.flushLogs .statePollLoop (.returned [7]) none, .advance .locked, .advance .locked,
    .advance .locked, .advance .locked, .advance .locked, .advance .locked,
    .setResolverState .guestError none]

/-- A flush of the flush loop has joined the buffer; then `shutdown` buffers its chunk, the buffer
is cleared, and `shutdown` joins what is left. -/
def shutdownOverlaps : List CustodyEvent :=
  [.flushLogs .logFlushLoop (.returned [1]) none, .advance .locked, .advance .locked,
    .advance .locked, .advance .locked, .advance .locked, .flushLogs .shutdown (.returned [2]) none,
    .advance .unlocked, .advance .locked, .advance .unlocked, .advance .unlocked,
    .advance .unlocked, .writeLogs 0, .writeLogs 0]

end Sample

theorem python_custody_sample :
    (PyCustody.new.run Sample.crashThenFlush).written = [⟨[1, 2], [[1], [2]]⟩] ∧
      (PyCustody.new.run Sample.crashThenFlush).bufferedLogs = [[3]] ∧
      (PyCustody.new.run Sample.crashThenFlush).Custody := by
  refine ⟨rfl, rfl, (python_custody Sample.crashThenFlush ?_).1⟩
  refine PyCustody.alone_new.runUndisturbed ?_
  exact ⟨rfl, trivial, rfl, trivial, trivial, trivial, trivial, trivial, trivial, trivial, trivial,
    .inl rfl, trivial, rfl, trivial, trivial⟩

/-- **Flushed logs are lost** behind a state that is rejected, and where `shutdown` flushes without
the lock. -/
theorem python_custody_lost :
    ((PyCustody.new.run Sample.rejectedBehindFlush).returned = [[7]] ∧
        (PyCustody.new.run Sample.rejectedBehindFlush).written = [] ∧
        (PyCustody.new.run Sample.rejectedBehindFlush).bufferedLogs = [] ∧
        (PyCustody.new.run Sample.rejectedBehindFlush).Idle ∧
        ¬ (PyCustody.new.run Sample.rejectedBehindFlush).Custody) ∧
      ((PyCustody.new.run Sample.shutdownOverlaps).returned = [[1], [2]] ∧
        (PyCustody.new.run Sample.shutdownOverlaps).written = [⟨[1], [[1]]⟩, ⟨[], []⟩] ∧
        (PyCustody.new.run Sample.shutdownOverlaps).bufferedLogs = [] ∧
        (PyCustody.new.run Sample.shutdownOverlaps).Idle ∧
        ¬ (PyCustody.new.run Sample.shutdownOverlaps).Custody) := by
  have hrejected : ¬ (PyCustody.new.run Sample.rejectedBehindFlush).Balanced := by decide +kernel
  have hoverlaps : ¬ (PyCustody.new.run Sample.shutdownOverlaps).Balanced := by decide +kernel
  refine ⟨⟨rfl, rfl, rfl, ⟨?_, rfl⟩, fun h => hrejected h.balanced⟩,
    ⟨rfl, rfl, rfl, ⟨?_, rfl⟩, fun h => hoverlaps h.balanced⟩⟩
  · intro side
    cases side with
    | locked | unlocked => rfl
  · intro side
    cases side with
    | locked | unlocked => rfl

end ConfidenceResolver
