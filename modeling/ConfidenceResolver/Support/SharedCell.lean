import Mathlib.Data.List.Basic

/-!
# Support — a value that is read and stored in two steps

A store keeps one value and offers no compare-and-swap.  A writer reads the value, and stores later
what it makes of what it has read.  What others have stored in between is lost then.

* `SharedCell`: the value, with what was read of it.
* `replay`: updates, each on the result of the one before.
* `Kept`: what is stored, and what was read, are replays of some of the updates, in their order.
* `SharedCell.write_current`: of all of them, as long as each writer stores over what it has read.
-/

namespace ConfidenceResolver

/-- The value in the store, and what the reads have found, read by read. -/
structure SharedCell (S : Type) where
  stored : Option S := none
  reads : List (Option S) := []

variable {S U : Type}

namespace SharedCell

/-- A read; it finds nothing where the store does not answer. -/
def read (c : SharedCell S) (answers : Bool) : SharedCell S :=
  { c with reads := c.reads ++ [if answers then c.stored else none] }

/-- What the read of this number has found. -/
def found (c : SharedCell S) (number : Nat) : Option S := c.reads[number]?.join

/-- A writer stores what it makes of what it has read. -/
def write (c : SharedCell S) (update : Option S → S) (number : Nat) : SharedCell S :=
  { c with stored := some (update (c.found number)) }

theorem found_read (c : SharedCell S) (answers : Bool) (number : Nat) :
    (c.read answers).found number = c.found number ∨
      (c.read answers).found number = c.stored ∨ (c.read answers).found number = none := by
  rw [found, read, List.getElem?_append]
  split
  · exact .inl rfl
  · refine .inr ?_
    cases hnumber : number - c.reads.length with
    | zero => cases answers <;> simp
    | succ n => simp

@[simp] theorem found_read_self (c : SharedCell S) :
    (c.read true).found c.reads.length = c.stored := by
  simp [found, read]

@[simp] theorem reads_read (c : SharedCell S) (answers : Bool) :
    (c.read answers).reads = c.reads ++ [if answers then c.stored else none] := rfl

@[simp] theorem reads_write (c : SharedCell S) (update : Option S → S) (number : Nat) :
    (c.write update number).reads = c.reads := rfl

end SharedCell

/-- What becomes of nothing by these updates. -/
def replay (update : U → Option S → S) (log : List U) : Option S :=
  log.foldl (fun s u => some (update u s)) none

theorem replay_concat (update : U → Option S → S) (log : List U) (u : U) :
    replay update (log ++ [u]) = some (update u (replay update log)) := by
  rw [replay, List.foldl_append]
  rfl

/-- Nothing is stored or read but what some of the updates have made, each once at most. -/
structure Kept (update : U → Option S → S) (log : List U) (c : SharedCell S) : Prop where
  stored : ∃ kept, kept.Sublist log ∧ c.stored = replay update kept
  found : ∀ number, ∃ kept, kept.Sublist log ∧ c.found number = replay update kept

variable {update : U → Option S → S} {log : List U} {c : SharedCell S}

theorem kept_new : Kept update log ({} : SharedCell S) :=
  ⟨⟨[], List.nil_sublist log, rfl⟩, fun _ => ⟨[], List.nil_sublist log, rfl⟩⟩

theorem Kept.read (h : Kept update log c) (answers : Bool) : Kept update log (c.read answers) where
  stored := h.stored
  found number := by
    rcases c.found_read answers number with hfound | hfound | hfound <;> rw [hfound]
    · exact h.found number
    · exact h.stored
    · exact ⟨[], List.nil_sublist log, rfl⟩

/-- An update that does not come to the store. -/
theorem Kept.skip (h : Kept update log c) (u : U) : Kept update (log ++ [u]) c := by
  have hlonger : ∀ {kept : List U}, kept.Sublist log → kept.Sublist (log ++ [u]) :=
    fun hkept => hkept.trans (List.sublist_append_left log [u])
  obtain ⟨kept, hkept, hstored⟩ := h.stored
  refine ⟨⟨kept, hlonger hkept, hstored⟩, fun number => ?_⟩
  obtain ⟨kept, hkept, hfound⟩ := h.found number
  exact ⟨kept, hlonger hkept, hfound⟩

/-- One that does, over whatever its writer has read. -/
theorem Kept.write (h : Kept update log c) (u : U) (number : Nat) :
    Kept update (log ++ [u]) (c.write (update u) number) where
  stored := by
    obtain ⟨kept, hkept, hfound⟩ := h.found number
    refine ⟨kept ++ [u], hkept.append (List.Sublist.refl [u]), ?_⟩
    rw [replay_concat, ← hfound]
    rfl
  found := (h.skip u).found

/-- A writer that stores over what it has read adds its update to all the others. -/
theorem SharedCell.write_current (h : c.stored = replay update log) {number : Nat}
    (hcurrent : c.found number = c.stored) (u : U) :
    (c.write (update u) number).stored = replay update (log ++ [u]) := by
  rw [replay_concat, ← h, ← hcurrent]
  rfl

end ConfidenceResolver
