import ConfidenceResolver.Logs.BoundedSet
import ConfidenceResolver.Support.Places
import Mathlib.Algebra.Order.Group.Nat
import Mathlib.Algebra.Ring.Nat
import Mathlib.Data.Fin.Tuple.Basic
import Mathlib.Data.List.OfFn
import Mathlib.Logic.Relation

/-!
# Logs — the bounded set among threads

`BoundedSet` of `bounded_set.rs` again, with any number of calls of `insert` at a time.  An
insertion is a row of atomic steps: into the set, on with the counter, into a slot, and what was in
the slot out of the set.

* `Step`: one atomic step of any call.
* `places_step`: the slots and the calls together hold the items of the set, each once.
* `Inv`: which slots are filled or about to be.  `InOrder`: as long as no more than `N` items come,
  the slots are given out once each.
* `Represents.alone`: a call that nobody interrupts is `BoundedSet.insert`.
* `bounded_set_agrees`: slots, set and counter agree whenever no call is under way, unless the
  counter has wrapped around.
-/

namespace ConfidenceResolver

/-- Where a call of `insert` is. -/
inductive InsertPc (T : Type*) where
  | start
  /-- The set did not have the item. -/
  | added
  | claimed (slotIdx : Nat)
  /-- This was in the slot, and is still in the set. -/
  | displaced (old : T)
  | done

namespace InsertPc

variable {T : Type*}

/-- `if !old_ptr.is_null()`. -/
def afterSwap : Option T → InsertPc T
  | some old => .displaced old
  | none => .done

/-- The pointer that a call for `item` owns: to its own item, or to what it displaced. -/
def held (item : T) : InsertPc T → Option T
  | .start | .done => none
  | .added | .claimed _ => some item
  | .displaced old => some old

theorem held_afterSwap (item : T) (old : Option T) : (afterSwap old).held item = old := by
  cases old <;> rfl

end InsertPc

/-- `BoundedSet`, and where the calls are.  `numbered` is only for stating what follows: the items
that the counter was moved on for, in order. -/
structure SharedSet (I T : Type*) (N : Nat) where
  set : Finset T
  slots : Fin N → Option T
  counter : Nat
  numbered : List T
  inserts : I → InsertPc T

namespace SharedSet

variable {I T : Type*} {N : Nat}

/-- `BoundedSet::new`. -/
def new : SharedSet I T N := ⟨∅, fun _ => none, 0, [], fun _ => .start⟩

/-- `len`. -/
def len (s : SharedSet I T N) : Nat := min s.counter N

/-- The loop of `iter`, which bails at the first null.  So does that of `drop`. -/
def loaded : List (Option T) → List T
  | [] | none :: _ => []
  | some x :: slots => x :: loaded slots

def iter (s : SharedSet I T N) : List T := loaded (List.ofFn s.slots)

/-- No call is under way. -/
def Quiet (s : SharedSet I T N) : Prop := ∀ i, s.inserts i = .start ∨ s.inserts i = .done

def Started (s : SharedSet I T N) (i : I) : Prop := s.inserts i ≠ .start

/-! ### Who holds what -/

section Place

variable {item : I → T} {s : SharedSet I T N} {i : I}

/-- The slots and the calls, with what they hold. -/
def place (item : I → T) (s : SharedSet I T N) : Fin N ⊕ I → Option T :=
  Sum.elim s.slots fun i => (s.inserts i).held (item i)

theorem place_inr {pc : InsertPc T} (h : s.inserts i = pc) :
    s.place item (.inr i) = pc.held (item i) :=
  congrArg (InsertPc.held (item i)) h

variable [DecidableEq I]

/-- A call moves. -/
theorem elim_update (slots : Fin N → Option T) (inserts : I → InsertPc T) (i : I)
    (pc : InsertPc T) :
    Sum.elim slots (fun j => (Function.update inserts i pc j).held (item j)) =
      Function.update (Sum.elim slots fun j => (inserts j).held (item j)) (.inr i)
        (pc.held (item i)) := by
  rw [Sum.update_elim_inr]
  congr 1
  funext j
  exact Function.apply_update (fun j (pc : InsertPc T) => pc.held (item j)) inserts i pc j

theorem update_place_self {x : Option T} (h : s.place item (.inr i) = x) :
    Function.update (s.place item) (.inr i) x = s.place item := by
  rw [← h, Function.update_eq_self]

/-- A slot and a call exchange what they hold. -/
theorem place_swap {k : Fin N} (h : s.inserts i = .claimed k) :
    Sum.elim (Function.update s.slots k (some (item i)))
        (fun j => (Function.update s.inserts i (.afterSwap (s.slots k)) j).held (item j)) =
      s.place item ∘ Equiv.swap (.inl k) (.inr i) := by
  have hheld : s.place item (.inr i) = some (item i) := place_inr h
  rw [Equiv.comp_swap_eq_update, hheld, elim_update, InsertPc.held_afterSwap, ← Sum.update_elim_inl]
  exact (Function.update_comm Sum.inr_ne_inl _ _ _).symm

end Place

/-- The item has a number, or a call is about to take one for it. -/
def Counted (item : I → T) (s : SharedSet I T N) (x : T) : Prop :=
  x ∈ s.numbered ∨ ∃ i, s.inserts i = .added ∧ item i = x

section Steps

variable [DecidableEq I] [DecidableEq T] (w : Nat) (item : I → T)

/-- One atomic step of call `i`, which inserts `item i`.  A `usize` has `w` bits. -/
inductive Step (i : I) : SharedSet I T N → SharedSet I T N → Prop where
  /-- `N == 0`, or the set has the item. -/
  | known {s : SharedSet I T N} (h : s.inserts i = .start) (hknown : N = 0 ∨ item i ∈ s.set) :
    Step i s { s with inserts := Function.update s.inserts i .done }
  | add {s : SharedSet I T N} (h : s.inserts i = .start) (hroom : N ≠ 0) (hnew : item i ∉ s.set) :
    Step i s
      { s with
        set := insert (item i) s.set
        inserts := Function.update s.inserts i .added }
  /-- `fetch_add`; `pick` is what `fastrand` returns. -/
  | number {s : SharedSet I T N} (pick : Nat) (h : s.inserts i = .added) (hpick : pick ≤ N) :
    Step i s
      { s with
        counter := (s.counter + 1) % 2 ^ w
        numbered := s.numbered ++ [item i]
        inserts := Function.update s.inserts i
          (.claimed (if s.counter < N then s.counter else pick)) }
  | swap {s : SharedSet I T N} {k : Fin N} (h : s.inserts i = .claimed k) :
    Step i s
      { s with
        slots := Function.update s.slots k (some (item i))
        inserts := Function.update s.inserts i (.afterSwap (s.slots k)) }
  | discard {s : SharedSet I T N} {slotIdx : Nat} (h : s.inserts i = .claimed slotIdx)
      (hnone : ¬ slotIdx < N) :
    Step i s
      { s with
        set := s.set.erase (item i)
        inserts := Function.update s.inserts i .done }
  | remove {s : SharedSet I T N} {old : T} (h : s.inserts i = .displaced old) :
    Step i s
      { s with
        set := s.set.erase old
        inserts := Function.update s.inserts i .done }

/-- Any number of steps of any calls. -/
abbrev Steps : SharedSet I T N → SharedSet I T N → Prop :=
  Relation.ReflTransGen fun s s' => ∃ i, Step w item i s s'

/-- The next step of call `i` takes the counter around. -/
def Wraps (s : SharedSet I T N) (i : I) : Prop := s.inserts i = .added ∧ s.counter + 1 = 2 ^ w

/-- Steps that never do. -/
abbrev StepsWithin : SharedSet I T N → SharedSet I T N → Prop :=
  Relation.ReflTransGen fun s s' => ∃ i, ¬ s.Wraps w i ∧ Step w item i s s'

variable {w item} {s s' : SharedSet I T N} {i : I}

/-- **The slots and the calls hold the items of the set, each once.** -/
theorem places_step (h : Places (s.place item) s.set) (hstep : Step w item i s s') :
    Places (s'.place item) s'.set := by
  cases hstep with
  | known hpc _ =>
      rw [place, elim_update]
      exact (update_place_self (place_inr hpc)).symm ▸ h
  | add hpc _ hnew =>
      rw [place, elim_update]
      exact h.put (place_inr hpc) hnew
  | number _ hpc _ =>
      rw [place, elim_update]
      exact (update_place_self (place_inr hpc)).symm ▸ h
  | swap hpc =>
      rw [place, place_swap hpc]
      exact h.exchange _
  | discard hpc _ | remove hpc =>
      rw [place, elim_update]
      exact h.clear (place_inr hpc)

/-! ### Which slots are filled -/

omit [DecidableEq T] in
/-- Another call is where it was. -/
theorem update_eq_of {inserts : I → InsertPc T} {i' : I} {pc pc' : InsertPc T}
    (h : inserts i' = pc) (hne : inserts i ≠ pc) : Function.update inserts i pc' i' = pc := by
  rw [Function.update_of_ne]
  · exact h
  · rintro rfl
    exact hne h

omit [DecidableEq T] in
theorem eq_of_update_self {inserts : I → InsertPc T} {pc pc' : InsertPc T}
    (h : Function.update inserts i pc i = pc') : pc = pc' := by
  rwa [Function.update_self] at h

omit [DecidableEq T] in
/-- And was where it is. -/
theorem eq_of_update_eq {inserts : I → InsertPc T} {i' : I} {pc pc' : InsertPc T}
    (h : Function.update inserts i pc' i' = pc) (hne : pc' ≠ pc) : inserts i' = pc := by
  by_cases hi : i' = i
  · subst hi
    rw [Function.update_self] at h
    exact absurd h hne
  · rwa [Function.update_of_ne hi] at h

omit [DecidableEq T] in
theorem afterSwap_ne_claimed {old : Option T} {k : Nat} :
    InsertPc.afterSwap old ≠ .claimed k := by
  cases old <;> nofun

omit [DecidableEq I] [DecidableEq T] in
theorem afterSwap_ne_start {old : Option T} : InsertPc.afterSwap old ≠ .start := by
  cases old <;> nofun

variable (w item) in
/-- The numbers that the counter has given out, and what they stand for. -/
structure Inv (s : SharedSet I T N) : Prop where
  counter : s.counter = s.numbered.length % 2 ^ w
  places : Places (s.place item) s.set
  filled : ∀ k, (s.slots k).isSome → k.val < s.numbered.length
  claims : ∀ i (k : Fin N), s.inserts i = .claimed k → k.val < s.numbered.length
  filling : ∀ k : Fin N, k.val < s.numbered.length →
    (s.slots k).isSome ∨ ∃ i, s.inserts i = .claimed k
  listed : ∀ x ∈ s.set, s.Counted item x
  reached : ∀ i, s.Started i → N = 0 ∨ s.Counted item (item i)
  started : ∀ x ∈ s.numbered, ∃ i, s.Started i ∧ item i = x

omit [DecidableEq I] [DecidableEq T] in
theorem inv_new : Inv w item (new : SharedSet I T N) where
  counter := (Nat.zero_mod _).symm
  places := by
    have hempty : (new : SharedSet I T N).place item = fun _ => none := by
      funext p
      cases p <;> rfl
    exact hempty ▸ Places.empty
  filled _ h := by cases h
  claims _ _ h := by cases h
  filling _ h := absurd h (Nat.not_lt_zero _)
  listed _ h := absurd h (Finset.notMem_empty _)
  reached _ h := absurd rfl h
  started _ h := by cases h

theorem started_step (hstep : Step w item i s s') {i' : I} (hi' : s.Started i') :
    s'.Started i' := by
  intro hstart
  apply hi'
  cases hstep with
  | known _ _ | add _ _ _ | number _ _ _ | discard _ _ | remove _ =>
      exact eq_of_update_eq hstart nofun
  | swap _ => exact eq_of_update_eq hstart afterSwap_ne_start

theorem filled_step (h : Inv w item s) (hstep : Step w item i s s') (k : Fin N)
    (hk : (s'.slots k).isSome) : k.val < s'.numbered.length := by
  cases hstep with
  | known _ _ | add _ _ _ | discard _ _ | remove _ => exact h.filled k hk
  | number _ _ _ =>
      rw [List.length_append]
      exact Nat.lt_add_right 1 (h.filled k hk)
  | @swap k' hpc =>
      by_cases hkk : k = k'
      · exact hkk ▸ h.claims i k' hpc
      · have hslot : Function.update s.slots k' (some (item i)) k = s.slots k :=
          Function.update_of_ne hkk _ _
        exact h.filled k (hslot ▸ hk)

theorem claims_step (h : Inv w item s) (hstep : Step w item i s s') (i' : I) (k : Fin N)
    (hk : s'.inserts i' = .claimed k) : k.val < s'.numbered.length := by
  cases hstep with
  | known _ _ | add _ _ _ | discard _ _ | remove _ =>
      exact h.claims i' k (eq_of_update_eq hk nofun)
  | swap _ => exact h.claims i' k (eq_of_update_eq hk afterSwap_ne_claimed)
  | number pick hpc hpick =>
      rw [List.length_append]
      by_cases hi : i' = i
      · -- the number is the counter, or the counter is past all slots
        subst hi
        have hidx : (if s.counter < N then s.counter else pick) = k.val := by
          injection eq_of_update_self hk
        have hcounter : s.counter ≤ s.numbered.length := h.counter ▸ Nat.mod_le _ _
        have hN : k.val < N := k.isLt
        split at hidx
        · exact Nat.lt_succ_of_le (hidx ▸ hcounter)
        · rename_i hfull
          exact Nat.lt_add_right 1 (hN.trans_le ((Nat.not_lt.mp hfull).trans hcounter))
      · have hk' := (Function.update_of_ne hi _ _).symm.trans hk
        exact Nat.lt_add_right 1 (h.claims i' k hk')

theorem filling_step (hN : N < 2 ^ w) (h : Inv w item s) (hstep : Step w item i s s') (k : Fin N)
    (hk : k.val < s'.numbered.length) :
    (s'.slots k).isSome ∨ ∃ i', s'.inserts i' = .claimed k := by
  -- another call that claims the slot still does
  have hother : ∀ pc, s.inserts i ≠ .claimed k → k.val < s.numbered.length →
      (s.slots k).isSome ∨ ∃ i', Function.update s.inserts i pc i' = .claimed k := by
    intro pc hne hk
    exact (h.filling k hk).imp_right fun ⟨i', hi'⟩ => ⟨i', update_eq_of hi' hne⟩
  cases hstep with
  | known hpc _ | add hpc _ _ | remove hpc => exact hother _ (by rw [hpc]; nofun) hk
  | discard hpc hnone =>
      refine hother _ ?_ hk
      rw [hpc]
      intro heq
      injection heq with heq
      exact hnone (heq ▸ k.isLt)
  | number pick hpc _ =>
      rw [List.length_append, List.length_singleton] at hk
      rcases Nat.lt_succ_iff_lt_or_eq.mp hk with hk | hk
      · exact hother _ (by rw [hpc]; nofun) hk
      · -- the new number
        have hcounter : s.counter = k.val := by
          rw [h.counter, ← hk, Nat.mod_eq_of_lt (k.isLt.trans hN)]
        have hidx : (if s.counter < N then s.counter else pick) = k.val := by
          rw [if_pos (hcounter ▸ k.isLt), hcounter]
        exact .inr ⟨i, (Function.update_self ..).trans (congrArg InsertPc.claimed hidx)⟩
  | @swap k' hpc =>
      by_cases hkk : k = k'
      · subst hkk
        exact .inl (Option.isSome_iff_exists.mpr ⟨item i, Function.update_self ..⟩)
      · have hslot : Function.update s.slots k' (some (item i)) k = s.slots k :=
          Function.update_of_ne hkk _ _
        refine (hother _ ?_ hk).imp_left (congrArg Option.isSome hslot).trans
        rw [hpc]
        intro heq
        injection heq with heq
        exact hkk (Fin.ext heq.symm)

/-- A number that is taken stays taken. -/
theorem counted_step (hstep : Step w item i s s') {x : T} (hx : s.Counted item x) :
    s'.Counted item x := by
  -- another call that is about to take one still is
  have hother : ∀ pc, s.inserts i ≠ .added →
      x ∈ s.numbered ∨ ∃ i', Function.update s.inserts i pc i' = .added ∧ item i' = x := by
    intro pc hne
    exact hx.imp_right fun ⟨i', hi', hitem⟩ => ⟨i', update_eq_of hi' hne, hitem⟩
  cases hstep with
  | known hpc _ | add hpc _ _ | swap hpc | discard hpc _ | remove hpc =>
      exact hother _ (by rw [hpc]; nofun)
  | number _ hpc _ =>
      rcases hx with hx | ⟨i', hi', rfl⟩
      · exact .inl (List.mem_append_left _ hx)
      · by_cases hi : i' = i
        · exact .inl (List.mem_append_right _ (hi ▸ List.mem_singleton_self _))
        · exact .inr ⟨i', (Function.update_of_ne hi _ _).trans hi', rfl⟩

theorem listed_step (h : Inv w item s) (hstep : Step w item i s s') {x : T} (hx : x ∈ s'.set) :
    s'.Counted item x := by
  have hold : x ∈ s.set → s'.Counted item x := fun hx => counted_step hstep (h.listed x hx)
  cases hstep with
  | known _ _ | swap _ | number _ _ _ => exact hold hx
  | discard _ _ | remove _ => exact hold (Finset.mem_of_mem_erase hx)
  | add _ _ _ =>
      rcases Finset.mem_insert.mp hx with rfl | hx
      · exact .inr ⟨i, Function.update_self .., rfl⟩
      · exact hold hx

theorem reached_step (h : Inv w item s) (hstep : Step w item i s s') {i' : I}
    (hi' : s'.Started i') : N = 0 ∨ s'.Counted item (item i') := by
  have hold : s.Started i' → N = 0 ∨ s'.Counted item (item i') :=
    fun hi' => (h.reached i' hi').imp_right (counted_step hstep)
  by_cases hi : i' = i
  · subst hi
    cases hstep with
    | known hpc hknown =>
        have hstep : Step w item i' s _ := .known hpc hknown
        exact hknown.imp_right fun hmem => counted_step hstep (h.listed _ hmem)
    | add _ _ _ => exact .inr (.inr ⟨i', Function.update_self .., rfl⟩)
    | number _ hpc _ | swap hpc | discard hpc _ | remove hpc =>
        exact hold (by rw [Started, hpc]; nofun)
  · apply hold
    intro hstart
    apply hi'
    cases hstep <;> exact (Function.update_of_ne hi _ _).trans hstart

theorem started_numbered_step (h : Inv w item s) (hstep : Step w item i s s') {x : T}
    (hx : x ∈ s'.numbered) : ∃ i', s'.Started i' ∧ item i' = x := by
  -- a call that had started has
  have hother : x ∈ s.numbered → ∃ i', s'.Started i' ∧ item i' = x := by
    intro hx
    obtain ⟨i', hi', hitem⟩ := h.started x hx
    exact ⟨i', started_step hstep hi', hitem⟩
  cases hstep with
  | known _ _ | add _ _ _ | discard _ _ | remove _ | swap _ => exact hother hx
  | number _ hpc _ =>
      rcases List.mem_append.mp hx with hx | hx
      · exact hother hx
      · refine ⟨i, ?_, (List.mem_singleton.mp hx).symm⟩
        intro hstart
        cases eq_of_update_self hstart

theorem counter_step (h : Inv w item s) (hstep : Step w item i s s') :
    s'.counter = s'.numbered.length % 2 ^ w := by
  cases hstep with
  | known _ _ | add _ _ _ | discard _ _ | remove _ | swap _ => exact h.counter
  | number _ _ _ => rw [List.length_append, List.length_singleton, h.counter, Nat.mod_add_mod]

theorem Inv.step (hN : N < 2 ^ w) (h : Inv w item s) (hstep : Step w item i s s') :
    Inv w item s' where
  counter := counter_step h hstep
  places := places_step h.places hstep
  filled := filled_step h hstep
  claims := claims_step h hstep
  filling := filling_step hN h hstep
  listed _ := listed_step h hstep
  reached _ := reached_step h hstep
  started _ := started_numbered_step h hstep

theorem Inv.run (hN : N < 2 ^ w) (h : Steps w item new s) : Inv w item s := by
  induction h with
  | refl => exact inv_new
  | tail _ hstep ih =>
      obtain ⟨i, hstep⟩ := hstep
      exact ih.step hN hstep

/-! ### Up to `N` items -/

variable (item) in
/-- Every number is a slot of its own. -/
structure InOrder (s : SharedSet I T N) : Prop where
  slot : ∀ k x, s.slots k = some x → s.numbered[k.val]? = some x
  claim : ∀ i slotIdx, s.inserts i = .claimed slotIdx → s.numbered[slotIdx]? = some (item i)
  nodup : s.numbered.Nodup

omit [DecidableEq I] [DecidableEq T] in
theorem inOrder_new : InOrder item (new : SharedSet I T N) where
  slot _ _ h := by cases h
  claim _ _ h := by cases h
  nodup := List.nodup_nil

omit [DecidableEq I] in
/-- The items that have a number were inserted. -/
theorem numbered_subset (h : Inv w item s) {items : Finset T}
    (hitems : ∀ i, s.Started i → item i ∈ items) : s.numbered.toFinset ⊆ items := by
  intro x hx
  obtain ⟨i, hi, rfl⟩ := h.started x (List.mem_toFinset.mp hx)
  exact hitems i hi

omit [DecidableEq I] in
/-- So there are no more numbers than items. -/
theorem InOrder.length_le (horder : InOrder item s) (h : Inv w item s) {items : Finset T}
    (hitems : ∀ i, s.Started i → item i ∈ items) : s.numbered.length ≤ items.card := by
  rw [← List.toFinset_card_of_nodup horder.nodup]
  exact Finset.card_le_card (numbered_subset h hitems)

omit [DecidableEq I] [DecidableEq T] in
/-- The item of a number is in the slot, or is claimed for it. -/
theorem InOrder.exists_place (horder : InOrder item s) (h : Inv w item s) {x : T}
    (hx : x ∈ s.numbered) (hlength : s.numbered.length ≤ N) :
    ∃ k : Fin N, s.slots k = some x ∨ ∃ i, s.inserts i = .claimed k ∧ item i = x := by
  obtain ⟨k, hk, rfl⟩ := List.getElem_of_mem hx
  have hget : s.numbered[k]? = some s.numbered[k] := List.getElem?_eq_getElem hk
  refine ⟨⟨k, hk.trans_le hlength⟩, ?_⟩
  rcases h.filling ⟨k, hk.trans_le hlength⟩ hk with hsome | ⟨i, hi⟩
  · obtain ⟨x, hx⟩ := Option.isSome_iff_exists.mp hsome
    rw [horder.slot _ _ hx] at hget
    exact .inl (hx.trans hget)
  · rw [horder.claim i k hi] at hget
    exact .inr ⟨i, hi, Option.some.inj hget⟩

omit [DecidableEq I] [DecidableEq T] in
/-- An item that is new has no number yet. -/
theorem InOrder.not_mem_numbered (horder : InOrder item s) (h : Inv w item s)
    (hlength : s.numbered.length ≤ N) (hpc : s.inserts i = .added) : item i ∉ s.numbered := by
  intro hmem
  have hheld : s.place item (.inr i) = some (item i) := place_inr hpc
  obtain ⟨k, hslot | ⟨i', hi', hitem⟩⟩ := horder.exists_place h hmem hlength
  · cases h.places.once (.inl k) (.inr i) _ hslot hheld
  · have hheld' : s.place item (.inr i') = some (item i) := hitem ▸ place_inr hi'
    cases h.places.once _ _ _ hheld' hheld
    rw [hpc] at hi'
    cases hi'

omit [DecidableEq I] [DecidableEq T] in
theorem getElem?_append_of_some {l : List T} {k : Nat} {x : T} (h : l[k]? = some x) (y : T) :
    (l ++ [y])[k]? = some x := by
  rw [List.getElem?_append_left (List.getElem?_eq_some_iff.mp h).1, h]

/-- The next number is the next slot. -/
theorem InOrder.number (horder : InOrder item s) (h : Inv w item s) (hN : N < 2 ^ w)
    {items : Finset T} (hitems : ∀ i, s.Started i → item i ∈ items) (hcard : items.card ≤ N)
    (hpc : s.inserts i = .added) (pick : Nat) :
    InOrder item
      { s with
        counter := (s.counter + 1) % 2 ^ w
        numbered := s.numbered ++ [item i]
        inserts := Function.update s.inserts i
          (.claimed (if s.counter < N then s.counter else pick)) } := by
  have hlength := (horder.length_le h hitems).trans hcard
  have hnew : item i ∉ s.numbered := horder.not_mem_numbered h hlength hpc
  have hnodup : (s.numbered ++ [item i]).Nodup := BoundedSet.nodup_push horder.nodup hnew
  have hroom : s.numbered.length < N := by
    -- the new item is one more of the items
    have hmem : item i ∈ items := hitems i (by rw [Started, hpc]; nofun)
    have hcard' := Finset.card_le_card (Finset.insert_subset hmem (numbered_subset h hitems))
    rw [Finset.card_insert_of_notMem (fun hx => hnew (List.mem_toFinset.mp hx)),
      List.toFinset_card_of_nodup horder.nodup] at hcard'
    exact Nat.lt_of_succ_le (hcard'.trans hcard)
  have hcounter : s.counter = s.numbered.length := by
    rw [h.counter, Nat.mod_eq_of_lt (hroom.trans hN)]
  refine ⟨?_, ?_, hnodup⟩
  · intro k x hx
    exact getElem?_append_of_some (horder.slot k x hx) _
  · intro i' slotIdx hi'
    by_cases hi : i' = i
    · subst hi
      have hidx : (if s.counter < N then s.counter else pick) = slotIdx := by
        injection eq_of_update_self hi'
      rw [if_pos (hcounter ▸ hroom), hcounter] at hidx
      exact hidx ▸ List.getElem?_concat_length
    · have hold := (Function.update_of_ne hi _ _).symm.trans hi'
      exact getElem?_append_of_some (horder.claim i' slotIdx hold) _

theorem InOrder.step (horder : InOrder item s) (h : Inv w item s) (hN : N < 2 ^ w)
    {items : Finset T} (hitems : ∀ i, s.Started i → item i ∈ items) (hcard : items.card ≤ N)
    (hstep : Step w item i s s') : InOrder item s' := by
  cases hstep with
  | number pick hpc _ => exact horder.number h hN hitems hcard hpc pick
  | known _ _ | add _ _ _ | discard _ _ | remove _ =>
      exact ⟨horder.slot, fun i' k hk => horder.claim i' k (eq_of_update_eq hk nofun), horder.nodup⟩
  | @swap k hpc =>
      refine ⟨?_, ?_, horder.nodup⟩
      · intro k' x hx
        by_cases hk : k' = k
        · subst hk
          have hslot : Function.update s.slots k' (some (item i)) k' = some (item i) :=
            Function.update_self ..
          have hitem : some (item i) = some x := hslot.symm.trans hx
          exact hitem ▸ horder.claim i k' hpc
        · exact horder.slot k' x ((Function.update_of_ne hk _ _).symm.trans hx)
      · intro i' slotIdx hi'
        exact horder.claim i' slotIdx (eq_of_update_eq hi' afterSwap_ne_claimed)

theorem InOrder.run (hN : N < 2 ^ w) {items : Finset T} (hcard : items.card ≤ N)
    (h : Steps w item new s) : (∀ i, s.Started i → item i ∈ items) → InOrder item s := by
  induction h with
  | refl =>
      intro _
      exact inOrder_new
  | tail hsteps hstep ih =>
      intro hitems
      obtain ⟨i, hstep⟩ := hstep
      have hitems' := fun i' hi' => hitems i' (started_step hstep hi')
      exact (ih hitems').step (Inv.run hN hsteps) hN hitems' hcard hstep

/-! ### A call alone -/

/-- A call that finds its item new claims a slot. -/
theorem steps_claim (hpc : s.inserts i = .start) (hroom : N ≠ 0) (hnew : item i ∉ s.set)
    {pick : Nat} (hpick : pick ≤ N) :
    Steps w item s
      { s with
        set := insert (item i) s.set
        counter := (s.counter + 1) % 2 ^ w
        numbered := s.numbered ++ [item i]
        inserts := Function.update s.inserts i
          (.claimed (if s.counter < N then s.counter else pick)) } := by
  let s₁ : SharedSet I T N :=
    { s with
      set := insert (item i) s.set
      inserts := Function.update s.inserts i .added }
  have hadd : Step w item i s s₁ := .add hpc hroom hnew
  have hnumber : Step w item i s₁ _ := .number pick (Function.update_self ..) hpick
  rw [Function.update_idem] at hnumber
  exact .tail (.single ⟨i, hadd⟩) ⟨i, hnumber⟩

/-- A slot that was empty. -/
theorem swap_empty {k : Fin N} (hpc : s.inserts i = .claimed k) (hslot : s.slots k = none) :
    Steps w item s
      { s with
        slots := Function.update s.slots k (some (item i))
        inserts := Function.update s.inserts i .done } := by
  have hswap : Step w item i s _ := .swap hpc
  rw [hslot] at hswap
  exact .single ⟨i, hswap⟩

/-- A slot that was not. -/
theorem swap_filled {k : Fin N} (hpc : s.inserts i = .claimed k) {old : T}
    (hslot : s.slots k = some old) :
    Steps w item s
      { s with
        set := s.set.erase old
        slots := Function.update s.slots k (some (item i))
        inserts := Function.update s.inserts i .done } := by
  let s₁ : SharedSet I T N :=
    { s with
      slots := Function.update s.slots k (some (item i))
      inserts := Function.update s.inserts i (.displaced old) }
  have hswap : Step w item i s s₁ := by
    have hstep : Step w item i s _ := .swap hpc
    rwa [hslot] at hstep
  have hremove : Step w item i s₁ _ := .remove (Function.update_self ..)
  rw [Function.update_idem] at hremove
  exact .tail (.single ⟨i, hswap⟩) ⟨i, hremove⟩

/-- A new item is numbered, and the call comes to its end. -/
theorem new_item_ends (hpc : s.inserts i = .start) (hroom : N ≠ 0) (hnew : item i ∉ s.set) :
    ∃ s', Steps w item s s' ∧ s'.inserts = Function.update s.inserts i .done ∧
      s'.numbered = s.numbered ++ [item i] := by
  have hclaim := steps_claim (w := w) hpc hroom hnew (Nat.zero_le N)
  have hidx : (if s.counter < N then s.counter else 0) < N := by
    by_cases hlt : s.counter < N
    · exact (if_pos hlt).trans_lt hlt
    · exact (if_neg hlt).trans_lt (Nat.pos_of_ne_zero hroom)
  generalize (if s.counter < N then s.counter else 0) = slotIdx at hclaim hidx
  have hslot : ∀ old, s.slots ⟨slotIdx, hidx⟩ = old → ∃ s', Steps w item s s' ∧
      s'.inserts = Function.update s.inserts i .done ∧ s'.numbered = s.numbered ++ [item i] := by
    intro old hold
    cases old with
    | none =>
        refine ⟨_, hclaim.trans (swap_empty (k := ⟨slotIdx, hidx⟩) (Function.update_self ..) hold),
          Function.update_idem .., rfl⟩
    | some old =>
        refine ⟨_, hclaim.trans (swap_filled (k := ⟨slotIdx, hidx⟩) (Function.update_self ..) hold),
          Function.update_idem .., rfl⟩
  exact hslot _ rfl

/-- What lies between calls, as `BoundedSet` has it. -/
structure Represents (s : SharedSet I T N) (b : BoundedSet T N) : Prop where
  counter : s.counter = b.counter
  set : ∀ x, x ∈ s.set ↔ x ∈ b.set
  slots : ∀ k : Fin N, s.slots k = b.slots[k.val]?

namespace Represents

variable {b : BoundedSet T N}

omit [DecidableEq I] in
theorem mem_insert (h : Represents s b) (x : T) :
    x ∈ insert (item i) s.set ↔ x ∈ item i :: b.set := by
  rw [Finset.mem_insert, List.mem_cons, h.set]

omit [DecidableEq I] in
theorem mem_erase (h : Represents s b) (old x : T) :
    x ∈ (insert (item i) s.set).erase old ↔ x ∈ (item i :: b.set).filter fun y => y ≠ old := by
  rw [Finset.mem_erase, h.mem_insert, List.mem_filter, decide_eq_true_iff, and_comm]

/-- The next slot. -/
theorem push (h : Represents s b) (hpc : s.inserts i = .start) (hwrap : b.counter + 1 < 2 ^ w)
    (hnew : item i ∉ b.slots) (hroom : b.counter < N) :
    ∃ s', Steps w item s s' ∧ s'.inserts = Function.update s.inserts i .done ∧
      Represents s' (b.push (item i) hnew hroom) := by
  have hlength : b.slots.length = b.counter := by rw [b.filled, min_eq_left hroom.le]
  have hclaim := steps_claim (w := w) hpc (Nat.ne_of_gt (Nat.zero_lt_of_lt hroom))
    (by rwa [h.set, b.listed]) (Nat.zero_le N)
  rw [if_pos (h.counter ▸ hroom), h.counter, Nat.mod_eq_of_lt hwrap] at hclaim
  have hempty : s.slots ⟨b.counter, hroom⟩ = none := by
    rw [h.slots, List.getElem?_eq_none]
    exact hlength.le
  refine ⟨_, hclaim.trans (swap_empty (k := ⟨b.counter, hroom⟩) (Function.update_self ..) hempty),
    Function.update_idem .., rfl, h.mem_insert, ?_⟩
  intro k
  show Function.update s.slots ⟨b.counter, hroom⟩ (some (item i)) k = (b.slots ++ [item i])[k.val]?
  by_cases hk : k = ⟨b.counter, hroom⟩
  · subst hk
    have hlast : (b.slots ++ [item i])[b.counter]? = some (item i) :=
      hlength ▸ List.getElem?_concat_length
    exact (Function.update_self ..).trans hlast.symm
  · have hne : k.val ≠ b.slots.length := fun heq => hk (Fin.ext (heq.trans hlength))
    rw [Function.update_of_ne hk, h.slots, List.getElem?_append]
    split
    · rfl
    · rename_i hle
      have hlt := lt_of_le_of_ne (Nat.not_lt.mp hle) hne.symm
      rw [List.getElem?_eq_none hlt.le, List.getElem?_eq_none]
      exact Nat.succ_le_of_lt (Nat.sub_pos_of_lt hlt)

/-- A slot that is given to the new item. -/
theorem replace (h : Represents s b) (hpc : s.inserts i = .start) (hwrap : b.counter + 1 < 2 ^ w)
    {pick : Nat} (hroom : N ≠ 0) (hnew : item i ∉ b.slots) (hfull : ¬ b.counter < N)
    (hpick : pick < b.slots.length) :
    ∃ s', Steps w item s s' ∧ s'.inserts = Function.update s.inserts i .done ∧
      Represents s' (b.replace (item i) pick hnew hfull hpick) := by
  have hlength : b.slots.length = N := by rw [b.filled, min_eq_right (Nat.not_lt.mp hfull)]
  have hpickN : pick < N := hlength ▸ hpick
  have hclaim := steps_claim (w := w) hpc hroom (by rwa [h.set, b.listed]) hpickN.le
  rw [if_neg (h.counter ▸ hfull), h.counter, Nat.mod_eq_of_lt hwrap] at hclaim
  have hslot : s.slots ⟨pick, hpickN⟩ = some b.slots[pick] := by
    rw [h.slots, List.getElem?_eq_getElem hpick]
  refine ⟨_, hclaim.trans (swap_filled (k := ⟨pick, hpickN⟩) (Function.update_self ..) hslot),
    Function.update_idem .., rfl, h.mem_erase _, ?_⟩
  intro k
  show Function.update s.slots ⟨pick, hpickN⟩ (some (item i)) k =
    (b.slots.set pick (item i))[k.val]?
  by_cases hk : k = ⟨pick, hpickN⟩
  · subst hk
    rw [Function.update_self, List.getElem?_set_self hpick]
  · have hne : pick ≠ k.val := fun heq => hk (Fin.ext heq.symm)
    rw [Function.update_of_ne hk, h.slots, List.getElem?_set_ne hne]

/-- The new item is taken out again. -/
theorem discard (h : Represents s b) (hpc : s.inserts i = .start) (hwrap : b.counter + 1 < 2 ^ w)
    (hroom : N ≠ 0) (hnew : item i ∉ b.slots) (hfull : ¬ b.counter < N) :
    ∃ s', Steps w item s s' ∧ s'.inserts = Function.update s.inserts i .done ∧
      Represents s' (b.discard (item i) hnew hfull) := by
  have hclaim := steps_claim (w := w) hpc hroom (by rwa [h.set, b.listed]) (le_refl N)
  rw [if_neg (h.counter ▸ hfull), h.counter, Nat.mod_eq_of_lt hwrap] at hclaim
  have hdiscard : Step w item i _ _ :=
    .discard (s := { s with
      set := insert (item i) s.set
      counter := b.counter + 1
      numbered := s.numbered ++ [item i]
      inserts := Function.update s.inserts i (.claimed N) }) (Function.update_self ..) (lt_irrefl N)
  exact ⟨_, hclaim.tail ⟨i, hdiscard⟩, Function.update_idem .., rfl, h.mem_erase _, h.slots⟩

/-- **A call that nobody interrupts** is `BoundedSet.insert`, up to the wrap. -/
theorem alone (h : Represents s b) (hpc : s.inserts i = .start) (hwrap : b.counter + 1 < 2 ^ w)
    (pick : Nat) :
    ∃ s', Steps w item s s' ∧ s'.inserts = Function.update s.inserts i .done ∧
      Represents s' (b.insert pick (item i)) := by
  by_cases hknown : N = 0 ∨ item i ∈ b.set
  · have hstep : Step w item i s _ := .known hpc (hknown.imp_right (h.set _).mpr)
    refine ⟨_, .single ⟨i, hstep⟩, rfl, ?_⟩
    rw [BoundedSet.insert, dif_pos hknown]
    exact ⟨h.counter, h.set, h.slots⟩
  · have hnew := BoundedSet.not_mem_slots hknown
    have hN : N ≠ 0 := fun hN => hknown (.inl hN)
    by_cases hroom : b.counter < N
    · rw [BoundedSet.insert, dif_neg hknown, dif_pos hroom]
      exact h.push hpc hwrap hnew hroom
    · by_cases hpick : pick < b.slots.length
      · rw [BoundedSet.insert, dif_neg hknown, dif_neg hroom, dif_pos hpick]
        exact h.replace hpc hwrap hN hnew hroom hpick
      · rw [BoundedSet.insert, dif_neg hknown, dif_neg hroom, dif_neg hpick]
        exact h.discard hpc hwrap hN hnew hroom

end Represents

/-! ### A run around the counter -/

omit [DecidableEq I] [DecidableEq T] in
/-- The item of a call that has not started is new, where each call has an item of its own. -/
theorem Inv.not_mem_set (h : Inv w item s) (hitem : Function.Injective item)
    (hpc : s.inserts i = .start) : item i ∉ s.set := by
  intro hmem
  rcases h.listed _ hmem with hnumbered | ⟨i', hi', heq⟩
  · obtain ⟨i', hi', heq⟩ := h.started _ hnumbered
    exact hi' (hitem heq ▸ hpc)
  · rw [hitem heq, hpc] at hi'
    cases hi'

/-- `n` calls, one after the other. -/
theorem exists_run (hN : N < 2 ^ w) (hroom : N ≠ 0) (n : Nat) :
    ∃ s : SharedSet Nat Nat N, Steps w id new s ∧
      (∀ i, s.inserts i = if i < n then .done else .start) ∧ s.numbered.length = n := by
  induction n with
  | zero => exact ⟨new, .refl, fun _ => rfl, rfl⟩
  | succ n ih =>
      obtain ⟨s, hsteps, hinserts, hlength⟩ := ih
      have hpc : s.inserts n = .start := (hinserts n).trans (if_neg (lt_irrefl n))
      have hnew := (Inv.run hN hsteps).not_mem_set Function.injective_id hpc
      obtain ⟨s', hsteps', hinserts', hnumbered⟩ := new_item_ends (w := w) hpc hroom hnew
      refine ⟨s', hsteps.trans hsteps', ?_, ?_⟩
      · intro i
        rw [hinserts']
        by_cases hi : i = n
        · subst hi
          rw [Function.update_self, if_pos (Nat.lt_succ_self i)]
        · have hiff : i < n + 1 ↔ i < n := by
            rw [Nat.lt_succ_iff, le_iff_lt_or_eq, or_iff_left hi]
          rw [Function.update_of_ne hi, hinserts]
          simp only [hiff]
      · rw [hnumbered, List.length_append, List.length_singleton, hlength]

/-! ### What is loaded -/

omit [DecidableEq I] [DecidableEq T]

/-- Filled slots come first. -/
def Front (m : Nat) (l : List (Option T)) : Prop :=
  ∀ k (hk : k < l.length), (l[k]).isSome ↔ k < m

theorem Front.tail {m : Nat} {a : Option T} {l : List (Option T)} (h : Front (m + 1) (a :: l)) :
    Front m l := by
  intro k hk
  have hk' := h (k + 1) (Nat.succ_lt_succ hk)
  rwa [List.getElem_cons_succ, Nat.succ_lt_succ_iff] at hk'

theorem Front.head {m : Nat} {a : Option T} {l : List (Option T)} (h : Front m (a :: l)) :
    a.isSome ↔ 0 < m :=
  h 0 (Nat.zero_lt_succ _)

theorem Front.eq_none {l : List (Option T)} (h : Front 0 l) {a : Option T} (ha : a ∈ l) :
    a = none := by
  obtain ⟨k, hk, rfl⟩ := List.getElem_of_mem ha
  exact Option.not_isSome_iff_eq_none.mp fun hsome => Nat.not_lt_zero k ((h k hk).mp hsome)

theorem length_loaded : ∀ {l : List (Option T)} {m : Nat}, Front m l → m ≤ l.length →
    (loaded l).length = m
  | [], _, _, hm => (Nat.le_zero.mp hm).symm
  | none :: _, 0, _, _ => rfl
  | none :: _, m + 1, h, _ => by cases h.head.mpr (Nat.zero_lt_succ m)
  | some _ :: _, 0, h, _ => absurd (h.head.mp rfl) (Nat.lt_irrefl 0)
  | some _ :: _, _ + 1, h, hm =>
      congrArg (· + 1) (length_loaded h.tail (Nat.le_of_succ_le_succ hm))

theorem mem_loaded {x : T} : ∀ {l : List (Option T)} {m : Nat}, Front m l →
    (x ∈ loaded l ↔ some x ∈ l)
  | [], _, _ => by simp [loaded]
  | none :: _, m + 1, h => by cases h.head.mpr (Nat.zero_lt_succ m)
  | some _ :: _, 0, h => absurd (h.head.mp rfl) (Nat.lt_irrefl 0)
  | none :: l, 0, h => by
      constructor
      · intro hx
        cases hx
      · intro hx
        cases h.eq_none hx
  | some y :: l, _ + 1, h => by
      rw [loaded, List.mem_cons, List.mem_cons, mem_loaded h.tail, Option.some.injEq]

theorem map_some_loaded_sublist : ∀ l : List (Option T), ((loaded l).map some).Sublist l
  | [] | none :: _ => List.nil_sublist _
  | some _ :: l => (map_some_loaded_sublist l).cons_cons _

/-! ### Main results -/

variable (item) in
/-- Slots, set and counter agree. -/
structure Agrees (s : SharedSet I T N) : Prop where
  /-- With `k` insertions of a new item the first `min k N` slots are filled, -/
  filled : ∀ k : Fin N, (s.slots k).isSome ↔ k.val < min s.numbered.length N
  /-- which is as many as for the number of different items. -/
  distinct : ∀ items : Finset T, (∀ x, x ∈ items ↔ ∃ i, s.Started i ∧ item i = x) →
    min items.card N = min s.numbered.length N
  once : ∀ k k' x, s.slots k = some x → s.slots k' = some x → k = k'
  listed : ∀ x, x ∈ s.set ↔ ∃ k, s.slots k = some x
  iter_nodup : s.iter.Nodup
  mem_iter : ∀ x, x ∈ s.iter ↔ x ∈ s.set
  len : s.len = s.iter.length
  len_le : s.len ≤ N
  /-- Up to `N` items, none is missing. -/
  complete : ∀ items : Finset T, items.card ≤ N → (∀ i, s.Started i → item i ∈ items) →
    ∀ i, s.Started i → item i ∈ s.set

theorem Quiet.place (h : s.Quiet) (i : I) : s.place item (.inr i) = none := by
  rcases h i with hpc | hpc <;> exact place_inr hpc

theorem Quiet.ne_claimed (h : s.Quiet) (i : I) (k : Nat) : s.inserts i ≠ .claimed k := by
  rcases h i with hpc | hpc <;> rw [hpc] <;> nofun

/-- Whoever was counted has a number. -/
theorem Quiet.mem_numbered (h : s.Quiet) {x : T} (hx : s.Counted item x) : x ∈ s.numbered := by
  rcases hx with hx | ⟨i, hi, -⟩
  · exact hx
  · rcases h i with hpc | hpc <;> rw [hpc] at hi <;> cases hi

theorem Quiet.filled (hquiet : s.Quiet) (h : Inv w item s) (k : Fin N) :
    (s.slots k).isSome ↔ k.val < min s.numbered.length N := by
  rw [lt_min_iff, and_iff_left k.isLt]
  constructor
  · exact h.filled k
  · intro hk
    rcases h.filling k hk with hsome | ⟨i, hi⟩
    · exact hsome
    · exact absurd hi (hquiet.ne_claimed i k)

theorem Quiet.listed (hquiet : s.Quiet) (h : Inv w item s) (x : T) :
    x ∈ s.set ↔ ∃ k, s.slots k = some x := by
  rw [h.places.mem_iff]
  constructor
  · rintro ⟨k | i, hp⟩
    · exact ⟨k, hp⟩
    · rw [hquiet.place] at hp
      cases hp
  · rintro ⟨k, hk⟩
    exact ⟨.inl k, hk⟩

theorem Quiet.front (hquiet : s.Quiet) (h : Inv w item s) :
    Front (min s.numbered.length N) (List.ofFn s.slots) := by
  intro k hk
  rw [List.getElem_ofFn]
  exact hquiet.filled h _

theorem Quiet.length_iter (hquiet : s.Quiet) (h : Inv w item s) :
    s.iter.length = min s.numbered.length N := by
  refine length_loaded (hquiet.front h) ?_
  rw [List.length_ofFn]
  exact min_le_right _ _

theorem Quiet.mem_iter (hquiet : s.Quiet) (h : Inv w item s) (x : T) : x ∈ s.iter ↔ x ∈ s.set := by
  rw [iter, mem_loaded (hquiet.front h), List.mem_ofFn, hquiet.listed h]

theorem Inv.iter_nodup (h : Inv w item s) : s.iter.Nodup := by
  have hpairwise : (List.ofFn s.slots).Pairwise fun a b => ∀ x, a = some x → b ≠ some x := by
    rw [List.pairwise_ofFn]
    intro k k' hlt x hk hk'
    cases h.places.once (.inl k) (.inl k') x hk hk'
    exact lt_irrefl _ hlt
  have hloaded := List.pairwise_map.mp (hpairwise.sublist (map_some_loaded_sublist _))
  exact hloaded.imp fun hne heq => hne _ rfl (congrArg some heq.symm)

theorem Quiet.item_mem_numbered (hquiet : s.Quiet) (h : Inv w item s) (hN : N ≠ 0) {i : I}
    (hi : s.Started i) : item i ∈ s.numbered :=
  hquiet.mem_numbered ((h.reached i hi).resolve_left hN)

theorem Quiet.complete (hquiet : s.Quiet) (h : Inv w item s) (horder : InOrder item s)
    (hlength : s.numbered.length ≤ N) (hN : N ≠ 0) {i : I} (hi : s.Started i) :
    item i ∈ s.set := by
  rw [hquiet.listed h]
  obtain ⟨k, hslot | ⟨i', hi', -⟩⟩ :=
    horder.exists_place h (hquiet.item_mem_numbered h hN hi) hlength
  · exact ⟨k, hslot⟩
  · exact absurd hi' (hquiet.ne_claimed i' k)

variable [DecidableEq T]

/-- There are as many numbers as items, or as slots. -/
theorem Quiet.distinct (hquiet : s.Quiet) (h : Inv w item s)
    (horder : ∀ items : Finset T, items.card ≤ N → (∀ i, s.Started i → item i ∈ items) →
      InOrder item s)
    {items : Finset T} (hitems : ∀ x, x ∈ items ↔ ∃ i, s.Started i ∧ item i = x) :
    min items.card N = min s.numbered.length N := by
  have hmem : ∀ i, s.Started i → item i ∈ items := fun i hi => (hitems _).mpr ⟨i, hi, rfl⟩
  by_cases hN : N = 0
  · subst hN
    rw [Nat.min_zero, Nat.min_zero]
  · have hle : items.card ≤ s.numbered.length := by
      refine (Finset.card_le_card ?_).trans (List.toFinset_card_le s.numbered)
      intro x hx
      obtain ⟨i, hi, rfl⟩ := (hitems x).mp hx
      exact List.mem_toFinset.mpr (hquiet.item_mem_numbered h hN hi)
    by_cases hcard : items.card ≤ N
    · rw [le_antisymm hle ((horder items hcard hmem).length_le h hmem)]
    · have hfull := (Nat.not_le.mp hcard).le
      rw [min_eq_right hfull, min_eq_right (hfull.trans hle)]

/-- All but `len` holds in any run. -/
theorem Quiet.agrees [DecidableEq I] (hquiet : s.Quiet) (hN : N < 2 ^ w)
    (hsteps : Steps w item new s) (hlen : s.len = min s.numbered.length N) : Agrees item s := by
  have h := Inv.run hN hsteps
  have horder : ∀ items : Finset T, items.card ≤ N → (∀ i, s.Started i → item i ∈ items) →
      InOrder item s := fun items hcard => InOrder.run hN hcard hsteps
  refine ⟨hquiet.filled h, fun items => hquiet.distinct h horder, ?_, hquiet.listed h,
    h.iter_nodup, hquiet.mem_iter h, ?_, min_le_right _ _, ?_⟩
  · intro k k' x hk hk'
    exact Sum.inl_injective (h.places.once (.inl k) (.inl k') x hk hk')
  · rw [hquiet.length_iter h, hlen]
  · intro items hcard hitems i hi
    have hN : N ≠ 0 := by
      rintro rfl
      exact Finset.notMem_empty _ (Finset.card_eq_zero.mp (Nat.le_zero.mp hcard) ▸ hitems i hi)
    have hlength := ((horder items hcard hitems).length_le h hitems).trans hcard
    exact hquiet.complete h (horder items hcard hitems) hlength hN hi

variable [DecidableEq I]

/-- Within, the counter is the number of insertions. -/
theorem counter_within (h : StepsWithin w item new s) :
    Steps w item new s ∧ s.counter = s.numbered.length ∧ s.counter < 2 ^ w := by
  induction h with
  | refl => exact ⟨.refl, rfl, Nat.two_pow_pos w⟩
  | tail _ hstep ih =>
      obtain ⟨i, hwraps, hstep⟩ := hstep
      obtain ⟨hsteps, hcounter, hlt⟩ := ih
      refine ⟨hsteps.tail ⟨i, hstep⟩, ?_⟩
      cases hstep with
      | known _ _ | add _ _ _ | discard _ _ | remove _ | swap _ => exact ⟨hcounter, hlt⟩
      | number _ hpc _ =>
          have hne : _ + 1 ≠ 2 ^ w := fun heq => hwraps ⟨hpc, heq⟩
          have hlt' := lt_of_le_of_ne (Nat.succ_le_of_lt hlt) hne
          rw [List.length_append, List.length_singleton, ← hcounter]
          exact ⟨Nat.mod_eq_of_lt hlt', Nat.mod_lt _ (Nat.two_pow_pos w)⟩

/-- **The bounded set among threads.**  With `N` a `usize`: whenever no call is under way, slots,
set and counter agree, as long as no step takes the counter around.  After that they agree exactly
when the counter has come past all slots again.  A call that nobody interrupts is `insert`. -/
theorem bounded_set_agrees (w : Nat) (item : I → T) (hN : N < 2 ^ w) :
    (∀ s : SharedSet I T N, StepsWithin w item new s → s.Quiet → Agrees item s) ∧
      (∀ s : SharedSet I T N, Steps w item new s → s.Quiet →
        (Agrees item s ↔ s.numbered.length < 2 ^ w ∨ N ≤ s.numbered.length % 2 ^ w)) ∧
      ∀ (s : SharedSet I T N) (b : BoundedSet T N) (i : I) (pick : Nat), Represents s b →
        s.inserts i = .start → b.counter + 1 < 2 ^ w →
        ∃ s', Steps w item s s' ∧ s'.inserts = Function.update s.inserts i .done ∧
          Represents s' (b.insert pick (item i)) := by
  refine ⟨?_, ?_, fun s b i pick h hpc hwrap => h.alone hpc hwrap pick⟩
  · intro s hsteps hquiet
    obtain ⟨hsteps, hcounter, -⟩ := counter_within hsteps
    exact hquiet.agrees hN hsteps (by rw [len, hcounter])
  · intro s hsteps hquiet
    have h := Inv.run hN hsteps
    constructor
    · intro hagrees
      have hlen := hagrees.len
      rw [hquiet.length_iter h, len, h.counter] at hlen
      by_contra hcon
      obtain ⟨hwrapped, hbelow⟩ := not_or.mp hcon
      have hfull : N ≤ s.numbered.length := (hN.trans_le (Nat.not_lt.mp hwrapped)).le
      rw [min_eq_right hfull] at hlen
      exact hbelow (min_eq_right_iff.mp hlen)
    · rintro (hlt | hpast)
      · exact hquiet.agrees hN hsteps (by rw [len, h.counter, Nat.mod_eq_of_lt hlt])
      · have hfull : N ≤ s.numbered.length := hpast.trans (Nat.mod_le _ _)
        exact hquiet.agrees hN hsteps
          (by rw [len, h.counter, min_eq_right hpast, min_eq_right hfull])

end Steps

/-- The items of two threads. -/
def two (i : Bool) : Nat := if i then 7 else 8

/-- Both items are in the set before either has its number; the second displaces the first. -/
theorem two_run : ∃ s : SharedSet Bool Nat 1, StepsWithin 32 two new s ∧ s.Quiet ∧
    s.numbered = [7, 8] ∧ s.set = {8} ∧ s.iter = [8] := by
  have hadds : StepsWithin 32 two (new : SharedSet Bool Nat 1) _ :=
    (Relation.ReflTransGen.refl.tail
      ⟨true, fun h => absurd h.2 (by decide), .add rfl Nat.one_ne_zero (by decide)⟩).tail
      ⟨false, fun h => absurd h.2 (by decide), .add rfl Nat.one_ne_zero (by decide)⟩
  have hnumbers := (hadds.tail
    ⟨true, fun h => absurd h.2 (by decide), .number 0 rfl (Nat.zero_le 1)⟩).tail
      ⟨false, fun h => absurd h.2 (by decide), .number 0 rfl (Nat.zero_le 1)⟩
  have hswaps := (hnumbers.tail
    ⟨true, fun h => absurd h.2 (by decide), .swap (k := 0) rfl⟩).tail
      ⟨false, fun h => absurd h.2 (by decide), .swap (k := 0) rfl⟩
  have hsteps := hswaps.tail ⟨false, fun h => absurd h.2 (by decide), .remove rfl⟩
  refine ⟨_, hsteps, ?_, rfl, by decide, rfl⟩
  intro i
  cases i
  · exact .inr rfl
  · exact .inr rfl

theorem bounded_set_agrees_sample : ∃ s : SharedSet Bool Nat 1,
    StepsWithin 32 two new s ∧ s.numbered = [7, 8] ∧ s.set = {8} ∧ s.iter = [8] ∧
      Agrees two s ∧ (s.numbered.length < 2 ^ 32 ∨ 1 ≤ s.numbered.length % 2 ^ 32) := by
  obtain ⟨s, hsteps, hquiet, hnumbered, hset, hiter⟩ := two_run
  have hagrees := bounded_set_agrees 32 two (by decide : 1 < 2 ^ 32)
  have h := hagrees.1 s hsteps hquiet
  refine ⟨s, hsteps, hnumbered, hset, hiter, h, ?_⟩
  exact (hagrees.2.1 s (counter_within hsteps).1 hquiet).mp h

/-- As many as a `usize` counts, with the 50 slots of the schemas: the counter is back at zero. -/
theorem shared_set_around : ∃ s : SharedSet Nat Nat 50, Steps 32 id new s ∧ s.Quiet ∧
    s.len = 0 ∧ s.iter.length = 50 ∧ ¬ Agrees id s := by
  have hN : 50 < 2 ^ 32 := by decide
  obtain ⟨s, hsteps, hinserts, hlength⟩ := exists_run hN (by decide : 50 ≠ 0) (2 ^ 32)
  have hquiet : s.Quiet := by
    intro i
    rw [hinserts]
    split
    · exact .inr rfl
    · exact .inl rfl
  have h := Inv.run hN hsteps
  have hlen : s.len = 0 := by rw [len, h.counter, hlength, Nat.mod_self, Nat.zero_min]
  have hiter : s.iter.length = 50 := by rw [hquiet.length_iter h, hlength, min_eq_right hN.le]
  refine ⟨s, hsteps, hquiet, hlen, hiter, ?_⟩
  intro hagrees
  have hlen' := hagrees.len
  rw [hlen, hiter] at hlen'
  cases hlen'

end SharedSet

end ConfidenceResolver
