import Mathlib.Algebra.Ring.Nat
import Mathlib.Algebra.BigOperators.Group.List.Basic
import Mathlib.Data.List.GetD
import Mathlib.Order.Lattice
import Mathlib.Algebra.Order.Group.Nat

/-!
# Support — counters in a growing vector

A vector of counters that grows as far as it is needed; a counter that is not there is zero.

* `addAt`: add to one counter.  `addAll`: add a list of increments.
* `zipAdd`: add the counters of another vector.
* `zipAdd_addAll`: adding a vector that increments made is adding the increments.
* `addAll_congr`: increments with the same indices and the same sum at each of them are the same.
* `foldl_adds`, `foldl_fits`: what one step adds to a reading, a run adds.
-/

namespace ConfidenceResolver.Counters

variable {M : Type*} [AddCommMonoid M]

/-- At least `n` counters, the new ones zero. -/
def resize (n : Nat) (l : List M) : List M := l ++ List.replicate (n - l.length) 0

/-- Add `m` to the counter `i`. -/
def addAt (i : Nat) (m : M) (l : List M) : List M := (resize (i + 1) l).modify i (· + m)

/-- Add increments `(i, m)` one after another. -/
def addAll (es : List (Nat × M)) (l : List M) : List M := es.foldl (fun l e => addAt e.1 e.2 l) l

/-- Add the counters of `l'`. -/
def zipAdd (l l' : List M) : List M :=
  List.zipWith (· + ·) (resize l'.length l) l' ++ (resize l'.length l).drop l'.length

/-- The sum of the increments at `i`. -/
def sumAt (i : Nat) (es : List (Nat × M)) : M := ((es.filter fun e => e.1 = i).map Prod.snd).sum

/-! ### Reading a counter -/

theorem ext_getD {l l' : List M} (hlen : l.length = l'.length)
    (h : ∀ i, l.getD i 0 = l'.getD i 0) : l = l' := by
  refine List.ext_getElem hlen fun i h₁ h₂ => ?_
  have := h i
  rwa [List.getD_eq_getElem _ _ h₁, List.getD_eq_getElem _ _ h₂] at this

@[simp] theorem length_resize (n : Nat) (l : List M) : (resize n l).length = max l.length n := by
  simp [resize]
  omega

@[simp] theorem getD_resize (n i : Nat) (l : List M) : (resize n l).getD i 0 = l.getD i 0 := by
  by_cases h : i < l.length
  · simp [resize, List.getD, List.getElem?_append_left h]
  · have h' : l.length ≤ i := not_lt.mp h
    simp only [resize, List.getD, List.getElem?_append_right h', List.getElem?_replicate,
      List.getElem?_eq_none h']
    split <;> rfl

@[simp] theorem length_addAt (i : Nat) (m : M) (l : List M) :
    (addAt i m l).length = max l.length (i + 1) := by
  simp [addAt]

theorem getD_addAt (i j : Nat) (m : M) (l : List M) :
    (addAt i m l).getD j 0 = l.getD j 0 + if i = j then m else 0 := by
  rw [addAt, List.getD, List.getElem?_modify]
  by_cases h : i = j
  · subst h
    have hlt : i < (resize (i + 1) l).length := by simp
    have hget : (resize (i + 1) l)[i] = l.getD i 0 := by
      rw [← List.getD_eq_getElem _ 0 hlt, getD_resize]
    simp only [if_true, List.getElem?_eq_getElem hlt, Option.map_eq_map, Option.map_some, hget,
      Option.getD_some]
  · simp only [if_neg h, add_zero]
    simpa [List.getD] using getD_resize (i + 1) j l

theorem length_zipAdd (l l' : List M) : (zipAdd l l').length = max l.length l'.length := by
  simp [zipAdd]

theorem getD_zipAdd (l l' : List M) (i : Nat) :
    (zipAdd l l').getD i 0 = l.getD i 0 + l'.getD i 0 := by
  have hlen : (List.zipWith (· + ·) (resize l'.length l) l').length = l'.length := by simp
  rw [← getD_resize l'.length i l]
  by_cases h : i < l'.length
  · have h' : i < (resize l'.length l).length := by simp [h]
    rw [zipAdd, List.getD, List.getElem?_append_left (by rw [hlen]; exact h),
      List.getElem?_zipWith, List.getElem?_eq_getElem h, List.getElem?_eq_getElem h']
    simp [List.getD, h]
  · have h' : l'.length ≤ i := not_lt.mp h
    rw [zipAdd, List.getD, List.getElem?_append_right (by rw [hlen]; exact h'), hlen,
      List.getElem?_drop, Nat.add_sub_cancel' h']
    simp [List.getD, List.getElem?_eq_none h']

/-! ### Increments -/

@[simp] theorem addAll_nil (l : List M) : addAll [] l = l := rfl

theorem addAll_cons (e : Nat × M) (es : List (Nat × M)) (l : List M) :
    addAll (e :: es) l = addAll es (addAt e.1 e.2 l) := rfl

theorem sumAt_cons (i : Nat) (e : Nat × M) (es : List (Nat × M)) :
    sumAt i (e :: es) = (if e.1 = i then e.2 else 0) + sumAt i es := by
  by_cases h : e.1 = i <;> simp [sumAt, h]

theorem sumAt_append (i : Nat) (es es' : List (Nat × M)) :
    sumAt i (es ++ es') = sumAt i es + sumAt i es' := by
  simp [sumAt]

theorem getD_addAll (es : List (Nat × M)) (i : Nat) :
    ∀ l : List M, (addAll es l).getD i 0 = l.getD i 0 + sumAt i es := by
  induction es with
  | nil => simp [sumAt]
  | cons e es ih =>
      intro l
      rw [addAll_cons, ih, getD_addAt, sumAt_cons, add_assoc]

theorem length_addAll_le {es : List (Nat × M)} {l : List M} {n : Nat} :
    (addAll es l).length ≤ n ↔ l.length ≤ n ∧ ∀ e ∈ es, e.1 < n := by
  induction es generalizing l with
  | nil => simp
  | cons e es ih =>
      rw [addAll_cons, ih, length_addAt, List.forall_mem_cons, max_le_iff]
      exact and_assoc

/-- Increments with the same indices and the same sums are the same. -/
theorem addAll_congr {es es' : List (Nat × M)}
    (hidx : ∀ i, (∃ e ∈ es, e.1 = i) ↔ ∃ e ∈ es', e.1 = i)
    (hsum : ∀ i, sumAt i es = sumAt i es') (l : List M) : addAll es l = addAll es' l := by
  have hle : ∀ {es es' : List (Nat × M)}, (∀ i, (∃ e ∈ es, e.1 = i) → ∃ e ∈ es', e.1 = i) →
      (addAll es l).length ≤ (addAll es' l).length := by
    intro es es' h
    obtain ⟨h₁, h₂⟩ := length_addAll_le.mp (le_refl (addAll es' l).length)
    refine length_addAll_le.mpr ⟨h₁, fun e he => ?_⟩
    obtain ⟨e', he', h'⟩ := h e.1 ⟨e, he, rfl⟩
    exact h' ▸ h₂ e' he'
  refine ext_getD (le_antisymm (hle fun i => (hidx i).mp) (hle fun i => (hidx i).mpr)) fun i => ?_
  rw [getD_addAll, getD_addAll, hsum]

/-- **Adding what increments made is adding the increments.** -/
theorem zipAdd_addAll (es : List (Nat × M)) (l : List M) :
    zipAdd l (addAll es []) = addAll es l := by
  refine ext_getD (le_antisymm ?_ ?_) fun i => ?_
  · obtain ⟨h₁, h₂⟩ := length_addAll_le.mp (le_refl (addAll es l).length)
    rw [length_zipAdd]
    exact max_le h₁ (length_addAll_le.mpr ⟨by simp, h₂⟩)
  · obtain ⟨-, h₂⟩ := length_addAll_le.mp (le_refl (addAll es ([] : List M)).length)
    rw [length_zipAdd]
    refine length_addAll_le.mpr ⟨le_max_left _ _, fun e he => ?_⟩
    exact lt_max_of_lt_right (h₂ e he)
  · rw [getD_zipAdd, getD_addAll, getD_addAll]
    simp

/-! ### Runs -/

/-- A reading `c` that every step raises by `g` is raised by the sum of `g` along a run. -/
theorem foldl_adds {S D : Type*} {step : S → D → S} {c : S → M} {g : D → M}
    (hstep : ∀ s d, c (step s d) = c s + g d) (ds : List D) :
    ∀ s, c (ds.foldl step s) = c s + (ds.map g).sum := by
  induction ds with
  | nil => simp
  | cons d ds ih =>
      intro s
      rw [List.foldl_cons, ih, hstep, List.map_cons, List.sum_cons, add_assoc]

/-- A reading that a step adds to as long as it stays below `B`: a run whose sum is below `B`
adds all of it. -/
theorem foldl_fits {S D : Type*} {step : S → D → S} {f : S → Nat} {g : D → Nat} {B : Nat}
    (hstep : ∀ s d, f s + g d < B → f (step s d) = f s + g d) (ds : List D) :
    ∀ s, f s + (ds.map g).sum < B → f (ds.foldl step s) = f s + (ds.map g).sum := by
  induction ds with
  | nil => simp
  | cons d ds ih =>
      intro s hfits
      rw [List.map_cons, List.sum_cons] at hfits ⊢
      have h := hstep s d (by omega)
      rw [List.foldl_cons, ih (step s d) (by omega), h, Nat.add_assoc]

end ConfidenceResolver.Counters
