import Mathlib.Data.Finset.Insert
import Mathlib.Data.Finset.Erase
import Mathlib.Logic.Equiv.Basic

/-!
# Support — places

A finite set whose elements lie in places, each element in exactly one.  Where an element is on its
way from one place to another, the hand that carries it is a place as well.

* `Places`: the places have the elements of the set, each once.
* `put`, `clear`: a new element in an empty place, and an element that goes.
* `exchange`: elements change places, and the set stays.
-/

namespace ConfidenceResolver

variable {P T : Type*}

/-- The places have the elements of `s`, each once. -/
structure Places (place : P → Option T) (s : Finset T) : Prop where
  once : ∀ p p' x, place p = some x → place p' = some x → p = p'
  mem_iff : ∀ x, x ∈ s ↔ ∃ p, place p = some x

namespace Places

variable {place : P → Option T} {s : Finset T}

theorem empty : Places (fun _ : P => (none : Option T)) ∅ where
  once p p' x h _ := by cases h
  mem_iff x := by
    constructor
    · intro h
      exact absurd h (Finset.notMem_empty x)
    · rintro ⟨_, h⟩
      cases h

/-- Elements change places. -/
theorem exchange (h : Places place s) (e : Equiv.Perm P) : Places (place ∘ e) s where
  once p p' x hp hp' := e.injective (h.once (e p) (e p') x hp hp')
  mem_iff x := by
    rw [h.mem_iff]
    constructor
    · rintro ⟨p, hp⟩
      exact ⟨e.symm p, by rw [Function.comp_apply, e.apply_symm_apply, hp]⟩
    · rintro ⟨p, hp⟩
      exact ⟨e p, hp⟩

variable [DecidableEq P] [DecidableEq T]

/-- A new element is put in an empty place. -/
theorem put (h : Places place s) {p : P} {x : T} (hp : place p = none) (hx : x ∉ s) :
    Places (Function.update place p (some x)) (insert x s) where
  once q q' y hq hq' := by
    -- the new element was nowhere before
    have hold : ∀ r, Function.update place p (some x) r = some y → r ≠ p → y ≠ x := by
      rintro r hr hne rfl
      rw [Function.update_of_ne hne] at hr
      exact hx ((h.mem_iff y).mpr ⟨r, hr⟩)
    by_cases hqp : q = p <;> by_cases hqp' : q' = p
    · rw [hqp, hqp']
    · subst hqp
      rw [Function.update_self] at hq
      exact absurd (Option.some.inj hq).symm (hold q' hq' hqp')
    · subst hqp'
      rw [Function.update_self] at hq'
      exact absurd (Option.some.inj hq').symm (hold q hq hqp)
    · rw [Function.update_of_ne hqp] at hq
      rw [Function.update_of_ne hqp'] at hq'
      exact h.once q q' y hq hq'
  mem_iff y := by
    rw [Finset.mem_insert, h.mem_iff]
    constructor
    · rintro (rfl | ⟨q, hq⟩)
      · exact ⟨p, Function.update_self ..⟩
      · refine ⟨q, ?_⟩
        rwa [Function.update_of_ne]
        rintro rfl
        rw [hp] at hq
        cases hq
    · rintro ⟨q, hq⟩
      by_cases hqp : q = p
      · subst hqp
        rw [Function.update_self] at hq
        exact .inl (Option.some.inj hq).symm
      · rw [Function.update_of_ne hqp] at hq
        exact .inr ⟨q, hq⟩

/-- An element goes, and its place is empty. -/
theorem clear (h : Places place s) {p : P} {x : T} (hp : place p = some x) :
    Places (Function.update place p none) (s.erase x) where
  once q q' y hq hq' := by
    have hold : ∀ r, Function.update place p none r = some y → place r = some y := by
      intro r hr
      by_cases hrp : r = p
      · subst hrp
        rw [Function.update_self] at hr
        cases hr
      · rwa [Function.update_of_ne hrp] at hr
    exact h.once q q' y (hold q hq) (hold q' hq')
  mem_iff y := by
    rw [Finset.mem_erase, h.mem_iff]
    constructor
    · rintro ⟨hne, q, hq⟩
      refine ⟨q, ?_⟩
      rwa [Function.update_of_ne]
      rintro rfl
      exact hne (Option.some.inj (hq.symm.trans hp))
    · rintro ⟨q, hq⟩
      by_cases hqp : q = p
      · subst hqp
        rw [Function.update_self] at hq
        cases hq
      · rw [Function.update_of_ne hqp] at hq
        refine ⟨?_, q, hq⟩
        rintro rfl
        exact hqp (h.once q p y hq hp)

end Places

end ConfidenceResolver
