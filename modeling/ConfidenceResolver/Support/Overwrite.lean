import Mathlib.Algebra.BigOperators.Group.List.Basic
import Mathlib.Algebra.Order.BigOperators.Group.List
import Mathlib.Algebra.Order.Group.Nat
import Mathlib.Algebra.Ring.Nat
import Mathlib.Data.List.Induction

/-!
# Support — parts that overwrite

An amount is reported in parts, and each part that is not zero overwrites the one before.

* `last`: what is known after the parts.  `last_eq_getLast`, `last_le_sum`: it is the last one that
  is not zero, and at most their sum.
* `AtMostOne`: at most one part is not zero.  `last_eq_sum_iff`: it is the sum only then.
* `sum_last_eq_iff`: the same of groups of parts and their total.
-/

namespace ConfidenceResolver

namespace Overwrite

def overwrite (known part : Nat) : Nat := if part = 0 then known else part

def last (parts : List Nat) : Nat := parts.foldl overwrite 0

def AtMostOne (parts : List Nat) : Prop := (parts.filter (· ≠ 0)).length ≤ 1

instance (parts : List Nat) : Decidable (AtMostOne parts) := inferInstanceAs (Decidable (_ ≤ _))

theorem last_concat (parts : List Nat) (part : Nat) :
    last (parts ++ [part]) = overwrite (last parts) part := by
  rw [last, List.foldl_append]
  rfl

/-- What is known is the last part that is not zero. -/
theorem last_eq_getLast (parts : List Nat) : last parts = (parts.filter (· ≠ 0)).getLast?.getD 0 := by
  induction parts using List.reverseRecOn with
  | nil => rfl
  | append_singleton parts part ih =>
      rw [last_concat, overwrite, List.filter_append]
      by_cases hpart : part = 0
      · simpa [hpart] using ih
      · simp [hpart]

theorem last_le_sum (parts : List Nat) : last parts ≤ parts.sum := by
  induction parts using List.reverseRecOn with
  | nil => exact Nat.le_refl 0
  | append_singleton parts part ih =>
      rw [last_concat, overwrite, List.sum_append, List.sum_singleton]
      split
      · exact Nat.le_add_right_of_le ih
      · exact Nat.le_add_left _ _

theorem filter_nil_iff (parts : List Nat) : parts.filter (· ≠ 0) = [] ↔ parts.sum = 0 := by
  simp [List.filter_eq_nil_iff, List.sum_eq_zero_iff_forall_eq_nat]

/-- **Nothing is overwritten** only if at most one part is not zero. -/
theorem last_eq_sum_iff (parts : List Nat) : last parts = parts.sum ↔ AtMostOne parts := by
  induction parts using List.reverseRecOn with
  | nil => exact iff_of_true rfl (Nat.zero_le 1)
  | append_singleton parts part ih =>
      rw [last_concat, overwrite, List.sum_append, List.sum_singleton, AtMostOne,
        List.filter_append, List.length_append]
      by_cases hpart : part = 0
      · rw [if_pos hpart, hpart, Nat.add_zero, ih]
        rfl
      · -- the last part overwrites: all before it have to be zero
        have hone : ([part].filter (· ≠ 0)).length = 1 := by simp [hpart]
        rw [if_neg hpart, hone]
        constructor
        · intro h
          have hsum : parts.sum = 0 := by omega
          rw [(filter_nil_iff parts).mpr hsum]
          exact Nat.le_refl 1
        · intro h
          have hnil : (parts.filter (· ≠ 0)).length = 0 := by omega
          rw [(filter_nil_iff parts).mp (List.length_eq_zero_iff.mp hnil), Nat.zero_add]

theorem sum_last_le (groups : List (List Nat)) :
    (groups.map last).sum ≤ (groups.map List.sum).sum :=
  List.sum_le_sum fun parts _ => last_le_sum parts

/-- The total over groups of parts is the sum of all parts only if nothing is overwritten in a
group. -/
theorem sum_last_eq_iff (groups : List (List Nat)) :
    (groups.map last).sum = (groups.map List.sum).sum ↔ ∀ parts ∈ groups, AtMostOne parts := by
  induction groups with
  | nil => exact iff_of_true rfl (List.forall_mem_nil _)
  | cons parts groups ih =>
      rw [List.map_cons, List.sum_cons, List.map_cons, List.sum_cons, List.forall_mem_cons, ← ih,
        ← last_eq_sum_iff]
      have hle := last_le_sum parts
      have hrest := sum_last_le groups
      constructor
      · intro h
        exact ⟨by omega, by omega⟩
      · rintro ⟨hfirst, hsum⟩
        rw [hfirst, hsum]

end Overwrite

end ConfidenceResolver
