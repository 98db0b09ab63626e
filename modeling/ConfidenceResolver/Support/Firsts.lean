import Mathlib.Data.List.Basic
import Mathlib.Tactic.Tauto

/-!
# Support — first occurrences

Of a list whose elements have keys, the elements whose key no earlier element has.

* `firsts_append`, `firsts_map`: in parts, and under another name.
* `mem_keys_firsts`: no key is lost.
* `firsts_firsts`: nothing is dropped the second time.
-/

namespace ConfidenceResolver

variable {A B K : Type*} [DecidableEq K] (key : A → K)

/-- The elements whose key is none of `seen` and no earlier element's. -/
def firsts (seen : List K) : List A → List A
  | [] => []
  | a :: l => (if key a ∈ seen then [] else [a]) ++ firsts (key a :: seen) l

variable {key}

theorem firsts_cons (seen : List K) (a : A) (l : List A) :
    firsts key seen (a :: l) = (if key a ∈ seen then [] else [a]) ++ firsts key (key a :: seen) l :=
  rfl

/-- It matters which keys were seen, not how often and in which order. -/
theorem firsts_congr {seen seen' : List K} (h : ∀ k, k ∈ seen ↔ k ∈ seen') (l : List A) :
    firsts key seen l = firsts key seen' l := by
  induction l generalizing seen seen' with
  | nil => rfl
  | cons a l ih =>
      have hnext : ∀ k, k ∈ key a :: seen ↔ k ∈ key a :: seen' := by
        intro k
        rw [List.mem_cons, List.mem_cons, h]
      rw [firsts_cons, firsts_cons, ih hnext]
      simp only [h]

theorem firsts_append (seen : List K) (l l' : List A) :
    firsts key seen (l ++ l') = firsts key seen l ++ firsts key (l.map key ++ seen) l' := by
  induction l generalizing seen with
  | nil => rfl
  | cons a l ih =>
      have hsame : ∀ k, k ∈ l.map key ++ key a :: seen ↔ k ∈ (a :: l).map key ++ seen := by
        intro k
        simp only [List.mem_append, List.mem_cons, List.map_cons]
        tauto
      rw [List.cons_append, firsts_cons, firsts_cons, ih, firsts_congr hsame, List.append_assoc]

theorem firsts_map (f : B → A) (seen : List K) (l : List B) :
    firsts key seen (l.map f) = (firsts (fun b => key (f b)) seen l).map f := by
  induction l generalizing seen with
  | nil => rfl
  | cons b l ih =>
      rw [List.map_cons, firsts_cons, firsts_cons, ih, List.map_append]
      split <;> rfl

theorem firsts_sublist (seen : List K) (l : List A) : (firsts key seen l).Sublist l := by
  induction l generalizing seen with
  | nil => exact List.nil_sublist _
  | cons a l ih =>
      rw [firsts_cons]
      split
      · exact (ih _).cons a
      · exact (ih _).cons_cons a

/-- No key is lost. -/
theorem mem_keys_firsts (seen : List K) (l : List A) (k : K) :
    k ∈ (firsts key seen l).map key ++ seen ↔ k ∈ l.map key ++ seen := by
  induction l generalizing seen with
  | nil => rfl
  | cons a l ih =>
      have htail := ih (key a :: seen)
      simp only [firsts_cons, List.map_append, List.map_cons, List.mem_append, List.mem_cons] at htail ⊢
      by_cases hk : k = key a
      · -- the key of the head: it is kept, or was seen before
        have hhead : k ∈ (if key a ∈ seen then [] else [a]).map key ∨ k ∈ seen := by
          split
          · exact .inr (hk ▸ ‹_›)
          · exact .inl (List.mem_singleton.mpr hk)
        exact iff_of_true (hhead.imp_left .inl) (.inl (.inl hk))
      · have hhead : k ∉ (if key a ∈ seen then [] else [a]).map key := by
          split
          · exact List.not_mem_nil
          · exact fun hmem => hk (List.mem_singleton.mp hmem)
        simpa only [hk, hhead, false_or] using htail

/-- The second time nothing is dropped. -/
theorem firsts_firsts (seen : List K) (l : List A) :
    firsts key seen (firsts key seen l) = firsts key seen l := by
  induction l generalizing seen with
  | nil => rfl
  | cons a l ih =>
      rw [firsts_cons]
      by_cases hseen : key a ∈ seen
      · have hsame : ∀ k, k ∈ key a :: seen ↔ k ∈ seen := by
          intro k
          rw [List.mem_cons, or_iff_right_iff_imp]
          rintro rfl
          exact hseen
        rw [if_pos hseen, List.nil_append, firsts_congr hsame, ih]
      · rw [if_neg hseen, List.singleton_append, firsts_cons, if_neg hseen, ih, List.singleton_append]

end ConfidenceResolver
