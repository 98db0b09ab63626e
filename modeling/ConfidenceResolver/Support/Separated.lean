import Mathlib.Data.List.Basic
import Mathlib.Logic.Function.Basic

/-!
# Support — codes and separators

Words that are written one after another, and read back.

* `PrefixCode`: no letter's word starts another's, so a text of such words has one reading.
* `prefix_separated`, `separated_inj`: two fields without the separator, in front of a separator,
  agree as soon as the texts do.
* `prefix_of_splitOn`: texts compared field by field.
* `Apart`: words of which neither starts the other.
-/

namespace ConfidenceResolver

variable {A B : Type*}

/-- A code whose words can be told from their beginnings. -/
structure PrefixCode (code : A → List B) : Prop where
  ne_nil (a : A) : code a ≠ []
  head {a b : A} {s t : List B} : code a ++ s = code b ++ t → a = b

/-- A text is read in one way. -/
theorem PrefixCode.flatMap_injective {code : A → List B} (h : PrefixCode code) :
    Function.Injective fun l : List A => l.flatMap code := by
  intro l
  induction l with
  | nil =>
      rintro (_ | ⟨b, l'⟩) heq
      · rfl
      · exact absurd (List.append_eq_nil_iff.mp heq.symm).1 (h.ne_nil b)
  | cons a l ih =>
      rintro (_ | ⟨b, l'⟩) heq
      · exact absurd (List.append_eq_nil_iff.mp heq).1 (h.ne_nil a)
      · simp only [List.flatMap_cons] at heq
        obtain rfl := h.head heq
        exact congrArg _ (ih (List.append_cancel_left heq))

variable {sep : A} {a a' s t : List A}

/-- A text that starts another has the same first field. -/
theorem prefix_separated (h : sep ∉ a) (h' : sep ∉ a') :
    a ++ sep :: s <+: a' ++ sep :: t ↔ a = a' ∧ s <+: t := by
  constructor
  · intro hprefix
    induction a generalizing a' with
    | nil =>
        cases a' with
        | nil => exact ⟨rfl, (List.cons_prefix_cons.mp hprefix).2⟩
        | cons b a' =>
            obtain rfl := (List.cons_prefix_cons.mp hprefix).1
            exact absurd List.mem_cons_self h'
    | cons b a ih =>
        cases a' with
        | nil =>
            obtain rfl := (List.cons_prefix_cons.mp hprefix).1
            exact absurd List.mem_cons_self h
        | cons c a' =>
            obtain ⟨rfl, hrest⟩ := List.cons_prefix_cons.mp hprefix
            obtain ⟨rfl, hst⟩ := ih (fun hmem => h (List.mem_cons_of_mem _ hmem))
              (fun hmem => h' (List.mem_cons_of_mem _ hmem)) hrest
            exact ⟨rfl, hst⟩
  · rintro ⟨rfl, hst⟩
    exact (List.prefix_append_right_inj _).mpr ((List.prefix_cons_inj sep).mpr hst)

/-- Texts that agree have the same first field and the same rest. -/
theorem separated_inj (h : sep ∉ a) (h' : sep ∉ a') :
    a ++ sep :: s = a' ++ sep :: t ↔ a = a' ∧ s = t := by
  constructor
  · intro heq
    have hprefix : a ++ sep :: s <+: a' ++ sep :: t := heq ▸ List.prefix_refl _
    obtain ⟨rfl, -⟩ := (prefix_separated h h').mp hprefix
    exact ⟨rfl, List.tail_eq_of_cons_eq (List.append_cancel_left heq)⟩
  · rintro ⟨rfl, rfl⟩
    rfl

/-! ### Fields -/

theorem prefix_intercalate {w : List A} {ls ms : List (List A)} (h : ls <+: ms) :
    w.intercalate ls <+: w.intercalate ms := by
  induction ls generalizing ms with
  | nil => exact List.nil_prefix
  | cons l ls ih =>
      obtain ⟨m, ms, rfl⟩ := List.exists_cons_of_ne_nil (List.ne_nil_of_length_pos
        (Nat.lt_of_lt_of_le (Nat.succ_pos _) h.length_le))
      obtain ⟨rfl, hrest⟩ := List.cons_prefix_cons.mp h
      cases ls with
      | nil =>
          cases ms with
          | nil => exact List.prefix_rfl
          | cons m ms =>
              rw [List.intercalate_singleton, List.intercalate_cons_cons, List.append_assoc]
              exact List.prefix_append _ _
      | cons l' ls =>
          have hms : ms ≠ [] := fun hnil => by simp [hnil] at hrest
          rw [List.intercalate_cons_of_ne_nil (List.cons_ne_nil _ _),
            List.intercalate_cons_of_ne_nil hms]
          exact (List.prefix_append_right_inj _).mpr (ih hrest)

/-- A text whose fields are the first fields of another starts it. -/
theorem prefix_of_splitOn [BEq A] [LawfulBEq A] (h : s.splitOn sep <+: t.splitOn sep) :
    s <+: t := by
  have hjoin := prefix_intercalate (w := [sep]) h
  rwa [List.intercalate_splitOn, List.intercalate_splitOn] at hjoin

/-- Neither word starts the other. -/
def Apart (s t : List A) : Prop := ¬ s <+: t ∧ ¬ t <+: s

@[simp] theorem not_apart_nil : ¬ Apart s [] := fun h => h.2 List.nil_prefix

@[simp] theorem not_nil_apart : ¬ Apart [] s := fun h => h.1 List.nil_prefix

@[simp] theorem apart_cons_cons {x y : A} : Apart (x :: s) (y :: t) ↔ (x = y → Apart s t) := by
  simp only [Apart, List.cons_prefix_cons]
  by_cases hxy : x = y
  · simp [hxy]
  · simp [hxy, Ne.symm hxy]

end ConfidenceResolver
