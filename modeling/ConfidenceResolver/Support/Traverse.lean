import Mathlib.Data.List.Forall2
import Mathlib.Data.List.Perm.Basic

/-!
# Support — a list of computations that may fail

`mapM` in `Except`: it succeeds when every element does.

* `bind_eq_ok`: a sequence that succeeds.
* `mapM_eq_ok`, `mapM_isOk`, `mapM_error`: when it succeeds, and when not.
* `map_of_mapM`: what is kept of each element.
* `mapM_perm`: in another order.
-/

namespace ConfidenceResolver

variable {ε α β : Type} {f : α → Except ε β}

@[simp] theorem ok_bind (a : α) (f : α → Except ε β) : (Except.ok a >>= f) = f a := rfl

/-- A sequence that succeeds: its first part succeeded, and so did the rest. -/
theorem bind_eq_ok {x : Except ε α} {f : α → Except ε β} {b : β} :
    (x >>= f) = .ok b ↔ ∃ a, x = .ok a ∧ f a = .ok b := by
  cases x with
  | error e =>
      constructor
      · intro h
        cases h
      · rintro ⟨a, h, -⟩
        cases h
  | ok a =>
      rw [ok_bind]
      constructor
      · exact fun h => ⟨a, rfl, h⟩
      · rintro ⟨a, h, hb⟩
        cases h
        exact hb

theorem mapM_cons_ok {x : α} {xs : List α} {ys : List β} :
    (x :: xs).mapM f = .ok ys ↔ ∃ y ys', f x = .ok y ∧ xs.mapM f = .ok ys' ∧ ys = y :: ys' := by
  rw [List.mapM_cons]
  rcases hx : f x with e | y
  · constructor
    · exact fun h => by cases h
    · rintro ⟨_, _, h, -⟩
      cases h
  · rcases hxs : xs.mapM f with e | zs
    · constructor
      · exact fun h => by cases h
      · rintro ⟨_, _, -, h, -⟩
        cases h
    · constructor
      · intro h
        cases h
        exact ⟨y, zs, rfl, rfl, rfl⟩
      · rintro ⟨y', ys', h, h', rfl⟩
        cases h
        cases h'
        rfl

/-- Each element, and what became of it. -/
theorem mapM_eq_ok {xs : List α} {ys : List β} :
    xs.mapM f = .ok ys ↔ List.Forall₂ (fun x y => f x = .ok y) xs ys := by
  induction xs generalizing ys with
  | nil =>
      rw [List.forall₂_nil_left_iff]
      exact ⟨fun h => (Except.ok.inj h).symm, fun h => h ▸ rfl⟩
  | cons x xs ih =>
      rw [mapM_cons_ok, List.forall₂_cons_left_iff]
      constructor
      · rintro ⟨y, ys, hy, hys, rfl⟩
        exact ⟨y, ys, hy, ih.mp hys, rfl⟩
      · rintro ⟨y, ys, hy, hys, rfl⟩
        exact ⟨y, ys, hy, ih.mpr hys, rfl⟩

theorem exists_of_forall₂ {P : α → β → Prop} {xs : List α} {ys : List β}
    (h : List.Forall₂ P xs ys) {x : α} (hx : x ∈ xs) : ∃ y ∈ ys, P x y := by
  induction h with
  | nil => exact absurd hx List.not_mem_nil
  | @cons a b xs ys hab _ ih =>
      obtain rfl | hx := List.mem_cons.mp hx
      · exact ⟨b, List.mem_cons_self, hab⟩
      · obtain ⟨y, hy, hxy⟩ := ih hx
        exact ⟨y, List.mem_cons_of_mem _ hy, hxy⟩

/-- Something for each element. -/
theorem forall₂_exists {P : α → β → Prop} {xs : List α} (h : ∀ x ∈ xs, ∃ y, P x y) :
    ∃ ys, List.Forall₂ P xs ys := by
  induction xs with
  | nil => exact ⟨[], .nil⟩
  | cons x xs ih =>
      obtain ⟨hx, hxs⟩ := List.forall_mem_cons.mp h
      obtain ⟨y, hy⟩ := hx
      obtain ⟨ys, hys⟩ := ih hxs
      exact ⟨y :: ys, .cons hy hys⟩

/-- An error of a list is the error of one of its elements. -/
theorem mapM_error {xs : List α} {e : ε} (h : xs.mapM f = .error e) : ∃ x ∈ xs, f x = .error e := by
  induction xs with
  | nil => cases h
  | cons x xs ih =>
      rw [List.mapM_cons] at h
      rcases hx : f x with e' | y <;> rw [hx] at h
      · cases h
        exact ⟨x, List.mem_cons_self, hx⟩
      · rcases hxs : xs.mapM f with e' | ys <;> rw [hxs] at h <;> cases h
        obtain ⟨x', hm, h'⟩ := ih hxs
        exact ⟨x', List.mem_cons_of_mem _ hm, h'⟩

/-- A list whose elements all succeed, in another order. -/
theorem mapM_perm {xs xs' : List α} (h : xs.Perm xs') :
    ∀ {ys : List β}, xs.mapM f = .ok ys → ∃ ys', xs'.mapM f = .ok ys' ∧ ys.Perm ys' := by
  induction h with
  | nil => exact fun h => ⟨_, h, .refl _⟩
  | cons x _ ih =>
      intro ys h
      obtain ⟨y, zs, h₁, h₂, rfl⟩ := mapM_cons_ok.mp h
      obtain ⟨zs', h₃, hp⟩ := ih h₂
      exact ⟨y :: zs', mapM_cons_ok.mpr ⟨y, zs', h₁, h₃, rfl⟩, hp.cons y⟩
  | swap x x' xs =>
      intro ys h
      obtain ⟨y, zs, h₁, h₂, rfl⟩ := mapM_cons_ok.mp h
      obtain ⟨y', zs', h₃, h₄, rfl⟩ := mapM_cons_ok.mp h₂
      exact ⟨y' :: y :: zs', mapM_cons_ok.mpr ⟨y', _, h₃, mapM_cons_ok.mpr ⟨y, zs', h₁, h₄, rfl⟩,
        rfl⟩, .swap y' y zs'⟩
  | trans _ _ ih₁ ih₂ =>
      intro ys h
      obtain ⟨zs, h₁, hp₁⟩ := ih₁ h
      obtain ⟨zs', h₂, hp₂⟩ := ih₂ h₁
      exact ⟨zs', h₂, hp₁.trans hp₂⟩

/-- A list whose elements all succeed. -/
theorem mapM_isOk {xs : List α} (h : ∀ x ∈ xs, ∃ y, f x = .ok y) : ∃ ys, xs.mapM f = .ok ys := by
  obtain ⟨ys, hys⟩ := forall₂_exists h
  exact ⟨ys, mapM_eq_ok.mpr hys⟩

/-- What `g` keeps of each element. -/
theorem map_of_mapM {γ : Type} {g : β → γ} {g' : α → γ} (hg : ∀ x y, f x = .ok y → g y = g' x)
    {xs : List α} {ys : List β} (h : xs.mapM f = .ok ys) : ys.map g = xs.map g' := by
  induction xs generalizing ys with
  | nil =>
      cases h
      rfl
  | cons x xs ih =>
      obtain ⟨y, ys, hy, hys, rfl⟩ := mapM_cons_ok.mp h
      rw [List.map_cons, List.map_cons, hg x y hy, ih hys]

theorem option_mapM_isSome {f : α → Option β} {xs : List α} :
    (xs.mapM f).isSome ↔ ∀ x ∈ xs, (f x).isSome := by
  induction xs with
  | nil => exact iff_of_true rfl (List.forall_mem_nil _)
  | cons x xs ih =>
      rw [List.mapM_cons, List.forall_mem_cons, ← ih]
      rcases f x with _ | y
      · exact iff_of_false Bool.false_ne_true fun h => Bool.false_ne_true h.1
      · rcases xs.mapM f with _ | ys
        · exact iff_of_false Bool.false_ne_true fun h => Bool.false_ne_true h.2
        · exact iff_of_true rfl ⟨rfl, rfl⟩

end ConfidenceResolver
