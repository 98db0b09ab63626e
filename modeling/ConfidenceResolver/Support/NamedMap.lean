import Mathlib.Data.List.Nodup

/-!
# Support — maps whose values carry their key

A map filled by `insert(v.name.clone(), v)` stores every value under its own name.  `NamedMap`
is such a map as the list of its values in some order: the names are pairwise distinct, and the
key of an entry cannot differ from the name in its value.
-/

namespace ConfidenceResolver

/-- A finite map from `name v` to `v`. -/
structure NamedMap (α : Type) (name : α → String) where
  values : List α
  nodup : (values.map name).Nodup

namespace NamedMap

variable {α : Type} {name : α → String}

def empty : NamedMap α name := ⟨[], List.nodup_nil⟩

def get (m : NamedMap α name) (key : String) : Option α :=
  m.values.find? fun a => name a = key

/-- Insert `a` under its name, replacing the value stored there. -/
def insert (m : NamedMap α name) (a : α) : NamedMap α name where
  values := a :: m.values.filter fun b => name b ≠ name a
  nodup := by
    rw [List.map_cons, List.nodup_cons]
    refine ⟨fun h => ?_, m.nodup.sublist (List.filter_sublist.map name)⟩
    obtain ⟨b, hb, e⟩ := List.mem_map.mp h
    simp only [List.mem_filter, decide_eq_true_eq] at hb
    exact hb.2 e

theorem get_some {m : NamedMap α name} {key : String} {a : α} (h : m.get key = some a) :
    a ∈ m.values ∧ name a = key :=
  ⟨List.mem_of_find?_eq_some h, by simpa using List.find?_some h⟩

theorem get_of_mem {m : NamedMap α name} {a : α} (h : a ∈ m.values) :
    m.get (name a) = some a := by
  obtain ⟨vs, hn⟩ := m
  simp only [get] at h ⊢
  induction vs with
  | nil => cases h
  | cons b vs ih =>
      rw [List.map_cons, List.nodup_cons] at hn
      rcases List.mem_cons.mp h with rfl | h
      · simp
      · have hne : name b ≠ name a := fun e => hn.1 (e ▸ List.mem_map_of_mem h)
        rw [List.find?_cons_of_neg (by simpa using hne)]
        exact ih hn.2 h

theorem eq_of_name {m : NamedMap α name} {a b : α} (ha : a ∈ m.values) (hb : b ∈ m.values)
    (h : name a = name b) : a = b := by
  have := get_of_mem ha
  rw [h, get_of_mem hb] at this
  exact (Option.some.inj this).symm

end NamedMap

end ConfidenceResolver
