import Mathlib.Algebra.BigOperators.Group.List.Basic
import Mathlib.Algebra.Ring.Nat
import Mathlib.Data.List.Induction
import Mathlib.Data.List.Nodup

/-!
# Support — hash maps

A map as the list of its entries, one for each key.  A hash map is iterated in no specified order;
here that order is the list's, and what follows speaks of keys only.

* `get?`, `insert`, `retain`, and `upsert` for an entry that is made when it is missing.
* `get?_foldl_upsert`: filling a map from a list folds, at each key, the elements of that key.
* `filter_entries`: the entries of one key are the value found.
-/

namespace ConfidenceResolver

structure HashMap (K V : Type*) where
  entries : List (K × V)
  nodup : (entries.map Prod.fst).Nodup

namespace HashMap

variable {K V A : Type*} [DecidableEq K]

def empty : HashMap K V := ⟨[], List.nodup_nil⟩

def get? (m : HashMap K V) (k : K) : Option V := (m.entries.find? fun e => e.1 = k).map (·.2)

/-- Keep the entries that satisfy `p`. -/
def retain (m : HashMap K V) (p : K → V → Bool) : HashMap K V where
  entries := m.entries.filter fun e => p e.1 e.2
  nodup := m.nodup.sublist (List.filter_sublist.map _)

def insert (m : HashMap K V) (k : K) (v : V) : HashMap K V where
  entries := (k, v) :: (m.retain fun k' _ => k' ≠ k).entries
  nodup := by
    rw [List.map_cons, List.nodup_cons]
    refine ⟨fun h => ?_, (m.retain _).nodup⟩
    obtain ⟨e, he, hk⟩ := List.mem_map.mp h
    simp only [retain, List.mem_filter, decide_eq_true_eq] at he
    exact he.2 hk

/-- Change the value of `k`, from `default` where there is none. -/
def upsert (m : HashMap K V) (k : K) (default : V) (f : V → V) : HashMap K V :=
  m.insert k (f ((m.get? k).getD default))

/-! ### Looking up -/

@[simp] theorem get?_empty (k : K) : (empty : HashMap K V).get? k = none := rfl

theorem mem_entries {m : HashMap K V} {k : K} {v : V} :
    (k, v) ∈ m.entries ↔ m.get? k = some v := by
  rw [get?, Option.map_eq_some_iff]
  constructor
  · intro h
    refine ⟨(k, v), ?_, rfl⟩
    obtain ⟨l, r, hl⟩ := List.append_of_mem h
    have hnodup := m.nodup
    rw [hl, List.map_append, List.map_cons, List.nodup_middle, List.nodup_cons] at hnodup
    have hnone : ∀ e ∈ l, e.1 ≠ k := by
      intro e he hk
      exact hnodup.1 (List.mem_append_left _ (List.mem_map.mpr ⟨e, he, hk⟩))
    rw [hl, List.find?_append, List.find?_eq_none.mpr (by simpa using hnone)]
    simp
  · rintro ⟨e, he, rfl⟩
    have hk : e.1 = k := by simpa using List.find?_some he
    rw [← hk]
    exact List.mem_of_find?_eq_some he

theorem get?_retain (m : HashMap K V) (p : K → V → Bool) (k : K) :
    (m.retain p).get? k = (m.get? k).filter (p k) := by
  ext v
  rw [← mem_entries, Option.filter_eq_some_iff, ← mem_entries]
  simp [retain]

theorem get?_insert (m : HashMap K V) (k k' : K) (v : V) :
    (m.insert k v).get? k' = if k = k' then some v else m.get? k' := by
  by_cases h : k = k'
  · simp [get?, insert, h]
  · have hne : k' ≠ k := fun h' => h h'.symm
    have hrest := get?_retain m (fun x _ => decide (x ≠ k)) k'
    rw [if_neg h]
    have hcons : (m.insert k v).get? k' = (m.retain fun x _ => decide (x ≠ k)).get? k' := by
      simp [get?, insert, h]
    rw [hcons, hrest]
    cases m.get? k' <;> simp [hne]

theorem get?_upsert (m : HashMap K V) (k k' : K) (default : V) (f : V → V) :
    (m.upsert k default f).get? k' =
      if k = k' then some (f ((m.get? k').getD default)) else m.get? k' := by
  rw [upsert, get?_insert]
  by_cases h : k = k'
  · rw [if_pos h, if_pos h, h]
  · rw [if_neg h, if_neg h]

theorem insert_insert (m : HashMap K V) (k : K) (v v' : V) :
    (m.insert k v).insert k v' = m.insert k v' := by
  simp [insert, retain]

/-- A new key adds an entry. -/
theorem entries_insert {m : HashMap K V} {k : K} (h : m.get? k = none) (v : V) :
    (m.insert k v).entries = (k, v) :: m.entries := by
  have hkeep : m.entries.filter (fun e => decide (e.1 ≠ k)) = m.entries := by
    refine List.filter_eq_self.mpr fun e he => ?_
    obtain ⟨k', v'⟩ := e
    have hne : k' ≠ k := by
      rintro rfl
      rw [mem_entries.mp he] at h
      cases h
    simpa using hne
  exact congrArg ((k, v) :: ·) hkeep

/-- Changing a value twice. -/
theorem upsert_upsert (m : HashMap K V) (k : K) (default : V) (f g : V → V) :
    (m.upsert k default f).upsert k default g = m.upsert k default fun v => g (f v) := by
  rw [upsert, get?_upsert, if_pos rfl, Option.getD_some, upsert, insert_insert, upsert]

/-! ### Filling a map -/

/-- **Filling a map** folds at each key the elements of that key. -/
theorem get?_foldl_upsert (key : A → K) (default : V) (f : V → A → V) (k : K) (l : List A) :
    ∀ m : HashMap K V,
      (l.foldl (fun m a => m.upsert (key a) default fun v => f v a) m).get? k =
        if ∃ a ∈ l, key a = k then
          some ((l.filter fun a => key a = k).foldl f ((m.get? k).getD default))
        else m.get? k := by
  induction l with
  | nil => simp
  | cons a l ih =>
      intro m
      rw [List.foldl_cons, ih, get?_upsert]
      by_cases hk : key a = k
      · by_cases hl : ∃ b ∈ l, key b = k
        · simp [hk, hl]
        · have hnil : l.filter (fun b => key b = k) = [] := by simpa using hl
          simp [hk, hl, hnil]
      · simp [hk]

/-- The value found after filling an empty map, where `default` stands for none. -/
theorem getD_foldl_upsert (key : A → K) (default : V) (f : V → A → V) (k : K) (l : List A) :
    ((l.foldl (fun m a => m.upsert (key a) default fun v => f v a) empty).get? k).getD default =
      (l.filter fun a => key a = k).foldl f default := by
  rw [get?_foldl_upsert]
  by_cases hl : ∃ a ∈ l, key a = k
  · simp [hl]
  · have hnil : l.filter (fun a => key a = k) = [] := by simpa using hl
    simp [hl, hnil]

/-- After insertions only, the last one of a key is found. -/
theorem get?_foldl_insert (key : A → K) (g : A → V) (k : K) (l : List A) (m : HashMap K V) :
    (l.foldl (fun m a => m.insert (key a) (g a)) m).get? k =
      ((l.filter fun a => key a = k).getLast?.map g).or (m.get? k) := by
  induction l using List.reverseRecOn with
  | nil => rfl
  | append_singleton l a ih =>
      rw [List.foldl_append, List.foldl_cons, List.foldl_nil, get?_insert, ih]
      by_cases h : key a = k <;> simp [h]

/-! ### Filled maps -/

theorem insert_ne_nil (m : HashMap K V) (k : K) (v : V) : (m.insert k v).entries ≠ [] :=
  List.cons_ne_nil _ _

/-- A map that is filled from a list has an entry if it had one, or if the list is not empty. -/
theorem foldl_insert_ne_nil (key : A → K) (value : HashMap K V → A → V) (l : List A)
    (m : HashMap K V) (h : m.entries ≠ [] ∨ l ≠ []) :
    (l.foldl (fun m a => m.insert (key a) (value m a)) m).entries ≠ [] := by
  induction l generalizing m with
  | nil => exact h.resolve_right fun hne => hne rfl
  | cons a l ih => exact ih _ (.inl (insert_ne_nil m _ _))

/-! ### The entries of a key -/

/-- In a list with distinct keys, the elements with the key of one of them. -/
theorem filter_key_eq {A K : Type*} [DecidableEq K] {key : A → K} {l : List A}
    (hnodup : (l.map key).Nodup) {a : A} (ha : a ∈ l) :
    l.filter (fun b => key b = key a) = [a] := by
  induction l with
  | nil => exact absurd ha List.not_mem_nil
  | cons b l ih =>
      rw [List.map_cons, List.nodup_cons] at hnodup
      obtain rfl | ha := List.mem_cons.mp ha
      · have hnone : l.filter (fun b => key b = key a) = [] :=
          List.filter_eq_nil_iff.mpr fun c hc => by
            rw [decide_eq_true_eq]
            exact fun heq => hnodup.1 (heq ▸ List.mem_map_of_mem hc)
        rw [List.filter_cons, if_pos (decide_eq_true rfl), hnone]
      · have hne : ¬ key b = key a := fun heq => hnodup.1 (heq ▸ List.mem_map_of_mem ha)
        rw [List.filter_cons, if_neg (by simpa using hne), ih hnodup.2 ha]

/-- The entries of one key: the value found, if any. -/
theorem filter_entries (m : HashMap K V) (k : K) :
    m.entries.filter (fun e => e.1 = k) = (m.get? k).toList.map (Prod.mk k) := by
  cases hget : m.get? k with
  | none =>
      simp only [Option.toList_none, List.map_nil, List.filter_eq_nil_iff, decide_eq_true_eq]
      rintro ⟨k', v⟩ he rfl
      rw [mem_entries, hget] at he
      cases he
  | some v => exact filter_key_eq m.nodup (mem_entries.mpr hget)

/-- Entries written out as records that carry their key. -/
theorem filter_map_entries {B : Type*} (m : HashMap K V) (g : K → V → B) (key : B → K)
    (hkey : ∀ k v, key (g k v) = k) (k : K) :
    (m.entries.map fun e => g e.1 e.2).filter (fun b => key b = k) =
      (m.get? k).toList.map (g k) := by
  have hfilter : (m.entries.map fun e => g e.1 e.2).filter (fun b => key b = k) =
      (m.entries.filter fun e => e.1 = k).map fun e => g e.1 e.2 := by
    rw [List.filter_map]
    simp only [Function.comp_def, hkey]
  rw [hfilter, filter_entries, List.map_map]
  rfl

end HashMap

end ConfidenceResolver
