import Mathlib.Data.List.Pairwise
import Mathlib.Order.Lattice

/-!
# Support — maps in the order of their keys

A map as the list of its entries, ascending in the key, so that a fold over it visits the smaller
key first.

* `insert` keeps the order; `ofPairs` builds the map a list of pairs stands for.
* `lookup_ofPairs`: it has the values that the list has.
* `write`: put pairs in one after the other.  `mem_write_iff`: where no two of them disagree, the
  map has the pairs, and `write_congr`: their order does not matter.
* `foldl_established`: what the visit of one key establishes, and no visit of a greater key
  disturbs, holds after the fold.
-/

namespace ConfidenceResolver

structure SortedMap (K V : Type*) [LT K] where
  entries : List (K × V)
  ascending : entries.Pairwise fun a b => a.1 < b.1

namespace SortedMap

variable {K V : Type*} [LinearOrder K]

/-- Put `(k, v)` in its place among the entries, in place of the entry of `k`. -/
def place (k : K) (v : V) : List (K × V) → List (K × V)
  | [] => [(k, v)]
  | e :: es =>
      if k < e.1 then (k, v) :: e :: es
      else if e.1 < k then e :: place k v es
      else (k, v) :: es

theorem mem_place {k : K} {v : V} {es : List (K × V)} {e : K × V} (h : e ∈ place k v es) :
    e = (k, v) ∨ e ∈ es := by
  induction es with
  | nil => exact .inl (List.mem_singleton.mp h)
  | cons a es ih =>
      rw [place] at h
      split at h
      · exact List.mem_cons.mp h
      · split at h
        · rcases List.mem_cons.mp h with rfl | h
          · exact .inr List.mem_cons_self
          · exact (ih h).imp_right (List.mem_cons_of_mem _)
        · exact (List.mem_cons.mp h).imp_right (List.mem_cons_of_mem _)

theorem place_ascending (k : K) (v : V) {es : List (K × V)}
    (h : es.Pairwise fun a b => a.1 < b.1) : (place k v es).Pairwise fun a b => a.1 < b.1 := by
  induction es with
  | nil => exact List.pairwise_singleton _ _
  | cons e es ih =>
      obtain ⟨he, hes⟩ := List.pairwise_cons.mp h
      rw [place]
      split
      · rename_i hk
        refine List.pairwise_cons.mpr ⟨fun a ha => ?_, h⟩
        rcases List.mem_cons.mp ha with rfl | ha
        · exact hk
        · exact hk.trans (he a ha)
      · split
        · rename_i hk
          refine List.pairwise_cons.mpr ⟨fun a ha => ?_, ih hes⟩
          rcases mem_place ha with rfl | ha
          · exact hk
          · exact he a ha
        · rename_i hk hk'
          have hkey : k = e.1 := le_antisymm (not_lt.mp hk') (not_lt.mp hk)
          exact List.pairwise_cons.mpr ⟨fun a ha => hkey ▸ he a ha, hes⟩

def empty : SortedMap K V := ⟨[], List.Pairwise.nil⟩

def insert (m : SortedMap K V) (k : K) (v : V) : SortedMap K V :=
  ⟨place k v m.entries, place_ascending k v m.ascending⟩

/-- The map of a list of pairs; of two pairs with one key the first counts. -/
def ofPairs (l : List (K × V)) : SortedMap K V := l.foldr (fun e m => m.insert e.1 e.2) empty

/-! ### Looking up -/

theorem lookup_cons (k : K) (e : K × V) (es : List (K × V)) :
    (e :: es).lookup k = if k = e.1 then some e.2 else es.lookup k := by
  obtain ⟨a, b⟩ := e
  rw [List.lookup_cons]
  by_cases hk : k = a
  · rw [beq_iff_eq.mpr hk, if_pos hk]
  · rw [beq_false_of_ne hk, if_neg hk]

theorem lookup_place (k k' : K) (v : V) (es : List (K × V)) :
    (place k v es).lookup k' = if k' = k then some v else es.lookup k' := by
  induction es with
  | nil => exact lookup_cons k' (k, v) []
  | cons e es ih =>
      rw [place]
      split
      · exact lookup_cons k' (k, v) (e :: es)
      · split
        · rename_i hk
          rw [lookup_cons, lookup_cons, ih]
          split
          · rename_i hk'
            rw [if_neg (hk' ▸ hk.ne)]
          · rfl
        · rename_i hk hk'
          have hkey : k = e.1 := le_antisymm (not_lt.mp hk') (not_lt.mp hk)
          rw [lookup_cons, lookup_cons, hkey]
          split <;> rfl

theorem lookup_ofPairs (l : List (K × V)) (k : K) :
    (ofPairs l).entries.lookup k = l.lookup k := by
  induction l with
  | nil => rfl
  | cons e l ih =>
      rw [show (ofPairs (e :: l)).entries = place e.1 e.2 (ofPairs l).entries from rfl,
        lookup_place, ih, lookup_cons]

theorem mem_entries_iff {m : SortedMap K V} {k : K} {v : V} :
    (k, v) ∈ m.entries ↔ m.entries.lookup k = some v := by
  obtain ⟨es, h⟩ := m
  induction es with
  | nil => simp
  | cons e es ih =>
      obtain ⟨he, hes⟩ := List.pairwise_cons.mp h
      rw [lookup_cons, List.mem_cons]
      split
      · rename_i hk
        -- no later entry has this key
        have hlater : (k, v) ∉ es := fun hmem => (he _ hmem).ne hk.symm
        rw [or_iff_left hlater, Prod.ext_iff, and_iff_right hk, Option.some.injEq, eq_comm]
      · rename_i hk
        rw [or_iff_right fun h => hk (congrArg Prod.fst h)]
        exact ih hes

/-- A map made of pairs has no other entries. -/
theorem mem_ofPairs {l : List (K × V)} {e : K × V} (h : e ∈ (ofPairs l).entries) : e ∈ l := by
  have hlookup := mem_entries_iff.mp h
  rw [lookup_ofPairs] at hlookup
  obtain ⟨l₁, l₂, hl, -⟩ := List.lookup_eq_some_iff.mp hlookup
  exact hl ▸ List.mem_append_right _ List.mem_cons_self

/-- A map is what it has. -/
theorem ext_mem {m m' : SortedMap K V} (h : ∀ e, e ∈ m.entries ↔ e ∈ m'.entries) : m = m' := by
  obtain ⟨es, hes⟩ := m
  obtain ⟨es', hes'⟩ := m'
  have hnodup : ∀ {l : List (K × V)}, (l.Pairwise fun a b => a.1 < b.1) → l.Nodup := fun hl =>
    hl.imp fun hlt => ne_of_apply_ne Prod.fst hlt.ne
  have hperm : es.Perm es' := (List.perm_ext_iff_of_nodup (hnodup hes) (hnodup hes')).mpr h
  congr 1
  exact hperm.eq_of_pairwise (fun _ _ _ _ hab hba => absurd hab (lt_asymm hba)) hes hes'

/-! ### Writing -/

/-- Put pairs in one after the other. -/
def write (m : SortedMap K V) (l : List (K × V)) : SortedMap K V :=
  l.foldl (fun m e => m.insert e.1 e.2) m

theorem write_append (m : SortedMap K V) (l l' : List (K × V)) :
    m.write (l ++ l') = (m.write l).write l' := List.foldl_append

/-- No two pairs have one key and different values. -/
def Consistent (l : List (K × V)) : Prop := ∀ k v v', (k, v) ∈ l → (k, v') ∈ l → v = v'

theorem lookup_insert (m : SortedMap K V) (k k' : K) (v : V) :
    (m.insert k v).entries.lookup k' = if k' = k then some v else m.entries.lookup k' :=
  lookup_place k k' v m.entries

/-- What is found was put in, or was there. -/
theorem mem_of_mem_write {l : List (K × V)} :
    ∀ {m : SortedMap K V} {e : K × V}, e ∈ (m.write l).entries → e ∈ l ∨ e ∈ m.entries := by
  induction l with
  | nil =>
      intro m e he
      exact .inr he
  | cons a l ih =>
      intro m e he
      obtain hl | hm := ih (m := m.insert a.1 a.2) he
      · exact .inl (List.mem_cons_of_mem a hl)
      · obtain rfl | hm := mem_place hm
        · exact .inl List.mem_cons_self
        · exact .inr hm

/-- A key that was put in is found. -/
theorem isSome_lookup_write {l : List (K × V)} {k : K} :
    ∀ {m : SortedMap K V}, ((∃ v, (k, v) ∈ l) ∨ (m.entries.lookup k).isSome) →
      ((m.write l).entries.lookup k).isSome := by
  induction l with
  | nil =>
      intro m h
      obtain ⟨v, hv⟩ | hm := h
      · cases hv
      · exact hm
  | cons a l ih =>
      intro m h
      apply ih (m := m.insert a.1 a.2)
      rw [lookup_insert]
      by_cases hk : k = a.1
      · exact .inr (by rw [if_pos hk]; rfl)
      · rw [if_neg hk]
        refine h.imp_left fun ⟨v, hv⟩ => ⟨v, ?_⟩
        rcases List.mem_cons.mp hv with rfl | hv
        · exact absurd rfl hk
        · exact hv

/-- **Where no two pairs disagree, the map has the pairs.** -/
theorem mem_write_iff {l : List (K × V)} (h : Consistent l) (e : K × V) :
    e ∈ (empty.write l).entries ↔ e ∈ l := by
  constructor
  · intro he
    exact (mem_of_mem_write he).resolve_right List.not_mem_nil
  · intro he
    obtain ⟨k, v⟩ := e
    have hsome := isSome_lookup_write (m := empty) (.inl ⟨v, he⟩)
    obtain ⟨v', hv'⟩ := Option.isSome_iff_exists.mp hsome
    have hmem := mem_entries_iff.mpr hv'
    have hl := (mem_of_mem_write hmem).resolve_right List.not_mem_nil
    exact h k v v' he hl ▸ hmem

/-- **And their order does not matter.** -/
theorem write_congr {l l' : List (K × V)} (h : Consistent l) (hmem : ∀ e, e ∈ l ↔ e ∈ l') :
    (empty : SortedMap K V).write l = empty.write l' := by
  have h' : Consistent l' := fun k v v' hv hv' => h k v v' ((hmem _).mpr hv) ((hmem _).mpr hv')
  apply ext_mem
  intro e
  rw [mem_write_iff h, mem_write_iff h', hmem]

/-- The pair that is put in last is found. -/
theorem mem_write_last (m : SortedMap K V) (l : List (K × V)) (e : K × V) :
    e ∈ (m.write (l ++ [e])).entries := by
  apply mem_entries_iff.mpr
  rw [write_append]
  exact (lookup_insert (m.write l) e.1 e.1 e.2).trans (if_pos rfl)

/-! ### Folding -/

/-- What the visit of `k` establishes, and no visit of a greater key disturbs, holds after the
fold. -/
theorem foldl_established {S : Type*} (m : SortedMap K V) {step : S → K × V → S} {P : S → Prop}
    {k : K} {v : V} (hmem : (k, v) ∈ m.entries) (hstep : ∀ s, P (step s (k, v)))
    (hkeep : ∀ s, ∀ e ∈ m.entries, k < e.1 → P s → P (step s e)) (s : S) :
    P (m.entries.foldl step s) := by
  obtain ⟨before, after, hsplit⟩ := List.append_of_mem hmem
  have hlater : ∀ e ∈ after, k < e.1 := by
    have hasc := m.ascending
    rw [hsplit] at hasc
    exact (List.pairwise_cons.mp (List.pairwise_append.mp hasc).2.1).1
  rw [hsplit, List.foldl_append, List.foldl_cons]
  refine List.foldlRecOn after step (hstep _) fun s hs e he => ?_
  exact hkeep s e (hsplit ▸ List.mem_append_right _ (List.mem_cons_of_mem _ he)) (hlater e he) hs

end SortedMap

end ConfidenceResolver
