import Mathlib.Algebra.Ring.Nat
import Mathlib.Algebra.BigOperators.Group.List.Basic
import Mathlib.Data.List.Sort
import Mathlib.Data.List.TakeWhile

/-!
# Support — labelled counts

A list with one count for each label.  A label that is not listed has no count, which is not the
same as a count of zero.

* `updateFirst`: change the first entry that satisfies a test.
* `addTo`: add a count under its label, keeping the list sorted by labels.
* `pushTo`: the same, with a new label at the end.
* `join`: push all entries of another list, then sort.
* `join_addAll`: joining a list that additions made is making the additions.
-/

namespace ConfidenceResolver

/-- Change the first entry that satisfies `p`; `none` where no entry does. -/
def updateFirst {E : Type*} (p : E → Bool) (f : E → E) : List E → Option (List E)
  | [] => none
  | e :: l => if p e then some (f e :: l) else (updateFirst p f l).map (e :: ·)

section UpdateFirst

variable {E : Type*} {p : E → Bool} {f : E → E}

theorem updateFirst_eq_none {l : List E} : updateFirst p f l = none ↔ ∀ e ∈ l, p e = false := by
  induction l with
  | nil => simp [updateFirst]
  | cons e l ih => by_cases h : p e <;> simp [updateFirst, h, ih]

/-- The entries around the one that changes stay as they are. -/
theorem updateFirst_eq_some {l l' : List E} (h : updateFirst p f l = some l') :
    ∃ l₁ e l₂, (∀ x ∈ l₁, p x = false) ∧ p e = true ∧ l = l₁ ++ e :: l₂ ∧ l' = l₁ ++ f e :: l₂ := by
  induction l generalizing l' with
  | nil => simp [updateFirst] at h
  | cons e l ih =>
      by_cases he : p e
      · simp only [updateFirst, he, if_true, Option.some.injEq] at h
        exact ⟨[], e, l, by simp, he, rfl, h.symm⟩
      · simp only [updateFirst, he, Bool.false_eq_true, if_false, Option.map_eq_some_iff] at h
        obtain ⟨l'', hl'', rfl⟩ := h
        obtain ⟨l₁, x, l₂, h₁, hx, rfl, rfl⟩ := ih hl''
        refine ⟨e :: l₁, x, l₂, ?_, hx, rfl, rfl⟩
        simpa [he] using h₁

/-- A change that adds `δ` to a weight of the entry, as long as it stays below `B`, adds it to the
sum. -/
theorem sum_updateFirst {w : E → Nat} {δ B : Nat}
    (hf : ∀ e, p e = true → w e + δ < B → w (f e) = w e + δ) {l l' : List E}
    (h : updateFirst p f l = some l') (hB : (l.map w).sum + δ < B) :
    (l'.map w).sum = (l.map w).sum + δ := by
  obtain ⟨l₁, e, l₂, -, he, rfl, rfl⟩ := updateFirst_eq_some h
  simp only [List.map_append, List.map_cons, List.sum_append, List.sum_cons] at hB ⊢
  rw [hf e he (by omega)]
  omega

/-- A change that keeps a reading of every entry. -/
theorem map_updateFirst {K : Type*} (key : E → K) {l l' : List E}
    (h : updateFirst p f l = some l') (hf : ∀ e, key (f e) = key e) : l'.map key = l.map key := by
  obtain ⟨l₁, e, l₂, -, -, rfl, rfl⟩ := updateFirst_eq_some h
  simp [hf]

end UpdateFirst

/-- A count under a label. -/
structure Labelled (K M : Type*) where
  labels : K
  count : M
deriving DecidableEq, Repr

namespace Labelled

variable {K M : Type*} [LinearOrder K]

/-- Every label once, in increasing order. -/
def Sorted (l : List (Labelled K M)) : Prop := l.Pairwise fun a b => a.labels < b.labels

/-- The count listed for `k`. -/
def lookup (k : K) (l : List (Labelled K M)) : Option M :=
  (l.find? fun e => e.labels = k).map (·.count)

/-- Before the first entry whose label is not below. -/
def insertSorted (e : Labelled K M) (l : List (Labelled K M)) : List (Labelled K M) :=
  l.takeWhile (fun x => x.labels < e.labels) ++ e :: l.dropWhile (fun x => x.labels < e.labels)

/-! ### The label set -/

theorem lookup_eq_none {k : K} {l : List (Labelled K M)} :
    lookup k l = none ↔ ∀ e ∈ l, e.labels ≠ k := by
  simp [lookup]

theorem lookup_isSome {k : K} {l : List (Labelled K M)} :
    (lookup k l).isSome ↔ ∃ e ∈ l, e.labels = k := by
  simp [lookup]

/-- With every label once, the entries are the counts found. -/
theorem mem_iff_lookup {l : List (Labelled K M)} (h : (l.map (·.labels)).Nodup) {e : Labelled K M} :
    e ∈ l ↔ lookup e.labels l = some e.count := by
  induction l with
  | nil => simp [lookup]
  | cons x l ih =>
      rw [List.map_cons, List.nodup_cons] at h
      by_cases hx : x.labels = e.labels
      · have hmem : e ∉ l := fun he => h.1 (hx ▸ List.mem_map_of_mem he)
        simp only [lookup, List.find?_cons, hx, decide_true, Option.map_some, Option.some.injEq,
          List.mem_cons, hmem, or_false]
        constructor
        · rintro rfl
          rfl
        · intro hcount
          cases e
          cases x
          simp_all
      · have hne : e ≠ x := fun he => hx (he ▸ rfl)
        simpa [lookup, List.find?_cons, hx, hne] using ih h.2

theorem Sorted.nodup {l : List (Labelled K M)} (h : Sorted l) : (l.map (·.labels)).Nodup :=
  (List.pairwise_map.mpr h).imp ne_of_lt

/-- A sorted list is what it lists. -/
theorem Sorted.ext {l l' : List (Labelled K M)} (h : Sorted l) (h' : Sorted l')
    (hlookup : ∀ k, lookup k l = lookup k l') : l = l' := by
  have hperm : l.Perm l' := by
    refine (List.perm_ext_iff_of_nodup h.nodup.of_map h'.nodup.of_map).mpr fun e => ?_
    rw [mem_iff_lookup h.nodup, mem_iff_lookup h'.nodup, hlookup]
  exact hperm.eq_of_pairwise (fun a b _ _ hab hba => absurd hab (lt_asymm hba)) h h'

theorem lookup_perm {l l' : List (Labelled K M)} (h : l.Perm l') (hl : (l.map (·.labels)).Nodup)
    (k : K) : lookup k l = lookup k l' := by
  have hl' : (l'.map (·.labels)).Nodup := (h.map _).nodup_iff.mp hl
  ext m
  have := h.mem_iff (a := (⟨k, m⟩ : Labelled K M))
  rw [mem_iff_lookup hl, mem_iff_lookup hl'] at this
  exact this

theorem insertSorted_perm (e : Labelled K M) (l : List (Labelled K M)) :
    (insertSorted e l).Perm (e :: l) := by
  have h := @List.perm_middle _ e (l.takeWhile fun x => x.labels < e.labels)
    (l.dropWhile fun x => x.labels < e.labels)
  rwa [List.takeWhile_append_dropWhile] at h

theorem lookup_middle {k : K} {e : Labelled K M} {l₁ l₂ : List (Labelled K M)}
    (h : ∀ x ∈ l₁, x.labels ≠ e.labels) :
    lookup k (l₁ ++ e :: l₂) = if k = e.labels then some e.count else lookup k (l₁ ++ l₂) := by
  by_cases hk : k = e.labels
  · subst hk
    have hnone : (l₁.find? fun x => x.labels = e.labels) = none := by simpa using h
    simp [lookup, List.find?_append, hnone]
  · simp [lookup, List.find?_append, hk, Ne.symm hk]

/-! ### One addition -/

variable [AddCommMonoid M]

/-- The sum of the counts of `k` in a list that may name it many times. -/
def sumAt (k : K) (es : List (Labelled K M)) : M :=
  ((es.filter fun e => e.labels = k).map (·.count)).sum

def bump (e x : Labelled K M) : Labelled K M := { x with count := x.count + e.count }

def addTo (l : List (Labelled K M)) (e : Labelled K M) : List (Labelled K M) :=
  (updateFirst (fun x => x.labels = e.labels) (bump e) l).getD (insertSorted e l)

def pushTo (l : List (Labelled K M)) (e : Labelled K M) : List (Labelled K M) :=
  (updateFirst (fun x => x.labels = e.labels) (bump e) l).getD (l ++ [e])

def addAll (es l : List (Labelled K M)) : List (Labelled K M) := es.foldl addTo l

def join (l l' : List (Labelled K M)) : List (Labelled K M) :=
  (l'.foldl pushTo l).mergeSort fun a b => a.labels ≤ b.labels

theorem lookup_updateFirst {k : K} {e : Labelled K M} {l l' : List (Labelled K M)}
    (h : updateFirst (fun x => x.labels = e.labels) (bump e) l = some l') :
    lookup k l' = if k = e.labels then some ((lookup k l).getD 0 + e.count) else lookup k l := by
  obtain ⟨l₁, x, l₂, h₁, hx, rfl, rfl⟩ := updateFirst_eq_some h
  have hx' : x.labels = e.labels := by simpa using hx
  have h₁' : ∀ y ∈ l₁, y.labels ≠ x.labels := by simpa [hx'] using h₁
  rw [lookup_middle h₁', lookup_middle (e := bump e x) h₁']
  by_cases hk : k = e.labels <;> simp [bump, hx', hk]

/-- Wherever a new label goes, its count is found and the others stay. -/
theorem lookup_upsert {k : K} {e : Labelled K M} {l l₁ l₂ : List (Labelled K M)}
    (hl : l = l₁ ++ l₂) :
    lookup k ((updateFirst (fun x => x.labels = e.labels) (bump e) l).getD (l₁ ++ e :: l₂)) =
      if k = e.labels then some ((lookup k l).getD 0 + e.count) else lookup k l := by
  cases h : updateFirst (fun x => x.labels = e.labels) (bump e) l with
  | some l' => exact lookup_updateFirst h
  | none =>
      have hnone : ∀ x ∈ l, x.labels ≠ e.labels := by simpa using updateFirst_eq_none.mp h
      rw [Option.getD_none, lookup_middle fun x hx => hnone x (hl ▸ List.mem_append_left _ hx), ← hl]
      by_cases hk : k = e.labels
      · have hlookup : lookup k l = none := lookup_eq_none.mpr (hk ▸ hnone)
        rw [if_pos hk, if_pos hk, hlookup, Option.getD_none, zero_add]
      · rw [if_neg hk, if_neg hk]

theorem lookup_addTo (k : K) (e : Labelled K M) (l : List (Labelled K M)) :
    lookup k (addTo l e) =
      if k = e.labels then some ((lookup k l).getD 0 + e.count) else lookup k l :=
  lookup_upsert List.takeWhile_append_dropWhile.symm

theorem lookup_pushTo (k : K) (e : Labelled K M) (l : List (Labelled K M)) :
    lookup k (pushTo l e) =
      if k = e.labels then some ((lookup k l).getD 0 + e.count) else lookup k l :=
  lookup_upsert (List.append_nil l).symm

theorem sorted_addTo {l : List (Labelled K M)} (h : Sorted l) (e : Labelled K M) :
    Sorted (addTo l e) := by
  rw [addTo]
  cases hu : updateFirst (fun x => x.labels = e.labels) (bump e) l with
  | some l' =>
      have := List.pairwise_map.mpr h
      rw [← map_updateFirst labels hu fun _ => rfl] at this
      exact List.pairwise_map.mp this
  | none =>
      have hnone : ∀ x ∈ l, x.labels ≠ e.labels := by simpa using updateFirst_eq_none.mp hu
      -- the entries from the cut on are above the new label: the first by the test, the others by order
      have habove : ∀ x ∈ l.dropWhile (fun x => x.labels < e.labels), e.labels < x.labels := by
        intro x hx
        have hsub := (List.dropWhile_sublist (l := l) (fun x => decide (x.labels < e.labels)))
        have hd := h.sublist hsub
        cases hdrop : l.dropWhile (fun x => x.labels < e.labels) with
        | nil => simp [hdrop] at hx
        | cons y t =>
            rw [hdrop] at hx hd hsub
            have hy : ¬ y.labels < e.labels := by
              have := List.head_dropWhile_not (l := l) (fun x => decide (x.labels < e.labels))
                (by simp [hdrop])
              simpa [hdrop] using this
            have hy' : e.labels < y.labels :=
              lt_of_le_of_ne (not_lt.mp hy) (hnone y (hsub.subset List.mem_cons_self)).symm
            rcases List.mem_cons.mp hx with rfl | hx
            · exact hy'
            · exact hy'.trans (List.rel_of_pairwise_cons hd hx)
      rw [Option.getD_none, insertSorted]
      refine List.pairwise_append.mpr ⟨h.sublist (List.takeWhile_sublist _), ?_, fun a ha b hb => ?_⟩
      · exact List.pairwise_cons.mpr ⟨habove, h.sublist (List.dropWhile_sublist _)⟩
      · have ha' : a.labels < e.labels := by simpa using List.mem_takeWhile_imp ha
        rcases List.mem_cons.mp hb with rfl | hb
        · exact ha'
        · exact ha'.trans (habove b hb)

theorem nodup_pushTo {l : List (Labelled K M)} (h : (l.map (·.labels)).Nodup) (e : Labelled K M) :
    ((pushTo l e).map (·.labels)).Nodup := by
  rw [pushTo]
  cases hu : updateFirst (fun x => x.labels = e.labels) (bump e) l with
  | some l' => rwa [Option.getD_some, map_updateFirst labels hu fun _ => rfl]
  | none =>
      have hnone : ∀ x ∈ l, x.labels ≠ e.labels := by simpa using updateFirst_eq_none.mp hu
      rw [Option.getD_none, List.map_append, List.nodup_append]
      exact ⟨h, List.nodup_singleton _, by simpa using hnone⟩

/-! ### Many additions -/

theorem sumAt_cons (k : K) (e : Labelled K M) (es : List (Labelled K M)) :
    sumAt k (e :: es) = (if e.labels = k then e.count else 0) + sumAt k es := by
  by_cases h : e.labels = k <;> simp [sumAt, h]

/-- With every label once, the sum at a label is the count found. -/
theorem sumAt_of_nodup {es : List (Labelled K M)} (h : (es.map (·.labels)).Nodup) (k : K) :
    sumAt k es = (lookup k es).getD 0 := by
  induction es with
  | nil => rfl
  | cons e es ih =>
      rw [List.map_cons, List.nodup_cons] at h
      rw [sumAt_cons, ih h.2]
      by_cases hk : e.labels = k
      · have hnone : lookup k es = none :=
          lookup_eq_none.mpr fun x hx hxk => h.1 (hk.trans hxk.symm ▸ List.mem_map_of_mem hx)
        rw [if_pos hk, hnone, lookup, List.find?_cons_of_pos (by simpa using hk)]
        simp
      · simp [hk, lookup]

/-- Additions under the same labels with the same sums list the same counts. -/
theorem lookup_foldl {add : List (Labelled K M) → Labelled K M → List (Labelled K M)}
    (hadd : ∀ k e l, lookup k (add l e) =
      if k = e.labels then some ((lookup k l).getD 0 + e.count) else lookup k l)
    (k : K) (es : List (Labelled K M)) :
    ∀ l, lookup k (es.foldl add l) =
      if ∃ e ∈ es, e.labels = k then some ((lookup k l).getD 0 + sumAt k es) else lookup k l := by
  induction es with
  | nil => simp
  | cons e es ih =>
      intro l
      rw [List.foldl_cons, ih, hadd, sumAt_cons]
      by_cases hk : e.labels = k
      · subst hk
        by_cases h : ∃ x ∈ es, x.labels = e.labels
        · simp [h, add_assoc]
        · have hsum : sumAt e.labels es = 0 := by
            have : es.filter (fun x => x.labels = e.labels) = [] := by simpa using h
            simp [sumAt, this]
          simp [h, hsum]
      · by_cases h : ∃ x ∈ es, x.labels = k <;> simp [h, hk, Ne.symm hk]

theorem lookup_addAll (k : K) (es l : List (Labelled K M)) :
    lookup k (addAll es l) =
      if ∃ e ∈ es, e.labels = k then some ((lookup k l).getD 0 + sumAt k es) else lookup k l :=
  lookup_foldl lookup_addTo k es l

theorem sorted_addAll (es : List (Labelled K M)) :
    ∀ {l : List (Labelled K M)}, Sorted l → Sorted (addAll es l) := by
  induction es with
  | nil => exact id
  | cons e es ih => exact fun h => ih (sorted_addTo h e)

theorem addAll_congr {es es' l : List (Labelled K M)} (h : Sorted l)
    (hlabels : ∀ k, (∃ e ∈ es, e.labels = k) ↔ ∃ e ∈ es', e.labels = k)
    (hsum : ∀ k, sumAt k es = sumAt k es') : addAll es l = addAll es' l := by
  refine (sorted_addAll es h).ext (sorted_addAll es' h) fun k => ?_
  simp only [lookup_addAll, hlabels, hsum]

theorem nodup_foldl_pushTo (es : List (Labelled K M)) :
    ∀ {l : List (Labelled K M)}, (l.map (·.labels)).Nodup →
      ((es.foldl pushTo l).map (·.labels)).Nodup := by
  induction es with
  | nil => exact id
  | cons e es ih => exact fun h => ih (nodup_pushTo h e)

theorem sorted_join {l : List (Labelled K M)} (h : Sorted l) (l' : List (Labelled K M)) :
    Sorted (join l l') := by
  have hperm := List.mergeSort_perm (l'.foldl pushTo l) fun a b => a.labels ≤ b.labels
  have hnodup := (hperm.map (·.labels)).nodup_iff.mpr (nodup_foldl_pushTo l' h.nodup)
  have hle : (join l l').Pairwise fun a b => a.labels ≤ b.labels := by
    simpa [join] using @List.pairwise_mergeSort _ (fun a b => decide (a.labels ≤ b.labels))
      (fun a b c hab hbc => by simpa using le_trans (by simpa using hab) (by simpa using hbc))
      (fun a b => by simpa using le_total a.labels b.labels) (l'.foldl pushTo l)
  have hne : (join l l').Pairwise fun a b => a.labels ≠ b.labels := List.pairwise_map.mp hnodup
  exact (hle.and hne).imp fun h => lt_of_le_of_ne h.1 h.2

/-- **Joining what additions made is making the additions.** -/
theorem join_addAll {l : List (Labelled K M)} (h : Sorted l) (es : List (Labelled K M)) :
    join l (addAll es []) = addAll es l := by
  have hnil : Sorted ([] : List (Labelled K M)) := List.Pairwise.nil
  have hes := (sorted_addAll es hnil).nodup
  refine (sorted_join h _).ext (sorted_addAll es h) fun k => ?_
  have hperm := List.mergeSort_perm ((addAll es []).foldl pushTo l) fun a b => a.labels ≤ b.labels
  rw [join, ← lookup_perm hperm.symm (nodup_foldl_pushTo _ h.nodup), lookup_foldl lookup_pushTo,
    sumAt_of_nodup hes, lookup_addAll k es l]
  simp only [← lookup_isSome, lookup_addAll k es []]
  by_cases hk : ∃ e ∈ es, e.labels = k <;> simp [hk, lookup]

end Labelled

end ConfidenceResolver
