import Mathlib.Data.Finset.Card
import Mathlib.Data.List.Nodup

/-!
# Logs — the bounded set

`BoundedSet` of `bounded_set.rs`: a hash set and at most `N` slots that list it.  An item that is
new takes the next slot; once the slots are filled a random pick names the slot whose item it
evicts, or discards it.

* `insert`: one insertion, with the pick it would draw.
* `iter_fill`: as long as at most `N` items were inserted, all of them are listed.
* `iter_subset`, `length_iter`: what is listed was inserted, and is at most `N` items.
-/

namespace ConfidenceResolver

/-- `BoundedSet`.  The slots are filled in order, so here they are the list of the filled ones. -/
structure BoundedSet (T : Type*) (N : Nat) where
  set : List T
  slots : List T
  counter : Nat
  filled : slots.length = min counter N
  nodup : slots.Nodup
  listed : ∀ x, x ∈ set ↔ x ∈ slots

namespace BoundedSet

variable {T : Type*} {N : Nat}

/-- `BoundedSet::new`. -/
def new : BoundedSet T N := ⟨[], [], 0, (Nat.zero_min N).symm, List.nodup_nil, fun _ => Iff.rfl⟩

/-- The items that `iter` yields. -/
def iter (s : BoundedSet T N) : List T := s.slots

theorem length_iter (s : BoundedSet T N) : s.iter.length ≤ N := by
  rw [iter, s.filled]
  exact min_le_right _ _

/-! ### One insertion -/

theorem not_mem_slots {s : BoundedSet T N} {item : T} (h : ¬ (N = 0 ∨ item ∈ s.set)) :
    item ∉ s.slots :=
  fun hmem => h (.inr ((s.listed item).mpr hmem))

theorem nodup_push {s : List T} {item : T} (h : s.Nodup) (hnew : item ∉ s) :
    (s ++ [item]).Nodup :=
  List.nodup_append.mpr ⟨h, List.nodup_singleton _, fun a ha b hb hab =>
    hnew (by rwa [← List.mem_singleton.mp hb, ← hab])⟩

theorem filled_push {s : BoundedSet T N} (item : T) (hroom : s.counter < N) :
    (s.slots ++ [item]).length = min (s.counter + 1) N := by
  rw [List.length_append, s.filled, List.length_singleton]
  omega

theorem listed_push (s : BoundedSet T N) (item x : T) :
    x ∈ item :: s.set ↔ x ∈ s.slots ++ [item] := by
  simp [s.listed, or_comm]

/-- The next slot. -/
def push (s : BoundedSet T N) (item : T) (hnew : item ∉ s.slots) (hroom : s.counter < N) :
    BoundedSet T N where
  set := item :: s.set
  slots := s.slots ++ [item]
  counter := s.counter + 1
  filled := filled_push item hroom
  nodup := nodup_push s.nodup hnew
  listed := listed_push s item

theorem filled_full {s : BoundedSet T N} (hfull : ¬ s.counter < N) :
    s.slots.length = min (s.counter + 1) N := by
  rw [s.filled]
  omega

theorem mem_set_of_nodup {l : List T} (h : l.Nodup) {n : Nat} (hn : n < l.length) (item x : T) :
    x ∈ l.set n item ↔ x = item ∨ (x ∈ l ∧ x ≠ l[n]) := by
  rw [List.set_eq_take_append_cons_drop, if_pos hn, List.mem_append, List.mem_cons]
  have hsplit : l = l.take n ++ l[n] :: l.drop (n + 1) := by
    rw [List.getElem_cons_drop, List.take_append_drop]
  have hnot : l[n] ∉ l.take n ++ l.drop (n + 1) := by
    have hmid := hsplit ▸ h
    exact (List.nodup_cons.mp (List.nodup_middle.mp hmid)).1
  have hmem : x ∈ l ↔ x ∈ l.take n ∨ x = l[n] ∨ x ∈ l.drop (n + 1) := by
    conv_lhs => rw [hsplit]
    rw [List.mem_append, List.mem_cons]
  rw [hmem]
  constructor
  · rintro (hx | rfl | hx)
    · exact .inr ⟨.inl hx, fun h' => hnot (h' ▸ List.mem_append_left _ hx)⟩
    · exact .inl rfl
    · exact .inr ⟨.inr (.inr hx), fun h' => hnot (h' ▸ List.mem_append_right _ hx)⟩
  · rintro (rfl | ⟨hx | hx | hx, hne⟩)
    · exact .inr (.inl rfl)
    · exact .inl hx
    · exact absurd hx hne
    · exact .inr (.inr hx)

theorem filled_replace {s : BoundedSet T N} (item : T) (pick : Nat) (hfull : ¬ s.counter < N) :
    (s.slots.set pick item).length = min (s.counter + 1) N := by
  rw [List.length_set, filled_full hfull]

variable [DecidableEq T]

theorem listed_replace {s : BoundedSet T N} {item : T} {pick : Nat} (hnew : item ∉ s.slots)
    (hpick : pick < s.slots.length) (x : T) :
    x ∈ (item :: s.set).filter (fun y => y ≠ s.slots[pick]) ↔ x ∈ s.slots.set pick item := by
  rw [mem_set_of_nodup s.nodup hpick, List.mem_filter, List.mem_cons, s.listed]
  have hne : item ≠ s.slots[pick] := fun h => hnew (h ▸ List.getElem_mem hpick)
  by_cases hx : x = item
  · simp [hx, hne]
  · simp [hx]

/-- The slot of an item that is evicted. -/
def replace (s : BoundedSet T N) (item : T) (pick : Nat) (hnew : item ∉ s.slots)
    (hfull : ¬ s.counter < N) (hpick : pick < s.slots.length) : BoundedSet T N where
  set := (item :: s.set).filter fun y => y ≠ s.slots[pick]
  slots := s.slots.set pick item
  counter := s.counter + 1
  filled := filled_replace item pick hfull
  nodup := s.nodup.set hnew
  listed := listed_replace hnew hpick

theorem listed_discard {s : BoundedSet T N} {item : T} (hnew : item ∉ s.slots) (x : T) :
    x ∈ (item :: s.set).filter (fun y => y ≠ item) ↔ x ∈ s.slots := by
  rw [List.mem_filter, List.mem_cons, s.listed]
  by_cases hx : x = item
  · simp [hx, hnew]
  · simp [hx]

/-- No slot: the new item is taken out again. -/
def discard (s : BoundedSet T N) (item : T) (hnew : item ∉ s.slots) (hfull : ¬ s.counter < N) :
    BoundedSet T N where
  set := (item :: s.set).filter fun y => y ≠ item
  slots := s.slots
  counter := s.counter + 1
  filled := filled_full hfull
  nodup := s.nodup
  listed := listed_discard hnew

/-- `insert`; the pick is what `fastrand::usize(..N + 1)` would return. -/
def insert (s : BoundedSet T N) (pick : Nat) (item : T) : BoundedSet T N :=
  if h : N = 0 ∨ item ∈ s.set then s
  else if hroom : s.counter < N then s.push item (not_mem_slots h) hroom
  else if hpick : pick < s.slots.length then s.replace item pick (not_mem_slots h) hroom hpick
  else s.discard item (not_mem_slots h) hroom

/-! ### What is listed -/

theorem mem_iter_insert {s : BoundedSet T N} {pick : Nat} {item x : T}
    (h : x ∈ (s.insert pick item).iter) : x ∈ s.iter ∨ x = item := by
  rw [insert] at h
  by_cases hknown : N = 0 ∨ item ∈ s.set
  · rw [dif_pos hknown] at h
    exact .inl h
  · by_cases hroom : s.counter < N
    · rw [dif_neg hknown, dif_pos hroom] at h
      simpa [push, iter] using h
    · by_cases hpick : pick < s.slots.length
      · rw [dif_neg hknown, dif_neg hroom, dif_pos hpick] at h
        have hset := (mem_set_of_nodup s.nodup hpick item x).mp h
        exact hset.elim .inr fun h => .inl h.1
      · rw [dif_neg hknown, dif_neg hroom, dif_neg hpick] at h
        exact .inl h

/-- **What is listed** was inserted. -/
theorem iter_subset {l : List (Nat × T)} (s : BoundedSet T N) {x : T}
    (h : x ∈ (l.foldl (fun s e => s.insert e.1 e.2) s).iter) :
    x ∈ s.iter ∨ x ∈ l.map (·.2) := by
  induction l generalizing s with
  | nil => exact .inl h
  | cons e l ih =>
      rcases ih _ h with hx | hx
      · rcases mem_iter_insert hx with hx | rfl
        · exact .inl hx
        · exact .inr (by simp)
      · exact .inr (List.mem_cons_of_mem _ hx)

/-- **Up to `N` items** all that were inserted are listed. -/
theorem iter_fill (l : List (Nat × T)) (h : (l.map (·.2)).toFinset.card ≤ N) :
    (l.foldl (fun s e => s.insert e.1 e.2) (new : BoundedSet T N)).counter =
        (l.map (·.2)).toFinset.card ∧
      ∀ x, x ∈ (l.foldl (fun s e => s.insert e.1 e.2) (new : BoundedSet T N)).iter ↔
        x ∈ l.map (·.2) := by
  induction l using List.reverseRecOn with
  | nil => exact ⟨rfl, fun x => Iff.rfl⟩
  | append_singleton l e ih =>
      have hset : ((l ++ [e]).map (·.2)).toFinset = Insert.insert e.2 (l.map (·.2)).toFinset := by
        ext x
        simp
      rw [hset] at h ⊢
      have hle := (Finset.card_le_card (Finset.subset_insert e.2 (l.map (·.2)).toFinset)).trans h
      obtain ⟨hcounter, hiter⟩ := ih hle
      rw [List.foldl_append, List.foldl_cons, List.foldl_nil]
      generalize l.foldl (fun s e => s.insert e.1 e.2) (new : BoundedSet T N) = s at *
      -- a known element changes nothing; for a new one there is room, so nothing is evicted
      by_cases hmem : e.2 ∈ l.map (·.2)
      · have hknown : N = 0 ∨ e.2 ∈ s.set := .inr ((s.listed _).mpr ((hiter _).mpr hmem))
        have hsame : s.insert e.1 e.2 = s := by simp [insert, hknown]
        rw [hsame, Finset.insert_eq_of_mem (List.mem_toFinset.mpr hmem)]
        refine ⟨hcounter, fun x => ?_⟩
        rw [hiter, List.map_append, List.mem_append]
        refine ⟨.inl, fun hx => hx.elim id fun hx => ?_⟩
        rwa [List.mem_singleton.mp hx]
      · rw [Finset.card_insert_of_notMem (fun h => hmem (List.mem_toFinset.mp h))] at h ⊢
        have hknown : ¬ (N = 0 ∨ e.2 ∈ s.set) := by
          rintro (rfl | h')
          · omega
          · exact hmem ((hiter _).mp ((s.listed _).mp h'))
        have hroom : s.counter < N := by omega
        have hpush : s.insert e.1 e.2 = s.push e.2 (not_mem_slots hknown) hroom := by
          rw [insert, dif_neg hknown, dif_pos hroom]
        rw [hpush]
        refine ⟨congrArg (· + 1) hcounter, fun x => ?_⟩
        have hx := hiter x
        rw [iter] at hx
        simp only [iter, push, List.mem_append, hx, List.map_append, List.map_cons, List.map_nil]

end BoundedSet

end ConfidenceResolver
