import Mathlib.Data.List.Basic

/-!
# Support — lists in groups

A list whose elements of one group lie together, the heads of the group first.

* `Grouped`.
* `pair_sublist_flatten`, `triple_sublist_flatten`: two or three elements in order, in lists that
  are put one behind the other.
* `Adjoining`: where two of the lists share a group, it goes through from one to the other.
* `grouped_flatten_iff`: grouped lists are grouped behind one another exactly then.
* `grouped_flatten_of_apart`: so are blocks of different groups.
-/

namespace ConfidenceResolver

variable {A G : Type*}

/-- Elements of one group lie together, and heads come before others. -/
structure Grouped (group : A → G) (isHead : A → Prop) (l : List A) : Prop where
  together : ∀ a b c, [a, b, c].Sublist l → group a = group c → group b = group a
  heads : ∀ a b, [a, b].Sublist l → ¬ isHead a → isHead b → group a ≠ group b

theorem Grouped.sublist {group : A → G} {isHead : A → Prop} {l l' : List A}
    (h : Grouped group isHead l) (hsub : l'.Sublist l) : Grouped group isHead l' where
  together a b c habc := h.together a b c (habc.trans hsub)
  heads a b hab := h.heads a b (hab.trans hsub)

/-! ### Elements in order -/

theorem pair_sublist_append {a b : A} {l r : List A} :
    [a, b].Sublist (l ++ r) ↔ [a, b].Sublist l ∨ (a ∈ l ∧ b ∈ r) ∨ [a, b].Sublist r := by
  rw [List.sublist_append_iff]
  constructor
  · rintro ⟨l₁, l₂, heq, h₁, h₂⟩
    match l₁ with
    | [] =>
        obtain rfl : [a, b] = l₂ := heq
        exact .inr (.inr h₂)
    | [_] =>
        cases heq
        exact .inr (.inl ⟨List.singleton_sublist.mp h₁, List.singleton_sublist.mp h₂⟩)
    | [_, _] =>
        cases heq
        exact .inl h₁
    | _ :: _ :: _ :: _ => cases heq
  · rintro (h | ⟨ha, hb⟩ | h)
    · exact ⟨[a, b], [], rfl, h, List.nil_sublist r⟩
    · exact ⟨[a], [b], rfl, List.singleton_sublist.mpr ha, List.singleton_sublist.mpr hb⟩
    · exact ⟨[], [a, b], rfl, List.nil_sublist l, h⟩

theorem triple_sublist_append {a b c : A} {l r : List A} :
    [a, b, c].Sublist (l ++ r) ↔ [a, b, c].Sublist l ∨ ([a, b].Sublist l ∧ c ∈ r) ∨
      (a ∈ l ∧ [b, c].Sublist r) ∨ [a, b, c].Sublist r := by
  rw [List.sublist_append_iff]
  constructor
  · rintro ⟨l₁, l₂, heq, h₁, h₂⟩
    match l₁ with
    | [] =>
        obtain rfl : [a, b, c] = l₂ := heq
        exact .inr (.inr (.inr h₂))
    | [_] =>
        cases heq
        exact .inr (.inr (.inl ⟨List.singleton_sublist.mp h₁, h₂⟩))
    | [_, _] =>
        cases heq
        exact .inr (.inl ⟨h₁, List.singleton_sublist.mp h₂⟩)
    | [_, _, _] =>
        cases heq
        exact .inl h₁
    | _ :: _ :: _ :: _ :: _ => cases heq
  · rintro (h | ⟨hab, hc⟩ | ⟨ha, hbc⟩ | h)
    · exact ⟨[a, b, c], [], rfl, h, List.nil_sublist r⟩
    · exact ⟨[a, b], [c], rfl, hab, List.singleton_sublist.mpr hc⟩
    · exact ⟨[a], [b, c], rfl, List.singleton_sublist.mpr ha, hbc⟩
    · exact ⟨[], [a, b, c], rfl, List.nil_sublist l, h⟩

/-! ### Lists behind one another -/

theorem pair_sublist_flatten {a b : A} {ls : List (List A)} :
    [a, b].Sublist ls.flatten ↔ (∃ l ∈ ls, [a, b].Sublist l) ∨
      ∃ l l', [l, l'].Sublist ls ∧ a ∈ l ∧ b ∈ l' := by
  induction ls with
  | nil => simp
  | cons k ls ih =>
      rw [List.flatten_cons, pair_sublist_append, ih, List.mem_flatten]
      constructor
      · rintro (h | ⟨ha, l', hl', hb⟩ | ⟨l, hl, h⟩ | ⟨l, l', hls, ha, hb⟩)
        · exact .inl ⟨k, List.mem_cons_self, h⟩
        · exact .inr ⟨k, l', (List.singleton_sublist.mpr hl').cons_cons k, ha, hb⟩
        · exact .inl ⟨l, List.mem_cons_of_mem k hl, h⟩
        · exact .inr ⟨l, l', hls.cons k, ha, hb⟩
      · rintro (⟨l, hl, h⟩ | ⟨l, l', hls, ha, hb⟩)
        · rcases List.mem_cons.mp hl with rfl | hl
          · exact .inl h
          · exact .inr (.inr (.inl ⟨l, hl, h⟩))
        · rcases List.cons_sublist_cons'.mp hls with hls | ⟨rfl, hrest⟩
          · exact .inr (.inr (.inr ⟨l, l', hls, ha, hb⟩))
          · exact .inr (.inl ⟨ha, l', List.singleton_sublist.mp hrest, hb⟩)

theorem triple_sublist_flatten {a b c : A} {ls : List (List A)} :
    [a, b, c].Sublist ls.flatten ↔ (∃ l ∈ ls, [a, b, c].Sublist l) ∨
      (∃ l l', [l, l'].Sublist ls ∧ [a, b].Sublist l ∧ c ∈ l') ∨
      (∃ l l', [l, l'].Sublist ls ∧ a ∈ l ∧ [b, c].Sublist l') ∨
      ∃ l m l', [l, m, l'].Sublist ls ∧ a ∈ l ∧ b ∈ m ∧ c ∈ l' := by
  induction ls with
  | nil => simp
  | cons k ls ih =>
      rw [List.flatten_cons, triple_sublist_append, ih, List.mem_flatten, pair_sublist_flatten]
      constructor
      · rintro (h | ⟨hab, l', hl', hc⟩ | ⟨ha, ⟨l', hl', hbc⟩ | ⟨m, l', hls, hb, hc⟩⟩ |
          ⟨l, hl, h⟩ | ⟨l, l', hls, h⟩ | ⟨l, l', hls, h⟩ | ⟨l, m, l', hls, h⟩)
        · exact .inl ⟨k, List.mem_cons_self, h⟩
        · exact .inr (.inl ⟨k, l', (List.singleton_sublist.mpr hl').cons_cons k, hab, hc⟩)
        · exact .inr (.inr (.inl ⟨k, l', (List.singleton_sublist.mpr hl').cons_cons k, ha, hbc⟩))
        · exact .inr (.inr (.inr ⟨k, m, l', hls.cons_cons k, ha, hb, hc⟩))
        · exact .inl ⟨l, List.mem_cons_of_mem k hl, h⟩
        · exact .inr (.inl ⟨l, l', hls.cons k, h⟩)
        · exact .inr (.inr (.inl ⟨l, l', hls.cons k, h⟩))
        · exact .inr (.inr (.inr ⟨l, m, l', hls.cons k, h⟩))
      · rintro (⟨l, hl, h⟩ | ⟨l, l', hls, hab, hc⟩ | ⟨l, l', hls, ha, hbc⟩ |
          ⟨l, m, l', hls, ha, hb, hc⟩)
        · rcases List.mem_cons.mp hl with rfl | hl
          · exact .inl h
          · exact .inr (.inr (.inr (.inl ⟨l, hl, h⟩)))
        · rcases List.cons_sublist_cons'.mp hls with hls | ⟨rfl, hrest⟩
          · exact .inr (.inr (.inr (.inr (.inl ⟨l, l', hls, hab, hc⟩))))
          · exact .inr (.inl ⟨hab, l', List.singleton_sublist.mp hrest, hc⟩)
        · rcases List.cons_sublist_cons'.mp hls with hls | ⟨rfl, hrest⟩
          · exact .inr (.inr (.inr (.inr (.inr (.inl ⟨l, l', hls, ha, hbc⟩)))))
          · exact .inr (.inr (.inl ⟨ha, .inl ⟨l', List.singleton_sublist.mp hrest, hbc⟩⟩))
        · rcases List.cons_sublist_cons'.mp hls with hls | ⟨rfl, hrest⟩
          · exact .inr (.inr (.inr (.inr (.inr (.inr ⟨l, m, l', hls, ha, hb, hc⟩)))))
          · exact .inr (.inr (.inl ⟨ha, .inr ⟨m, l', hrest, hb, hc⟩⟩))

/-- Where two lists share a group, it ends the one, begins the other, and is all there is between
them; and the other brings no head behind an element of the one that is none. -/
structure Adjoining (group : A → G) (isHead : A → Prop) (ls : List (List A)) : Prop where
  ends : ∀ l l' a b c, [l, l'].Sublist ls → [a, b].Sublist l → c ∈ l' → group a = group c →
    group b = group a
  begins : ∀ l l' a b c, [l, l'].Sublist ls → a ∈ l → [b, c].Sublist l' → group a = group c →
    group b = group a
  between : ∀ l m l' a b c, [l, m, l'].Sublist ls → a ∈ l → b ∈ m → c ∈ l' →
    group a = group c → group b = group a
  heads : ∀ l l' a b, [l, l'].Sublist ls → a ∈ l → b ∈ l' → ¬ isHead a → isHead b →
    group a ≠ group b

/-- **Grouped lists behind one another.** -/
theorem grouped_flatten_iff {group : A → G} {isHead : A → Prop} {ls : List (List A)} :
    Grouped group isHead ls.flatten ↔
      (∀ l ∈ ls, Grouped group isHead l) ∧ Adjoining group isHead ls := by
  constructor
  · intro h
    refine ⟨fun l hl => h.sublist (List.sublist_flatten_of_mem hl), ?_, ?_, ?_, ?_⟩
    · intro l l' a b c hls hab hc
      exact h.together a b c (triple_sublist_flatten.mpr (.inr (.inl ⟨l, l', hls, hab, hc⟩)))
    · intro l l' a b c hls ha hbc
      exact h.together a b c (triple_sublist_flatten.mpr (.inr (.inr (.inl ⟨l, l', hls, ha, hbc⟩))))
    · intro l m l' a b c hls ha hb hc
      exact h.together a b c
        (triple_sublist_flatten.mpr (.inr (.inr (.inr ⟨l, m, l', hls, ha, hb, hc⟩))))
    · intro l l' a b hls ha hb
      exact h.heads a b (pair_sublist_flatten.mpr (.inr ⟨l, l', hls, ha, hb⟩))
  · rintro ⟨hgrouped, h⟩
    constructor
    · intro a b c habc
      rcases triple_sublist_flatten.mp habc with
        ⟨l, hl, habc⟩ | ⟨l, l', hls, hab, hc⟩ | ⟨l, l', hls, ha, hbc⟩ | ⟨l, m, l', hls, ha, hb, hc⟩
      · exact (hgrouped l hl).together a b c habc
      · exact h.ends l l' a b c hls hab hc
      · exact h.begins l l' a b c hls ha hbc
      · exact h.between l m l' a b c hls ha hb hc
    · intro a b hab
      rcases pair_sublist_flatten.mp hab with ⟨l, hl, hab⟩ | ⟨l, l', hls, ha, hb⟩
      · exact (hgrouped l hl).heads a b hab
      · exact h.heads l l' a b hls ha hb

/-! ### Blocks -/

/-- A block: heads of a group, and others. -/
theorem grouped_block {group : A → G} {isHead : A → Prop} {l l' : List A} {g : G}
    (hgroup : ∀ a ∈ l ++ l', group a = g) (hheads : ∀ a ∈ l, isHead a)
    (hothers : ∀ a ∈ l', ¬ isHead a) : Grouped group isHead (l ++ l') where
  together a b c habc _ := by
    have hmem : ∀ x ∈ [a, b, c], group x = g := fun x hx => hgroup x (habc.subset hx)
    rw [hmem a (by simp), hmem b (by simp)]
  heads a b hab ha hb := by
    rcases pair_sublist_append.mp hab with hl | ⟨hl, -⟩ | hl'
    · exact absurd (hheads a (hl.subset List.mem_cons_self)) ha
    · exact absurd (hheads a hl) ha
    · exact absurd hb (hothers b (hl'.subset (List.mem_cons_of_mem a (List.mem_singleton_self b))))

/-- Lists that share no group. -/
theorem grouped_flatten_of_apart {group : A → G} {isHead : A → Prop} {ls : List (List A)}
    (hgrouped : ∀ l ∈ ls, Grouped group isHead l)
    (hapart : ls.Pairwise fun l l' => ∀ a ∈ l, ∀ b ∈ l', group a ≠ group b) :
    Grouped group isHead ls.flatten := by
  have hne : ∀ {l l' a b}, [l, l'].Sublist ls → a ∈ l → b ∈ l' → group a ≠ group b :=
    fun hls ha hb => List.pairwise_iff_forall_sublist.mp hapart hls _ ha _ hb
  refine grouped_flatten_iff.mpr ⟨hgrouped, ?_, ?_, ?_, ?_⟩
  · intro l l' a b c hls hab hc heq
    exact absurd heq (hne hls (hab.subset List.mem_cons_self) hc)
  · intro l l' a b c hls ha hbc heq
    exact absurd heq (hne hls ha (hbc.subset (List.mem_cons_of_mem b (List.mem_singleton_self c))))
  · intro l m l' a b c hls ha _ hc heq
    have hends : [l, l'].Sublist [l, m, l'] := (List.sublist_cons_self m [l']).cons_cons l
    exact absurd heq (hne (hends.trans hls) ha hc)
  · intro l l' a b hls ha hb _ _
    exact hne hls ha hb

end ConfidenceResolver
