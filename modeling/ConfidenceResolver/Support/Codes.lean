import Mathlib.Data.List.Basic

/-!
# Support — codes that mark their own end

A value is written as a list of words.  `Delimits P code` says that whatever follows the word of a
value with `P`, the value and what follows can be read off the whole.

* `Delimits.injective`: the code tells the values apart.
* `Delimits.flatMap`, `Delimits.fields`: of equally many values, and of the fields of a record.
* `Delimits.counted`: and of any number, after their count.
-/

namespace ConfidenceResolver

/-- The code of a value with `P` ends where it says. -/
def Delimits {A W : Type*} (P : A → Prop) (code : A → List W) : Prop :=
  ∀ ⦃a b r s⦄, P a → P b → code a ++ r = code b ++ s → a = b ∧ r = s

namespace Delimits

variable {A B W : Type*} {P : A → Prop} {code : A → List W}

theorem injective (h : Delimits P code) {a b : A} (ha : P a) (hb : P b) (heq : code a = code b) :
    a = b :=
  (h ha hb (congrArg (· ++ []) heq)).1

/-- A part of a value that determines it. -/
theorem comap (h : Delimits P code) {f : B → A} (hf : Function.Injective f) :
    Delimits (fun b => P (f b)) fun b => code (f b) := by
  intro b b' r s hb hb' heq
  obtain ⟨hvalue, hrest⟩ := h hb hb' heq
  exact ⟨hf hvalue, hrest⟩

/-- Two lists of one length, element by element. -/
theorem flatMap (h : Delimits P code) {l l' : List A} {r s : List W}
    (hl : ∀ a ∈ l, P a) (hl' : ∀ a ∈ l', P a) (hlength : l.length = l'.length)
    (heq : l.flatMap code ++ r = l'.flatMap code ++ s) : l = l' ∧ r = s := by
  induction l generalizing l' with
  | nil =>
      obtain rfl := List.length_eq_zero_iff.mp hlength.symm
      exact ⟨rfl, heq⟩
  | cons a l ih =>
      obtain ⟨b, l', rfl⟩ := List.exists_cons_of_length_eq_add_one hlength.symm
      simp only [List.flatMap_cons, List.append_assoc] at heq
      obtain ⟨rfl, htail⟩ := h (hl a List.mem_cons_self) (hl' b List.mem_cons_self) heq
      obtain ⟨rfl, hrest⟩ := ih (fun c hc => hl c (List.mem_cons_of_mem _ hc))
        (fun c hc => hl' c (List.mem_cons_of_mem _ hc)) (Nat.succ_inj.mp hlength) htail
      exact ⟨rfl, hrest⟩

/-- A record whose fields, always as many, determine it. -/
theorem fields (h : Delimits P code) {f : B → List A} (hf : Function.Injective f)
    (hlength : ∀ b b', (f b).length = (f b').length) :
    Delimits (fun b => ∀ a ∈ f b, P a) fun b => (f b).flatMap code := by
  intro b b' r s hb hb' heq
  obtain ⟨hfields, hrest⟩ := h.flatMap hb hb' (hlength b b') heq
  exact ⟨hf hfields, hrest⟩

/-- A list after its length, when the counts below `bound` are told apart. -/
theorem counted (h : Delimits P code) {count : Nat → W} {bound : Nat}
    (hcount : ∀ ⦃m n⦄, m < bound → n < bound → count m = count n → m = n) :
    Delimits (fun l : List A => l.length < bound ∧ ∀ a ∈ l, P a)
      fun l => count l.length :: l.flatMap code := by
  rintro l l' r s ⟨hbound, hl⟩ ⟨hbound', hl'⟩ heq
  obtain ⟨hhead, htail⟩ := List.cons.inj heq
  exact h.flatMap hl hl' (hcount hbound hbound' hhead) htail

end Delimits

end ConfidenceResolver
