import Mathlib.Data.Set.Basic
import ConfidenceResolver.Support.Effects

/-!
# Support — three-valued evaluation against an oracle

A test answers `some true`, `some false`, or `none` for "not known yet".  Tests are combined by
negation and by conjunction, which stops at the first `some false` (Kleene's strong logic, with
the evaluation order of a program).  The leaves are constants, failures, and questions to an
oracle.

An `Oracle` has two kinds of state.  In an *open* state a question is unanswered: it answers
`none` and is remembered in `seen`.  In a *closed* state it has an answer and changes nothing.
A test `Built` from the oracle's questions can thus be run twice, once to find out what it asks
and once with the answers:

* `Built.refines`: what the open run decides, every closed run decides the same way, and where
  the open run ends with `none` every closed run succeeds;
* `Built.quiet`: an open run that asked nothing is every closed run, failures included;
* `Built.covered`: two closed runs that agree on the questions a successful open run asked are
  the same.
-/

namespace ConfidenceResolver

/-- A truth value of Kleene's logic. -/
abbrev Tribool := Option Bool

/-- Kleene's conjunction. -/
def Tribool.and : Tribool → Tribool → Tribool
  | some false, _ => some false
  | some true, t => t
  | none, some false => some false
  | none, _ => none

/-- A test: a three-valued computation. -/
abbrev Test (σ ε : Type) := Eff σ ε Tribool

namespace Test

variable {σ ε : Type}

/-- A test decided without running anything. -/
def const (b : Bool) : Test σ ε := fun s => (.ok (some b), s)

/-- Negation: `none` stays `none`. -/
def not (x : Test σ ε) : Test σ ε := fun s =>
  match x s with
  | (.ok t, s') => (.ok (t.map (!·)), s')
  | (.error e, s') => (.error e, s')

/-- Conjunction, evaluated from the left up to the first `some false`. -/
def and (x y : Test σ ε) : Test σ ε := fun s =>
  match x s with
  | (.ok (some false), s') => (.ok (some false), s')
  | (.ok a, s') =>
      match y s' with
      | (.ok b, s'') => (.ok (a.and b), s'')
      | (.error e, s'') => (.error e, s'')
  | (.error e, s') => (.error e, s')

/-- Disjunction, evaluated from the left up to the first `some true`. -/
def or (x y : Test σ ε) : Test σ ε := not (and (not x) (not y))

theorem not_eq (x : Test σ ε) (s : σ) :
    not x s = ((x s).1.map (Option.map (!·)), (x s).2) := by
  rw [not]
  rcases x s with ⟨e | t, s'⟩ <;> rfl

theorem not_of_ok {x : Test σ ε} {s s' : σ} {t : Tribool} (h : x s = (.ok t, s')) :
    not x s = (.ok (t.map (!·)), s') := by
  rw [not, h]

theorem not_of_error {x : Test σ ε} {s s' : σ} {e : ε} (h : x s = (.error e, s')) :
    not x s = (.error e, s') := by
  rw [not, h]

theorem and_of_false {x y : Test σ ε} {s s' : σ} (h : x s = (.ok (some false), s')) :
    and x y s = (.ok (some false), s') := by
  rw [and, h]

theorem and_of_error {x y : Test σ ε} {s s' : σ} {e : ε} (h : x s = (.error e, s')) :
    and x y s = (.error e, s') := by
  rw [and, h]

theorem and_of_ok {x y : Test σ ε} {s s' : σ} {a : Tribool} (h : x s = (.ok a, s'))
    (ha : a ≠ some false) : and x y s = ((y s').1.map a.and, (y s').2) := by
  rw [and, h]
  rcases a with _ | _ | _
  · dsimp only
    rcases y s' with ⟨e | b, s''⟩ <;> rfl
  · exact absurd rfl ha
  · dsimp only
    rcases y s' with ⟨e | b, s''⟩ <;> rfl

/-- A conjunction whose left part is known. -/
theorem and_of_known {x y : Test σ ε} {s s' : σ} {c : Bool} (h : x s = (.ok (some c), s')) :
    and x y s = if c then y s' else (.ok (some false), s') := by
  cases c with
  | false => exact and_of_false h
  | true =>
      rw [and_of_ok h (by simp), if_pos rfl]
      rcases y s' with ⟨e | b, s''⟩ <;> rfl

/-- How a conjunction runs: it fails or stops at the left part, or it goes on to the right
one. -/
theorem and_cases (x y : Test σ ε) (s : σ) :
    (∃ e s', x s = (.error e, s') ∧ and x y s = (.error e, s')) ∨
    (∃ s', x s = (.ok (some false), s') ∧ and x y s = (.ok (some false), s')) ∨
    (∃ a s', x s = (.ok a, s') ∧ a ≠ some false ∧
      and x y s = ((y s').1.map a.and, (y s').2)) := by
  rcases h : x s with ⟨e | a, s'⟩
  · exact .inl ⟨e, s', rfl, and_of_error h⟩
  · by_cases ha : a = some false
    · subst ha; exact .inr (.inl ⟨s', rfl, and_of_false h⟩)
    · exact .inr (.inr ⟨a, s', rfl, ha, and_of_ok h ha⟩)

/-! ### Failures of a combined test -/

variable {e : ε} {x y : Test σ ε}

theorem avoids_const (b : Bool) : Eff.Avoids e (const b : Test σ ε) := fun _ => ok_ne_error

theorem avoids_not (hx : Eff.Avoids e x) : Eff.Avoids e (not x) := by
  intro s
  rw [not_eq]
  exact fun heq => hx s (error_of_map heq)

theorem avoids_and (hx : Eff.Avoids e x) (hy : Eff.Avoids e y) : Eff.Avoids e (and x y) := by
  intro s
  rcases and_cases x y s with ⟨e', s', hrun, h⟩ | ⟨s', -, h⟩ | ⟨a, s', -, -, h⟩
  · rw [h]
    exact fun heq => hx s (hrun ▸ heq)
  · rw [h]
    exact ok_ne_error
  · rw [h]
    exact fun heq => hy s' (error_of_map heq)

theorem avoids_or (hx : Eff.Avoids e x) (hy : Eff.Avoids e y) : Eff.Avoids e (or x y) :=
  avoids_not (avoids_and (avoids_not hx) (avoids_not hy))

end Test

/-! ### Oracles -/

/-- Questions of type `K` to a state `σ`: unanswered and remembered, under a key in `Q`, in an
open state, answered without effect in a closed one. -/
structure Oracle (σ ε K Q : Type) where
  ask : K → Test σ ε
  Open : σ → Prop
  Closed : σ → Prop
  key : K → Q
  seen : σ → Set Q
  answer : σ → K → Bool
  ask_open : ∀ k s, Open s →
    (ask k s).1 = .ok none ∧ Open (ask k s).2 ∧ seen (ask k s).2 = insert (key k) (seen s)
  ask_closed : ∀ k s, Closed s → ask k s = (.ok (some (answer s k)), s)

/-- The tests built from constants, failures in `E` and questions in `S`. -/
inductive Built {σ ε K Q : Type} (O : Oracle σ ε K Q) (S : Set K) (E : Set ε) : Test σ ε → Prop where
  | const (b : Bool) : Built O S E (Test.const b)
  | fail {e : ε} (he : e ∈ E) : Built O S E (Eff.throw e)
  | ask {k : K} (hk : k ∈ S) : Built O S E (O.ask k)
  | not {x : Test σ ε} (hx : Built O S E x) : Built O S E x.not
  | and {x y : Test σ ε} (hx : Built O S E x) (hy : Built O S E y) : Built O S E (x.and y)

/-- What is decided stays decided; what is not known becomes decided. -/
def Refines {ε : Type} : Except ε Tribool → Except ε Tribool → Prop
  | .ok (some b), r => r = .ok (some b)
  | .ok none, r => ∃ b, r = .ok (some b)
  | .error _, _ => True

theorem Refines.not {ε : Type} {p q : Except ε Tribool} (h : Refines p q) :
    Refines (p.map (Option.map (!·))) (q.map (Option.map (!·))) := by
  rcases p with _ | _ | b
  · trivial
  · obtain ⟨b, rfl⟩ := h
    exact ⟨!b, rfl⟩
  · obtain rfl : q = .ok (some b) := h
    rfl

/-- The right parts of two conjunctions, behind left parts that do not decide the first one. -/
theorem Refines.and {ε : Type} {a : Tribool} {c : Bool} {p q : Except ε Tribool}
    (hr : Refines (.ok a : Except ε Tribool) (.ok (some c))) (ha : a ≠ some false)
    (hq : Refines p q) : Refines (p.map a.and) (if c then q else .ok (some false)) := by
  rcases p with _ | b
  · trivial
  · cases c with
    | false =>
        -- the left part is false only where it was not known
        rcases a with _ | _ | _
        · rcases b with _ | _ | _
          · exact ⟨false, rfl⟩
          · rfl
          · exact ⟨false, rfl⟩
        · exact absurd rfl ha
        · cases hr
    | true =>
        rw [if_pos rfl]
        rcases a with _ | _ | _
        · rcases b with _ | _ | _
          · exact hq
          · exact hq
          · exact ⟨true, hq⟩
        · exact absurd rfl ha
        · exact hq

namespace Built

variable {σ ε K Q : Type} {O : Oracle σ ε K Q} {S : Set K} {E : Set ε} {x y : Test σ ε}

theorem or (hx : Built O S E x) (hy : Built O S E y) : Built O S E (x.or y) :=
  .not (.and (.not hx) (.not hy))

/-- A failure that is not among the test's, nor the oracle's, does not occur. -/
theorem avoids {e : ε} (hx : Built O S E x) (hE : e ∉ E)
    (hask : ∀ k, Eff.Avoids e (O.ask k)) : Eff.Avoids e x := by
  induction hx with
  | const b => exact .pure _
  | fail he => exact .throw fun heq => hE (heq ▸ he)
  | ask _ => exact hask _
  | not _ ih => exact Test.avoids_not ih
  | and _ _ ihx ihy => exact Test.avoids_and ihx ihy

/-- An open run stays open and only adds questions. -/
theorem open_run (hx : Built O S E x) :
    ∀ {s : σ}, O.Open s → O.Open (x s).2 ∧ O.seen s ⊆ O.seen (x s).2 := by
  induction hx with
  | const b => exact fun h => ⟨h, subset_rfl⟩
  | fail _ => exact fun h => ⟨h, subset_rfl⟩
  | ask _ =>
      intro s h
      obtain ⟨-, h₁, h₂⟩ := O.ask_open _ s h
      exact ⟨h₁, h₂ ▸ Set.subset_insert _ _⟩
  | not _ ih =>
      intro s h
      rw [Test.not_eq]
      exact ih h
  | @and x y _ _ ihx ihy =>
      intro s h
      rcases Test.and_cases x y s with ⟨e, s', hx, h'⟩ | ⟨s', hx, h'⟩ | ⟨a, s', hx, -, h'⟩
      · rw [h']; simpa [hx] using ihx h
      · rw [h']; simpa [hx] using ihx h
      · obtain ⟨ho, hs⟩ : O.Open s' ∧ O.seen s ⊆ O.seen s' := by simpa [hx] using ihx h
        obtain ⟨ho', hs'⟩ := ihy ho
        rw [h']
        exact ⟨ho', hs.trans hs'⟩

/-- A closed run changes nothing and decides. -/
theorem closed_run (hx : Built O S E x) :
    ∀ {t : σ}, O.Closed t → (∃ b, x t = (.ok (some b), t)) ∨ ∃ e ∈ E, x t = (.error e, t) := by
  induction hx with
  | const b => exact fun _ => .inl ⟨b, rfl⟩
  | fail he => exact fun _ => .inr ⟨_, he, rfl⟩
  | ask _ => exact fun h => .inl ⟨_, O.ask_closed _ _ h⟩
  | not _ ih =>
      intro t h
      rcases ih h with ⟨b, hb⟩ | ⟨e, he, hb⟩
      · exact .inl ⟨!b, Test.not_of_ok hb⟩
      · exact .inr ⟨e, he, Test.not_of_error hb⟩
  | and _ _ ihx ihy =>
      intro t h
      rcases ihx h with ⟨b, hb⟩ | ⟨e, he, hb⟩
      · rw [Test.and_of_known hb]
        cases b with
        | false => exact .inl ⟨false, rfl⟩
        | true => exact ihy h
      · exact .inr ⟨e, he, Test.and_of_error hb⟩

/-- A test without questions is decided, or fails, in every state. -/
theorem unasked (hx : Built O ∅ E x) :
    ∀ s, (∃ b, x s = (.ok (some b), s)) ∨ ∃ e ∈ E, x s = (.error e, s) := by
  induction hx with
  | const b => exact fun _ => .inl ⟨b, rfl⟩
  | fail he => exact fun _ => .inr ⟨_, he, rfl⟩
  | ask hk => exact hk.elim
  | not _ ih =>
      intro s
      rcases ih s with ⟨b, hb⟩ | ⟨e, he, hb⟩
      · exact .inl ⟨!b, Test.not_of_ok hb⟩
      · exact .inr ⟨e, he, Test.not_of_error hb⟩
  | and _ _ ihx ihy =>
      intro s
      rcases ihx s with ⟨b, hb⟩ | ⟨e, he, hb⟩
      · rw [Test.and_of_known hb]
        cases b with
        | false => exact .inl ⟨false, rfl⟩
        | true => exact ihy s
      · exact .inr ⟨e, he, Test.and_of_error hb⟩

/-- An open run fails only in `E`. -/
theorem open_error (hx : Built O S E x) :
    ∀ {s : σ}, O.Open s → ∀ {e : ε}, (x s).1 = .error e → e ∈ E := by
  induction hx with
  | const b => intro s _ e h; cases h
  | fail he => intro s _ e h; cases h; exact he
  | ask _ => intro s ho e h; rw [(O.ask_open _ s ho).1] at h; cases h
  | not _ ih =>
      intro s ho e h
      rw [Test.not_eq] at h
      exact ih ho (error_of_map h)
  | @and x y hx _ ihx ihy =>
      intro s ho e h
      rcases Test.and_cases x y s with ⟨a, s', hx', h'⟩ | ⟨s', hx', h'⟩ | ⟨a, s', hx', -, h'⟩
      · rw [h'] at h; exact ihx ho (by rw [hx']; exact h)
      · rw [h'] at h; cases h
      · have ho' : O.Open s' := by simpa [hx'] using (hx.open_run ho).1
        rw [h'] at h
        exact ihy ho' (error_of_map h)

/-- The result of an open run does not depend on what was asked before. -/
theorem open_result (hx : Built O S E x) :
    ∀ {s t : σ}, O.Open s → O.Open t → (x s).1 = (x t).1 := by
  induction hx with
  | const b => exact fun _ _ => rfl
  | fail _ => exact fun _ _ => rfl
  | ask _ => exact fun h h' => (O.ask_open _ _ h).1.trans (O.ask_open _ _ h').1.symm
  | not _ ih =>
      intro s t h h'
      rw [Test.not_eq, Test.not_eq, ih h h']
  | @and x y hx _ ihx ihy =>
      intro s t h h'
      have hr := ihx h h'
      rcases Test.and_cases x y s with ⟨e, s₁, e₁, h₁⟩ | ⟨s₁, e₁, h₁⟩ | ⟨a, s₁, e₁, ha, h₁⟩ <;>
        rcases e₂ : x t with ⟨a' | a', s₂⟩ <;> rw [e₁, e₂] at hr <;> cases hr
      · rw [h₁, Test.and_of_error e₂]
      · rw [h₁, Test.and_of_false e₂]
      · have hy := ihy (s := s₁) (t := s₂) (by simpa [e₁] using (hx.open_run h).1)
          (by simpa [e₂] using (hx.open_run h').1)
        rw [h₁, Test.and_of_ok e₂ ha, hy]

/-- What an open run asks does not depend on what was asked before. -/
theorem open_seen (hx : Built O S E x) :
    ∀ {s t : σ}, O.Open s → O.Open t →
      ∃ A, O.seen (x s).2 = O.seen s ∪ A ∧ O.seen (x t).2 = O.seen t ∪ A := by
  induction hx with
  | const b => exact fun _ _ => ⟨∅, (Set.union_empty _).symm, (Set.union_empty _).symm⟩
  | fail _ => exact fun _ _ => ⟨∅, (Set.union_empty _).symm, (Set.union_empty _).symm⟩
  | @ask k _ =>
      intro s t h h'
      refine ⟨{O.key k}, ?_, ?_⟩
      · rw [(O.ask_open k s h).2.2, Set.union_singleton]
      · rw [(O.ask_open k t h').2.2, Set.union_singleton]
  | not _ ih =>
      intro s t h h'
      rw [Test.not_eq, Test.not_eq]
      exact ih h h'
  | @and x y hx hy ihx ihy =>
      intro s t h h'
      obtain ⟨A, hA, hA'⟩ := ihx h h'
      have hr := hx.open_result h h'
      rcases Test.and_cases x y s with ⟨e, s₁, e₁, h₁⟩ | ⟨s₁, e₁, h₁⟩ | ⟨a, s₁, e₁, ha, h₁⟩ <;>
        rcases e₂ : x t with ⟨a' | a', s₂⟩ <;> rw [e₁, e₂] at hr <;> cases hr <;>
        rw [e₁] at hA <;> rw [e₂] at hA'
      · exact ⟨A, by rw [h₁]; exact hA, by rw [Test.and_of_error e₂]; exact hA'⟩
      · exact ⟨A, by rw [h₁]; exact hA, by rw [Test.and_of_false e₂]; exact hA'⟩
      · obtain ⟨B, hB, hB'⟩ := ihy (s := s₁) (t := s₂) (by simpa [e₁] using (hx.open_run h).1)
          (by simpa [e₂] using (hx.open_run h').1)
        rw [hA, Set.union_assoc] at hB
        rw [hA', Set.union_assoc] at hB'
        exact ⟨A ∪ B, by rw [h₁, hB], by rw [Test.and_of_ok e₂ ha, hB']⟩

/-- **Refinement.**  What an open run decides, a closed run decides the same way; where the open
run does not know, the closed run decides. -/
theorem refines (hx : Built O S E x) :
    ∀ {s t : σ}, O.Open s → O.Closed t → Refines (x s).1 (x t).1 := by
  induction hx with
  | const b => exact fun _ _ => rfl
  | fail _ => exact fun _ _ => trivial
  | ask _ =>
      intro s t h h'
      rw [(O.ask_open _ s h).1, O.ask_closed _ t h']
      exact ⟨_, rfl⟩
  | not _ ih =>
      intro s t h h'
      rw [Test.not_eq, Test.not_eq]
      exact (ih h h').not
  | @and x y hx hy ihx ihy =>
      intro s t h h'
      have hr := ihx h h'
      rcases Test.and_cases x y s with ⟨e, s', e₁, h₁⟩ | ⟨s', e₁, h₁⟩ | ⟨a, s', e₁, ha, h₁⟩
      · rw [h₁]
        trivial
      · rw [e₁] at hr
        rw [h₁, Test.and_of_false (Eff.run_eq hr)]
        rfl
      · have ho : O.Open s' := by simpa [e₁] using (hx.open_run h).1
        rw [e₁] at hr
        rw [h₁]
        rcases hx.closed_run h' with ⟨c, hc⟩ | ⟨e, -, hc⟩
        · rw [hc] at hr
          rw [Test.and_of_known hc, apply_ite Prod.fst]
          exact hr.and ha (ihy ho h')
        · rw [hc] at hr
          rcases a with _ | a
          · obtain ⟨_, hr⟩ := hr
            cases hr
          · cases hr

/-- **An open run that asks nothing** is every closed run. -/
theorem quiet (hx : Built O S E x) :
    ∀ {s t : σ}, O.Open s → O.Closed t → O.seen (x s).2 = ∅ → (x t).1 = (x s).1 := by
  induction hx with
  | const b => exact fun _ _ _ => rfl
  | fail _ => exact fun _ _ _ => rfl
  | ask _ =>
      intro s t h _ hs
      rw [(O.ask_open _ s h).2.2] at hs
      exact absurd hs (Set.insert_nonempty _ _).ne_empty
  | not _ ih =>
      intro s t h h' hs
      rw [Test.not_eq] at hs ⊢
      rw [Test.not_eq, ih h h' hs]
  | @and x y hx hy ihx ihy =>
      intro s t h h' hs
      rcases Test.and_cases x y s with ⟨e, s', e₁, h₁⟩ | ⟨s', e₁, h₁⟩ | ⟨a, s', e₁, ha, h₁⟩
      · rw [h₁] at hs ⊢
        have := ihx h h' (by rw [e₁]; exact hs)
        rw [e₁] at this
        rw [Test.and_of_error (Eff.run_eq this)]
      · rw [h₁] at hs ⊢
        have := ihx h h' (by rw [e₁]; exact hs)
        rw [e₁] at this
        rw [Test.and_of_false (Eff.run_eq this)]
      · have ho : O.Open s' := by simpa [e₁] using (hx.open_run h).1
        have hs₂ : O.seen (y s').2 = ∅ := by
          rw [h₁] at hs
          exact hs
        have hs₁ : O.seen s' = ∅ :=
          Set.subset_empty_iff.mp (hs₂ ▸ (hy.open_run ho).2)
        have hxt : x t = (.ok a, t) := by
          have := ihx h h' (by rw [e₁]; exact hs₁)
          rw [e₁] at this
          rcases hx.closed_run h' with ⟨b, hb⟩ | ⟨e, -, hb⟩ <;> rw [hb] at this ⊢ <;> cases this
          rfl
        rw [h₁, Test.and_of_ok hxt ha, ihy ho h' hs₂]

/-- Two closed runs whose parts have the same results. -/
theorem and_closed_congr (hx : Built O S E x) {t t' : σ} (ht : O.Closed t) (ht' : O.Closed t')
    (hfst : (x t).1 = (x t').1) (hsnd : (y t).1 = (y t').1) :
    (x.and y t).1 = (x.and y t').1 := by
  rcases hx.closed_run ht with ⟨d, hd⟩ | ⟨e, -, hd⟩
  · rcases hx.closed_run ht' with ⟨d', hd'⟩ | ⟨e', -, hd'⟩
    · rw [hd, hd'] at hfst
      cases hfst
      rw [Test.and_of_known hd, Test.and_of_known hd', apply_ite Prod.fst, hsnd,
        apply_ite Prod.fst]
    · rw [hd, hd'] at hfst
      cases hfst
  · rw [hd] at hfst
    rw [Test.and_of_error hd, Test.and_of_error (Eff.run_eq hfst.symm)]

/-- **The answers that matter are asked for.**  Two closed runs that agree on the questions of a
successful open run have the same result. -/
theorem covered (hx : Built O S E x) :
    ∀ {s t t' : σ} {a : Tribool}, O.Open s → O.Closed t → O.Closed t' → (x s).1 = .ok a →
      (∀ k, O.key k ∈ O.seen (x s).2 → O.answer t k = O.answer t' k) → (x t).1 = (x t').1 := by
  induction hx with
  | const b => exact fun _ _ _ _ _ => rfl
  | fail _ => intro _ _ _ _ _ _ _ h; cases h
  | @ask k _ =>
      intro s t t' a h ht ht' _ hs
      rw [O.ask_closed _ t ht, O.ask_closed _ t' ht',
        hs k (by rw [(O.ask_open k s h).2.2]; exact Set.mem_insert _ _)]
  | not _ ih =>
      intro s t t' a h ht ht' ha hs
      rw [Test.not_eq] at ha hs
      obtain ⟨c, hc, -⟩ := ok_of_map ha
      rw [Test.not_eq, Test.not_eq, ih h ht ht' hc hs]
  | @and x y hx hy ihx ihy =>
      intro s t t' a h ht ht' ha hs
      rcases Test.and_cases x y s with ⟨e, s', e₁, h₁⟩ | ⟨s', e₁, h₁⟩ | ⟨c, s', e₁, hc, h₁⟩
      · rw [h₁] at ha; cases ha
      · -- decided on the left: both closed runs stop there
        have hr := hx.refines h ht
        have hr' := hx.refines h ht'
        rw [e₁] at hr hr'
        rw [Test.and_of_false (Eff.run_eq hr), Test.and_of_false (Eff.run_eq hr')]
      · have ho : O.Open s' := by simpa [e₁] using (hx.open_run h).1
        rw [h₁] at ha hs
        obtain ⟨b, hb, -⟩ := ok_of_map ha
        have hx' := ihx h ht ht' (by rw [e₁]) fun k hk =>
          hs k ((hy.open_run ho).2 (by rw [e₁] at hk; exact hk))
        exact and_closed_congr hx ht ht' hx' (ihy ho ht ht' hb hs)

/-- Two closed runs that agree on every question the test may ask have the same result. -/
theorem congr (hx : Built O S E x) :
    ∀ {t t' : σ}, O.Closed t → O.Closed t' → (∀ k ∈ S, O.answer t k = O.answer t' k) →
      (x t).1 = (x t').1 := by
  induction hx with
  | const b => exact fun _ _ _ => rfl
  | fail _ => exact fun _ _ _ => rfl
  | @ask k hk =>
      intro t t' h h' hs
      rw [O.ask_closed _ t h, O.ask_closed _ t' h', hs k hk]
  | not _ ih =>
      intro t t' h h' hs
      rw [Test.not_eq, Test.not_eq, ih h h' hs]
  | @and x y hx _ ihx ihy =>
      intro t t' h h' hs
      exact and_closed_congr hx h h' (ihx h h' hs) (ihy h h' hs)

/-- An invariant of every question is an invariant of every test. -/
theorem preserves (hx : Built O S E x) {P : σ → Prop} (hP : ∀ k s, P s → P (O.ask k s).2) :
    ∀ {s}, P s → P (x s).2 := by
  induction hx with
  | const b => exact id
  | fail _ => exact id
  | ask _ => exact hP _ _
  | not _ ih =>
      intro s h
      rw [Test.not_eq]
      exact ih h
  | @and x y _ _ ihx ihy =>
      intro s h
      have hx := ihx h
      rcases Test.and_cases x y s with ⟨e, s', e₁, h₁⟩ | ⟨s', e₁, h₁⟩ | ⟨a, s', e₁, -, h₁⟩ <;>
        rw [e₁] at hx
      · rwa [h₁]
      · rwa [h₁]
      · rw [h₁]
        exact ihy hx

end Built

end ConfidenceResolver
