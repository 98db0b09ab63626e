import ConfidenceResolver.Support.Simulation
import ConfidenceResolver.Resolver.Segment

/-!
# Evaluation — what an unknown criterion can change

`evaluate_expression` asks a criterion evaluator at each reference and may be told that the answer
is not known yet.  A verdict reached in spite of that is final: with a second evaluator that fills
in some of the unknown answers the verdict is the same, although the second run may stop earlier
and ask less.  With nothing unknown the verdict is the Boolean value of the expression.

The evaluator is a closure with a state (it collects what has to be read), so the two runs each
have a state of their own, linked by a relation, and an invariant says which states are met.
-/

namespace ConfidenceResolver

/-! ### The Boolean value -/

namespace Expression

mutual

/-- The Boolean value under an assignment of the references.  A node without an expression is
`false`. -/
def value (v : String → Bool) : Expression → Bool
  | .unset => false
  | .ref id => v id
  | .not e => !value v e
  | .and operands => allValues v operands
  | .or operands => anyValue v operands

def allValues (v : String → Bool) : List Expression → Bool
  | [] => true
  | op :: ops => value v op && allValues v ops

def anyValue (v : String → Bool) : List Expression → Bool
  | [] => false
  | op :: ops => value v op || anyValue v ops

end

mutual

/-- The references of an expression, from left to right. -/
def refs : Expression → List String
  | .unset => []
  | .ref id => [id]
  | .not e => refs e
  | .and operands => operandRefs operands
  | .or operands => operandRefs operands

def operandRefs : List Expression → List String
  | [] => []
  | op :: ops => refs op ++ operandRefs ops

end

end Expression

/-! ### Evaluation, operand by operand -/

/-- Induction on an expression, where a conjunction is its first operand and the conjunction of
the others, and a disjunction likewise. -/
theorem Expression.operandInduction {T : Expression → Prop} (unset : T .unset)
    (ref : ∀ id, T (.ref id)) (not : ∀ e, T e → T (.not e)) (andNil : T (.and []))
    (andCons : ∀ op ops, T op → T (.and ops) → T (.and (op :: ops))) (orNil : T (.or []))
    (orCons : ∀ op ops, T op → T (.or ops) → T (.or (op :: ops))) : ∀ e, T e := by
  intro e
  -- a list of operands is met as both connectives
  exact @Expression.rec T (fun ops => T (.and ops) ∧ T (.or ops)) unset ref not
    (fun _ h => h.1) (fun _ h => h.2) ⟨andNil, orNil⟩
    (fun op ops ihop ihops => ⟨andCons op ops ihop ihops.1, orCons op ops ihop ihops.2⟩) e

section Evaluate

variable {σ τ ε δ : Type}

theorem evaluateExpression_andCons (ev : String → Test σ ε) (op : Expression)
    (ops : List Expression) :
    evaluateExpression ev (.and (op :: ops)) =
      Test.and (evaluateExpression ev op) (evaluateExpression ev (.and ops)) := by
  rw [evaluateExpression, evaluateExpression, evaluateAndOperands_cons]

theorem evaluateExpression_orCons (ev : String → Test σ ε) (op : Expression)
    (ops : List Expression) :
    evaluateExpression ev (.or (op :: ops)) =
      Test.or (evaluateExpression ev op) (evaluateExpression ev (.or ops)) := by
  rw [evaluateExpression, evaluateExpression, evaluateOrOperands_cons]

/-- An expression knows more under an evaluator that knows more. -/
theorem evaluateExpression_sim {R : σ → τ → Prop} {ev₁ : String → Test σ ε}
    {ev₂ : String → Test τ δ} (h : ∀ id, Test.Sim R (ev₁ id) (ev₂ id)) (e : Expression) :
    Test.Sim R (evaluateExpression ev₁ e) (evaluateExpression ev₂ e) := by
  induction e using Expression.operandInduction with
  | unset =>
      rw [evaluateExpression, evaluateExpression]
      exact .const false
  | ref id =>
      rw [evaluateExpression, evaluateExpression]
      exact h id
  | not e ih =>
      rw [evaluateExpression, evaluateExpression]
      exact ih.not
  | andNil =>
      rw [evaluateExpression, evaluateExpression]
      exact .const true
  | andCons op ops ihop ihops =>
      rw [evaluateExpression_andCons, evaluateExpression_andCons]
      exact ihop.and ihops
  | orNil =>
      rw [evaluateExpression, evaluateExpression]
      exact .const false
  | orCons op ops ihop ihops =>
      rw [evaluateExpression_orCons, evaluateExpression_orCons]
      exact ihop.or ihops

/-- An expression is definite under an evaluator that is. -/
theorem evaluateExpression_definite {P : σ → Prop} {ev : String → Test σ ε}
    (h : ∀ id, Test.Definite P (ev id)) (e : Expression) :
    Test.Definite P (evaluateExpression ev e) := by
  induction e using Expression.operandInduction with
  | unset =>
      rw [evaluateExpression]
      exact .const false
  | ref id =>
      rw [evaluateExpression]
      exact h id
  | not e ih =>
      rw [evaluateExpression]
      exact ih.not
  | andNil =>
      rw [evaluateExpression]
      exact .const true
  | andCons op ops ihop ihops =>
      rw [evaluateExpression_andCons]
      exact ihop.and ihops
  | orNil =>
      rw [evaluateExpression]
      exact .const false
  | orCons op ops ihop ihops =>
      rw [evaluateExpression_orCons]
      exact ihop.or ihops

/-- The failures an evaluator gives, on the states of `P`, for one of `ids`. -/
def failuresAt (P : σ → Prop) (ev : String → Test σ ε) (ids : List String) : Set ε :=
  {e | ∃ id ∈ ids, ∃ s, P s ∧ (ev id s).1 = .error e}

theorem failuresAt_mono {P : σ → Prop} {ev : String → Test σ ε} {ids ids' : List String}
    (h : ids ⊆ ids') : failuresAt P ev ids ⊆ failuresAt P ev ids' := by
  intro e he
  obtain ⟨id, hid, s, hs⟩ := he
  exact ⟨id, h hid, s, hs⟩

/-- Where the evaluator answers by an assignment or fails, the expression has its Boolean value
or fails as one of its references did. -/
theorem evaluateExpression_decides {P : σ → Prop} {ev : String → Test σ ε} {v : String → Bool}
    (hP : ∀ id s, P s → P (ev id s).2)
    (hv : ∀ id s, P s → (ev id s).1 = .ok (some (v id)) ∨ ∃ e, (ev id s).1 = .error e)
    (e : Expression) :
    Test.Decides P (failuresAt P ev e.refs) (e.value v) (evaluateExpression ev e) := by
  induction e using Expression.operandInduction with
  | unset =>
      rw [evaluateExpression]
      exact .const false
  | ref id =>
      rw [evaluateExpression]
      refine ⟨hP id _, fun {s} hs => ?_⟩
      rcases hv id s hs with h | ⟨e, h⟩
      · exact .inl h
      · exact .inr ⟨e, ⟨id, List.mem_singleton_self id, s, hs, h⟩, h⟩
  | not e ih =>
      rw [evaluateExpression]
      exact ih.not
  | andNil =>
      rw [evaluateExpression]
      exact .const true
  | andCons op ops ihop ihops =>
      rw [evaluateExpression_andCons]
      exact (ihop.mono (failuresAt_mono (List.subset_append_left _ _))).and
        (ihops.mono (failuresAt_mono (List.subset_append_right _ _)))
  | orNil =>
      rw [evaluateExpression]
      exact .const false
  | orCons op ops ihop ihops =>
      rw [evaluateExpression_orCons]
      exact (ihop.mono (failuresAt_mono (List.subset_append_left _ _))).or
        (ihops.mono (failuresAt_mono (List.subset_append_right _ _)))

end Evaluate

/-- **Three-valued evaluation.**  A verdict reached with unknown criteria is the verdict of every
evaluator that answers more of them; an evaluator that always knows gives no unknown result; and
where its answers are those of an assignment, the result is the Boolean value of the expression or
a failure of one of the expression's references. -/
theorem evaluateExpression_monotone {σ τ ε δ : Type} (e : Expression) :
    (∀ (R : σ → τ → Prop) (ev₁ : String → Test σ ε) (ev₂ : String → Test τ δ),
      (∀ id, Test.Sim R (ev₁ id) (ev₂ id)) →
      ∀ s t b, R s t → (evaluateExpression ev₁ e s).1 = .ok (some b) →
        (evaluateExpression ev₂ e t).1 = .ok (some b)) ∧
    (∀ (P : σ → Prop) (ev : String → Test σ ε), (∀ id, Test.Definite P (ev id)) →
      ∀ s, P s → (evaluateExpression ev e s).1 ≠ .ok none) ∧
    ∀ (P : σ → Prop) (ev : String → Test σ ε) (v : String → Bool),
      (∀ id s, P s → P (ev id s).2) →
      (∀ id s, P s → (ev id s).1 = .ok (some (v id)) ∨ ∃ e, (ev id s).1 = .error e) →
      ∀ s, P s → (evaluateExpression ev e s).1 = .ok (some (e.value v)) ∨
        ∃ er ∈ failuresAt P ev e.refs, (evaluateExpression ev e s).1 = .error er := by
  refine ⟨?_, ?_, ?_⟩
  · intro R ev₁ ev₂ hev s t b hR hb
    have hk := (evaluateExpression_sim hev e).result hR
    rw [hb] at hk
    exact hk
  · intro P ev hev s hs
    exact (evaluateExpression_definite hev e).result hs
  · intro P ev v hP hv s hs
    exact (evaluateExpression_decides hP hv e).result hs

/-- An evaluator that does not know `a`, and remembers what it was asked. -/
def Sample.askingEvaluator (id : String) : Test (List String) String := fun asked =>
  (.ok (if id = "a" then none else some false), id :: asked)

/-- An evaluator that knows `a`. -/
def Sample.knowingEvaluator (id : String) : Test Unit String := fun s =>
  (.ok (some (id == "a")), s)

/-- `a or not b`. -/
def Sample.eitherOr : Expression := .or [.ref "a", .not (.ref "b")]

theorem evaluateExpression_monotone_sample :
    (evaluateExpression Sample.knowingEvaluator Sample.eitherOr ()).1 = .ok (some true) ∧
    (evaluateExpression (fun _ => Test.const true : String → Test (List String) String)
      Sample.eitherOr []).1 ≠ .ok none ∧
    ((evaluateExpression (fun _ => Test.const true : String → Test (List String) String)
        Sample.eitherOr []).1 = .ok (some (Sample.eitherOr.value fun _ => true)) ∨
      ∃ er ∈ failuresAt (fun _ => True)
          (fun _ => Test.const true : String → Test (List String) String) Sample.eitherOr.refs,
        (evaluateExpression (fun _ => Test.const true : String → Test (List String) String)
          Sample.eitherOr []).1 = .error er) := by
  obtain ⟨hmono, hdefinite, hvalue⟩ :=
    evaluateExpression_monotone (σ := List String) (τ := Unit) (ε := String) (δ := String)
      Sample.eitherOr
  refine ⟨hmono (fun _ _ => True) Sample.askingEvaluator Sample.knowingEvaluator ?_ [] () true
    trivial (by decide), hdefinite (fun _ => True) _ (fun _ => .const true) [] trivial,
    hvalue (fun _ => True) _ (fun _ => true) (fun _ _ _ => trivial) (fun _ _ _ => .inl rfl) []
      trivial⟩
  intro id
  refine ⟨fun _ => ?_, fun _ _ => trivial, fun _ _ => trivial⟩
  by_cases h : id = "a"
  · subst h
    exact ⟨_, rfl⟩
  · simp [Sample.askingEvaluator, Sample.knowingEvaluator, KnowsMore, h]

end ConfidenceResolver
