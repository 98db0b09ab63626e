import ConfidenceResolver.Resolver.Materialization

/-!
# Resolver — segments

A segment matches a unit when its targeting does and the unit's bit is set in the segment's
bitset.  Targeting is a Boolean expression over criteria: attributes of the context, other
segments, and materialized segments.  The set of visited segments cuts reference cycles: a
segment met again on the way down does not match.

The recursion goes through references between segments, so the model bounds it by a number that
a chain of distinct segments cannot exceed (`segmentMatchInternal_built` with `recursionBound`
left out of the errors shows it is never reached).
-/

namespace ConfidenceResolver

/-! ### Expressions -/

section Expression

variable {σ ε : Type} (criterionEvaluator : String → Test σ ε)

mutual

/-- `evaluate_expression`. -/
def evaluateExpression : Expression → Eff σ ε Tribool
  | .unset => Test.const false
  | .ref id => criterionEvaluator id
  | .not e => Test.not (evaluateExpression e)
  | .and operands => evaluateAndOperands operands false
  | .or operands => evaluateOrOperands operands false

/-- The loop over the operands of an `And`: a definite `false` ends it. -/
def evaluateAndOperands : List Expression → Bool → Eff σ ε Tribool
  | [], hasUnknown => pure (if hasUnknown then none else some true)
  | op :: ops, hasUnknown => do
      match ← evaluateExpression op with
      | some false => return some false
      | some true => evaluateAndOperands ops hasUnknown
      | none => evaluateAndOperands ops true

/-- The loop over the operands of an `Or`: a definite `true` ends it. -/
def evaluateOrOperands : List Expression → Bool → Eff σ ε Tribool
  | [], hasUnknown => pure (if hasUnknown then none else some false)
  | op :: ops, hasUnknown => do
      match ← evaluateExpression op with
      | some true => return some true
      | some false => evaluateOrOperands ops hasUnknown
      | none => evaluateOrOperands ops true

end

/-- An unknown operand leaves of the remaining loop only whether it is `false`. -/
theorem evaluateAndOperands_true (ops : List Expression) (s : σ) :
    evaluateAndOperands criterionEvaluator ops true s =
      ((evaluateAndOperands criterionEvaluator ops false s).1.map (Tribool.and none),
        (evaluateAndOperands criterionEvaluator ops false s).2) := by
  induction ops generalizing s with
  | nil => rfl
  | cons op ops ih =>
      simp only [evaluateAndOperands, Eff.bind_apply]
      rcases evaluateExpression criterionEvaluator op s with ⟨e | _ | _ | _, s'⟩
      · rfl
      · simp only [ih]
        rcases evaluateAndOperands criterionEvaluator ops false s' with ⟨e | _ | _ | _, s''⟩ <;> rfl
      · rfl
      · exact ih s'

theorem evaluateAndOperands_cons (op : Expression) (ops : List Expression) :
    evaluateAndOperands criterionEvaluator (op :: ops) false =
      Test.and (evaluateExpression criterionEvaluator op)
        (evaluateAndOperands criterionEvaluator ops false) := by
  funext s
  simp only [evaluateAndOperands, Eff.bind_apply]
  rcases e : evaluateExpression criterionEvaluator op s with ⟨_ | _ | b, s'⟩
  · rw [Test.and_of_error e]
  · rw [Test.and_of_ok e (by simp)]
    exact evaluateAndOperands_true criterionEvaluator ops s'
  · rw [Test.and_of_known e]
    cases b <;> rfl

theorem evaluateOrOperands_true (ops : List Expression) (s : σ) :
    evaluateOrOperands criterionEvaluator ops true s =
      ((evaluateOrOperands criterionEvaluator ops false s).1.map fun b =>
          (Tribool.and none (b.map (!·))).map (!·),
        (evaluateOrOperands criterionEvaluator ops false s).2) := by
  induction ops generalizing s with
  | nil => rfl
  | cons op ops ih =>
      simp only [evaluateOrOperands, Eff.bind_apply]
      rcases evaluateExpression criterionEvaluator op s with ⟨e | _ | _ | _, s'⟩
      · rfl
      · simp only [ih]
        rcases evaluateOrOperands criterionEvaluator ops false s' with ⟨e | _ | _ | _, s''⟩ <;> rfl
      · exact ih s'
      · rfl

theorem evaluateOrOperands_cons (op : Expression) (ops : List Expression) :
    evaluateOrOperands criterionEvaluator (op :: ops) false =
      Test.or (evaluateExpression criterionEvaluator op)
        (evaluateOrOperands criterionEvaluator ops false) := by
  funext s
  simp only [evaluateOrOperands, Eff.bind_apply, Test.or]
  rcases e : evaluateExpression criterionEvaluator op s with ⟨_ | _ | _ | _, s'⟩
  · rw [Test.not_of_error (Test.and_of_error (Test.not_of_error e))]
  · rw [Test.not_eq, Test.and_of_ok (Test.not_of_ok e) (by simp), Test.not_eq]
    dsimp only
    rw [evaluateOrOperands_true]
    rcases evaluateOrOperands criterionEvaluator ops false s' with ⟨_ | b, s''⟩ <;> rfl
  · rw [Test.not_eq, Test.and_of_ok (Test.not_of_ok e) (by simp), Test.not_eq]
    dsimp only
    rcases evaluateOrOperands criterionEvaluator ops false s' with ⟨_ | _ | _ | _, s''⟩ <;> rfl
  · rw [Test.not_of_ok (Test.and_of_false (Test.not_of_ok e))]
    rfl

section Built

variable {K Q : Type} {O : Oracle σ ε K Q} {S : Set K} {E : Set ε}
  {criterionEvaluator : String → Test σ ε}

mutual

/-- An expression over built criteria is built. -/
theorem evaluateExpression_built (h : ∀ id, Built O S E (criterionEvaluator id)) :
    ∀ e, Built O S E (evaluateExpression criterionEvaluator e)
  | .unset => by rw [evaluateExpression]; exact .const false
  | .ref id => by rw [evaluateExpression]; exact h id
  | .not e => by rw [evaluateExpression]; exact .not (evaluateExpression_built h e)
  | .and ops => by rw [evaluateExpression]; exact evaluateAndOperands_built h ops
  | .or ops => by rw [evaluateExpression]; exact evaluateOrOperands_built h ops

theorem evaluateAndOperands_built (h : ∀ id, Built O S E (criterionEvaluator id)) :
    ∀ ops, Built O S E (evaluateAndOperands criterionEvaluator ops false)
  | [] => by rw [evaluateAndOperands]; exact .const true
  | op :: ops => by
      rw [evaluateAndOperands_cons]
      exact .and (evaluateExpression_built h op) (evaluateAndOperands_built h ops)

theorem evaluateOrOperands_built (h : ∀ id, Built O S E (criterionEvaluator id)) :
    ∀ ops, Built O S E (evaluateOrOperands criterionEvaluator ops false)
  | [] => by rw [evaluateOrOperands]; exact .const false
  | op :: ops => by
      rw [evaluateOrOperands_cons]
      exact .or (evaluateExpression_built h op) (evaluateOrOperands_built h ops)

end

end Built

end Expression

/-! ### Segments and their targeting -/

/-- `BUCKETS`: the length of a full bitset. -/
def buckets : Nat := 1000000

namespace AccountResolver

variable (r : AccountResolver) (unit : Option String)

/-- The materialized-segment branch of the criterion evaluator: a bloom filter, when the state
has one, answers instead of the records. -/
def materializedSegmentMatch (materializedSegment : String) : ResolveM Tribool :=
  match unit with
  | none => Test.const false
  | some u =>
      match r.state.bloomFilters.lookup materializedSegment with
      | some bf =>
          match bf.mightContain r.natives u with
          | some b => Test.const b
          | none => Eff.throw .panic
      | none => MaterializationContext.isUnitInMaterialization materializedSegment u

/-- The criterion evaluator of `targeting_match`; `self` evaluates a referenced segment. -/
def criterionEvaluator (self : Segment → List String → ResolveM Tribool) (targeting : Targeting)
    (visited : List String) (id : String) : ResolveM Tribool :=
  match targeting.criteria.lookup id with
  | some (some (.attribute c)) =>
      Eff.lift ((evaluateAttribute r.natives c (r.getAttributeValue c.attributeName)).map some)
  | some (some (.segment name)) =>
      match r.state.segments.get name with
      | some segment => self segment visited
      | none => Test.const false
  | some (some (.materializedSegment m)) => r.materializedSegmentMatch unit m
  | _ => Test.const false

/-- `targeting_match`. -/
def targetingMatch (self : Segment → List String → ResolveM Tribool) (segment : Segment)
    (visited : List String) : ResolveM Tribool :=
  match segment.targeting with
  | none => Test.const true
  | some targeting =>
      match targeting.expression with
      | none => Test.const true
      | some e => evaluateExpression (r.criterionEvaluator unit self targeting visited) e

/-- The bitset half of `segment_match_internal`.  Without a unit only a full bitset matches. -/
def bitsetMatch (segment : Segment) : ResolveM Tribool :=
  match r.state.bitsets.lookup segment.name with
  | none => Test.const true
  | some bitset =>
      match unit with
      | none => Test.const (bitset.all id)
      | some u =>
          match r.client.account.saltUnit u with
          | none => Eff.throw (.internal .accountSalt)
          | some saltedUnit =>
              match bucket (r.natives.murmur3 saltedUnit) buckets with
              | none => Eff.throw (.internal .zeroBuckets)
              | some unitHash => Test.const (bitset[unitHash]?.getD false)

/-- `segment_match_internal`.  The conjunction keeps an unknown targeting result unless the
bitset decides. -/
def segmentMatchInternal : Nat → Segment → List String → ResolveM Tribool
  | 0, segment, visited =>
      if visited.contains segment.name then Test.const false
      else Eff.throw (.internal .recursionBound)
  | n + 1, segment, visited =>
      if visited.contains segment.name then Test.const false
      else
        Test.and
          (r.targetingMatch unit (segmentMatchInternal n) segment (segment.name :: visited))
          (r.bitsetMatch unit segment)

/-- `segment_match`. -/
def segmentMatch (segment : Segment) : ResolveM Tribool :=
  r.segmentMatchInternal unit (r.state.segments.values.length + 1) segment []

/-- `targeting_match` as the rule loop calls it: with a fresh set of visited segments, which
does not hold the segment itself. -/
def targetingMatchFresh (segment : Segment) : ResolveM Tribool :=
  r.targetingMatch unit (r.segmentMatchInternal unit r.state.segments.values.length) segment []

end AccountResolver

end ConfidenceResolver
