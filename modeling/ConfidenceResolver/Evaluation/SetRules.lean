import ConfidenceResolver.Materialization.SuspendResume
import ConfidenceResolver.Resolver.Value
import ConfidenceResolver.Support.Floats

/-!
# Evaluation — set rules and equality rules

A set rule compares an attribute with each of its values.  The type it converts the attribute to is
that of the first one, so over values of one type the attribute is converted as the equality rule
on any of them converts it.

* `convert_congr`: the conversion depends on the type of the expected value, not on the value.
* `evaluate_eqRule`, `evaluate_setRule`: both rules, alone or inside an any or an all rule, convert
  the attribute and test each element of what they get.
* `set_rule_disjunction`: a set rule is the disjunction of the equality rules on its values.
-/

namespace ConfidenceResolver

/-! ### Equality of values -/

mutual

theorem kind_beq_comm : ∀ a b : TargetingKind, a.beq b = b.beq a
  | .boolValue a, b => by
      cases b with
      | boolValue b => exact BEq.comm
      | _ => rfl
  | .numberValue a, b => by
      cases b with
      | numberValue b => exact float_beq_comm a b
      | _ => rfl
  | .stringValue a, b => by
      cases b with
      | stringValue b => exact BEq.comm
      | _ => rfl
  | .timestampValue a, b => by
      cases b with
      | timestampValue b => exact BEq.comm
      | _ => rfl
  | .versionValue a, b => by
      cases b with
      | versionValue b => exact BEq.comm
      | _ => rfl
  | .listValue as, b => by
      cases b with
      | listValue bs => exact list_beq_comm as bs
      | _ => rfl

theorem list_beq_comm : ∀ as bs : List (Option TargetingKind),
    TargetingKind.beqList as bs = TargetingKind.beqList bs as
  | [], [] | [], _ :: _ | _ :: _, [] => rfl
  | a :: as, b :: bs => by
      rw [TargetingKind.beqList, TargetingKind.beqList, value_beq_comm a b, list_beq_comm as bs]

theorem value_beq_comm : ∀ a b : Option TargetingKind,
    TargetingKind.beqValue a b = TargetingKind.beqValue b a
  | none, none | none, some _ | some _, none => rfl
  | some a, some b => kind_beq_comm a b

end

/-- **Equality of comparison values is symmetric**, at every nesting. -/
theorem targetingValue_beq_comm (a b : TargetingValue) : (a == b) = (b == a) := by
  rcases a with _ | a
  · cases b <;> rfl
  · rcases b with _ | b
    · rfl
    · exact kind_beq_comm a b

/-! ### The type of a value -/

inductive TargetingType where
  | bool
  | number
  | string
  | timestamp
  | version
  | list
deriving DecidableEq

def TargetingKind.type : TargetingKind → TargetingType
  | .boolValue _ => .bool
  | .numberValue _ => .number
  | .stringValue _ => .string
  | .timestampValue _ => .timestamp
  | .versionValue _ => .version
  | .listValue _ => .list

/-- Comparison values of one type, none of them null. -/
def OfType (type : TargetingType) (values : List TargetingValue) : Prop :=
  ∀ x ∈ values, ∃ k : TargetingKind, x = some k ∧ k.type = type

variable {nat : Natives}

mutual

/-- **The conversion depends on the type** of the expected value only. -/
theorem convert_congr {k k' : TargetingKind} (h : k.type = k'.type) :
    ∀ v, convertToTargetingValue nat (some k) v = convertToTargetingValue nat (some k') v
  | .unset | .null | .struct _ => by
      rw [convertToTargetingValue, convertToTargetingValue]
  | .number n => by
      cases k <;> cases k' <;> first | rfl | cases h
  | .string s => by
      cases k <;> cases k' <;> first | rfl | cases h
  | .bool b => by
      cases k <;> cases k' <;> first | rfl | cases h
  | .list values => by
      rw [convertToTargetingValue, convertToTargetingValue, convertValues_congr h values]

theorem convertValues_congr {k k' : TargetingKind} (h : k.type = k'.type) :
    ∀ vs, convertToTargetingValues nat (some k) vs = convertToTargetingValues nat (some k') vs
  | [] => by rw [convertToTargetingValues, convertToTargetingValues]
  | v :: vs => by
      rw [convertToTargetingValues, convertToTargetingValues, convert_congr h v,
        convertValues_congr h vs]

end

mutual

/-- Without an expected type the conversion does not fail. -/
theorem convert_none : ∀ v, ∃ k, convertToTargetingValue nat none v = .ok k
  | .unset | .null | .struct _ => ⟨nullText, by rw [convertToTargetingValue]⟩
  | .number _ | .string _ | .bool _ => ⟨nullText, rfl⟩
  | .list values => by
      obtain ⟨ws, hws⟩ := convertValues_none values
      exact ⟨.listValue ws, by rw [convertToTargetingValue, hws]; rfl⟩

theorem convertValues_none : ∀ vs, ∃ ws, convertToTargetingValues nat none vs = .ok ws
  | [] => ⟨[], by rw [convertToTargetingValues]⟩
  | v :: vs => by
      obtain ⟨k, hk⟩ := convert_none v
      obtain ⟨ws, hws⟩ := convertValues_none vs
      exact ⟨some k :: ws, by rw [convertToTargetingValues, hk, hws]; rfl⟩

end

/-- Over values of one type a set rule converts as an equality rule does. -/
theorem convert_setRule {type : TargetingType} {values : List TargetingValue}
    (hvalues : OfType type values) {k : TargetingKind} (hk : some k ∈ values) (v : Value) :
    convertToTargetingValue nat (setExpectedValueType values) v =
      convertToTargetingValue nat (some k) v := by
  obtain ⟨_, hsome, htype⟩ := hvalues _ hk
  cases hsome
  cases values with
  | nil => cases hk
  | cons x values =>
      obtain ⟨k', rfl, htype'⟩ := hvalues x List.mem_cons_self
      exact convert_congr (htype'.trans htype.symm) v

/-! ### The two rules -/

/-- Where a rule stands: alone, or inside an any or an all rule. -/
inductive Nesting where
  | alone
  | any
  | all
deriving DecidableEq

namespace Nesting

/-- `rule` of a set or an equality rule at its place. -/
def place (outer : AttributeRule) (inner : InnerRule) : Nesting → AttributeRule
  | .alone => outer
  | .any => .anyRule (some (some inner))
  | .all => .allRule (some (some inner))

def eqRule (n : Nesting) (x : TargetingValue) : AttributeRule :=
  n.place (.eqRule (some x)) (.eqRule (some x))

def setRule (n : Nesting) (values : List TargetingValue) : AttributeRule :=
  n.place (.setRule values) (.setRule values)

/-- The elements that are tested: none of a null attribute inside an any or an all rule. -/
def elements (n : Nesting) (nat : Natives) (expected : Option TargetingKind) (v : Value) :
    Except ResolveError (List TargetingValue) :=
  if n ≠ .alone ∧ v.isNull = true then .ok []
  else (convertToTargetingValue nat expected v).map listWrapper

def quantify (p : TargetingValue → Bool) (ws : List TargetingValue) : Nesting → Bool
  | .alone | .any => ws.any p
  | .all => ws.all p

/-- Outside an all rule one element is enough. -/
theorem quantify_of_ne_all {n : Nesting} (hn : n ≠ .all) (p : TargetingValue → Bool)
    (ws : List TargetingValue) : n.quantify p ws = ws.any p := by
  cases n with
  | alone => rfl
  | any => rfl
  | all => exact absurd rfl hn

end Nesting

theorem evaluateAny_ok {rule : Option InnerRule} {p : TargetingValue → Bool}
    (h : ∀ w, evaluateInnerRule rule w = .ok (p w)) (ws : List TargetingValue) :
    evaluateAny rule ws = .ok (ws.any p) := by
  induction ws with
  | nil => rfl
  | cons w ws ih =>
      rw [evaluateAny, h, List.any_cons, ih]
      cases p w <;> rfl

theorem evaluateAll_ok {rule : Option InnerRule} {p : TargetingValue → Bool}
    (h : ∀ w, evaluateInnerRule rule w = .ok (p w)) (ws : List TargetingValue) :
    evaluateAll rule ws = .ok (ws.all p) := by
  induction ws with
  | nil => rfl
  | cons w ws ih =>
      rw [evaluateAll, h, List.all_cons, ih]
      cases p w <;> rfl

/-- Evaluation of an attribute rule is its conversion and a test of the elements. -/
theorem evaluate_elements (n : Nesting) {name : String} {outer : AttributeRule} {inner : InnerRule}
    {expected : Option TargetingKind} {p : TargetingValue → Bool} {v : Value}
    (hnull : evaluateNullEquality ⟨name, some (n.place outer inner)⟩ v = none)
    (hexpected : (n.place outer inner).expectedValueType = expected)
    (hstrict : usesStrictStringOperator ⟨name, some (n.place outer inner)⟩ = false)
    (hcollection : AttributeCriterion.isCollectionRule ⟨name, some (n.place outer inner)⟩ =
      decide (n ≠ .alone))
    (htest : ∀ ws, evaluateCriterion ⟨name, some (n.place outer inner)⟩ ws =
      .ok (n.quantify p ws)) :
    evaluateAttribute nat ⟨name, some (n.place outer inner)⟩ v =
      (n.elements nat expected v).map fun ws => n.quantify p ws := by
  have hconvert : convertForCriterion nat v ⟨name, some (n.place outer inner)⟩ =
      convertToTargetingValue nat expected v := by
    rw [convertForCriterion, hstrict, ← hexpected]
    rfl
  rw [evaluateAttribute, hnull, hcollection, hconvert, Nesting.elements]
  by_cases hempty : n ≠ .alone ∧ v.isNull = true
  · have hempties : (decide (n ≠ .alone) && v.isNull) = true := by
      simpa using hempty
    rw [if_pos hempty, hempties, if_pos rfl, htest]
    rfl
  · have hskip : (decide (n ≠ .alone) && v.isNull) = false := by
      simpa using hempty
    rw [if_neg hempty, hskip]
    rcases convertToTargetingValue nat expected v with e | k
    · rfl
    · exact htest (listWrapper k)

/-- **An equality rule** tests the elements of the attribute for its value. -/
theorem evaluate_eqRule (n : Nesting) (name : String) (k : TargetingKind) (v : Value) :
    evaluateAttribute nat ⟨name, some (n.eqRule (some k))⟩ v =
      (n.elements nat (some k) v).map fun ws => n.quantify (fun w => w == some k) ws := by
  apply evaluate_elements
  · cases n <;> rfl
  · cases n <;> rfl
  · cases n <;> rfl
  · cases n <;> rfl
  · intro ws
    cases n with
    | alone =>
        have hcomm : ws.contains (some k) = ws.any fun w => w == some k := by
          rw [List.contains_eq_any_beq]
          congr 1
          funext w
          exact targetingValue_beq_comm (some k) w
        exact congrArg Except.ok hcomm
    | any => exact evaluateAny_ok (fun w => rfl) ws
    | all => exact evaluateAll_ok (fun w => rfl) ws

/-- **A set rule** tests the elements of the attribute for its values. -/
theorem evaluate_setRule (n : Nesting) (name : String) (values : List TargetingValue) (v : Value) :
    evaluateAttribute nat ⟨name, some (n.setRule values)⟩ v =
      (n.elements nat (setExpectedValueType values) v).map fun ws =>
        n.quantify (fun w => values.any fun x => w == x) ws := by
  have hcontains (w : TargetingValue) : values.contains w = values.any fun x => w == x :=
    List.contains_eq_any_beq
  have hinner (w : TargetingValue) : evaluateInnerRule (some (.setRule values)) w =
      .ok (values.any fun x => w == x) :=
    congrArg Except.ok (hcontains w)
  apply evaluate_elements
  · cases n <;> rfl
  · cases n <;> rfl
  · cases n <;> rfl
  · cases n <;> rfl
  · intro ws
    cases n with
    | alone =>
        have hany : values.contains = fun w => values.any fun x => w == x := by
          funext w
          exact hcontains w
        exact congrArg (fun p => Except.ok (ws.any p)) hany
    | any => exact evaluateAny_ok hinner ws
    | all => exact evaluateAll_ok hinner ws

/-! ### Disjunction -/

theorem map_eq_ok {e : Except ResolveError (List TargetingValue)} {p : List TargetingValue → Bool} :
    e.map p = .ok true ↔ ∃ ws, e = .ok ws ∧ p ws = true := by
  rcases e with e | ws
  · simp [Except.map]
  · simp [Except.map]

theorem map_eq_error {e : Except ResolveError (List TargetingValue)} {p : List TargetingValue → Bool}
    {err : ResolveError} : e.map p = .error err ↔ e = .error err := by
  rcases e with e | ws <;> simp [Except.map]

/-- The elements of a list, when each converts. -/
theorem convertValues_ok_iff {expected : Option TargetingKind} {p : TargetingValue → Prop}
    (as : List Value) :
    (∃ ws, convertToTargetingValues nat expected as = .ok ws ∧ ∀ w ∈ ws, p w) ↔
      ∀ a ∈ as, ∃ k, convertToTargetingValue nat expected a = .ok k ∧ p (some k) := by
  induction as with
  | nil => simp [convertToTargetingValues]
  | cons a as ih =>
      rw [List.forall_mem_cons, ← ih, convertToTargetingValues]
      rcases convertToTargetingValue nat expected a with e | k
      · simp [bind, Except.bind]
      · rcases convertToTargetingValues nat expected as with e | ws
        · simp [bind, Except.bind]
        · simp [bind, Except.bind, pure, Except.pure]

section Rules

variable (nat) (name : String)

/-- A set rule at its place, evaluated. -/
def evaluateSet (n : Nesting) (values : List TargetingValue) (v : Value) :
    Except ResolveError Bool :=
  evaluateAttribute nat ⟨name, some (n.setRule values)⟩ v

/-- An equality rule at its place, evaluated. -/
def evaluateEq (n : Nesting) (x : TargetingValue) (v : Value) : Except ResolveError Bool :=
  evaluateAttribute nat ⟨name, some (n.eqRule x)⟩ v

end Rules

section Disjunction

variable {name : String} {type : TargetingType} {values : List TargetingValue}

theorem elements_setRule (hvalues : OfType type values) {k : TargetingKind} (hk : some k ∈ values)
    (n : Nesting) (v : Value) :
    n.elements nat (setExpectedValueType values) v = n.elements nat (some k) v := by
  rw [Nesting.elements, Nesting.elements, convert_setRule hvalues hk]

/-- The rules fail on the same attributes, with the same error. -/
theorem evaluateSet_error (hvalues : OfType type values) {x : TargetingValue} (hx : x ∈ values)
    (n : Nesting) (v : Value) (e : ResolveError) :
    evaluateSet nat name n values v = .error e ↔ evaluateEq nat name n x v = .error e := by
  obtain ⟨k, rfl, -⟩ := hvalues x hx
  rw [evaluateSet, evaluateEq, evaluate_setRule, evaluate_eqRule, map_eq_error, map_eq_error,
    elements_setRule hvalues hx]

/-- Without values there is no equality rule, and no failure. -/
theorem evaluateSet_nil (n : Nesting) (v : Value) (e : ResolveError) :
    evaluateSet nat name n [] v ≠ .error e := by
  intro h
  rw [evaluateSet, evaluate_setRule, map_eq_error, Nesting.elements] at h
  split at h
  · cases h
  · obtain ⟨k, hk⟩ : ∃ k, convertToTargetingValue nat none v = .ok k := convert_none v
    rw [show setExpectedValueType [] = none from rfl, hk] at h
    cases h

/-- One value: the equality rule is the set rule. -/
theorem evaluateSet_singleton (k : TargetingKind) (n : Nesting) (v : Value) :
    evaluateSet nat name n [some k] v = evaluateEq nat name n (some k) v := by
  have htest : (fun w : TargetingValue => [some k].any fun x => w == x) = fun w => w == some k := by
    funext w
    rw [List.any_cons, List.any_nil, Bool.or_false]
  rw [evaluateSet, evaluateEq, evaluate_setRule, evaluate_eqRule, htest]
  rfl

/-- Where one element is enough, the set rule is the disjunction. -/
theorem evaluateSet_any (hvalues : OfType type values) {n : Nesting} (hn : n ≠ .all) (v : Value) :
    evaluateSet nat name n values v = .ok true ↔
      ∃ x ∈ values, evaluateEq nat name n x v = .ok true := by
  have hquantify := Nesting.quantify_of_ne_all hn
  simp only [evaluateSet, evaluateEq, evaluate_setRule, map_eq_ok, hquantify, List.any_eq_true]
  constructor
  · rintro ⟨ws, hws, w, hw, x, hx, heq⟩
    obtain ⟨k, rfl, -⟩ := hvalues x hx
    refine ⟨some k, hx, ?_⟩
    rw [evaluate_eqRule, map_eq_ok]
    exact ⟨ws, elements_setRule hvalues hx n v ▸ hws, by
      rw [hquantify, List.any_eq_true]
      exact ⟨w, hw, heq⟩⟩
  · rintro ⟨x, hx, hsatisfied⟩
    obtain ⟨k, rfl, -⟩ := hvalues x hx
    rw [evaluate_eqRule, map_eq_ok] at hsatisfied
    obtain ⟨ws, hws, hany⟩ := hsatisfied
    rw [hquantify, List.any_eq_true] at hany
    obtain ⟨w, hw, heq⟩ := hany
    exact ⟨ws, (elements_setRule hvalues hx n v).trans hws, w, hw, some k, hx, heq⟩

/-- Over a list, an all rule asks for each element that it satisfies an equality rule. -/
theorem evaluateSet_all (hvalues : OfType type values) (as : List Value) :
    evaluateSet nat name .all values (.list as) = .ok true ↔
      ∀ a ∈ as, ∃ x ∈ values, evaluateEq nat name .all x (.list [a]) = .ok true := by
  have hset : evaluateSet nat name .all values (.list as) = .ok true ↔
      ∃ ws, convertToTargetingValues nat (setExpectedValueType values) as = .ok ws ∧
        ∀ w ∈ ws, ∃ x ∈ values, (w == x) = true := by
    rw [evaluateSet, evaluate_setRule, map_eq_ok]
    simp only [Nesting.quantify, List.all_eq_true, List.any_eq_true, Nesting.elements,
      Value.isNull, Bool.false_eq_true, and_false, if_false, convertToTargetingValue]
    rcases convertToTargetingValues nat (setExpectedValueType values) as with e | ws
    · simp [Except.map]
    · simp [Except.map, listWrapper]
  have heq (a : Value) {k : TargetingKind} (hk : some k ∈ values) :
      evaluateEq nat name .all (some k) (.list [a]) = .ok true ↔
        ∃ k', convertToTargetingValue nat (setExpectedValueType values) a = .ok k' ∧
          (some k' == some k) = true := by
    rw [evaluateEq, evaluate_eqRule, map_eq_ok, convert_setRule hvalues hk]
    simp only [Nesting.quantify, Nesting.elements, Value.isNull, Bool.false_eq_true, and_false,
      if_false, convertToTargetingValue, convertToTargetingValues]
    rcases convertToTargetingValue nat (some k) a with e | k'
    · simp [Except.map, bind, Except.bind]
    · simp [Except.map, bind, Except.bind, pure, Except.pure, listWrapper]
  rw [hset, convertValues_ok_iff]
  refine forall₂_congr fun a ha => ?_
  constructor
  · rintro ⟨k', hconvert, x, hx, hsame⟩
    obtain ⟨k, rfl, -⟩ := hvalues x hx
    exact ⟨some k, hx, (heq a hx).mpr ⟨k', hconvert, hsame⟩⟩
  · rintro ⟨x, hx, hsatisfied⟩
    obtain ⟨k, rfl, -⟩ := hvalues x hx
    obtain ⟨k', hconvert, hsame⟩ := (heq a hx).mp hsatisfied
    exact ⟨k', hconvert, some k, hx, hsame⟩

/-- **A set rule is the disjunction of equality rules** on its values: alone, inside an any rule,
and for each element inside an all rule; and where the conversion fails, it fails for both. -/
theorem set_rule_disjunction (nat : Natives) (name : String) (type : TargetingType)
    (values : List TargetingValue) (hvalues : OfType type values) :
    (∀ n, n ≠ .all → ∀ v, evaluateSet nat name n values v = .ok true ↔
      ∃ x ∈ values, evaluateEq nat name n x v = .ok true) ∧
    (∀ as, evaluateSet nat name .all values (.list as) = .ok true ↔
      ∀ a ∈ as, ∃ x ∈ values, evaluateEq nat name .all x (.list [a]) = .ok true) ∧
    (∀ n v, ∀ x ∈ values, evaluateSet nat name n [x] v = evaluateEq nat name n x v) ∧
    (∀ n v, ∀ x ∈ values, ∀ e,
      evaluateSet nat name n values v = .error e ↔ evaluateEq nat name n x v = .error e) ∧
    (∀ n v e, evaluateSet nat name n [] v ≠ .error e) := by
  refine ⟨fun n hn v => evaluateSet_any hvalues hn v, evaluateSet_all hvalues, ?_,
    fun n v x hx e => evaluateSet_error hvalues hx n v e, evaluateSet_nil⟩
  intro n v x hx
  obtain ⟨k, rfl, -⟩ := hvalues x hx
  exact evaluateSet_singleton k n v

end Disjunction

namespace Sample

def letters : List TargetingValue := [some (.stringValue "a"), some (.stringValue "b")]

theorem letters_ofType : OfType .string letters := by
  intro x hx
  simp only [letters, List.mem_cons, List.not_mem_nil, or_false] at hx
  rcases hx with rfl | rfl
  · exact ⟨_, rfl, rfl⟩
  · exact ⟨_, rfl, rfl⟩

end Sample

theorem set_rule_disjunction_sample :
    evaluateSet Sample.natives "kind" .all Sample.letters (.list [.string "b", .string "a"]) =
      .ok true := by
  obtain ⟨-, hall, -⟩ := set_rule_disjunction Sample.natives "kind" .string Sample.letters
    Sample.letters_ofType
  refine (hall _).mpr fun a ha => ?_
  simp only [List.mem_cons, List.not_mem_nil, or_false] at ha
  rcases ha with rfl | rfl
  · exact ⟨some (.stringValue "b"), by simp [Sample.letters], rfl⟩
  · exact ⟨some (.stringValue "a"), by simp [Sample.letters], rfl⟩

end ConfidenceResolver
