import ConfidenceResolver.Evaluation.SetRules

/-!
# Evaluation — attributes that hold nothing

An attribute that is absent, null or a struct is converted to the string `null`, whatever the rule
compares with.  A rule on strings that accepts that string is satisfied by nothing.

* `convert_nothing`: such an attribute becomes the string, and a list of them a list.
* `evaluate_stringRule`: a rule on strings asks whether it accepts a string among the elements.
* `null_satisfies_iff`: it is not satisfied exactly when no element has become the string, or it
  does not accept it.
-/

namespace ConfidenceResolver

/-! ### Nothing -/

/-- Absent, null, a struct, or a list of only such values. -/
inductive Value.Nothing : Value → Prop
  | unset : Nothing .unset
  | null : Nothing .null
  | struct (fields : List (String × Value)) : Nothing (.struct fields)
  | list (values : List Value) (h : ∀ v ∈ values, v.Nothing) : Nothing (.list values)

def Value.isList : Value → Bool
  | .list _ => true
  | _ => false

variable {nat : Natives}

/-- **What nothing is converted to**: the string for null, and a list for a list. -/
theorem convert_nothing (expected : Option TargetingKind) {v : Value} (h : v.Nothing) :
    v.isList = true ∧ (∃ ws, convertToTargetingValue nat expected v = .ok (.listValue ws)) ∨
      v.isList = false ∧ convertToTargetingValue nat expected v = .ok nullText := by
  induction h with
  | unset => exact .inr ⟨rfl, rfl⟩
  | null => exact .inr ⟨rfl, rfl⟩
  | struct fields => exact .inr ⟨rfl, rfl⟩
  | list values h ih =>
      have hall : ∀ v ∈ values, ∃ k, convertToTargetingValue nat expected v = .ok k ∧ True := by
        intro v hv
        rcases ih v hv with ⟨-, ws, hws⟩ | ⟨-, hnull⟩
        · exact ⟨_, hws, trivial⟩
        · exact ⟨_, hnull, trivial⟩
      obtain ⟨ws, hws, -⟩ := (convertValues_ok_iff (p := fun _ => True) values).mpr hall
      exact .inl ⟨rfl, ws, by rw [convertToTargetingValue, hws]; rfl⟩

/-- A test that no list passes finds the string among the elements where one is not a list. -/
theorem convertValues_nothing (expected : Option TargetingKind) {p : TargetingValue → Bool}
    (hp : ∀ ws, p (some (.listValue ws)) = false) {as : List Value} (h : ∀ a ∈ as, a.Nothing) :
    ∃ ws, convertToTargetingValues nat expected as = .ok ws ∧
      ws.any p = (as.any (fun a => !a.isList) && p (some nullText)) := by
  induction as with
  | nil => exact ⟨[], by rw [convertToTargetingValues], rfl⟩
  | cons a as ih =>
      obtain ⟨ws, hws, hany⟩ := ih fun b hb => h b (List.mem_cons_of_mem _ hb)
      rcases convert_nothing expected (h a List.mem_cons_self) with
        ⟨hlist, items, hitems⟩ | ⟨hlist, hnull⟩
      · refine ⟨some (.listValue items) :: ws, ?_, ?_⟩
        · rw [convertToTargetingValues, hitems, hws]
          rfl
        · rw [List.any_cons, hp, Bool.false_or, hany, List.any_cons, hlist, Bool.not_true,
            Bool.false_or]
      · refine ⟨some nullText :: ws, ?_, ?_⟩
        · rw [convertToTargetingValues, hnull, hws]
          rfl
        · rw [List.any_cons, hany, List.any_cons, hlist, Bool.not_false, Bool.true_or,
            Bool.true_and]
          cases p (some nullText)
          · rw [Bool.and_false, Bool.false_or]
          · rw [Bool.true_or]

/-! ### Rules on strings -/

inductive StringBound where
  | inclusive (s : String)
  | exclusive (s : String)

def StringBound.bound : StringBound → Bound
  | .inclusive s => .inclusive (some (.stringValue s))
  | .exclusive s => .exclusive (some (.stringValue s))

/-- An equality, a set or a range rule whose comparison values are strings. -/
inductive StringRule where
  | eq (value : String)
  | set (values : List String)
  | range (start stop : Option StringBound)

namespace StringRule

/-- The comparison values of a set rule. -/
def strings (values : List String) : List TargetingValue :=
  values.map fun s => some (.stringValue s)

def rangeRule (start stop : Option StringBound) : RangeRule :=
  ⟨start.map StringBound.bound, stop.map StringBound.bound⟩

def rule : StringRule → AttributeRule
  | .eq value => .eqRule (some (some (.stringValue value)))
  | .set values => .setRule (strings values)
  | .range start stop => .rangeRule (rangeRule start stop)

def innerRule : StringRule → InnerRule
  | .eq value => .eqRule (some (some (.stringValue value)))
  | .set values => .setRule (strings values)
  | .range start stop => .rangeRule (rangeRule start stop)

/-- The strings that a bound admits, from below and from above. -/
def above : Option StringBound → String → Bool
  | some (.inclusive start), s => !(s < start)
  | some (.exclusive start), s => start < s
  | none, _ => true

def below : Option StringBound → String → Bool
  | some (.inclusive stop), s => !(stop < s)
  | some (.exclusive stop), s => s < stop
  | none, _ => true

/-- The strings that satisfy the rule. -/
def accepts : StringRule → String → Bool
  | .eq value, s => s == value
  | .set values, s => values.contains s
  | .range start stop, s => (start.isSome || stop.isSome) && above start s && below stop s

/-- The test of an element: a string that is accepted. -/
def test (r : StringRule) : TargetingValue → Bool
  | some (.stringValue s) => r.accepts s
  | _ => false

theorem test_eq (value : String) (w : TargetingValue) :
    (w == some (.stringValue value)) = (eq value).test w := by
  rcases w with _ | k
  · rfl
  · cases k <;> rfl

theorem test_set (values : List String) (w : TargetingValue) :
    (strings values).contains w = (set values).test w := by
  induction values with
  | nil =>
      rcases w with _ | k
      · rfl
      · cases k <;> rfl
  | cons value values ih =>
      have htest : (set (value :: values)).test w = ((eq value).test w || (set values).test w) := by
        rcases w with _ | k
        · rfl
        · cases k with
          | stringValue s => exact List.contains_cons
          | _ => rfl
      rw [htest, ← ih, ← test_eq]
      exact List.contains_cons

theorem test_range (start stop : Option StringBound) (w : TargetingValue) :
    evaluateRangeRule (rangeRule start stop) w = (range start stop).test w := by
  have hopen : ∀ b : Option StringBound, (b.map StringBound.bound).isNone = !b.isSome := by
    rintro (_ | b) <;> rfl
  rw [evaluateRangeRule, rangeRule, hopen, hopen]
  rcases w with _ | k
  · rcases start with _ | (a | a) <;> rcases stop with _ | (b | b) <;> rfl
  · cases k with
    | stringValue s => rcases start with _ | (a | a) <;> rcases stop with _ | (b | b) <;> rfl
    | _ => rcases start with _ | (a | a) <;> rcases stop with _ | (b | b) <;> rfl

theorem innerRule_evaluate (r : StringRule) (w : TargetingValue) :
    evaluateInnerRule (some r.innerRule) w = .ok (r.test w) := by
  cases r with
  | eq value => exact congrArg Except.ok (test_eq value w)
  | set values => exact congrArg Except.ok (test_set values w)
  | range start stop => exact congrArg Except.ok (test_range start stop w)

end StringRule

/-- **A rule on strings** asks whether it accepts a string among the elements of the attribute. -/
theorem evaluate_stringRule (n : Nesting) (name : String) (r : StringRule) (v : Value) :
    evaluateAttribute nat ⟨name, some (n.place r.rule r.innerRule)⟩ v =
      (n.elements nat (n.place r.rule r.innerRule).expectedValueType v).map fun ws =>
        n.quantify r.test ws := by
  apply evaluate_elements
  · cases n <;> cases r <;> rfl
  · rfl
  · cases n <;> cases r <;> rfl
  · cases n <;> cases r <;> rfl
  · intro ws
    cases n with
    | any => exact evaluateAny_ok r.innerRule_evaluate ws
    | all => exact evaluateAll_ok r.innerRule_evaluate ws
    | alone =>
        cases r with
        | eq value =>
            have htest : (StringRule.eq value).test = fun w => some (.stringValue value) == w := by
              funext w
              rw [← StringRule.test_eq, targetingValue_beq_comm]
            rw [htest]
            exact congrArg Except.ok List.contains_eq_any_beq
        | set values =>
            have htest : (StringRule.set values).test = (StringRule.strings values).contains := by
              funext w
              exact (StringRule.test_set values w).symm
            rw [htest]
            rfl
        | range start stop =>
            have htest : (StringRule.range start stop).test =
                evaluateRangeRule (StringRule.rangeRule start stop) := by
              funext w
              exact (StringRule.test_range start stop w).symm
            rw [htest]
            rfl

/-! ### The string for null -/

/-- Nothing has an element that becomes the string: it is no list and is tested, or it is a list of
which one element is no list. -/
def Nesting.nullElement (n : Nesting) : Value → Bool
  | .list values => values.any fun v => !v.isList
  | v => decide (n = .alone) || !v.isNull

theorem elements_nothing {n : Nesting} (hn : n ≠ .all) {v : Value} (hv : v.Nothing)
    {expected : Option TargetingKind} {p : TargetingValue → Bool}
    (hp : ∀ ws, p (some (.listValue ws)) = false) :
    (n.elements nat expected v).map (fun ws => n.quantify p ws) =
      .ok (n.nullElement v && p (some nullText)) := by
  have hquantify := Nesting.quantify_of_ne_all hn p
  have hone : [some nullText].any p = p (some nullText) := by
    rw [List.any_cons, List.any_nil, Bool.or_false]
  simp only [hquantify]
  cases hv with
  | list values h =>
      obtain ⟨ws, hws, hany⟩ := convertValues_nothing expected hp h
      have hskip : ¬ (n ≠ .alone ∧ (Value.list values).isNull = true) :=
        fun hskip => Bool.false_ne_true hskip.2
      rw [Nesting.elements, if_neg hskip, convertToTargetingValue, hws, Nesting.nullElement, ← hany]
      rfl
  | struct fields =>
      have hskip : ¬ (n ≠ .alone ∧ (Value.struct fields).isNull = true) :=
        fun hskip => Bool.false_ne_true hskip.2
      have helement : n.nullElement (.struct fields) = true := Bool.or_true _
      rw [Nesting.elements, if_neg hskip, helement, Bool.true_and, ← hone]
      rfl
  | unset =>
      cases n with
      | alone => exact congrArg Except.ok hone
      | any => rfl
      | all => exact absurd rfl hn
  | null =>
      cases n with
      | alone => exact congrArg Except.ok hone
      | any => rfl
      | all => exact absurd rfl hn

/-- **Nothing does not satisfy a rule on strings** exactly when no element of the attribute has
become the string for null, or the rule does not accept that string. -/
theorem null_satisfies_iff (nat : Natives) (name : String) (r : StringRule) (n : Nesting)
    (hn : n ≠ .all) (v : Value) (hv : v.Nothing) :
    evaluateAttribute nat ⟨name, some (n.place r.rule r.innerRule)⟩ v = .ok false ↔
      n.nullElement v = false ∨ r.accepts "null" = false := by
  have htest : r.test (some nullText) = r.accepts "null" := rfl
  rw [evaluate_stringRule, elements_nothing hn hv fun ws => rfl, htest, Except.ok.injEq,
    Bool.and_eq_false_iff]

theorem null_satisfies_iff_sample :
    evaluateAttribute Sample.natives
      ⟨"plan", some (Nesting.alone.place (StringRule.set ["free", "pro"]).rule
        (StringRule.set ["free", "pro"]).innerRule)⟩ (.list [.null, .struct []]) = .ok false := by
  refine (null_satisfies_iff Sample.natives "plan" (.set ["free", "pro"]) .alone (by decide) _
    (.list _ ?_)).mpr (.inr (by decide))
  intro v hv
  simp only [List.mem_cons, List.not_mem_nil, or_false] at hv
  rcases hv with rfl | rfl
  · exact .null
  · exact .struct []

/-- **A missing attribute satisfies** the rule that it equals `null`, and the range from `a`. -/
theorem missing_satisfies :
    evaluateAttribute Sample.natives ⟨"plan", some (StringRule.eq "null").rule⟩ .unset = .ok true ∧
      evaluateAttribute Sample.natives
        ⟨"plan", some (StringRule.range (some (.inclusive "a")) none).rule⟩ .unset = .ok true :=
  ⟨rfl, by decide⟩

end ConfidenceResolver
