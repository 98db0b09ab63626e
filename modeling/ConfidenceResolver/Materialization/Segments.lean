import Mathlib.Logic.Relation
import ConfidenceResolver.Resolver.Segment

/-!
# Materialization — segments as tests of the records

The match of a segment is built (`Built`) from the questions its criteria put to the
materialization context: `segmentMatch_built`.  The general facts about such tests then say how
a discovery run and the runs with complete records compare.

* `Scope`: a set of segments closed under references, with the questions and failures of their
  criteria.  Inside a scope the bound on the recursion is never reached.
* `segmentMatch_eq_and`: where references are acyclic, the targeting check of a unit with a
  record is the targeting half of the segment's match.
-/

namespace ConfidenceResolver

/-! ### The records as an oracle -/

/-- Some record holds the unit in the materialization. -/
def isIncluded (records : List MaterializationRecord) (unit materialization : String) : Bool :=
  records.any fun r => decide (r.unit = unit) && decide (r.materialization = materialization)

theorem recordMissing_records (c : MaterializationContext) (u m k : String) :
    (c.recordMissing u m k).records = c.records := by
  unfold MaterializationContext.recordMissing
  split <;> rfl

theorem recordMissing_toWrite (c : MaterializationContext) (u m k : String) :
    (c.recordMissing u m k).toWrite = c.toWrite := by
  unfold MaterializationContext.recordMissing
  split <;> rfl

/-- The keys a context asks for. -/
def MaterializationContext.asked (c : MaterializationContext) : Set (String × String × String) :=
  {key | ∃ q ∈ c.toRead, q.key = key}

theorem asked_recordMissing (c : MaterializationContext) (u m k : String) :
    (c.recordMissing u m k).asked = insert (u, m, k) c.asked := by
  ext key
  unfold MaterializationContext.recordMissing
  by_cases h : c.toRead.any fun q => q.isFor u m k
  · rw [if_pos h]
    obtain ⟨q, hq, hk⟩ := List.any_eq_true.mp h
    refine ⟨.inr, fun hk' => ?_⟩
    rcases hk' with rfl | hk'
    · exact ⟨q, hq, MaterializationRecord.isFor_iff.mp hk⟩
    · exact hk'
  · rw [if_neg h]
    simp only [MaterializationContext.asked, List.mem_append, List.mem_singleton,
      Set.mem_ofPred_eq, Set.mem_insert_iff]
    constructor
    · rintro ⟨q, hq | rfl, rfl⟩
      · exact .inr ⟨q, hq, rfl⟩
      · exact .inl rfl
    · rintro (rfl | ⟨q, hq, rfl⟩)
      · exact ⟨_, .inr rfl, rfl⟩
      · exact ⟨q, .inl hq, rfl⟩

theorem asked_eq_empty {c : MaterializationContext} : c.asked = ∅ ↔ c.toRead = [] := by
  constructor
  · intro h
    rcases e : c.toRead with _ | ⟨q, qs⟩
    · rfl
    · have : q.key ∈ c.asked := ⟨q, by simp [e], rfl⟩
      rw [h] at this
      exact this.elim
  · intro h
    ext key
    simp [MaterializationContext.asked, h]

/-- The context as an oracle on questions `(materialization, unit)`. -/
def materializationOracle :
    Oracle MaterializationContext ResolveError (String × String) (String × String × String) where
  ask k := MaterializationContext.isUnitInMaterialization k.1 k.2
  Open c := c.records = .discovery
  Closed c := ∃ records, c.records = .complete records
  key k := (k.2, k.1, "")
  seen := MaterializationContext.asked
  answer c k := match c.records with
    | .complete records => isIncluded records k.2 k.1
    | _ => false
  ask_open k c h := by
    unfold MaterializationContext.isUnitInMaterialization
    simp only [h]
    exact ⟨trivial, (recordMissing_records c _ _ _).trans h, asked_recordMissing c _ _ _⟩
  ask_closed k c := by
    rintro ⟨records, h⟩
    simp only [MaterializationContext.isUnitInMaterialization, h]
    rfl

/-! ### References -/

/-- `a` has a criterion on the segment `b`. -/
def ResolverState.References (s : ResolverState) (a b : Segment) : Prop :=
  ∃ t id name, a.targeting = some t ∧ t.criteria.lookup id = some (some (.segment name)) ∧
    s.segments.get name = some b

/-- No segment refers to itself, directly or through others. -/
def ResolverState.Acyclic (s : ResolverState) : Prop :=
  ∀ a, ¬ Relation.TransGen s.References a a

theorem ResolverState.References.mem {s : ResolverState} {a b : Segment} (h : s.References a b) :
    b ∈ s.segments.values := by
  obtain ⟨t, id, name, -, -, hb⟩ := h
  exact (NamedMap.get_some hb).1

/-! ### The failures of a criterion -/

/-- The failures of a segment's match. -/
def testErrors : Set ResolveError :=
  {e | e = .unrecognizedRule ∨ e = .internal .parseNumber ∨ e = .panic ∨
    e = .internal .accountSalt}

theorem convertString_error {nat : Natives} {s : String} {expected : Option TargetingKind}
    {e : ResolveError} (h : convertString nat s expected = .error e) :
    e = .internal .parseNumber := by
  unfold convertString at h
  split at h
  · cases h
  · split at h <;> cases h
    rfl
  · cases h
  · split at h <;> cases h
  · cases h
  · cases h

mutual

theorem convertToTargetingValue_error {nat : Natives} {expected : Option TargetingKind}
    {e : ResolveError} : ∀ {v : Value}, convertToTargetingValue nat expected v = .error e →
      e = .internal .parseNumber
  | .unset, h | .null, h | .struct _, h | .number _, h => by
      simp only [convertToTargetingValue] at h; cases h
  | .string s, h => by
      simp only [convertToTargetingValue] at h
      exact convertString_error h
  | .bool b, h => by
      simp only [convertToTargetingValue] at h
      split at h <;> cases h
  | .list values, h => by
      simp only [convertToTargetingValue] at h
      rcases hv : convertToTargetingValues nat expected values with e' | ks
      · rw [hv] at h; cases h; exact convertToTargetingValues_error hv
      · rw [hv] at h; cases h

theorem convertToTargetingValues_error {nat : Natives} {expected : Option TargetingKind}
    {e : ResolveError} : ∀ {vs : List Value}, convertToTargetingValues nat expected vs = .error e →
      e = .internal .parseNumber
  | [], h => by simp only [convertToTargetingValues] at h; cases h
  | v :: vs, h => by
      simp only [convertToTargetingValues, bind, Except.bind] at h
      rcases hv : convertToTargetingValue nat expected v with e' | k
      · rw [hv] at h; cases h; exact convertToTargetingValue_error hv
      · rw [hv] at h
        rcases hvs : convertToTargetingValues nat expected vs with e' | ks
        · rw [hvs] at h; cases h; exact convertToTargetingValues_error hvs
        · rw [hvs] at h; cases h

end

theorem evaluateInnerRule_error {rule : Option InnerRule} {v : TargetingValue}
    {e : ResolveError} (h : evaluateInnerRule rule v = .error e) : e = .unrecognizedRule := by
  unfold evaluateInnerRule at h
  split at h
  · unfold InnerRule.evaluate at h
    split at h <;> cases h
    rfl
  · cases h; rfl

theorem evaluateAny_error {rule : Option InnerRule} {vs : List TargetingValue}
    {e : ResolveError} (h : evaluateAny rule vs = .error e) : e = .unrecognizedRule := by
  induction vs with
  | nil => cases h
  | cons v vs ih =>
      simp only [evaluateAny, bind, Except.bind] at h
      rcases hv : evaluateInnerRule rule v with e' | _ | _
      · rw [hv] at h; cases h; exact evaluateInnerRule_error hv
      · rw [hv] at h; exact ih h
      · rw [hv] at h; cases h

theorem evaluateAll_error {rule : Option InnerRule} {vs : List TargetingValue}
    {e : ResolveError} (h : evaluateAll rule vs = .error e) : e = .unrecognizedRule := by
  induction vs with
  | nil => cases h
  | cons v vs ih =>
      simp only [evaluateAll, bind, Except.bind] at h
      rcases hv : evaluateInnerRule rule v with e' | _ | _
      · rw [hv] at h; cases h; exact evaluateInnerRule_error hv
      · rw [hv] at h; cases h
      · rw [hv] at h; exact ih h

theorem evaluateCriterion_error {c : AttributeCriterion} {wrapped : List TargetingValue}
    {e : ResolveError} (h : evaluateCriterion c wrapped = .error e) : e = .unrecognizedRule := by
  unfold evaluateCriterion at h
  split at h
  case h_4 => exact evaluateAny_error h
  case h_5 => exact evaluateAll_error h
  all_goals cases h
  all_goals rfl

/-- A criterion on an attribute fails on a rule that is not recognised, or on a number that does
not parse. -/
theorem evaluateAttribute_fails {nat : Natives} {c : AttributeCriterion} {v : Value}
    {e : ResolveError} (h : evaluateAttribute nat c v = .error e) :
    e = .unrecognizedRule ∨ e = .internal .parseNumber := by
  unfold evaluateAttribute at h
  split at h
  · cases h
  · split at h
    · exact .inl (evaluateCriterion_error h)
    · simp only [bind, Except.bind] at h
      rcases hc : convertForCriterion nat v c with e' | k
      · rw [hc] at h
        cases h
        unfold convertForCriterion at hc
        split at hc
        · cases hc
        · exact .inr (convertToTargetingValue_error hc)
      · rw [hc] at h
        exact .inl (evaluateCriterion_error h)

theorem evaluateAttribute_error {nat : Natives} {c : AttributeCriterion} {v : Value}
    {e : ResolveError} (h : evaluateAttribute nat c v = .error e) : e ∈ testErrors :=
  (evaluateAttribute_fails h).imp_right .inl

namespace AccountResolver

variable {r : AccountResolver} {unit : Option String}

/-- Segments of the state closed under references, whose criteria ask questions in `S` and fail
in `E`. -/
structure Scope (r : AccountResolver) (unit : Option String) (G : Set Segment)
    (S : Set (String × String)) (E : Set ResolveError) : Prop where
  mem : ∀ {a}, a ∈ G → a ∈ r.state.segments.values
  closed : ∀ {a b}, a ∈ G → r.state.References a b → b ∈ G
  fails : ∀ {a t id c e}, a ∈ G → a.targeting = some t →
    t.criteria.lookup id = some (some (.attribute c)) →
    evaluateAttribute r.natives c (r.getAttributeValue c.attributeName) = .error e → e ∈ E
  asks : ∀ {a t id m u}, a ∈ G → a.targeting = some t →
    t.criteria.lookup id = some (some (.materializedSegment m)) → unit = some u →
    r.state.bloomFilters.lookup m = none → (m, u) ∈ S
  panic : ResolveError.panic ∈ E
  salt : ResolveError.internal .accountSalt ∈ E

/-- All segments, with all questions and all the failures a segment's match has. -/
theorem Scope.all (r : AccountResolver) (unit : Option String) :
    Scope r unit {a | a ∈ r.state.segments.values} Set.univ testErrors where
  mem h := h
  closed _ h := h.mem
  fails _ _ _ h := evaluateAttribute_error h
  asks _ _ _ _ _ := trivial
  panic := .inr (.inr (.inl rfl))
  salt := .inr (.inr (.inr rfl))

/-- The segments that are not visited yet: what bounds the recursion. -/
def unvisited (r : AccountResolver) (visited : List String) : Nat :=
  r.state.segments.values.countP fun a => decide (a.name ∉ visited)

theorem unvisited_cons_lt {a : Segment} (ha : a ∈ r.state.segments.values)
    {visited : List String} (h : a.name ∉ visited) :
    r.unvisited (a.name :: visited) < r.unvisited visited := by
  unfold unvisited
  generalize r.state.segments.values = vs at ha
  have hle : ∀ l : List Segment, (l.countP fun b => decide (b.name ∉ a.name :: visited)) ≤
      l.countP fun b => decide (b.name ∉ visited) := fun l =>
    List.countP_mono_left fun b _ hb => by
      simp only [List.mem_cons, not_or, decide_eq_true_eq] at hb ⊢
      exact hb.2
  induction vs with
  | nil => cases ha
  | cons b vs ih =>
      rw [List.countP_cons, List.countP_cons]
      rcases List.mem_cons.mp ha with rfl | ha
      · have := hle vs
        simp only [List.mem_cons, true_or, not_true, decide_false, h, not_false_eq_true,
          decide_true, if_true]
        simp only [List.mem_cons] at this
        simp only [Bool.false_eq_true, if_false]
        omega
      · have := ih ha
        have hb : (decide (b.name ∉ a.name :: visited)) = true →
            decide (b.name ∉ visited) = true := by
          simp only [List.mem_cons, not_or, decide_eq_true_eq]
          exact fun h => h.2
        split
        · next h' => rw [if_pos (hb h')]; omega
        · split <;> omega

theorem unvisited_le (visited : List String) :
    r.unvisited visited ≤ r.state.segments.values.length :=
  List.countP_le_length

section Built

variable {G : Set Segment} {S : Set (String × String)} {E : Set ResolveError}

theorem materializedSegmentMatch_built {m : String} (hp : ResolveError.panic ∈ E)
    (hS : ∀ u, unit = some u → r.state.bloomFilters.lookup m = none → (m, u) ∈ S) :
    Built materializationOracle S E (r.materializedSegmentMatch unit m) := by
  unfold materializedSegmentMatch
  split
  · exact .const false
  · next u =>
      split
      · split
        · next b _ => exact .const b
        · exact .fail hp
      · next h => exact .ask (O := materializationOracle) (hS u rfl h)

theorem criterionEvaluator_built (hG : Scope r unit G S E) {a : Segment} (ha : a ∈ G)
    {t : Targeting} (ht : a.targeting = some t) {visited : List String}
    {self : Segment → List String → ResolveM Tribool}
    (hself : ∀ b, r.state.References a b → Built materializationOracle S E (self b visited))
    (id : String) :
    Built materializationOracle S E (r.criterionEvaluator unit self t visited id) := by
  unfold criterionEvaluator
  split
  · next c hc =>
      rcases e : evaluateAttribute r.natives c (r.getAttributeValue c.attributeName) with x | b
      · exact .fail (hG.fails ha ht hc e)
      · exact .const b
  · next name hc =>
      split
      · next b hb => exact hself b ⟨t, id, name, ht, hc, hb⟩
      · exact .const false
  · next m hc =>
      exact materializedSegmentMatch_built hG.panic fun u hu hm => hG.asks ha ht hc hu hm
  · exact .const false

theorem targetingMatch_built (hG : Scope r unit G S E) {a : Segment} (ha : a ∈ G)
    {visited : List String} {self : Segment → List String → ResolveM Tribool}
    (hself : ∀ b, r.state.References a b → Built materializationOracle S E (self b visited)) :
    Built materializationOracle S E (r.targetingMatch unit self a visited) := by
  unfold targetingMatch
  split
  · exact .const true
  · next t ht =>
      split
      · exact .const true
      · next e _ =>
          exact evaluateExpression_built (criterionEvaluator_built hG ha ht hself) e

theorem bitsetMatch_built (hs : ResolveError.internal .accountSalt ∈ E) (a : Segment) :
    Built materializationOracle S E (r.bitsetMatch unit a) := by
  unfold bitsetMatch
  split
  · exact .const true
  · split
    · exact .const _
    · split
      · exact .fail hs
      · exact .const _

/-- **The match of a segment is a test of the records.**  The fuel suffices for the segments that
are not visited yet, so the recursion bound is no failure of the test. -/
theorem segmentMatchInternal_built (hG : Scope r unit G S E) :
    ∀ {n : Nat} {a : Segment} {visited : List String}, a ∈ G → r.unvisited visited ≤ n →
      Built materializationOracle S E (r.segmentMatchInternal unit n a visited) := by
  intro n
  induction n with
  | zero =>
      intro a visited ha hn
      rw [segmentMatchInternal]
      have hv : visited.contains a.name = true := by
        by_contra hv
        have hv' : a.name ∉ visited := by simpa using hv
        have := unvisited_cons_lt (hG.mem ha) hv'
        omega
      rw [if_pos hv]
      exact .const false
  | succ n ih =>
      intro a visited ha hn
      rw [segmentMatchInternal]
      by_cases hv : visited.contains a.name
      · rw [if_pos hv]
        exact .const false
      · rw [if_neg hv]
        have hv' : a.name ∉ visited := by simpa using hv
        have hlt := unvisited_cons_lt (hG.mem ha) hv'
        exact .and (targetingMatch_built hG ha fun b hb => ih (hG.closed ha hb) (by omega))
          (bitsetMatch_built hG.salt a)

theorem segmentMatch_built (hG : Scope r unit G S E) {a : Segment} (ha : a ∈ G) :
    Built materializationOracle S E (r.segmentMatch unit a) :=
  segmentMatchInternal_built hG ha (Nat.le_succ_of_le (unvisited_le _))

theorem targetingMatchFresh_built (hG : Scope r unit G S E) {a : Segment} (ha : a ∈ G) :
    Built materializationOracle S E (r.targetingMatchFresh unit a) :=
  targetingMatch_built hG ha fun _ hb =>
    segmentMatchInternal_built hG (hG.closed ha hb) (unvisited_le _)

end Built

/-! ### Acyclic references -/

/-- A targeting that refers to segments on which two evaluations agree. -/
theorem targetingMatch_congr {a : Segment} {v w : List String}
    {self self' : Segment → List String → ResolveM Tribool}
    (h : ∀ b, r.state.References a b → self b v = self' b w) :
    r.targetingMatch unit self a v = r.targetingMatch unit self' a w := by
  unfold targetingMatch
  split
  · rfl
  · next t ht =>
      have hc : r.criterionEvaluator unit self t v = r.criterionEvaluator unit self' t w := by
        funext id
        unfold criterionEvaluator
        split
        · rfl
        · next name hc =>
            split
            · next b hb => exact h b ⟨t, id, name, ht, hc, hb⟩
            · rfl
        · rfl
        · rfl
      rw [hc]

/-- Visited segments that cannot be reached make no difference. -/
theorem segmentMatchInternal_congr (hr : r.state.Acyclic) :
    ∀ {n : Nat} {a : Segment} {v w : List String}, a ∈ r.state.segments.values →
      (∀ b ∈ r.state.segments.values, Relation.ReflTransGen r.state.References a b →
        b.name ∉ v ∧ b.name ∉ w) →
      r.segmentMatchInternal unit n a v = r.segmentMatchInternal unit n a w := by
  intro n
  induction n with
  | zero =>
      intro a v w ha h
      obtain ⟨hv, hw⟩ := h a ha .refl
      simp [segmentMatchInternal, hv, hw]
  | succ n ih =>
      intro a v w ha h
      obtain ⟨hv, hw⟩ := h a ha .refl
      rw [segmentMatchInternal, segmentMatchInternal, if_neg (by simpa using hv),
        if_neg (by simpa using hw)]
      congr 1
      refine targetingMatch_congr fun b hb => ih hb.mem fun d hd hbd => ?_
      obtain ⟨hdv, hdw⟩ := h d hd (.head hb hbd)
      -- a segment named like `a` and reachable from `a` would be `a` on a cycle
      have hne : d.name ≠ a.name := fun e => by
        obtain rfl := NamedMap.eq_of_name hd ha e
        exact hr d (Relation.TransGen.head' hb hbd)
      exact ⟨by simp [hne, hdv], by simp [hne, hdw]⟩

/-- The check of a unit with a record evaluates the targeting half of the segment's match. -/
theorem segmentMatch_eq_and (hr : r.state.Acyclic) {a : Segment}
    (ha : a ∈ r.state.segments.values) :
    r.segmentMatch unit a = Test.and (r.targetingMatchFresh unit a) (r.bitsetMatch unit a) := by
  unfold segmentMatch targetingMatchFresh
  rw [segmentMatchInternal, if_neg (by simp)]
  congr 1
  refine targetingMatch_congr fun b hb => segmentMatchInternal_congr hr hb.mem fun d hd hbd => ?_
  refine ⟨fun e => ?_, by simp⟩
  obtain rfl := NamedMap.eq_of_name hd ha (List.mem_singleton.mp e)
  exact hr d (Relation.TransGen.head' hb hbd)

end AccountResolver

end ConfidenceResolver
