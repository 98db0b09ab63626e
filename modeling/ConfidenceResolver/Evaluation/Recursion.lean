import ConfidenceResolver.Evaluation.Failures

/-!
# Evaluation — the recursion over segments

The match of a segment calls itself for the segments it refers to.  The model bounds that recursion
by a number; here the bound is shown to be no part of the result.

* `Solves`: the equation of `segment_match_internal`, without a bound.  `segmentEval_solves`,
  `Solves.eq_segmentEval`: it has one solution, which the model computes.
* `plainMatch`: the recursion without the set of visited segments.
* `segmentEval_eq_plain`: on acyclic references they agree, whatever way led to the segment.
-/

namespace ConfidenceResolver

namespace AccountResolver

variable (r : AccountResolver) (unit : Option String)

/-! ### The equation -/

/-- The body of `segment_match_internal`; `self` evaluates the segments referred to. -/
def segmentBody (self : Segment → List String → ResolveM Tribool) (segment : Segment)
    (visited : List String) : ResolveM Tribool :=
  if visited.contains segment.name then Test.const false
  else
    Test.and (r.targetingMatch unit self segment (segment.name :: visited))
      (r.bitsetMatch unit segment)

/-- `f` satisfies the equation at the segments of the state. -/
def Solves (f : Segment → List String → ResolveM Tribool) : Prop :=
  ∀ a ∈ r.state.segments.values, ∀ visited, f a visited = r.segmentBody unit f a visited

/-- The match of a segment, from any set of visited segments. -/
def segmentEval (segment : Segment) (visited : List String) : ResolveM Tribool :=
  r.segmentMatchInternal unit r.state.segments.values.length segment visited

/-- The recursion without a set of visited segments, up to a depth. -/
def plainMatch : Nat → Segment → ResolveM Tribool
  | 0, _ => Eff.throw (.internal .recursionBound)
  | n + 1, segment =>
      Test.and (r.targetingMatch unit (fun b _ => plainMatch n b) segment [])
        (r.bitsetMatch unit segment)

/-- The targeting of a segment, over the plain recursion. -/
def plainTargeting (n : Nat) (segment : Segment) : ResolveM Tribool :=
  r.targetingMatch unit (fun b _ => r.plainMatch unit n b) segment []

/-- From the match of `a`, a chain of references leads to `b`, with the set of visited segments that
the code then has. -/
inductive Visits (a : Segment) : Segment → List String → Prop where
  | start : Visits a a []
  | follow {b c : Segment} {visited : List String} (h : Visits a b visited)
      (href : r.state.References b c) : Visits a c (b.name :: visited)

variable {r unit}

theorem segmentMatchInternal_eq_body (n : Nat) (a : Segment) (visited : List String) :
    r.segmentMatchInternal unit (n + 1) a visited =
      r.segmentBody unit (r.segmentMatchInternal unit n) a visited := rfl

/-- The body at a segment, over two evaluations that agree where one more segment is visited. -/
theorem segmentBody_congr {a : Segment} {visited : List String}
    {f g : Segment → List String → ResolveM Tribool}
    (h : a.name ∉ visited → ∀ b, r.state.References a b →
      f b (a.name :: visited) = g b (a.name :: visited)) :
    r.segmentBody unit f a visited = r.segmentBody unit g a visited := by
  rw [segmentBody, segmentBody]
  by_cases hv : visited.contains a.name
  · rw [if_pos hv, if_pos hv]
  · rw [if_neg hv, if_neg hv]
    congr 1
    exact targetingMatch_congr (h (by simpa using hv))

/-- A segment that is visited, at any bound. -/
theorem segmentMatchInternal_visited (n : Nat) {a : Segment} {visited : List String}
    (hv : a.name ∈ visited) : r.segmentMatchInternal unit n a visited = Test.const false := by
  have hcontains : visited.contains a.name = true := by simpa using hv
  cases n <;> rw [segmentMatchInternal, if_pos hcontains]

/-- **The bound is no part of the result**: a larger one gives the same. -/
theorem segmentMatchInternal_bound {n : Nat} : ∀ {m : Nat} {a : Segment} {visited : List String},
    a ∈ r.state.segments.values → r.unvisited visited ≤ n → r.unvisited visited ≤ m →
      r.segmentMatchInternal unit n a visited = r.segmentMatchInternal unit m a visited := by
  induction n with
  | zero =>
      intro m a visited ha hn _
      have hv : a.name ∈ visited := by
        by_contra hv
        exact absurd (unvisited_cons_lt ha hv) (by rw [Nat.le_zero.mp hn]; exact Nat.not_lt_zero _)
      rw [segmentMatchInternal_visited 0 hv, segmentMatchInternal_visited m hv]
  | succ n ih =>
      intro m a visited ha hn hm
      by_cases hv : a.name ∈ visited
      · rw [segmentMatchInternal_visited _ hv, segmentMatchInternal_visited m hv]
      · -- one more visited segment: both bounds go down by one
        have hlt := unvisited_cons_lt ha hv
        obtain ⟨m, rfl⟩ : ∃ k, m = k + 1 :=
          Nat.exists_eq_succ_of_ne_zero (Nat.ne_zero_of_lt (Nat.lt_of_lt_of_le hlt hm))
        rw [segmentMatchInternal_eq_body, segmentMatchInternal_eq_body]
        exact segmentBody_congr fun _ b hb => ih hb.mem
          (Nat.le_of_lt_succ (Nat.lt_of_lt_of_le hlt hn))
          (Nat.le_of_lt_succ (Nat.lt_of_lt_of_le hlt hm))

/-- The model's match satisfies the equation of the code. -/
theorem segmentEval_solves : r.Solves unit (r.segmentEval unit) := by
  intro a ha visited
  rw [segmentEval, segmentMatchInternal_bound ha (unvisited_le _) (Nat.le_succ_of_le (unvisited_le _)),
    segmentMatchInternal_eq_body]
  rfl

/-- The equation has no other solution: the recursion ends, on any graph of references. -/
theorem Solves.eq_segmentEval {f : Segment → List String → ResolveM Tribool}
    (h : r.Solves unit f) {a : Segment} (ha : a ∈ r.state.segments.values)
    (visited : List String) : f a visited = r.segmentEval unit a visited := by
  induction hn : r.unvisited visited using Nat.strong_induction_on generalizing a visited with
  | _ n ih =>
      rw [h a ha, segmentEval_solves a ha]
      refine segmentBody_congr fun hv b hb => ?_
      exact ih _ (hn ▸ unvisited_cons_lt ha hv) hb.mem _ rfl

theorem segmentMatch_eq_eval {a : Segment} (ha : a ∈ r.state.segments.values) :
    r.segmentMatch unit a = r.segmentEval unit a [] :=
  segmentMatchInternal_bound ha (Nat.le_succ_of_le (unvisited_le _)) (unvisited_le _)

/-! ### The bound is not reached -/

theorem materializationOracle_avoids {e : ResolveError} (he : Foreign e) (k : String × String) :
    Eff.Avoids e (materializationOracle.ask k) := he.isUnitInMaterialization _ _

/-- The segments of a state do not reach the bound. -/
theorem segmentsAvoid_recursionBound (r : AccountResolver) :
    r.SegmentsAvoid (.internal .recursionBound) := by
  have hE : ResolveError.internal .recursionBound ∉ testErrors := by simp [testErrors]
  intro unit a ha
  exact ⟨(segmentMatch_built (Scope.all r unit) ha).avoids hE
      (materializationOracle_avoids foreign_recursionBound),
    (targetingMatchFresh_built (Scope.all r unit) ha).avoids hE
      (materializationOracle_avoids foreign_recursionBound)⟩

/-! ### Plain recursion -/

/-- Where no visited segment can be reached, the plain recursion is the match. -/
theorem plainMatch_eq (hr : r.state.Acyclic) {n : Nat} : ∀ {a : Segment} {visited : List String},
    a ∈ r.state.segments.values → r.unvisited visited ≤ n →
      (∀ b ∈ r.state.segments.values, Relation.ReflTransGen r.state.References a b →
        b.name ∉ visited) →
      r.plainMatch unit n a = r.segmentMatchInternal unit n a visited := by
  induction n with
  | zero =>
      intro a visited ha hn h
      have hlt := unvisited_cons_lt ha (h a ha .refl)
      rw [Nat.le_zero.mp hn] at hlt
      exact absurd hlt (Nat.not_lt_zero _)
  | succ n ih =>
      intro a visited ha hn h
      have hv := h a ha .refl
      have hlt := unvisited_cons_lt ha hv
      rw [segmentMatchInternal_eq_body, segmentBody, if_neg (by simpa using hv), plainMatch]
      congr 1
      refine targetingMatch_congr fun b hb => ih hb.mem
        (Nat.le_of_lt_succ (Nat.lt_of_lt_of_le hlt hn)) fun c hc hbc => ?_
      rw [List.mem_cons, not_or]
      refine ⟨fun hname => ?_, h c hc (.head hb hbc)⟩
      -- a segment named like `a` and reachable from `a` would be `a` on a cycle
      obtain rfl := NamedMap.eq_of_name hc ha hname
      exact hr c (Relation.TransGen.head' hb hbc)

/-- On the way to `b`, a visited segment refers to `b` through others. -/
theorem Visits.reaches {a b : Segment} {visited : List String} (h : r.Visits a b visited)
    (ha : a ∈ r.state.segments.values) : b ∈ r.state.segments.values ∧
      ∀ name ∈ visited, ∃ d ∈ r.state.segments.values, d.name = name ∧
        Relation.TransGen r.state.References d b := by
  induction h with
  | start => exact ⟨ha, fun name hname => absurd hname List.not_mem_nil⟩
  | @follow b c visited _ href ih =>
      refine ⟨href.mem, fun name hname => ?_⟩
      obtain rfl | hname := List.mem_cons.mp hname
      · exact ⟨b, ih.1, rfl, .single href⟩
      · obtain ⟨d, hd, hdname, hdb⟩ := ih.2 name hname
        exact ⟨d, hd, hdname, hdb.tail href⟩

/-- **On every way**: a segment evaluates to the plain recursion, and is not taken for a cycle. -/
theorem segmentEval_eq_plain (hr : r.state.Acyclic) {a b : Segment} {visited : List String}
    (ha : a ∈ r.state.segments.values) (h : r.Visits a b visited) {n : Nat}
    (hn : r.state.segments.values.length ≤ n) :
    r.segmentEval unit b visited = r.plainMatch unit n b := by
  obtain ⟨hb, hvisited⟩ := h.reaches ha
  rw [plainMatch_eq hr hb (Nat.le_trans (unvisited_le visited) hn) fun c hc hbc hname => ?_,
    segmentEval]
  · exact segmentMatchInternal_bound hb (unvisited_le _) (Nat.le_trans (unvisited_le _) hn)
  · obtain ⟨d, hd, hdname, hdb⟩ := hvisited c.name hname
    obtain rfl := NamedMap.eq_of_name hd hc hdname
    exact hr d (hdb.trans_left hbc)

/-- The check of the targeting alone, over the plain recursion. -/
theorem targetingMatchFresh_eq_plain (hr : r.state.Acyclic) (a : Segment) {n : Nat}
    (hn : r.state.segments.values.length ≤ n) :
    r.targetingMatchFresh unit a = r.plainTargeting unit n a :=
  targetingMatch_congr fun _ hb => segmentEval_eq_plain hr hb.mem .start hn

/-- **Segment evaluation**: on any graph of references the recursion has one result, and no flag
meets the model's bound; on an acyclic one it is the plain recursion, on every way to a segment. -/
theorem segment_evaluation (r : AccountResolver) (unit : Option String) :
    (r.Solves unit (r.segmentEval unit) ∧
      ∀ f, r.Solves unit f → ∀ a ∈ r.state.segments.values, ∀ visited,
        f a visited = r.segmentEval unit a visited) ∧
    (∀ a ∈ r.state.segments.values, r.segmentMatch unit a = r.segmentEval unit a []) ∧
    (∀ (flag : Flag) (c : MaterializationContext),
      (r.resolveFlag flag c).1 ≠ .error (.internal .recursionBound)) ∧
    (r.state.Acyclic → ∀ n, r.state.segments.values.length ≤ n → ∀ a ∈ r.state.segments.values,
      r.segmentMatch unit a = r.plainMatch unit n a ∧
      r.targetingMatchFresh unit a = r.plainTargeting unit n a ∧
      ∀ b visited, r.Visits a b visited →
        r.segmentEval unit b visited = r.plainMatch unit n b) := by
  refine ⟨⟨segmentEval_solves, fun f hf a ha visited => hf.eq_segmentEval ha visited⟩,
    fun a ha => segmentMatch_eq_eval ha, fun flag c => ?_, fun hr n hn a ha => ⟨?_, ?_, ?_⟩⟩
  · exact resolveFlag_avoids foreign_recursionBound (segmentsAvoid_recursionBound r) flag c
  · rw [segmentMatch_eq_eval ha]
    exact segmentEval_eq_plain hr ha .start hn
  · exact targetingMatchFresh_eq_plain hr a hn
  · exact fun b visited h => segmentEval_eq_plain hr ha h hn

end AccountResolver

end ConfidenceResolver
