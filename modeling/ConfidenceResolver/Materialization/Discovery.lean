import ConfidenceResolver.Materialization.SuspendResume

/-!
# Materialization — the reads of a suspended request

A suspended request hands out the keys of the records to read.  Records that agree on these keys
lead to the same second pass.

* `Uniform`: a computation does the same from all contexts of a set that hold the same writes.
  Matching a rule is uniform on records that agree on what the first pass asked for, and so is
  everything built from it.
* `discovery_suffices`: resuming with records that agree on the reads gives one outcome.
* `resume_resolves`: a resumed request does not suspend again.
-/

namespace ConfidenceResolver

/-! ### Computations that do not tell contexts apart -/

section Uniform

variable {α β : Type} {B : Set MaterializationRecords} {E : Set ResolveError} {x : ResolveM α}

/-- From contexts with records in `B` and the same writes, `x` has the same result and leaves the
same writes. -/
def Uniform (B : Set MaterializationRecords) (x : ResolveM α) : Prop :=
  ∀ c c', c.records ∈ B → c'.records ∈ B → c.toWrite = c'.toWrite →
    (x c).1 = (x c').1 ∧ (x c).2.toWrite = (x c').2.toWrite ∧
      (x c).2.records ∈ B ∧ (x c').2.records ∈ B

theorem Observes.uniform (h : Observes B E x) : Uniform B x := by
  obtain ⟨res, A, h, -⟩ := h
  intro c c' hc hc' hw
  obtain ⟨h₁, h₂, h₃, -⟩ := h _ hc c rfl
  obtain ⟨h₄, h₅, h₆, -⟩ := h _ hc' c' rfl
  exact ⟨h₁.trans h₄.symm, by rw [h₃, h₆, hw], h₂ ▸ hc, h₅ ▸ hc'⟩

theorem Uniform.pure (a : α) : Uniform B (Pure.pure a : ResolveM α) :=
  fun _ _ hc hc' hw => ⟨rfl, hw, hc, hc'⟩

theorem Uniform.lift (res : Except ResolveError α) : Uniform B (Eff.lift res : ResolveM α) :=
  fun _ _ hc hc' hw => ⟨rfl, hw, hc, hc'⟩

theorem Uniform.bind {f : α → ResolveM β} (hx : Uniform B x) (hf : ∀ a, Uniform B (f a)) :
    Uniform B (x >>= f) := by
  intro c c' hc hc' hw
  obtain ⟨h₁, h₂, h₃, h₄⟩ := hx c c' hc hc' hw
  rcases e : x c with ⟨res, d⟩
  rcases e' : x c' with ⟨res', d'⟩
  rw [e, e'] at h₁ h₂
  rw [e] at h₃
  rw [e'] at h₄
  obtain rfl : res = res' := h₁
  rcases res with err | a
  · rw [Eff.bind_of_error e, Eff.bind_of_error e']
    exact ⟨rfl, h₂, h₃, h₄⟩
  · rw [Eff.bind_of_ok e, Eff.bind_of_ok e']
    exact hf a d d' h₃ h₄ h₂

end Uniform

namespace AccountResolver

variable {Bytes : Type} {r : AccountResolver} {wire : Wire Bytes} {host host' : Host Bytes}
  {visit visit' : List Flag} {request : ResolveFlagsRequest} {B : Set MaterializationRecords}
  {R R' : List MaterializationRecord} {rule : Rule} {a : Segment} {spec : AssignmentSpec}
  {unit : Option String}

/-! ### A flag -/

theorem addToWrite_uniform (hB : .unsupported ∉ B) (u m k v : String) :
    Uniform B (MaterializationContext.addToWrite u m k v) := by
  intro c c' hc hc' hw
  have hne : c.records ≠ .unsupported := fun h => hB (h ▸ hc)
  have hne' : c'.records ≠ .unsupported := fun h => hB (h ▸ hc')
  simp only [MaterializationContext.addToWrite, if_neg hne, if_neg hne', hw]
  by_cases hdup : (c'.toWrite.any fun q => q.isFor u m k) = true
  · simp only [if_pos hdup]
    exact ⟨trivial, hw, hc, hc'⟩
  · simp only [if_neg hdup]
    exact ⟨trivial, trivial, hc, hc'⟩

theorem writeAssignment_uniform (hB : .unsupported ∉ B) (rule : Rule) (unit : Option String)
    (variantName : String) : Uniform B (writeAssignment rule unit variantName) := by
  rcases unit with _ | u
  · exact .pure ()
  · rcases hw : rule.writes with _ | m
    · simp only [writeAssignment, hw]
      exact .pure ()
    · simp only [writeAssignment, hw]
      exact addToWrite_uniform hB u m rule.name variantName

theorem assignRule_uniform (hB : .unsupported ∉ B) (rule : Rule) (a : Segment)
    (spec : AssignmentSpec) (unit : Option String) (value : ResolvedValue) :
    Uniform B (r.assignRule rule a spec unit value) := by
  refine (Uniform.lift _).bind fun matched => ?_
  rcases matched with _ | ⟨assignmentId, _ | assignment, ranges⟩
  · exact .pure _
  · exact .pure _
  · exact (writeAssignment_uniform hB rule unit _).bind fun _ => .lift _

theorem afterMatch_uniform (hB : .unsupported ∉ B) (rule : Rule) (a : Segment)
    (spec : AssignmentSpec) (unit : Option String) (hasMissing : Bool) (value : ResolvedValue)
    (m : RuleMatch) : Uniform B (r.afterMatch rule a spec unit hasMissing value m) := by
  rcases m with ⟨assignment, u⟩ | missing | ⟨_ | _ | _, missing⟩
  · exact .lift _
  · exact .pure _
  · exact .pure _
  · exact .pure _
  · by_cases hm : (hasMissing || missing) = true
    · rw [afterMatch, if_pos hm]
      exact .pure _
    · rw [afterMatch, if_neg hm]
      exact assignRule_uniform hB rule a spec unit value

/-- A rule whose match is uniform. -/
theorem resolveRule_uniform (hB : .unsupported ∉ B)
    (h : ∀ a spec unit, r.ruleGuard rule = .go a spec unit →
      Uniform B (r.matchRule rule a spec unit)) (hasMissing : Bool) (value : ResolvedValue) :
    Uniform B (r.resolveRule rule hasMissing value) := by
  rcases hg : r.ruleGuard rule with _ | _ | ⟨a, spec, unit⟩ <;> simp only [resolveRule, hg]
  · exact .pure _
  · exact .pure _
  · exact (h a spec unit hg).bind (afterMatch_uniform hB rule a spec unit hasMissing value)

/-- A run over rules whose matches are uniform. -/
theorem runRules_uniform (hB : .unsupported ∉ B) {rules : List Rule}
    (h : ∀ rule ∈ rules, ∀ a spec unit, r.ruleGuard rule = .go a spec unit →
      Uniform B (r.matchRule rule a spec unit)) (hasMissing : Bool) (value : ResolvedValue) :
    Uniform B (r.runRules rules hasMissing value) := by
  induction rules generalizing hasMissing value with
  | nil => exact .pure _
  | cons rule rules ih =>
      refine (resolveRule_uniform hB (h rule List.mem_cons_self) hasMissing value).bind fun p => ?_
      rcases p with ⟨m, v⟩ | v
      · exact ih (fun rule' hr => h rule' (List.mem_cons_of_mem _ hr)) m v
      · exact .pure _

/-- A flag whose rules' matches are uniform. -/
theorem resolveFlag_uniform (hB : .unsupported ∉ B) {flag : Flag} (hf : flag.state ≠ .archived)
    (h : ∀ rule ∈ flag.rules, ∀ a spec unit, r.ruleGuard rule = .go a spec unit →
      Uniform B (r.matchRule rule a spec unit)) : Uniform B (r.resolveFlag flag) := by
  have hinternal : Uniform B (r.resolveFlagInternal flag) := by
    rw [resolveFlagInternal, if_neg hf, resolveRules_eq]
    refine (runRules_uniform hB h _ _).bind fun p => ?_
    rcases p with ⟨_ | _, v⟩ | v
    · exact .pure _
    · exact .lift (.error _)
    · exact .pure _
  intro c c' hc hc' hw
  obtain ⟨h₁, h₂, h₃, h₄⟩ := hinternal c c' hc hc' hw
  rcases e : r.resolveFlagInternal flag c with ⟨res, d⟩
  rcases e' : r.resolveFlagInternal flag c' with ⟨res', d'⟩
  rw [e, e'] at h₁ h₂
  rw [e] at h₃
  rw [e'] at h₄
  obtain rfl : res = res' := h₁
  simp only [resolveFlag, e, e']
  rcases res with err | v
  · cases err <;> exact ⟨rfl, h₂, h₃, h₄⟩
  · exact ⟨rfl, h₂, h₃, h₄⟩

/-- A pass over flags that are uniform. -/
theorem resolveEach_uniform {flags : List Flag}
    (h : ∀ flag ∈ flags, Uniform B (r.resolveFlag flag)) : Uniform B (r.resolveEach flags) := by
  induction flags with
  | nil => exact .pure _
  | cons flag flags ih =>
      have hrest := ih fun f hf => h f (List.mem_cons_of_mem _ hf)
      intro c c' hc hc' hw
      obtain ⟨h₁, h₂, h₃, h₄⟩ := h flag List.mem_cons_self c c' hc hc' hw
      rcases e : r.resolveFlag flag c with ⟨res, d⟩
      rcases e' : r.resolveFlag flag c' with ⟨res', d'⟩
      rw [e, e'] at h₁ h₂
      rw [e] at h₃
      rw [e'] at h₄
      obtain rfl : res = res' := h₁
      rcases res with err | v
      · by_cases hm : err = .missingMaterializations
        · subst hm
          rw [resolveEach_cons_missing e, resolveEach_cons_missing e']
          exact hrest d d' h₃ h₄ h₂
        · rw [resolveEach_cons_fails hm e, resolveEach_cons_fails hm e']
          exact ⟨rfl, h₂, h₃, h₄⟩
      · rw [resolveEach_cons_ok e, resolveEach_cons_ok e']
        exact hrest.bind (fun _ => .pure _) d d' h₃ h₄ h₂

/-! ### What an open flag asked for -/

/-- A first pass that goes on to the end has matched every rule that passes its guard. -/
theorem matched_of_next {rules : List Rule} :
    ∀ {hasMissing m : Bool} {value v : ResolvedValue} {W : List MaterializationRecord}
      {A : Set (String × String × String)},
      Does .discovery (r.runRules rules hasMissing value) (.next m v) W A →
      ∀ rule ∈ rules, ∀ a spec unit, r.ruleGuard rule = .go a spec unit →
        ∃ mt, ∃ A' ⊆ A, Yields .discovery (r.matchRule rule a spec unit) (.ok mt) A' := by
  induction rules with
  | nil => exact fun _ _ h => by cases h
  | cons rule rules ih =>
      intro hasMissing m value v W A h rule' hr a spec unit hg
      obtain ⟨p₁, W₁, A₁, W₂, A₂, h₁, h₂, -, rfl, rfl⟩ := runRules_does_inv (by simp) h
      rcases p₁ with ⟨m₁, v₁⟩ | v₁
      · rcases List.mem_cons.mp hr with rfl | hr
        · rw [resolveRule, hg] at h₁
          obtain ⟨mt, hy, -⟩ := resolveMatched_does_inv (by simp) (ruleGuard_mem hg) h₁
          exact ⟨mt, A₁, Set.subset_union_left, hy⟩
        · obtain ⟨mt, A', hA, hy⟩ := ih h₂ rule' hr a spec unit hg
          exact ⟨mt, A', hA.trans Set.subset_union_right, hy⟩
      · -- a rule that returns ends the run
        obtain ⟨h₃, -, -⟩ := does_pure h₂
        cases h₃

/-- A flag left open does the same on all records on which the rules that the first pass matched
match alike. -/
theorem open_uniform_of (hB : .unsupported ∉ B) {flag : Flag} (hf : flag.state ≠ .archived)
    (hp : r.Passes .discovery flag) (hopen : r.flagValue .discovery flag = none)
    (hmatch : ∀ rule ∈ flag.rules, ∀ a spec unit, r.ruleGuard rule = .go a spec unit →
      ∀ mt, ∀ A ⊆ r.flagAsked .discovery flag,
        Yields .discovery (r.matchRule rule a spec unit) (.ok mt) A →
          Uniform B (r.matchRule rule a spec unit)) : Uniform B (r.resolveFlag flag) := by
  obtain ⟨p, W, A, hd⟩ := hp
  obtain ⟨hv, -, hA⟩ := does_flag hf hd
  rw [hopen] at hv
  rw [hA] at hmatch
  rcases p with ⟨_ | _, v⟩ | v
  · cases hv
  · refine resolveFlag_uniform hB hf fun rule hr a spec unit hg => ?_
    obtain ⟨mt, A', hA', hy⟩ := matched_of_next hd rule hr a spec unit hg
    exact hmatch rule hr a spec unit hg mt A' hA' hy
  · cases hv

/-- A flag left open does the same on records that agree on what the first pass asked for. -/
theorem open_uniform (hc : r.state.Acyclic) (he : r.AttributesEvaluate) {flag : Flag}
    (hf : flag.state ≠ .archived) (hp : r.Passes .discovery flag)
    (hopen : r.flagValue .discovery flag = none) (hR : Agree (r.flagAsked .discovery flag) R R') :
    Uniform {.complete R, .complete R'} (r.resolveFlag flag) :=
  open_uniform_of (by simp) hf hp hopen fun _ _ _ _ _ hg _ _ hA hy =>
    (matchRule_agree hc he (ruleGuard_mem hg) hy (hR.mono hA)).uniform

/-! ### The second pass -/

/-- On flags that are uniform, a second pass has one outcome. -/
theorem resolvePass_uniform {w : List MaterializationRecord} {st : ResolveProcessState}
    {flags : List Flag} (hflags : r.flagsToResolve visit request st.resolvedFlags = flags)
    (hf : ∀ flag ∈ flags, flag.state ≠ .archived)
    (h : ∀ flag ∈ flags, Uniform {.complete R, .complete R'} (r.resolveFlag flag)) :
    r.resolvePass wire host visit request st ⟨[], w, .complete R⟩ =
      r.resolvePass wire host visit request st ⟨[], w, .complete R'⟩ := by
  by_cases hlen : flags.length > maxFlags
  · simp only [resolvePass, hflags, if_pos hlen]
  have hlen : flags.length ≤ maxFlags := not_lt.mp hlen
  obtain ⟨h₁, h₂, -, -⟩ := resolveEach_uniform h ⟨[], w, .complete R⟩ ⟨[], w, .complete R'⟩
    (by simp) (by simp) rfl
  rcases e : r.resolveEach flags ⟨[], w, .complete R⟩ with ⟨res, c⟩
  rcases e' : r.resolveEach flags ⟨[], w, .complete R'⟩ with ⟨res', c'⟩
  rw [e, e'] at h₁ h₂
  obtain rfl : res = res' := h₁
  have hw : c.toWrite = c'.toWrite := h₂
  rcases res with err | as
  · simp only [resolvePass, hflags, if_neg (not_lt.mpr hlen), e, e']
  · -- passes with records ask for nothing
    have hread : ∀ {R : List MaterializationRecord} {c : MaterializationContext},
        r.resolveEach flags ⟨[], w, .complete R⟩ = (.ok as, c) → c.toRead = [] := by
      intro R c e
      obtain ⟨hp, -⟩ := (resolveEach_eq_ok_iff (by simp) hf rfl).mp ⟨as, c, e⟩
      obtain ⟨-, -, -, ha⟩ := resolveEach_outcome (by simp) hf rfl e
      rw [passAsked_complete hf hp, Set.union_empty] at ha
      exact asked_eq_empty.mp (ha.trans (asked_eq_empty.mpr rfl))
    simp only [resolvePass, hflags, if_neg (not_lt.mpr hlen), e, e', hread e, hread e', hw]

/-- **A resumed request is resolved or fails**, whatever its continuation and its records. -/
theorem resume_resolves (r : AccountResolver) (wire : Wire Bytes) (host : Host Bytes)
    (visit : List Flag) (R : List MaterializationRecord) (state : Bytes) :
    ∀ K state' calls,
      r.resolveFlags wire host visit (.resume R state) ≠ .ok (.suspended K state', calls) := by
  intro K state' calls h
  simp only [resolveFlags, start] at h
  rcases hst : wire.decode state with _ | st
  · rw [hst] at h
    cases h
  · rw [hst] at h
    dsimp only at h
    rcases hreq : st.resolveRequest with _ | request
    · rw [hreq] at h
      cases h
    · rw [hreq] at h
      dsimp only at h
      by_cases hlen : (r.flagsToResolve visit request st.resolvedFlags).length > maxFlags
      · simp only [resolvePass, if_pos hlen] at h
        cases h
      · rcases resolvePass_complete wire host R st.materializationsToWrite
            ⟨some request, st.resolvedFlags, []⟩ rfl (fun _ => flagsToResolve_active)
            (not_lt.mp hlen) with ⟨-, -, h'⟩ | ⟨-, e, h', -⟩
        · have h := h'.symm.trans h
          rcases hres : r.respond host request (st.resolvedFlags ++
              (r.flagsToResolve visit request st.resolvedFlags).filterMap
                (r.flagValue (.complete R))) with e | res <;> rw [hres] at h <;> cases h
        · cases h'.symm.trans h

/-- The order in which a second pass visits the flags does not matter, but for its errors. -/
theorem resume_reorder {visit'' : List Flag} {host'' : Host Bytes}
    (hv : visit.Perm r.state.flags.values) (hv' : visit'.Perm r.state.flags.values)
    (hv'' : visit''.Perm r.state.flags.values) {K : List MaterializationRecord} {state : Bytes}
    {calls : List HostCall}
    (hs : r.resolveFlags wire host visit (.deferredMaterializations request) =
      .ok (.suspended K state, calls)) (R : List MaterializationRecord) :
    SameFlags (r.resolveFlags wire host' visit' (.resume R state))
        (r.resolveFlags wire host'' visit'' (.resume R state)) ∧
      SameWrites (r.resolveFlags wire host' visit' (.resume R state))
        (r.resolveFlags wire host'' visit'' (.resume R state)) := by
  obtain ⟨hp, -, hlen, rfl, -⟩ := suspended_inv hs
  have hsecond : (r.leftOpen visit' request).Perm (r.leftOpen visit'' request) :=
    leftOpen_perm (hv'.trans hv''.symm)
  rw [resume_eq rfl, resume_eq rfl]
  exact resolvePass_alike wire host' host'' (flagsToResolve_resumed hv hv' hp)
    (flagsToResolve_resumed hv hv'' hp) (fun _ => leftOpen_active) (fun _ => leftOpen_active)
    (leftOpen_length_le (hv.trans hv'.symm) hlen) (leftOpen_length_le (hv.trans hv''.symm) hlen)
    (forall_congr' fun f => by rw [hsecond.mem_iff]) (disjoint_perm ((hsecond.map _).cons _))
    ((hsecond.filterMap _).append_left _) ((hsecond.flatMap_right _).append_left _)

/-- **Discovery asks for everything that matters.**  Where references are acyclic and attributes
evaluate, sets of records that agree on the reads `K` of a suspended request lead to the same
second pass: to the same outcome if it visits the flags in the same order, and to the same flags
and writes in any order.  A second pass is never suspended. -/
theorem discovery_suffices (hc : r.state.Acyclic) (he : r.AttributesEvaluate)
    (hv : visit.Perm r.state.flags.values) (hv' : visit'.Perm r.state.flags.values)
    {K : List MaterializationRecord} {state : Bytes} {calls : List HostCall}
    (hs : r.resolveFlags wire host visit (.deferredMaterializations request) =
      .ok (.suspended K state, calls)) (hR : Agree {key | ∃ q ∈ K, q.key = key} R R') :
    r.resolveFlags wire host' visit' (.resume R state) =
        r.resolveFlags wire host' visit' (.resume R' state) ∧
      (∀ (host'' : Host Bytes) (visit'' : List Flag), visit''.Perm r.state.flags.values →
        SameFlags (r.resolveFlags wire host' visit' (.resume R state))
            (r.resolveFlags wire host'' visit'' (.resume R' state)) ∧
          SameWrites (r.resolveFlags wire host' visit' (.resume R state))
            (r.resolveFlags wire host'' visit'' (.resume R' state))) ∧
      ∀ K' state' calls',
        r.resolveFlags wire host' visit' (.resume R state) ≠ .ok (.suspended K' state', calls') := by
  have hsame : r.resolveFlags wire host' visit' (.resume R state) =
      r.resolveFlags wire host' visit' (.resume R' state) := by
    obtain ⟨hp, -, -, rfl, hK⟩ := suspended_inv hs
    rw [hK] at hR
    rw [resume_eq rfl, resume_eq rfl]
    refine resolvePass_uniform (flagsToResolve_resumed hv hv' hp)
      (fun _ => leftOpen_active) fun f hf => ?_
    obtain ⟨hreq, hnone⟩ := mem_leftOpen.mp hf
    have hm := (requested_perm (hv'.trans hv.symm)).mem_iff.mp hreq
    exact open_uniform hc he (requested_active hreq) (hp f hm) hnone
      (hR.mono fun key hk => ⟨f, hm, hk⟩)
  refine ⟨hsame, fun host'' visit'' hv'' => ?_, resume_resolves r wire host' visit' R state⟩
  rw [hsame]
  exact resume_reorder hv hv' hv'' hs R'

end AccountResolver

/-! ### A segment that refers to a materialized segment -/

/-- The units of the materialized segment `m`. -/
def Sample.inMaterialized : Segment :=
  ⟨"segments/s", some ⟨[("c", some (.materializedSegment "m"))], some (.ref "c")⟩⟩

/-- A flag for the units of `m`. -/
def Sample.materialized : AccountResolver :=
  Sample.resolver [Sample.flag "flags/f" [Sample.rule "flags/f/rules/1" (.variant "on")]]
    [Sample.inMaterialized] (by decide) (by decide)

theorem Sample.materialized_acyclic : Sample.materialized.state.Acyclic := by
  intro a h
  obtain ⟨b, ⟨t, id, name, ht, hc, -⟩, -⟩ := Relation.TransGen.head'_iff.mp h
  obtain ⟨d, -, hd⟩ := Relation.TransGen.tail'_iff.mp h
  obtain rfl := List.mem_singleton.mp hd.mem
  cases ht
  simp only [List.lookup_cons] at hc
  split at hc <;> cases hc

theorem Sample.materialized_evaluates : Sample.materialized.AttributesEvaluate := by
  intro a ha t id c ht hc
  obtain rfl := List.mem_singleton.mp ha
  cases ht
  simp only [List.lookup_cons] at hc
  split at hc <;> cases hc

/-- A record of another materialization. -/
theorem Sample.agree_other : AccountResolver.Agree
    {key | ∃ q ∈ [(⟨"u", "m", "", ""⟩ : MaterializationRecord)], q.key = key}
    [⟨"u", "m", "r", "v"⟩] [⟨"u", "m", "r", "v"⟩, ⟨"u", "other", "r", "w"⟩] := by
  intro u m k hk
  have hm : "m" = m := by
    rcases hk with ⟨q, hq, hk⟩ | ⟨q, hq, hk⟩ <;> obtain rfl := List.mem_singleton.mp hq <;>
      exact congrArg (fun key => key.2.1) hk
  subst hm
  simp [findRecord, List.find?_cons, MaterializationRecord.isFor]

theorem discovery_suffices_materialized :
    ∃ K state calls,
      Sample.materialized.resolveFlags Sample.wire Sample.host
        Sample.materialized.state.flags.values (.deferredMaterializations Sample.request) =
          .ok (.suspended K state, calls) ∧
      Sample.materialized.resolveFlags Sample.wire Sample.host
          Sample.materialized.state.flags.values (.resume [⟨"u", "m", "r", "v"⟩] state) =
        Sample.materialized.resolveFlags Sample.wire Sample.host
          Sample.materialized.state.flags.values
          (.resume [⟨"u", "m", "r", "v"⟩, ⟨"u", "other", "r", "w"⟩] state) := by
  have h : Sample.materialized.resolveFlags Sample.wire Sample.host
      Sample.materialized.state.flags.values (.deferredMaterializations Sample.request) =
        .ok (.suspended [⟨"u", "m", "", ""⟩] _, _) := rfl
  exact ⟨_, _, _, h, (AccountResolver.discovery_suffices Sample.materialized_acyclic
    Sample.materialized_evaluates (.refl _) (.refl _) h Sample.agree_other).1⟩

end ConfidenceResolver
