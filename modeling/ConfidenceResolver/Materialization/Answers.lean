import ConfidenceResolver.Materialization.Discovery

/-!
# Materialization — requests that may be suspended, and direct ones

A host that has a store sends a deferred request, answers the reads of a suspension from its store
and resumes.  A direct request is resolved in one pass on all records of the store.

* `deferred_unasked`: a first pass that asks for nothing is the pass with every set of records.
* `resume_answers`: sets of records that answer the reads of a suspended request alike lead to the
  same second pass.
* `resume_direct`: so resuming on the answers is resolving directly on all records.
-/

namespace ConfidenceResolver

namespace AccountResolver

variable {Bytes : Type} {r : AccountResolver} {wire : Wire Bytes} {host host' : Host Bytes}
  {visit visit' : List Flag} {request : ResolveFlagsRequest} {b : MaterializationRecords}
  {R R' : List MaterializationRecord} {rule : Rule} {a : Segment} {spec : AssignmentSpec}
  {unit : Option String} {value : ResolvedValue} {p : Progress} {W : List MaterializationRecord}
  {A : Set (String × String × String)}

/-! ### A first pass that asks for nothing -/

/-- The match of a rule that asks for nothing is known, and is the match with every set of
records. -/
theorem matchRule_unasked (ha : a ∈ r.state.segments.values) {mt : RuleMatch}
    (h : Yields .discovery (r.matchRule rule a spec unit) (.ok mt) ∅)
    (R : List MaterializationRecord) :
    (mt = .skip false ∨ ∃ t, mt = .segment (some t) false) ∧
      Yields (.complete R) (r.matchRule rule a spec unit) (.ok mt) ∅ := by
  rcases matchRule_discovery_cases ha h with ⟨hr, hres, hA⟩ | ⟨m, mode, hr, rfl, hres, -⟩ |
      ⟨m, mode, u, -, -, -, hA⟩
  · -- the segment's match is that of every complete pass, which decides
    have hbuilt := segmentMatch_built (Scope.all r unit) ha
    have hquiet := hbuilt.quiet (s := .discovery) (t := .complete R) rfl ⟨R, rfl⟩ hA.symm
    have hs : Yields (.complete R) (r.segmentMatch unit a) _ ∅ :=
      segmentMatch_yields_complete ha R
    have hmatch := matchSegment_yields false hs
    have hrule : r.matchRule rule a spec unit = r.matchSegment a unit false :=
      matchRule_of_not_reads hr
    rw [hquiet, ← hres, ← hrule] at hmatch
    refine ⟨?_, hmatch⟩
    rw [← hquiet] at hres
    rcases hbuilt.complete_cases R with ⟨t, ht⟩ | ⟨e, -, he⟩
    · rw [ht] at hres
      cases hres
      exact .inr ⟨t, rfl⟩
    · rw [he] at hres
      cases e <;> cases hres
      exact .inl rfl
  · cases hres
    exact ⟨.inl rfl, matchRule_of_no_unit hr ▸ Yields.pure _ _⟩
  · rw [Set.singleton_union] at hA
    exact absurd hA.symm (Set.insert_nonempty _ _).ne_empty

/-- After a match that is known nothing is missing. -/
theorem afterMatch_known (hb : b ≠ .unsupported) {mt : RuleMatch}
    (hm : mt = .skip false ∨ ∃ t, mt = .segment (some t) false)
    (h : Does b (r.afterMatch rule a spec unit false value mt) p W A) :
    ∀ m v, p = .next m v → m = false := by
  rintro m v rfl
  rcases hm with rfl | ⟨_ | _, rfl⟩
  · obtain ⟨hv, -, -⟩ := does_pure h
    cases hv
    rfl
  · obtain ⟨hv, -, -⟩ := does_pure h
    cases hv
    rfl
  · obtain ⟨h₁, -⟩ := assignRule_does hb h
    split at h₁ <;> obtain ⟨v', h₁⟩ := h₁ <;> cases h₁
    rfl

theorem resolveRule_unasked (h : Does .discovery (r.resolveRule rule false value) p W ∅)
    (R : List MaterializationRecord) :
    (∃ A', Does (.complete R) (r.resolveRule rule false value) p W A') ∧
      ∀ m v, p = .next m v → m = false := by
  unfold resolveRule at h ⊢
  rcases hg : r.ruleGuard rule with _ | _ | ⟨a, spec, unit⟩ <;> rw [hg] at h <;> dsimp only at h ⊢
  · obtain ⟨rfl, rfl, -⟩ := does_pure h
    exact ⟨⟨∅, (Yields.pure _ _).does⟩, fun _ _ h => by cases h; rfl⟩
  · obtain ⟨rfl, rfl, -⟩ := does_pure h
    exact ⟨⟨∅, (Yields.pure _ _).does⟩, fun _ _ h => by cases h⟩
  · have ha := ruleGuard_mem hg
    obtain ⟨mt, hy, hd⟩ := resolveMatched_does_inv (by simp) ha h
    obtain ⟨hm, hc⟩ := matchRule_unasked ha hy R
    exact ⟨resolveMatched_of_discovery hd hc, afterMatch_known (by simp) hm hd⟩

/-- **A run that asks for nothing** ends the flag, and is the run with every set of records. -/
theorem runRules_unasked {rules : List Rule} (R : List MaterializationRecord) :
    ∀ {value : ResolvedValue} {p : Progress} {W : List MaterializationRecord},
      Does .discovery (r.runRules rules false value) p W ∅ →
      (∃ A', Does (.complete R) (r.runRules rules false value) p W A') ∧
        p.settled = some (Progress.value p) := by
  induction rules with
  | nil =>
      intro value p W h
      obtain ⟨rfl, rfl, -⟩ := does_pure h
      exact ⟨⟨∅, (Yields.pure _ _).does⟩, rfl⟩
  | cons rule rules ih =>
      intro value p W h
      obtain ⟨p₁, W₁, A₁, W₂, A₂, h₁, h₂, hn, rfl, hA⟩ := runRules_does_inv (by simp) h
      obtain ⟨rfl, rfl⟩ := Set.union_empty_iff.mp hA.symm
      obtain ⟨⟨A₃, h₃⟩, hnext⟩ := resolveRule_unasked h₁ R
      rcases p₁ with ⟨m, v⟩ | v
      · obtain rfl := hnext m v rfl
        obtain ⟨⟨A₄, h₄⟩, hs⟩ := ih h₂
        exact ⟨⟨_, h₃.bind h₄ hn⟩, hs⟩
      · obtain ⟨rfl, rfl, -⟩ := does_pure h₂
        exact ⟨⟨_, h₃.bind (Yields.pure _ _).does hn⟩, rfl⟩

theorem flag_unasked {flag : Flag} (hf : flag.state ≠ .archived) (hp : r.Passes .discovery flag)
    (hA : r.flagAsked .discovery flag = ∅) (R : List MaterializationRecord) :
    r.Passes (.complete R) flag ∧
      r.flagValue (.complete R) flag = r.flagValue .discovery flag ∧
      r.flagWrites (.complete R) flag = r.flagWrites .discovery flag := by
  obtain ⟨p, W, A, h⟩ := hp
  obtain ⟨h₁, h₂, rfl⟩ := does_flag hf h
  rw [hA] at h
  obtain ⟨⟨A', h'⟩, -⟩ := runRules_unasked R h
  obtain ⟨h₃, h₄, -⟩ := does_flag hf h'
  exact ⟨⟨p, W, A', h'⟩, h₃.trans h₁.symm, h₄.trans h₂.symm⟩

/-- A deferred request that is resolved: every flag passes and asks for nothing. -/
theorem unsuspended_inv {response : ResolveFlagsResponse Bytes} {calls : List HostCall}
    (h : r.resolveFlags wire host visit (.deferredMaterializations request) =
      .ok (.resolved response W, calls)) :
    (∀ flag ∈ r.requested visit request,
        r.Passes .discovery flag ∧ r.flagAsked .discovery flag = ∅) ∧
      Disjoint ((r.requested visit request).map (r.flagWrites .discovery)) ∧
      (r.requested visit request).length ≤ maxFlags ∧
      .ok (.resolved response W, calls) =
        resolvedOutcome ((r.requested visit request).flatMap (r.flagWrites .discovery))
          (r.respond host request
            ((r.requested visit request).filterMap (r.flagValue .discovery))) := by
  simp only [resolveFlags, start, resolvePass, flagsToResolve_nil] at h
  split at h
  · cases h
  · next hlen =>
      rcases he : r.resolveEach (r.requested visit request) .discovery with ⟨e | as, c'⟩ <;>
        rw [he] at h
      · cases h
      · dsimp only at h
        obtain ⟨h₁, h₂⟩ := (resolveEach_eq_ok_iff (b := .discovery) (by simp)
          (fun _ => requested_active) rfl).mp ⟨as, c', he⟩
        obtain ⟨rfl, -, h₃, h₄⟩ := resolveEach_outcome (b := .discovery) (by simp)
          (fun _ => requested_active) rfl he
        split at h
        · next hread =>
            rw [MaterializationContext.discovery, asked_fresh, Set.empty_union,
              asked_eq_empty.mpr (List.isEmpty_iff.mp hread)] at h₄
            -- nothing is to be read, so no flag has asked for anything
            have hquiet : ∀ flag ∈ r.requested visit request,
                r.flagAsked .discovery flag = ∅ := fun flag hflag =>
              Set.eq_empty_of_forall_notMem fun key hkey => by
                have hasked : key ∈ r.passAsked .discovery (r.requested visit request) :=
                  ⟨flag, hflag, hkey⟩
                rw [← h₄] at hasked
                exact hasked
            refine ⟨fun flag hflag => ⟨h₁ flag hflag, hquiet flag hflag⟩,
              (disjoint_cons.mp h₂).2, not_lt.mp hlen, ?_⟩
            rw [h₃] at h
            exact h.symm
        · cases h

/-- **A deferred request that is not suspended** is the direct request on every set of records. -/
theorem deferred_unasked (hv : visit.Perm r.state.flags.values)
    (hv' : visit'.Perm r.state.flags.values) {response : ResolveFlagsResponse Bytes}
    {calls : List HostCall}
    (h : r.resolveFlags wire host visit (.deferredMaterializations request) =
      .ok (.resolved response W, calls)) (R : List MaterializationRecord) :
    SameFlags (.ok (.resolved response W, calls))
        (r.resolveFlags wire host' visit' (.staticMaterializations (some request) R)) ∧
      SameWrites (.ok (.resolved response W, calls))
        (r.resolveFlags wire host' visit' (.staticMaterializations (some request) R)) := by
  obtain ⟨hp, hd, hlen, hres⟩ := unsuspended_inv h
  have hall : (r.requested visit' request).Perm (r.requested visit request) :=
    requested_perm (hv'.trans hv.symm)
  have hsame : ∀ flag ∈ r.requested visit request, _ := fun flag hf =>
    flag_unasked (requested_active hf) (hp flag hf).1 (hp flag hf).2 R
  have hwrites : (r.requested visit request).map (r.flagWrites (.complete R)) =
      (r.requested visit request).map (r.flagWrites .discovery) :=
    List.map_congr_left fun flag hf => (hsame flag hf).2.2
  rw [hres, static_eq]
  rcases resolvePass_complete wire host' R [] ⟨some request, [], []⟩ flagsToResolve_nil
      (fun _ => requested_active) (hall.length_eq.trans_le hlen) with ⟨-, -, h'⟩ | ⟨hfails, -⟩
  · rw [h']
    refine respond_alike ?_ ?_
    · rw [← List.filterMap_congr fun flag hf => (hsame flag hf).2.1]
      exact (hall.filterMap _).symm
    · rw [← List.flatMap_congr fun flag hf => (hsame flag hf).2.2]
      exact (hall.flatMap_right _).symm
  · refine absurd ⟨fun flag hf => (hsame flag (hall.mem_iff.mp hf)).1, ?_⟩ hfails
    rw [disjoint_perm ((hall.map _).cons _), hwrites]
    exact disjoint_cons.mpr ⟨fun _ _ => noClash_nil_left _, hd⟩

/-! ### Answers to the reads of a suspension -/

/-- The requested flags' rules that read a materialization have names. -/
def NamedReaders (r : AccountResolver) (request : ResolveFlagsRequest) : Prop :=
  ∀ flag ∈ r.requested r.state.flags.values request, ∀ rule ∈ flag.rules,
    rule.reads.isSome → rule.name ≠ ""

instance : Decidable (r.NamedReaders request) :=
  inferInstanceAs (Decidable (∀ _ ∈ _, ∀ _ ∈ _, _ → _))

end AccountResolver

/-- The two sets of records answer the reads `K` alike: whether a unit is included where a read
names no rule, the record of the unit where it does. -/
structure SameAnswers (K R R' : List MaterializationRecord) : Prop where
  included : ∀ key ∈ K, key.rule = "" →
    isIncluded R key.unit key.materialization = isIncluded R' key.unit key.materialization
  record : ∀ key ∈ K, key.rule ≠ "" →
    findRecord R key.unit key.materialization key.rule =
      findRecord R' key.unit key.materialization key.rule

namespace AccountResolver

variable {Bytes : Type} {r : AccountResolver} {wire : Wire Bytes} {host host' host'' : Host Bytes}
  {visit visit' visit'' : List Flag} {request : ResolveFlagsRequest}
  {R R' K : List MaterializationRecord} {state : Bytes} {calls : List HostCall}

/-- **The answers decide the second pass.** -/
theorem resume_answers (hc : r.state.Acyclic) (he : r.AttributesEvaluate)
    (hname : r.NamedReaders request) (hv : visit.Perm r.state.flags.values)
    (hv' : visit'.Perm r.state.flags.values)
    (hs : r.resolveFlags wire host visit (.deferredMaterializations request) =
      .ok (.suspended K state, calls)) (hR : SameAnswers K R R') :
    r.resolveFlags wire host' visit' (.resume R state) =
      r.resolveFlags wire host' visit' (.resume R' state) := by
  obtain ⟨hp, -, -, rfl, hK⟩ := suspended_inv hs
  rw [resume_eq rfl, resume_eq rfl]
  refine resolvePass_uniform (flagsToResolve_resumed hv hv' hp)
    (fun _ => leftOpen_active) fun f hf => ?_
  obtain ⟨hreq, hnone⟩ := mem_leftOpen.mp hf
  have hm := (requested_perm (hv'.trans hv.symm)).mem_iff.mp hreq
  have hkeys : ∀ key ∈ r.flagAsked .discovery f, ∃ q ∈ K, q.key = key := fun key hk => by
    have hasked : key ∈ {key | ∃ q ∈ K, q.key = key} := hK ▸ ⟨f, hm, hk⟩
    exact hasked
  refine open_uniform_of (by simp) (requested_active hreq) (hp f hm) hnone
    fun rule hr a spec unit hg mt A hA hy =>
      (matchRule_included hc he (ruleGuard_mem hg) hy ?_ ?_).uniform
  · rintro u m hk
    obtain ⟨q, hq, hkey⟩ := hkeys _ (hA hk)
    simp only [MaterializationRecord.key, Prod.mk.injEq] at hkey
    obtain ⟨rfl, rfl, hrule⟩ := hkey
    exact hR.included q hq hrule
  · rintro m mode u hreads - hk
    obtain ⟨q, hq, hkey⟩ := hkeys _ (hA hk)
    have hne : rule.name ≠ "" := hname f ((requested_perm hv').mem_iff.mp hreq) rule hr
      (by rw [hreads]; rfl)
    simp only [MaterializationRecord.key, Prod.mk.injEq] at hkey
    obtain ⟨rfl, rfl, hrule⟩ := hkey
    have hrecord := hR.record q hq (hrule ▸ hne)
    rwa [hrule] at hrecord

/-- **Resuming on the answers is resolving directly**, where the first pass is sound. -/
theorem resume_direct (hc : r.state.Acyclic) (he : r.AttributesEvaluate)
    (hname : r.NamedReaders request) (hsettled : r.SettledUnconsulted request)
    (hopen : r.OpenUnwritten request) (hv : visit.Perm r.state.flags.values)
    (hv' : visit'.Perm r.state.flags.values) (hv'' : visit''.Perm r.state.flags.values)
    (hs : r.resolveFlags wire host visit (.deferredMaterializations request) =
      .ok (.suspended K state, calls)) (hR : SameAnswers K R R') :
    SameFlags (r.resolveFlags wire host' visit' (.resume R state))
        (r.resolveFlags wire host'' visit'' (.staticMaterializations (some request) R')) ∧
      SameWrites (r.resolveFlags wire host' visit' (.resume R state))
        (r.resolveFlags wire host'' visit'' (.staticMaterializations (some request) R')) := by
  rw [resume_answers hc he hname hv hv' hs hR]
  exact resume_alike hv hv' hv'' hsettled hopen hs

end AccountResolver

end ConfidenceResolver
