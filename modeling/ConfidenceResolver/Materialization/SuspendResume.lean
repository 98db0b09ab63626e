import ConfidenceResolver.Materialization.FirstPass
import ConfidenceResolver.Support.Traverse

/-!
# Materialization — suspending and resuming

A deferred request that is suspended, resumed with records, against the same request resolved
with these records in one pass.

* `suspended_inv`: what the continuation of a suspended request holds.
* `resume_eq`, `static_eq`: the second pass and the direct one, on the flags they resolve.
* `resume_agrees`: they agree when no flag that the first pass resolved has consulted a record,
  and no flag that it left open has scheduled a write.
* `resume_overlooks_rule`: they do not when a rule that is not decided is followed by a rule
  whose targeting key is invalid.
-/

namespace ConfidenceResolver

/-! ### Outcomes -/

/-- The values a request logs. -/
def loggedValues (calls : List HostCall) : List ResolvedValue :=
  calls.flatMap fun
    | .logResolve _ _ values _ => values
    | .logAssign _ _ _ _ => []

/-- Both outcomes are resolved, and related by `P`; or both are failures. -/
def Alike {Bytes : Type}
    (P : ResolveFlagsResponse Bytes × List MaterializationRecord × List HostCall →
      ResolveFlagsResponse Bytes × List MaterializationRecord × List HostCall → Prop) :
    Except ProcessError (ResolveProcessResponse Bytes × List HostCall) →
      Except ProcessError (ResolveProcessResponse Bytes × List HostCall) → Prop
  | .ok (.resolved response W, calls), .ok (.resolved response' W', calls') =>
      P (response, W, calls) (response', W', calls')
  | .error _, .error _ => True
  | _, _ => False

/-- The outcomes agree, up to order, on the flags of the response and on the values behind them:
their reasons, variants, segments, rules, assignment ids and fallthrough assignments. -/
def SameFlags {Bytes : Type} :
    Except ProcessError (ResolveProcessResponse Bytes × List HostCall) →
      Except ProcessError (ResolveProcessResponse Bytes × List HostCall) → Prop :=
  Alike fun (response, _, calls) (response', _, calls') =>
    response.resolvedFlags.Perm response'.resolvedFlags ∧
      (loggedValues calls).Perm (loggedValues calls')

/-- The outcomes agree, up to order, on the writes. -/
def SameWrites {Bytes : Type} :
    Except ProcessError (ResolveProcessResponse Bytes × List HostCall) →
      Except ProcessError (ResolveProcessResponse Bytes × List HostCall) → Prop :=
  Alike fun (_, W, _) (_, W', _) => W.Perm W'

namespace AccountResolver

variable {Bytes : Type} {r : AccountResolver} {wire : Wire Bytes} {host host' : Host Bytes}
  {visit visit' : List Flag} {request : ResolveFlagsRequest} {R : List MaterializationRecord}

/-! ### The response -/

/-- What a response and its log hold, when there is one. -/
theorem respond_ok {resolved : List AssignedFlag} {response : ResolveFlagsResponse Bytes}
    {calls : List HostCall} (h : r.respond host request resolved = .ok (response, calls)) :
    ∃ values, resolved.mapM r.fromAssigned = .ok values ∧
      values.mapM ResolvedValue.toResolvedFlag = .ok response.resolvedFlags ∧
      loggedValues calls = values := by
  rw [respond] at h
  obtain ⟨values, hvalues, h⟩ := bind_eq_ok.mp h
  obtain ⟨flags, hflags, h⟩ := bind_eq_ok.mp h
  refine ⟨values, hvalues, ?_⟩
  split at h
  · cases h
    exact ⟨hflags, by simp [loggedValues]⟩
  split at h
  · cases h
    exact ⟨hflags, by simp [loggedValues]⟩
  · split at h <;> cases h
    exact ⟨hflags, by simp [loggedValues]⟩

/-- Whether there is a response is up to the resolver, the request and the values. -/
theorem respond_isOk {resolved : List AssignedFlag} :
    (∃ res, r.respond host request resolved = .ok res) ↔
      (∃ values flags, resolved.mapM r.fromAssigned = .ok values ∧
        values.mapM ResolvedValue.toResolvedFlag = .ok flags) ∧
      (r.disableExposureCollection = true ∨ request.apply = true ∨ r.canEncrypt = true) := by
  constructor
  · rintro ⟨⟨response, calls⟩, h⟩
    obtain ⟨values, h₁, h₂, -⟩ := respond_ok h
    refine ⟨⟨values, _, h₁, h₂⟩, ?_⟩
    by_contra hn
    simp only [not_or, Bool.not_eq_true] at hn
    rw [respond] at h
    simp only [h₁, h₂, ok_bind, hn.1, hn.2.1, hn.2.2] at h
    cases h
  · rintro ⟨⟨values, flags, h₁, h₂⟩, h⟩
    rw [respond]
    simp only [h₁, h₂, ok_bind]
    split
    · exact ⟨_, rfl⟩
    · next hd =>
        split
        · exact ⟨_, rfl⟩
        · next ha =>
            rw [if_pos ((h.resolve_left hd).resolve_left ha)]
            exact ⟨_, rfl⟩

/-- The resolved outcome of a pass. -/
def resolvedOutcome (W : List MaterializationRecord)
    (res : Except ProcessError (ResolveFlagsResponse Bytes × List HostCall)) :
    Except ProcessError (ResolveProcessResponse Bytes × List HostCall) :=
  res.map fun (response, calls) => (.resolved response W, calls)

theorem respond_alike {resolved resolved' : List AssignedFlag}
    {W W' : List MaterializationRecord} (hp : resolved.Perm resolved') (hW : W.Perm W') :
    SameFlags (resolvedOutcome W (r.respond host request resolved))
        (resolvedOutcome W' (r.respond host' request resolved')) ∧
      SameWrites (resolvedOutcome W (r.respond host request resolved))
        (resolvedOutcome W' (r.respond host' request resolved')) := by
  have hok : ∀ {as as' : List AssignedFlag}, as.Perm as' →
      (∃ values flags, as.mapM r.fromAssigned = .ok values ∧
        values.mapM ResolvedValue.toResolvedFlag = .ok flags) →
      ∃ values flags, as'.mapM r.fromAssigned = .ok values ∧
        values.mapM ResolvedValue.toResolvedFlag = .ok flags := by
    rintro as as' hp ⟨values, flags, h₁, h₂⟩
    obtain ⟨values', h₃, hv⟩ := mapM_perm hp h₁
    obtain ⟨flags', h₄, -⟩ := mapM_perm hv h₂
    exact ⟨values', flags', h₃, h₄⟩
  -- whether a response can be built depends on the flags and not on their order
  have hiff : (∃ res, r.respond host request resolved = .ok res) ↔
      ∃ res, r.respond host' request resolved' = .ok res := by
    rw [respond_isOk, respond_isOk]
    exact and_congr_left fun _ => ⟨hok hp, hok hp.symm⟩
  rcases h : r.respond host request resolved with e | ⟨response, calls⟩ <;>
    rcases h' : r.respond host' request resolved' with e' | ⟨response', calls'⟩
  · exact ⟨trivial, trivial⟩
  · obtain ⟨res, hres⟩ := hiff.mpr ⟨_, h'⟩
    rw [h] at hres
    cases hres
  · obtain ⟨res, hres⟩ := hiff.mp ⟨_, h⟩
    rw [h'] at hres
    cases hres
  · obtain ⟨values, h₁, h₂, h₃⟩ := respond_ok h
    obtain ⟨values', h₄, h₅, h₆⟩ := respond_ok h'
    obtain ⟨vs, h₇, hv⟩ := mapM_perm hp h₁
    rw [h₄] at h₇
    cases h₇
    obtain ⟨fs, h₈, hf⟩ := mapM_perm hv h₂
    rw [h₅] at h₈
    cases h₈
    exact ⟨⟨hf, by rw [h₃, h₆]; exact hv⟩, hW⟩

/-! ### The flag of a value -/

theorem applyAssignment_flag {rule : Rule} {a : Segment} {id unit : String}
    {kind : AssignmentKind} {value : ResolvedValue} {p : Progress}
    (h : applyAssignment rule a id kind unit value = .ok p) :
    (∃ v, p = .next false v ∧ v.flag = value.flag ∧ v.inner.flag = value.inner.flag) ∨
      ∃ v, p = .done v ∧ v.flag = value.flag ∧ v.inner.flag = value.inner.flag := by
  unfold applyAssignment at h
  split at h
  · cases h
    exact .inl ⟨_, rfl, rfl, rfl⟩
  · cases h
    exact .inr ⟨_, rfl, rfl, rfl⟩
  · split at h <;> cases h
    exact .inr ⟨_, rfl, rfl, rfl⟩

/-- The value of a progress. -/
def Progress.value : Progress → ResolvedValue
  | .next _ value | .done value => value

/-- A rule keeps the flag of the value. -/
theorem resolveRule_flag {b : MaterializationRecords} (hb : b ≠ .unsupported) {rule : Rule}
    {hasMissing : Bool} {value : ResolvedValue} {p : Progress} {W : List MaterializationRecord}
    {A : Set (String × String × String)}
    (h : Does b (r.resolveRule rule hasMissing value) p W A) :
    (Progress.value p).flag = value.flag ∧ (Progress.value p).inner.flag = value.inner.flag := by
  unfold resolveRule at h
  rcases hg : r.ruleGuard rule with _ | _ | ⟨a, spec, unit⟩ <;> rw [hg] at h <;> dsimp only at h
  · obtain ⟨rfl, -, -⟩ := does_pure h
    exact ⟨rfl, rfl⟩
  · obtain ⟨rfl, -, -⟩ := does_pure h
    exact ⟨rfl, rfl⟩
  · obtain ⟨mt, -, hd⟩ := resolveMatched_does_inv hb (ruleGuard_mem hg) h
    -- an assignment sets the variant and the value, never the flag
    have hassign : Does b (r.assignRule rule a spec unit value) p W ∅ →
        (Progress.value p).flag = value.flag ∧
          (Progress.value p).inner.flag = value.inner.flag := by
      intro hd
      rcases (assignRule_inv hb hd).2 with ⟨rfl, -, -⟩ | ⟨id, kind, ranges, -, hk, -⟩
      · exact ⟨rfl, rfl⟩
      · rcases applyAssignment_flag hk with ⟨v, rfl, h₁, h₂⟩ | ⟨v, rfl, h₁, h₂⟩ <;> exact ⟨h₁, h₂⟩
    rcases mt with ⟨assignment, u⟩ | missing | ⟨_ | _ | _, missing⟩
    · obtain ⟨hv, -, -⟩ := does_lift hd
      unfold ResolvedValue.tryWithVariantMatch at hv
      split at hv
      · split at hv <;> cases hv
        exact ⟨rfl, rfl⟩
      · cases hv
    · obtain ⟨rfl, -, -⟩ := does_pure hd
      exact ⟨rfl, rfl⟩
    · obtain ⟨rfl, -, -⟩ := does_pure hd
      exact ⟨rfl, rfl⟩
    · obtain ⟨rfl, -, -⟩ := does_pure hd
      exact ⟨rfl, rfl⟩
    · rw [afterMatch] at hd
      split at hd
      · obtain ⟨rfl, -, -⟩ := does_pure hd
        exact ⟨rfl, rfl⟩
      · exact hassign hd

theorem runRules_flag {b : MaterializationRecords} (hb : b ≠ .unsupported) {rules : List Rule} :
    ∀ {hasMissing : Bool} {value : ResolvedValue} {p : Progress}
      {W : List MaterializationRecord} {A : Set (String × String × String)},
      Does b (r.runRules rules hasMissing value) p W A →
      (Progress.value p).flag = value.flag ∧
        (Progress.value p).inner.flag = value.inner.flag := by
  induction rules with
  | nil =>
      intro hasMissing value p W A h
      obtain ⟨rfl, -, -⟩ := does_pure h
      exact ⟨rfl, rfl⟩
  | cons rule rules ih =>
      intro hasMissing value p W A h
      obtain ⟨p₁, W₁, A₁, W₂, A₂, h₁, h₂, -, -, -⟩ := runRules_does_inv hb h
      obtain ⟨h₃, h₄⟩ := resolveRule_flag hb h₁
      rcases p₁ with ⟨m, v⟩ | v
      · obtain ⟨h₅, h₆⟩ := ih h₂
        exact ⟨h₅.trans h₃, h₆.trans h₄⟩
      · obtain ⟨rfl, -, -⟩ := does_pure h₂
        exact ⟨h₃, h₄⟩

/-- The value of a flag names the flag. -/
theorem flagValue_flag {b : MaterializationRecords} (hb : b ≠ .unsupported) {flag : Flag}
    (hf : flag.state ≠ .archived) (hp : r.Passes b flag) {assigned : AssignedFlag}
    (h : r.flagValue b flag = some assigned) : assigned.flag = flag.name := by
  obtain ⟨p, W, A, hd⟩ := hp
  rw [(does_flag hf hd).1] at h
  have := (runRules_flag hb hd).2
  rcases p with ⟨_ | _, v⟩ | v <;> cases h <;> exact this

/-! ### The passes of a request -/

/-- The flags of a request. -/
def requested (r : AccountResolver) (visit : List Flag) (request : ResolveFlagsRequest) :
    List Flag := visit.filter (r.isRequested request)

theorem flagsToResolve_active {flag : Flag} {resolved : List AssignedFlag}
    (h : flag ∈ r.flagsToResolve visit request resolved) : flag.state ≠ .archived := by
  have := (List.mem_filter.mp h).2
  simp only [isRequested, Bool.and_eq_true, decide_eq_true_eq] at this
  rw [this.1.1.1]
  simp

theorem flagsToResolve_nil : r.flagsToResolve visit request [] = r.requested visit request := by
  simp [flagsToResolve, requested]

theorem requested_active {flag : Flag} (h : flag ∈ r.requested visit request) :
    flag.state ≠ .archived := by
  rw [← flagsToResolve_nil] at h
  exact flagsToResolve_active h

theorem requested_perm (h : visit.Perm visit') :
    (r.requested visit request).Perm (r.requested visit' request) :=
  h.filter _

/-- **A suspended request.**  Every flag passes, the continuation holds the values and the writes
of the flags, and the reads are what the flags ask for. -/
theorem suspended_inv {K : List MaterializationRecord} {state : Bytes} {calls : List HostCall}
    (h : r.resolveFlags wire host visit (.deferredMaterializations request) =
      .ok (.suspended K state, calls)) :
    (∀ flag ∈ r.requested visit request, r.Passes .discovery flag) ∧
      Disjoint ((r.requested visit request).map (r.flagWrites .discovery)) ∧
      (r.requested visit request).length ≤ maxFlags ∧
      state = wire.encode ⟨some request,
        (r.requested visit request).filterMap (r.flagValue .discovery),
        (r.requested visit request).flatMap (r.flagWrites .discovery)⟩ ∧
      {key | ∃ q ∈ K, q.key = key} = r.passAsked .discovery (r.requested visit request) := by
  simp only [resolveFlags, start, resolvePass, flagsToResolve_nil] at h
  split at h
  · cases h
  · next hlen =>
      rcases he : r.resolveEach (r.requested visit request) .discovery with ⟨e | as, c'⟩ <;>
        rw [he] at h
      · cases h
      · dsimp only at h
        obtain ⟨h₁, h₂⟩ := (resolveEach_eq_ok_iff (b := .discovery) (by simp)
          (fun _ => requested_active) rfl).mp ⟨as, c', he⟩
        obtain ⟨rfl, -, h₃, h₄⟩ := resolveEach_outcome (b := .discovery) (by simp)
          (fun _ => requested_active) rfl he
        split at h
        · unfold Except.map at h
          split at h <;> cases h
        · cases h
          refine ⟨h₁, (disjoint_cons.mp h₂).2, not_lt.mp hlen, ?_, ?_⟩
          · rw [h₃]
            rfl
          · show c'.asked = _
            rw [h₄, MaterializationContext.discovery, asked_fresh, Set.empty_union]

/-- A rule in a pass with records asks for nothing and leaves nothing missing. -/
theorem resolveRule_complete {rule : Rule} {value : ResolvedValue} {p : Progress}
    {W : List MaterializationRecord} {A : Set (String × String × String)}
    (h : Does (.complete R) (r.resolveRule rule false value) p W A) :
    A = ∅ ∧ ∀ m v, p = .next m v → m = false := by
  unfold resolveRule at h
  rcases hg : r.ruleGuard rule with _ | _ | ⟨a, spec, unit⟩ <;> rw [hg] at h <;> dsimp only at h
  · obtain ⟨rfl, -, rfl⟩ := does_pure h
    exact ⟨rfl, fun _ _ h => by cases h; rfl⟩
  · obtain ⟨rfl, -, rfl⟩ := does_pure h
    exact ⟨rfl, fun _ _ h => by cases h⟩
  · have ha := ruleGuard_mem hg
    obtain ⟨mt, hy, hd⟩ := resolveMatched_does_inv (by simp) ha h
    refine ⟨(matchRule_complete_cases ha hy).1, fun m v he => ?_⟩
    subst he
    rcases matchRule_complete_known ha hy with ⟨assignment, u, rfl⟩ | rfl | ⟨_ | _, rfl⟩
    · obtain ⟨hv, -, -⟩ := does_lift hd
      rcases hw : value.tryWithVariantMatch rule a assignment u with e | v' <;> rw [hw] at hv <;>
        cases hv
    · obtain ⟨hv, -, -⟩ := does_pure hd
      cases hv
      rfl
    · obtain ⟨hv, -, -⟩ := does_pure hd
      cases hv
      rfl
    · obtain ⟨h₁, -⟩ := assignRule_does (by simp) hd
      split at h₁ <;> obtain ⟨v', h₁⟩ := h₁ <;> cases h₁
      rfl

theorem runRules_complete {rules : List Rule} :
    ∀ {value : ResolvedValue} {p : Progress} {W : List MaterializationRecord}
      {A : Set (String × String × String)},
      Does (.complete R) (r.runRules rules false value) p W A →
      A = ∅ ∧ p.settled = some (Progress.value p) := by
  induction rules with
  | nil =>
      intro value p W A h
      obtain ⟨rfl, -, rfl⟩ := does_pure h
      exact ⟨rfl, rfl⟩
  | cons rule rules ih =>
      intro value p W A h
      obtain ⟨p₁, W₁, A₁, W₂, A₂, h₁, h₂, -, -, rfl⟩ := runRules_does_inv (by simp) h
      obtain ⟨rfl, hnext⟩ := resolveRule_complete h₁
      rw [Set.empty_union]
      rcases p₁ with ⟨m, v⟩ | v
      · obtain rfl := hnext m v rfl
        exact ih h₂
      · obtain ⟨rfl, -, rfl⟩ := does_pure h₂
        exact ⟨rfl, rfl⟩

/-- A flag that passes with records has a value and asks for nothing. -/
theorem flag_complete {flag : Flag} (hf : flag.state ≠ .archived)
    (hp : r.Passes (.complete R) flag) :
    r.flagAsked (.complete R) flag = ∅ ∧ (r.flagValue (.complete R) flag).isSome := by
  obtain ⟨p, W, A, hd⟩ := hp
  obtain ⟨rfl, hs⟩ := runRules_complete hd
  obtain ⟨h₁, -, h₂⟩ := does_flag hf hd
  rw [h₁, hs]
  exact ⟨h₂, rfl⟩

theorem passAsked_complete {flags : List Flag} (hf : ∀ flag ∈ flags, flag.state ≠ .archived)
    (hp : ∀ flag ∈ flags, r.Passes (.complete R) flag) :
    r.passAsked (.complete R) flags = ∅ := by
  refine Set.eq_empty_of_forall_notMem fun key => ?_
  rintro ⟨flag, hm, hk⟩
  rw [(flag_complete (hf flag hm) (hp flag hm)).1] at hk
  exact hk

/-- A pass with records over some flags, from the writes `w` and the values `resolved`. -/
theorem resolvePass_complete (wire : Wire Bytes) (host : Host Bytes)
    (R w : List MaterializationRecord) (st : ResolveProcessState) {flags : List Flag}
    (hflags : r.flagsToResolve visit request st.resolvedFlags = flags)
    (hf : ∀ flag ∈ flags, flag.state ≠ .archived) (hlen : flags.length ≤ maxFlags) :
    ((∀ flag ∈ flags, r.Passes (.complete R) flag) ∧
        Disjoint (w :: flags.map (r.flagWrites (.complete R))) ∧
        r.resolvePass wire host visit request st ⟨[], w, .complete R⟩ =
          resolvedOutcome (w ++ flags.flatMap (r.flagWrites (.complete R)))
            (r.respond host request
              (st.resolvedFlags ++ flags.filterMap (r.flagValue (.complete R))))) ∨
      (¬ ((∀ flag ∈ flags, r.Passes (.complete R) flag) ∧
          Disjoint (w :: flags.map (r.flagWrites (.complete R)))) ∧
        ∃ e, r.resolvePass wire host visit request st ⟨[], w, .complete R⟩ = .error (.resolve e) ∧
          (r.resolveEach flags ⟨[], w, .complete R⟩).1 = .error e) := by
  have hiff := resolveEach_eq_ok_iff (r := r) (b := .complete R) (by simp) hf
    (c := ⟨[], w, .complete R⟩) rfl
  unfold resolvePass
  rw [hflags]
  dsimp only
  rw [if_neg (not_lt.mpr hlen)]
  rcases he : r.resolveEach flags ⟨[], w, .complete R⟩ with ⟨e | as, c'⟩
  · refine .inr ⟨fun hok => ?_, e, rfl, rfl⟩
    obtain ⟨as, c', h⟩ := hiff.mpr hok
    rw [he] at h
    cases h
  · obtain ⟨hp, hd⟩ := hiff.mp ⟨as, c', he⟩
    obtain ⟨rfl, -, h₃, h₄⟩ := resolveEach_outcome (by simp) hf rfl he
    have hread : c'.toRead = [] := asked_eq_empty.mp (by
      rw [h₄, passAsked_complete hf hp, Set.union_empty]
      exact asked_eq_empty.mpr rfl)
    refine .inl ⟨hp, hd, ?_⟩
    dsimp only
    rw [hread, List.isEmpty_nil, if_pos rfl, h₃]
    rfl

/-! ### The second pass -/

/-- The flags that the first pass left open. -/
def leftOpen (r : AccountResolver) (visit : List Flag) (request : ResolveFlagsRequest) :
    List Flag := (r.requested visit request).filter fun f => (r.flagValue .discovery f).isNone

theorem mem_leftOpen {flag : Flag} :
    flag ∈ r.leftOpen visit request ↔
      flag ∈ r.requested visit request ∧ r.flagValue .discovery flag = none := by
  rw [leftOpen, List.mem_filter, Option.isNone_iff_eq_none]

theorem leftOpen_perm (h : visit.Perm visit') :
    (r.leftOpen visit request).Perm (r.leftOpen visit' request) :=
  (requested_perm h).filter _

theorem leftOpen_active {flag : Flag} (h : flag ∈ r.leftOpen visit request) :
    flag.state ≠ .archived :=
  requested_active (mem_leftOpen.mp h).1

theorem leftOpen_length_le (h : visit.Perm visit') {n : Nat}
    (hlen : (r.requested visit request).length ≤ n) :
    (r.leftOpen visit' request).length ≤ n :=
  (List.length_filter_le _ _).trans ((requested_perm h).length_eq.symm.trans_le hlen)

/-- The second pass resolves the flags that the first one left open. -/
theorem flagsToResolve_resumed (hv : visit.Perm r.state.flags.values)
    (hv' : visit'.Perm r.state.flags.values)
    (hp : ∀ flag ∈ r.requested visit request, r.Passes .discovery flag) :
    r.flagsToResolve visit' request
      ((r.requested visit request).filterMap (r.flagValue .discovery)) =
      r.leftOpen visit' request := by
  have hopen : r.leftOpen visit' request =
      visit'.filter fun f => (r.flagValue .discovery f).isNone && r.isRequested request f :=
    List.filter_filter ..
  rw [hopen]
  refine List.filter_congr fun f hf => ?_
  rw [Bool.and_comm]
  rcases hreq : r.isRequested request f with _ | _
  · simp
  · rw [Bool.and_true, Bool.and_true, Bool.eq_iff_iff, Bool.not_eq_true', ← Bool.not_eq_true,
      Option.isNone_iff_eq_none, List.any_eq_true]
    constructor
    · intro h
      by_contra hne
      obtain ⟨assigned, ha⟩ := Option.ne_none_iff_exists'.mp hne
      have hm : f ∈ r.requested visit request :=
        List.mem_filter.mpr ⟨hv.mem_iff.mpr (hv'.mem_iff.mp hf), hreq⟩
      refine h ⟨assigned, List.mem_filterMap.mpr ⟨f, hm, ha⟩, ?_⟩
      rw [decide_eq_true_eq]
      exact flagValue_flag (by simp) (requested_active hm) (hp f hm) ha
    · rintro h ⟨assigned, hm, he⟩
      obtain ⟨g, hg, ha⟩ := List.mem_filterMap.mp hm
      rw [decide_eq_true_eq, flagValue_flag (by simp) (requested_active hg) (hp g hg) ha] at he
      -- the names of the state's flags are distinct
      obtain rfl := NamedMap.eq_of_name (hv.mem_iff.mp (List.mem_filter.mp hg).1)
        (hv'.mem_iff.mp hf) he
      rw [h] at ha
      cases ha

theorem static_eq : r.resolveFlags wire host visit (.staticMaterializations (some request) R) =
    r.resolvePass wire host visit request ⟨some request, [], []⟩ ⟨[], [], .complete R⟩ := rfl

theorem resume_eq {st : ResolveProcessState} (h : st.resolveRequest = some request) :
    r.resolveFlags wire host visit (.resume R (wire.encode st)) =
      r.resolvePass wire host visit request { st with materializationsToWrite := [] }
        ⟨[], st.materializationsToWrite, .complete R⟩ := by
  simp only [resolveFlags, start, wire.decode_encode, h]
  rfl

/-! ### Agreement -/

/-- No flag that a first pass resolves was passed by a rule whose match depends on a record. -/
def SettledUnconsulted (r : AccountResolver) (request : ResolveFlagsRequest) : Prop :=
  ∀ flag ∈ r.requested r.state.flags.values request,
    (r.flagFirstPass flag).isOpen = false → (r.flagFirstPass flag).consulted = false

/-- No flag that a first pass leaves open has scheduled a write. -/
def OpenUnwritten (r : AccountResolver) (request : ResolveFlagsRequest) : Prop :=
  ∀ flag ∈ r.requested r.state.flags.values request,
    (r.flagFirstPass flag).isOpen = true → (r.flagFirstPass flag).wrote = false

theorem noClash_flatMap_left {flags : List Flag} {g : Flag → List MaterializationRecord}
    {V : List MaterializationRecord} :
    NoClash (flags.flatMap g) V ↔ ∀ f ∈ flags, NoClash (g f) V := by
  simp only [NoClash, List.mem_flatMap]
  exact ⟨fun h f hf a ha => h a ⟨f, hf, ha⟩, fun h a ⟨f, hf, ha⟩ => h f hf a ha⟩

theorem disjoint_perm {ws ws' : List (List MaterializationRecord)} (h : ws.Perm ws') :
    Disjoint ws ↔ Disjoint ws' :=
  h.pairwise_iff fun h => h.symm

/-- Two passes with records agree when they succeed together, with the same values and writes. -/
theorem resolvePass_alike (wire : Wire Bytes) (host host' : Host Bytes)
    {st st' : ResolveProcessState} {w w' : List MaterializationRecord} {flags flags' : List Flag}
    (hflags : r.flagsToResolve visit request st.resolvedFlags = flags)
    (hflags' : r.flagsToResolve visit' request st'.resolvedFlags = flags')
    (hf : ∀ flag ∈ flags, flag.state ≠ .archived) (hf' : ∀ flag ∈ flags', flag.state ≠ .archived)
    (hlen : flags.length ≤ maxFlags) (hlen' : flags'.length ≤ maxFlags)
    (hpasses : (∀ flag ∈ flags, r.Passes (.complete R) flag) ↔
      ∀ flag ∈ flags', r.Passes (.complete R) flag)
    (hdisjoint : Disjoint (w :: flags.map (r.flagWrites (.complete R))) ↔
      Disjoint (w' :: flags'.map (r.flagWrites (.complete R))))
    (hvalues : (st.resolvedFlags ++ flags.filterMap (r.flagValue (.complete R))).Perm
      (st'.resolvedFlags ++ flags'.filterMap (r.flagValue (.complete R))))
    (hwrites : (w ++ flags.flatMap (r.flagWrites (.complete R))).Perm
      (w' ++ flags'.flatMap (r.flagWrites (.complete R)))) :
    SameFlags (r.resolvePass wire host visit request st ⟨[], w, .complete R⟩)
        (r.resolvePass wire host' visit' request st' ⟨[], w', .complete R⟩) ∧
      SameWrites (r.resolvePass wire host visit request st ⟨[], w, .complete R⟩)
        (r.resolvePass wire host' visit' request st' ⟨[], w', .complete R⟩) := by
  rcases resolvePass_complete wire host R w st hflags hf hlen with
    ⟨hp, hd, hres⟩ | ⟨hfails, e, hres, -⟩
  · rcases resolvePass_complete wire host' R w' st' hflags' hf' hlen' with
      ⟨-, -, hres'⟩ | ⟨hfails', -⟩
    · rw [hres, hres']
      exact respond_alike hvalues hwrites
    · exact absurd ⟨hpasses.mp hp, hdisjoint.mp hd⟩ hfails'
  · rcases resolvePass_complete wire host' R w' st' hflags' hf' hlen' with
      ⟨hp', hd', -⟩ | ⟨-, e', hres', -⟩
    · exact absurd ⟨hpasses.mpr hp', hdisjoint.mpr hd'⟩ hfails
    · rw [hres, hres']
      exact ⟨trivial, trivial⟩

/-- The flags that the first pass resolved. -/
def settledFlags (r : AccountResolver) (visit : List Flag) (request : ResolveFlagsRequest) :
    List Flag := (r.requested visit request).filter fun f => (r.flagValue .discovery f).isSome

theorem settledFlags_append_leftOpen (r : AccountResolver) (visit : List Flag)
    (request : ResolveFlagsRequest) :
    (r.settledFlags visit request ++ r.leftOpen visit request).Perm
      (r.requested visit request) := by
  have hopen : r.leftOpen visit request =
      (r.requested visit request).filter fun f => !(r.flagValue .discovery f).isSome :=
    List.filter_congr fun _ _ => (Option.not_isSome _).symm
  rw [hopen]
  exact List.filter_append_perm _ _

section Sound

variable (hv : visit.Perm r.state.flags.values)
  (hp : ∀ flag ∈ r.requested visit request, r.Passes .discovery flag)

include hv hp

/-- Records change nothing about a flag that the first pass resolved. -/
theorem settledFlags_decided (hsettled : r.SettledUnconsulted request)
    (R : List MaterializationRecord) {flag : Flag} (h : flag ∈ r.settledFlags visit request) :
    r.Passes (.complete R) flag ∧
      r.flagValue (.complete R) flag = r.flagValue .discovery flag ∧
      r.flagWrites (.complete R) flag = r.flagWrites .discovery flag := by
  obtain ⟨hreq, hsome⟩ := List.mem_filter.mp h
  have hactive := requested_active hreq
  have hclosed : (r.flagFirstPass flag).isOpen = false := by
    rw [← Bool.not_eq_true, ← flagValue_discovery_eq_none hactive (hp flag hreq)]
    exact Option.isSome_iff_ne_none.mp hsome
  exact flag_decided hactive (hp flag hreq)
    (hsettled flag ((requested_perm hv).mem_iff.mp hreq) hclosed) R

/-- A flag that the first pass left open has written nothing. -/
theorem leftOpen_unwritten (hopen : r.OpenUnwritten request) {flag : Flag}
    (h : flag ∈ r.leftOpen visit request) : r.flagWrites .discovery flag = [] := by
  obtain ⟨hreq, hnone⟩ := mem_leftOpen.mp h
  have hactive := requested_active hreq
  rw [flagWrites_discovery_eq_nil hactive (hp flag hreq)]
  exact hopen flag ((requested_perm hv).mem_iff.mp hreq)
    ((flagValue_discovery_eq_none hactive (hp flag hreq)).mp hnone)

/-- The values that a continuation holds are those that the records give. -/
theorem discovery_values_perm (hsettled : r.SettledUnconsulted request)
    (R : List MaterializationRecord) :
    ((r.requested visit request).filterMap (r.flagValue .discovery)).Perm
      ((r.settledFlags visit request).filterMap (r.flagValue (.complete R))) := by
  have hsplit :=
    (r.settledFlags_append_leftOpen visit request).symm.filterMap (r.flagValue .discovery)
  have hnone : (r.leftOpen visit request).filterMap (r.flagValue .discovery) = [] :=
    List.filterMap_eq_nil_iff.mpr fun f hf => (mem_leftOpen.mp hf).2
  have hsame : (r.settledFlags visit request).filterMap (r.flagValue .discovery) =
      (r.settledFlags visit request).filterMap (r.flagValue (.complete R)) :=
    List.filterMap_congr fun f hf => (settledFlags_decided hv hp hsettled R hf).2.1.symm
  rwa [List.filterMap_append, hnone, List.append_nil, hsame] at hsplit

/-- So are the writes. -/
theorem discovery_writes_perm (hsettled : r.SettledUnconsulted request)
    (hopen : r.OpenUnwritten request) (R : List MaterializationRecord) :
    ((r.requested visit request).flatMap (r.flagWrites .discovery)).Perm
      ((r.settledFlags visit request).flatMap (r.flagWrites (.complete R))) := by
  have hsplit :=
    (r.settledFlags_append_leftOpen visit request).symm.flatMap_right (r.flagWrites .discovery)
  have hnone : (r.leftOpen visit request).flatMap (r.flagWrites .discovery) = [] :=
    List.flatMap_eq_nil_iff.mpr fun f hf => leftOpen_unwritten hv hp hopen hf
  have hsame : (r.settledFlags visit request).flatMap (r.flagWrites .discovery) =
      (r.settledFlags visit request).flatMap (r.flagWrites (.complete R)) :=
    List.flatMap_congr fun f hf => (settledFlags_decided hv hp hsettled R hf).2.2.symm
  rwa [List.flatMap_append, hnone, List.append_nil, hsame] at hsplit

/-- The writes that a continuation holds clash with those of the flags left open exactly when the
writes of all flags clash. -/
theorem disjoint_resumed_iff (hsettled : r.SettledUnconsulted request)
    (hopen : r.OpenUnwritten request)
    (hd : Disjoint ((r.requested visit request).map (r.flagWrites .discovery))) :
    Disjoint ((r.requested visit request).flatMap (r.flagWrites .discovery) ::
        (r.leftOpen visit request).map (r.flagWrites (.complete R))) ↔
      Disjoint ([] :: (r.requested visit request).map (r.flagWrites (.complete R))) := by
  have hown : Disjoint ((r.settledFlags visit request).map (r.flagWrites (.complete R))) := by
    rw [List.map_congr_left fun f hf => (settledFlags_decided hv hp hsettled R hf).2.2]
    exact hd.sublist (List.filter_sublist.map _)
  have hheld : ∀ V, NoClash ((r.requested visit request).flatMap (r.flagWrites .discovery)) V ↔
      NoClash ((r.settledFlags visit request).flatMap (r.flagWrites (.complete R))) V := fun V =>
    forall_congr' fun a => by
      rw [(discovery_writes_perm hv hp hsettled hopen R).mem_iff]
  rw [disjoint_cons, disjoint_cons,
    disjoint_perm ((r.settledFlags_append_leftOpen visit request).symm.map _), List.map_append]
  simp only [hheld, noClash_flatMap_left]
  have happend : Disjoint ((r.settledFlags visit request).map (r.flagWrites (.complete R)) ++
      (r.leftOpen visit request).map (r.flagWrites (.complete R))) ↔ _ := List.pairwise_append
  rw [happend]
  constructor
  · rintro ⟨hclash, hopenOnes⟩
    refine ⟨fun V _ => noClash_nil_left V, hown, hopenOnes, fun V hV U hU => ?_⟩
    obtain ⟨f, hf, rfl⟩ := List.mem_map.mp hV
    exact hclash U hU f hf
  · rintro ⟨-, -, hopenOnes, hclash⟩
    exact ⟨fun U hU f hf => hclash _ (List.mem_map_of_mem hf) U hU, hopenOnes⟩

end Sound

/-- Where the first pass is sound, resuming and resolving in one pass agree on the flags and on
the writes. -/
theorem resume_alike {visit'' : List Flag} {host'' : Host Bytes}
    (hv : visit.Perm r.state.flags.values) (hv' : visit'.Perm r.state.flags.values)
    (hv'' : visit''.Perm r.state.flags.values) (hsettled : r.SettledUnconsulted request)
    (hopen : r.OpenUnwritten request) {K : List MaterializationRecord} {state : Bytes}
    {calls : List HostCall}
    (hs : r.resolveFlags wire host visit (.deferredMaterializations request) =
      .ok (.suspended K state, calls)) :
    SameFlags (r.resolveFlags wire host' visit' (.resume R state))
        (r.resolveFlags wire host'' visit'' (.staticMaterializations (some request) R)) ∧
      SameWrites (r.resolveFlags wire host' visit' (.resume R state))
        (r.resolveFlags wire host'' visit'' (.staticMaterializations (some request) R)) := by
  obtain ⟨hp, hd, hlen, rfl, -⟩ := suspended_inv hs
  -- the second pass visits what the first one left open, the direct pass everything
  have hsecond : (r.leftOpen visit' request).Perm (r.leftOpen visit request) :=
    leftOpen_perm (hv'.trans hv.symm)
  have hdirect : (r.requested visit'' request).Perm
      (r.settledFlags visit request ++ r.leftOpen visit request) :=
    (requested_perm (hv''.trans hv.symm)).trans
      (r.settledFlags_append_leftOpen visit request).symm
  rw [resume_eq rfl, static_eq]
  refine resolvePass_alike wire host' host'' (flagsToResolve_resumed hv hv' hp) flagsToResolve_nil
    (fun _ => leftOpen_active) (fun _ => requested_active)
    (leftOpen_length_le (hv.trans hv'.symm) hlen)
    ((requested_perm (hv''.trans hv.symm)).length_eq.trans_le hlen) ?_ ?_ ?_ ?_
  · simp only [hsecond.mem_iff, hdirect.mem_iff, List.mem_append]
    refine ⟨fun h f hf => hf.elim (fun hf => ?_) (h f), fun h f hf => h f (.inr hf)⟩
    exact (settledFlags_decided hv hp hsettled R hf).1
  · rw [disjoint_perm ((hsecond.map _).cons _),
      disjoint_perm (((requested_perm (hv''.trans hv.symm)).map _).cons _)]
    exact disjoint_resumed_iff hv hp hsettled hopen hd
  · have hvalues := (discovery_values_perm hv hp hsettled R).append
      (hsecond.filterMap (r.flagValue (.complete R)))
    rw [← List.filterMap_append] at hvalues
    exact hvalues.trans (hdirect.filterMap _).symm
  · have hwrites := (discovery_writes_perm hv hp hsettled hopen R).append
      (hsecond.flatMap_right (r.flagWrites (.complete R)))
    rw [← List.flatMap_append] at hwrites
    exact hwrites.trans (hdirect.flatMap_right _).symm

/-- **Resuming is resolving in one pass**, for every set of records and up to order, when no flag
that the first pass resolved has consulted a record, and no flag that it left open has scheduled a
write. -/
theorem resume_agrees {visit'' : List Flag} {host'' : Host Bytes}
    (hv : visit.Perm r.state.flags.values) (hv' : visit'.Perm r.state.flags.values)
    (hv'' : visit''.Perm r.state.flags.values) (hsettled : r.SettledUnconsulted request)
    (hopen : r.OpenUnwritten request) {K : List MaterializationRecord} {state : Bytes}
    {calls : List HostCall}
    (hs : r.resolveFlags wire host visit (.deferredMaterializations request) =
      .ok (.suspended K state, calls)) :
    ∀ R, SameFlags (r.resolveFlags wire host' visit' (.resume R state))
      (r.resolveFlags wire host'' visit'' (.staticMaterializations (some request) R)) :=
  fun _ => (resume_alike hv hv' hv'' hsettled hopen hs).1

instance : Decidable (r.SettledUnconsulted request) := List.decidableBAll _ _

instance : Decidable (r.OpenUnwritten request) := List.decidableBAll _ _

end AccountResolver

/-! ### A small account -/

namespace Sample

/-- None of these functions is called on the account below. -/
def natives : Natives where
  murmur3 _ := 0
  numberToString _ := ""
  numberToWhole _ := ""
  parseNumber _ := none
  fromTimestamp _ := none
  fromTimestampMillis _ := none
  parseRfc3339 _ := none
  parseDateTime _ _ := none
  parseDate _ := none

def segment : Segment := ⟨"segments/s", none⟩

theorem segment_nodup : ([segment].map Segment.name).Nodup := List.nodup_singleton _

/-- One assignment, for all of one bucket. -/
def fullRollout (kind : AssignmentKind) : AssignmentSpec := ⟨1, [⟨"a", some kind, [⟨0, 1⟩]⟩]⟩

def rule (name : String) (kind : AssignmentKind) : Rule where
  name := name
  segment := "segments/s"
  assignmentSpec := some (fullRollout kind)
  targetingKeySelector := ""
  enabled := true
  environments := []
  materializationSpec := none

/-- The rule, with reads of `m` and writes to `m`. -/
def sticky (rule : Rule) : Rule := { rule with materializationSpec := some ⟨"m", "m", none⟩ }

def flag (name : String) (rules : List Rule) : Flag where
  name := name
  state := .active
  variants := [⟨"on", none⟩]
  rules := rules
  clients := ["clients/c"]
  schema := none

/-- The account's resolver, on a context with a unit and a struct. -/
def resolver (flags : List Flag) (segments : List Segment) (hf : (flags.map Flag.name).Nodup)
    (hs : (segments.map Segment.name).Nodup) : AccountResolver where
  natives := natives
  client := ⟨⟨"accounts/a"⟩, "clients/c", "clients/c/clientCredentials/k", [], []⟩
  state := ⟨.empty, ⟨flags, hf⟩, ⟨segments, hs⟩, ∅, ∅, none⟩
  context := [("targeting_key", .string "u"), ("account", .struct [])]
  disableExposureCollection := false
  canEncrypt := true

def wire : Wire ResolveProcessState := ⟨id, some, fun _ => rfl⟩

def host : Host ResolveProcessState := ⟨⟨0, 0⟩, "r", fun _ => ⟨none, [], []⟩⟩

def request : ResolveFlagsRequest := ⟨[], true⟩

/-- The reasons of a resolved outcome. -/
def reasons {Bytes : Type} :
    Except ProcessError (ResolveProcessResponse Bytes × List HostCall) → List ResolveReason
  | .ok (.resolved response _, _) => response.resolvedFlags.map (·.reason)
  | _ => []

end Sample

theorem SameFlags.reasons {Bytes : Type}
    {res res' : Except ProcessError (ResolveProcessResponse Bytes × List HostCall)}
    (h : SameFlags res res') : (Sample.reasons res).Perm (Sample.reasons res') := by
  rcases res with e | ⟨_ | _, _⟩ <;> rcases res' with e' | ⟨_ | _, _⟩ <;>
    first | exact h.elim | exact .nil | exact h.1.map _

/-- A flag with a rule that reads `m`, and a flag without. -/
def Sample.openAndSettled : AccountResolver :=
  Sample.resolver
    [Sample.flag "flags/f" [Sample.sticky (Sample.rule "flags/f/rules/1" (.variant "on"))],
      Sample.flag "flags/g" [Sample.rule "flags/g/rules/1" (.variant "on")]]
    [Sample.segment] (by decide) Sample.segment_nodup

theorem resume_agrees_openAndSettled :
    ∃ K state calls,
      Sample.openAndSettled.resolveFlags Sample.wire Sample.host
        Sample.openAndSettled.state.flags.values (.deferredMaterializations Sample.request) =
          .ok (.suspended K state, calls) ∧
      ∀ R, SameFlags
        (Sample.openAndSettled.resolveFlags Sample.wire Sample.host
          Sample.openAndSettled.state.flags.values.reverse (.resume R state))
        (Sample.openAndSettled.resolveFlags Sample.wire Sample.host
          Sample.openAndSettled.state.flags.values
          (.staticMaterializations (some Sample.request) R)) :=
  have h : Sample.openAndSettled.resolveFlags Sample.wire Sample.host
      Sample.openAndSettled.state.flags.values (.deferredMaterializations Sample.request) =
        .ok (.suspended _ _, _) := rfl
  ⟨_, _, _, h, AccountResolver.resume_agrees (.refl _) (List.reverse_perm _) (.refl _)
    (by decide) (by decide) h⟩

/-- A rule that reads `m`, and one whose targeting key is a struct. -/
def Sample.keyErrorBehindRead : AccountResolver :=
  Sample.resolver
    [Sample.flag "flags/f" [Sample.sticky (Sample.rule "flags/f/rules/1" (.variant "on")),
      { Sample.rule "flags/f/rules/2" (.variant "on") with targetingKeySelector := "account" }]]
    [Sample.segment] (by decide) Sample.segment_nodup

/-- **An undecided rule is overlooked.**  The first pass goes past the rule that reads `m` and ends
the flag with the error of the next rule's targeting key.  In one pass without any records the
first rule matches. -/
theorem resume_overlooks_rule :
    ∃ K state calls,
      Sample.keyErrorBehindRead.resolveFlags Sample.wire Sample.host
        Sample.keyErrorBehindRead.state.flags.values (.deferredMaterializations Sample.request) =
          .ok (.suspended K state, calls) ∧
      Sample.reasons (Sample.keyErrorBehindRead.resolveFlags Sample.wire Sample.host
        Sample.keyErrorBehindRead.state.flags.values (.resume [] state)) =
          [.targetingKeyError] ∧
      Sample.reasons (Sample.keyErrorBehindRead.resolveFlags Sample.wire Sample.host
        Sample.keyErrorBehindRead.state.flags.values
        (.staticMaterializations (some Sample.request) [])) = [.match] ∧
      ¬ SameFlags
        (Sample.keyErrorBehindRead.resolveFlags Sample.wire Sample.host
          Sample.keyErrorBehindRead.state.flags.values (.resume [] state))
        (Sample.keyErrorBehindRead.resolveFlags Sample.wire Sample.host
          Sample.keyErrorBehindRead.state.flags.values
          (.staticMaterializations (some Sample.request) [])) := by
  refine ⟨_, _, _, rfl, ?_, ?_, fun h => absurd h.reasons ?_⟩
  · decide
  · decide
  · decide

end ConfidenceResolver
