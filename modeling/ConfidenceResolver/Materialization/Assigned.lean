import ConfidenceResolver.Materialization.Justified
import ConfidenceResolver.Materialization.Stable

/-!
# Materialization — what is written is what the state assigns

The bucket of a unit depends on the unit, on the rule and on nothing else of a request: neither on
the context, nor on the records, nor on the flags resolved before.  So all that requests write under
one published state are values of one function of the key, where no two rules share a name.

* `Gives`: a record is what a rule of the state assigns to the record's unit.
* `gives_unique`: the state gives one variant for a key.
* `resolveFlags_gives`: the writes of a request, and those behind a suspension, are given.
-/

namespace ConfidenceResolver

namespace AccountResolver

variable {Bytes : Type} {r r' : AccountResolver} {wire : Wire Bytes} {host : Host Bytes}
  {visit : List Flag} {b : MaterializationRecords} {rule : Rule} {value : ResolvedValue}
  {p : Progress} {W : List MaterializationRecord} {A : Set (String × String × String)}
  {q q' : MaterializationRecord}

/-- The record is what the rule assigns to its unit. -/
def RuleGives (r : AccountResolver) (rule : Rule) (q : MaterializationRecord) : Prop :=
  rule.writes = some q.materialization ∧ q.rule = rule.name ∧
    ∃ spec id kind ranges, rule.assignmentSpec = some spec ∧
      r.matchedAssignment rule spec (some q.unit) = .ok (some ⟨id, some kind, ranges⟩) ∧
      q.variant = kind.variantName

/-- The record is what a rule of the state assigns to its unit. -/
def Gives (r : AccountResolver) (q : MaterializationRecord) : Prop :=
  ∃ flag ∈ r.state.flags.values, ∃ rule ∈ flag.rules, r.RuleGives rule q

/-- Two requests run under one published state. -/
def SameState (r r' : AccountResolver) : Prop := r.natives = r'.natives ∧ r.state = r'.state

/-! ### A value of the key -/

/-- What is given depends on the published state alone. -/
theorem Gives.congr (h : SameState r r') (hq : r.Gives q) : r'.Gives q := by
  obtain ⟨flag, hf, rule, hr, hw, hn, spec, id, kind, ranges, hs, hm, hv⟩ := hq
  have hmatched : r'.matchedAssignment rule spec (some q.unit) =
      r.matchedAssignment rule spec (some q.unit) := by
    simp only [matchedAssignment, h.1]
  exact ⟨flag, h.2 ▸ hf, rule, hr, hw, hn, spec, id, kind, ranges, hs, hmatched.trans hm, hv⟩

/-- The state's rules that write have distinct names. -/
def NamesApart (s : ResolverState) : Prop :=
  (s.flags.values.flatMap fun flag => writingRules flag.rules).Nodup

instance (s : ResolverState) : Decidable (NamesApart s) := List.nodupDecidable _

theorem RuleGives.unique (h : r.RuleGives rule q) (h' : r.RuleGives rule q')
    (hkey : q.key = q'.key) : q = q' := by
  obtain ⟨-, -, spec, id, kind, ranges, hs, hm, hv⟩ := h
  obtain ⟨-, -, spec', id', kind', ranges', hs', hm', hv'⟩ := h'
  cases hs.symm.trans hs'
  simp only [MaterializationRecord.key, Prod.mk.injEq] at hkey
  obtain ⟨hu, hmat, hrule⟩ := hkey
  rw [hu, hm'] at hm
  cases hm
  cases q
  cases q'
  simp_all

/-- A name of a rule that writes is one rule's. -/
theorem rule_of_name (hnames : NamesApart r.state) {flag flag' : Flag} {rule rule' : Rule}
    (hf : flag ∈ r.state.flags.values) (hf' : flag' ∈ r.state.flags.values)
    (hr : rule ∈ flag.rules) (hr' : rule' ∈ flag'.rules) (hw : rule.materializationSpec.isSome)
    (hw' : rule'.materializationSpec.isSome) (hname : rule.name = rule'.name) : rule = rule' := by
  have hall : writingRules (r.state.flags.values.flatMap Flag.rules) =
      r.state.flags.values.flatMap fun flag => writingRules flag.rules := by
    simp only [writingRules, List.filter_flatMap, List.map_flatMap]
  rw [NamesApart, ← hall] at hnames
  have hmem : ∀ {flag : Flag} {rule : Rule}, flag ∈ r.state.flags.values → rule ∈ flag.rules →
      rule.materializationSpec.isSome → rule ∈ (r.state.flags.values.flatMap Flag.rules).filter
        fun rule => rule.materializationSpec.isSome := fun hf hr hw =>
    List.mem_filter.mpr ⟨List.mem_flatMap.mpr ⟨_, hf, hr⟩, hw⟩
  exact List.inj_on_of_nodup_map hnames (hmem hf hr hw) (hmem hf' hr' hw') hname

/-- **The state gives one variant for a key.** -/
theorem gives_unique (hnames : NamesApart r.state) (h : r.Gives q) (h' : r.Gives q')
    (hkey : q.key = q'.key) : q = q' := by
  obtain ⟨flag, hf, rule, hr, hgives⟩ := h
  obtain ⟨flag', hf', rule', hr', hgives'⟩ := h'
  have hspec : ∀ {rule : Rule} {q : MaterializationRecord}, r.RuleGives rule q →
      rule.materializationSpec.isSome := fun hgives =>
    Option.isSome_iff_exists.mpr (Option.map_eq_some_iff.mp hgives.1 |>.imp fun _ h => h.1)
  have hname : rule.name = rule'.name :=
    hgives.2.1.symm.trans ((congrArg (fun key => key.2.2) hkey).trans hgives'.2.1)
  obtain rfl := rule_of_name hnames hf hf' hr hr' (hspec hgives) (hspec hgives') hname
  exact hgives.unique hgives' hkey

/-! ### The writes of a request -/

theorem resolveRule_gives (hb : b ≠ .unsupported) {hasMissing : Bool}
    (h : Does b (r.resolveRule rule hasMissing value) p W A) : ∀ q ∈ W, r.RuleGives rule q := by
  rcases hg : r.ruleGuard rule with _ | _ | ⟨a, spec, unit⟩ <;> rw [resolveRule, hg] at h
  · simp [(does_pure h).2.1]
  · simp [(does_pure h).2.1]
  · obtain ⟨mt, -, hd⟩ := resolveMatched_does_inv hb (ruleGuard_mem hg) h
    rcases mt with ⟨assignment, u⟩ | missing | ⟨_ | _ | _, missing⟩
    · simp [(does_lift hd).2.1]
    · simp [(does_pure hd).2.1]
    · simp [(does_pure hd).2.1]
    · simp [(does_pure hd).2.1]
    · rw [afterMatch] at hd
      split at hd
      · simp [(does_pure hd).2.1]
      · rcases (assignRule_inv hb hd).2 with ⟨-, rfl, -⟩ | ⟨id, kind, ranges, hm, -, rfl⟩
        · simp
        · -- a write needs a unit, and a materialization to write to
          rcases unit with _ | u
          · simp [Rule.writesFor]
          · rcases hw : rule.writes with _ | m
            · simp [Rule.writesFor, hw]
            · intro q hq
              simp only [Rule.writesFor, hw, List.mem_singleton] at hq
              subst hq
              exact ⟨hw, rfl, spec, id, kind, ranges, (ruleGuard_go hg).2.2.2.1, hm, rfl⟩

theorem runRules_gives (hb : b ≠ .unsupported) {rules : List Rule} :
    ∀ {hasMissing : Bool} {value : ResolvedValue} {p : Progress} {W : List MaterializationRecord}
      {A : Set (String × String × String)}, Does b (r.runRules rules hasMissing value) p W A →
      ∀ q ∈ W, ∃ rule ∈ rules, r.RuleGives rule q := by
  induction rules with
  | nil =>
      intro hasMissing value p W A h
      simp [(does_pure h).2.1]
  | cons rule rules ih =>
      intro hasMissing value p W A h q hq
      obtain ⟨p₁, W₁, A₁, W₂, A₂, h₁, h₂, -, rfl, -⟩ := runRules_does_inv hb h
      rcases List.mem_append.mp hq with hq | hq
      · exact ⟨rule, List.mem_cons_self, resolveRule_gives hb h₁ q hq⟩
      · rcases p₁ with ⟨m, v⟩ | v
        · obtain ⟨rule', hr, hgives⟩ := ih h₂ q hq
          exact ⟨rule', List.mem_cons_of_mem rule hr, hgives⟩
        · simp [(does_pure h₂).2.1] at hq

theorem flagWrites_gives (hb : b ≠ .unsupported) {flag : Flag} (hf : flag.state ≠ .archived)
    (hmem : flag ∈ r.state.flags.values) (hp : r.Passes b flag) :
    ∀ q ∈ r.flagWrites b flag, r.Gives q := by
  obtain ⟨p, W, A, hd⟩ := hp
  rw [(does_flag hf hd).2.1]
  exact fun q hq => ⟨flag, hmem, runRules_gives hb hd q hq⟩

/-- The writes of a pass are those it started with and what the state gives. -/
theorem resolveEach_gives (hb : b ≠ .unsupported) {flags : List Flag}
    (hf : ∀ flag ∈ flags, flag.state ≠ .archived)
    (hmem : ∀ flag ∈ flags, flag ∈ r.state.flags.values) {c c' : MaterializationContext}
    (hc : c.records = b) {as : List AssignedFlag} (h : r.resolveEach flags c = (.ok as, c'))
    (hheld : ∀ q ∈ c.toWrite, r.Gives q) : ∀ q ∈ c'.toWrite, r.Gives q := by
  obtain ⟨hp, -⟩ := (resolveEach_eq_ok_iff hb hf hc).mp ⟨as, c', h⟩
  obtain ⟨-, -, hw, -⟩ := resolveEach_outcome hb hf hc h
  intro q hq
  rw [hw] at hq
  rcases List.mem_append.mp hq with hq | hq
  · exact hheld q hq
  · obtain ⟨flag, hflag, hq⟩ := List.mem_flatMap.mp hq
    exact flagWrites_gives hb (hf flag hflag) (hmem flag hflag) (hp flag hflag) q hq

/-- The writes that a continuation holds are given. -/
def HoldsGiven (r : AccountResolver) (wire : Wire Bytes) (state : Bytes) : Prop :=
  ∃ st, wire.decode state = some st ∧ ∀ q ∈ st.materializationsToWrite, r.Gives q

/-- **The writes of a request are given**, and so are those behind its suspension: if it is
deferred, or resumed from such a continuation. -/
theorem resolveFlags_gives (hv : visit.Perm r.state.flags.values)
    {request : ResolveProcessRequest Bytes} {response : ResolveProcessResponse Bytes}
    {calls : List HostCall}
    (hrequest : (∃ req, request = .deferredMaterializations req) ∨
      ∃ R state, request = .resume R state ∧ r.HoldsGiven wire state)
    (h : r.resolveFlags wire host visit request = .ok (response, calls)) :
    (∀ flags W, response = .resolved flags W → ∀ q ∈ W, r.Gives q) ∧
      ∀ K state, response = .suspended K state → r.HoldsGiven wire state := by
  obtain ⟨st, c, req, as, c', hstart, -, hrun, hcase⟩ := resolveFlags_pass h
  have hflags : ∀ flag ∈ r.flagsToResolve visit req st.resolvedFlags,
      flag ∈ r.state.flags.values := fun flag hf => hv.mem_iff.mp (List.mem_of_mem_filter hf)
  have hbegin : c.records ≠ .unsupported ∧ ∀ q ∈ c.toWrite, r.Gives q := by
    rcases hrequest with ⟨req', rfl⟩ | ⟨R, state, rfl, st', hdec, hgiven⟩
    · cases hstart
      exact ⟨by simp [MaterializationContext.discovery], by simp [MaterializationContext.discovery]⟩
    · simp only [start, hdec] at hstart
      cases hstart
      exact ⟨by simp [MaterializationContext.complete], hgiven⟩
  have hgives :=
    resolveEach_gives hbegin.1 (fun _ => flagsToResolve_active) hflags rfl hrun hbegin.2
  rcases hcase with ⟨flags, rfl⟩ | ⟨-, rfl⟩
  · refine ⟨fun flags' W hres => ?_, fun K state hres => by cases hres⟩
    cases hres
    exact hgives
  · refine ⟨fun flags' W hres => (by cases hres), fun K state hres => ?_⟩
    cases hres
    exact ⟨_, wire.decode_encode _, hgives⟩

end AccountResolver

end ConfidenceResolver
