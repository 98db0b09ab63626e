import ConfidenceResolver.Materialization.Passes
import ConfidenceResolver.Materialization.Rules

/-!
# Materialization — the first pass over a flag's rules

A first pass has no records.  `firstPass` goes over the rules of a flag as the pass does and notes
what matters for the second one: whether a rule was passed by whose match depends on a record,
whether a materialization is missing, whether a write was scheduled, and whether the pass
returned.

* `firstPass_spec`: the notes are those of the code's run.
* `firstPass_decided`: a run that consulted no record is the run with every set of records.
-/

namespace ConfidenceResolver

/-- What a first pass over the rules of a flag has met so far. -/
structure FirstPass where
  /-- A rule was passed by whose match depends on a record. -/
  consulted : Bool := false
  /-- `has_missing_materializations`. -/
  missing : Bool := false
  /-- A write was scheduled. -/
  wrote : Bool := false
  /-- A rule ended the flag. -/
  finished : Bool := false
deriving DecidableEq

/-- The flag is left open: the pass ends with `MissingMaterializations`. -/
def FirstPass.isOpen (t : FirstPass) : Bool := !t.finished && t.missing

namespace AccountResolver

variable (r : AccountResolver)

/-- The assignment of a matched rule, where it has a kind. -/
def assignedKind (rule : Rule) (spec : AssignmentSpec) (unit : Option String) :
    Option AssignmentKind :=
  match r.matchedAssignment rule spec unit with
  | .ok (some ⟨_, kind, _⟩) => kind
  | _ => none

/-- A matched rule ends the flag: its assignment is a variant or the client default. -/
def finishes (rule : Rule) (spec : AssignmentSpec) (unit : Option String) : Bool :=
  match r.assignedKind rule spec unit with
  | none | some .fallthrough => false
  | some .clientDefault | some (.variant _) => true

/-- A matched rule schedules a write. -/
def schedulesWrite (rule : Rule) (spec : AssignmentSpec) (unit : Option String) : Bool :=
  (r.assignedKind rule spec unit).isSome && unit.isSome && rule.writes.isSome

/-- The first pass after another rule. -/
def firstPassRule (t : FirstPass) (rule : Rule) : FirstPass :=
  if t.finished then t
  else
    match r.ruleGuard rule with
    | .skip => t
    | .targetingKeyError => { t with finished := true }
    | .go segment spec unit =>
        match r.matchRule rule segment spec unit .discovery with
        | (.error _, _) => { t with finished := true }
        | (.ok (.segment (some true) false), _) =>
            if t.missing then t
            else { t with
              wrote := t.wrote || r.schedulesWrite rule spec unit
              finished := r.finishes rule spec unit }
        | (.ok (.segment (some false) false), _) => t
        | (.ok (.skip missing), c) =>
            { t with
              consulted := t.consulted || !c.toRead.isEmpty, missing := t.missing || missing }
        | (.ok _, _) => { t with consulted := true, missing := true }

/-- The first pass over the rules of a flag. -/
def firstPass (rules : List Rule) (t : FirstPass) : FirstPass := rules.foldl r.firstPassRule t

variable {r} {rule : Rule} {spec : AssignmentSpec} {unit : Option String} {a : Segment}
  {b : MaterializationRecords} {p : Progress} {value : ResolvedValue}
  {W : List MaterializationRecord} {A : Set (String × String × String)}

/-! ### The assignment of a rule -/

theorem writesFor_isEmpty (variantName : String) :
    (!(rule.writesFor unit variantName).isEmpty) = (unit.isSome && rule.writes.isSome) := by
  unfold Rule.writesFor
  rcases unit with _ | u
  · rfl
  · rcases rule.writes with _ | m <;> rfl

/-- Whether an assignment that succeeds ends the flag, and whether it writes. -/
theorem assignRule_does (hb : b ≠ .unsupported)
    (h : Does b (r.assignRule rule a spec unit value) p W A) :
    (if r.finishes rule spec unit then ∃ v, p = .done v else ∃ v, p = .next false v) ∧
      (!W.isEmpty) = r.schedulesWrite rule spec unit := by
  unfold schedulesWrite finishes assignedKind
  rcases (assignRule_inv hb h).2 with ⟨rfl, rfl, hm | ⟨id, ranges, hm⟩⟩ |
    ⟨id, kind, ranges, hm, hk, rfl⟩
  · rw [hm]
    exact ⟨⟨value, rfl⟩, rfl⟩
  · rw [hm]
    exact ⟨⟨value, rfl⟩, rfl⟩
  · rw [hm, writesFor_isEmpty]
    refine ⟨?_, by simp⟩
    unfold applyAssignment at hk
    rcases kind with v | _ | _
    · dsimp only at hk ⊢
      split at hk <;> cases hk
      exact ⟨_, rfl⟩
    · cases hk
      exact ⟨_, rfl⟩
    · cases hk
      exact ⟨_, rfl⟩

/-! ### One rule -/

/-- A rule that passed its guard, from its match and what is done with it. -/
theorem resolveMatched_does_inv (hb : b ≠ .unsupported) (ha : a ∈ r.state.segments.values)
    {hasMissing : Bool}
    (h : Does b (r.resolveMatched rule a spec unit hasMissing value) p W A) :
    ∃ mt, Yields b (r.matchRule rule a spec unit) (.ok mt) A ∧
      Does b (r.afterMatch rule a spec unit hasMissing value mt) p W ∅ := by
  have hm : Observes {b} matchErrors (r.matchRule rule a spec unit) :=
    matchRule_observes_one ha hb
  have hf := fun mt => afterMatch_framed (r := r) (B := {b}) (fun h => hb h.symm) rule a spec unit
    hasMissing value mt
  obtain ⟨mt, W₁, A₁, W₂, A₂, h₁, h₂, -, rfl, rfl⟩ :=
    h.bind_inv (hm.mono matchErrors_fatal).framed hf
  obtain ⟨e | mt', A', hy, -⟩ := hm
  · exact (h₁.not_fails (hy b rfl).fails).elim
  · obtain ⟨rfl, rfl, rfl⟩ := h₁.unique (hy b rfl).does
    obtain rfl := afterMatch_asked hb h₂
    rw [Set.union_empty]
    exact ⟨mt, hy b rfl, h₂⟩

/-- The notes are those of a run that goes on, or that returned. -/
def FirstPass.Notes (t : FirstPass) : Progress → Prop
  | .next hasMissing _ => t.finished = false ∧ t.missing = hasMissing
  | .done _ => t.finished = true

/-- The notes on a rule are those of the code's run. -/
theorem firstPassRule_spec {t : FirstPass} (ht : t.finished = false)
    (h : Does .discovery (r.resolveRule rule t.missing value) p W A) :
    FirstPass.Notes (r.firstPassRule t rule) p ∧
      (r.firstPassRule t rule).wrote = (t.wrote || !W.isEmpty) := by
  unfold firstPassRule
  rw [if_neg (by simp [ht])]
  unfold resolveRule at h
  rcases hg : r.ruleGuard rule with _ | _ | ⟨a, spec, unit⟩ <;> rw [hg] at h <;> dsimp only at h ⊢
  · obtain ⟨rfl, rfl, -⟩ := does_pure h
    exact ⟨⟨ht, rfl⟩, by simp⟩
  · obtain ⟨rfl, rfl, -⟩ := does_pure h
    exact ⟨rfl, by simp⟩
  · have ha := ruleGuard_mem hg
    obtain ⟨mt, hm, hd⟩ := resolveMatched_does_inv (by simp) ha h
    have hrun : r.matchRule rule a spec unit .discovery =
        (.ok mt, (r.matchRule rule a spec unit .discovery).2) := Eff.run_eq hm.fresh.1
    rw [hrun]
    rcases mt with ⟨assignment, u⟩ | missing | ⟨_ | _ | _, _ | _⟩
    · -- a first pass selects no record
      rcases matchRule_discovery_cases ha hm with ⟨-, hres, -⟩ | ⟨m, mode, -, -, hres, -⟩ |
          ⟨m, mode, u', -, -, hres, -⟩
      · exact absurd hres.symm matchSegmentResult_ne_sticky
      · cases hres
      · exact absurd hres.symm matchSegmentResult_ne_sticky
    · obtain ⟨rfl, rfl, -⟩ := does_pure hd
      exact ⟨⟨ht, rfl⟩, by simp⟩
    · obtain ⟨rfl, rfl, -⟩ := does_pure hd
      exact ⟨⟨ht, rfl⟩, by simp⟩
    · obtain ⟨rfl, rfl, -⟩ := does_pure hd
      exact ⟨⟨ht, rfl⟩, by simp⟩
    · obtain ⟨rfl, rfl, -⟩ := does_pure hd
      exact ⟨⟨ht, by simp⟩, by simp⟩
    · obtain ⟨rfl, rfl, -⟩ := does_pure hd
      exact ⟨⟨ht, by simp⟩, by simp⟩
    · rw [afterMatch, Bool.or_false] at hd
      -- a match schedules its write only while nothing is missing
      rcases hmiss : t.missing with _ | _
      · rw [if_neg (by simp [hmiss])] at hd
        obtain ⟨h₁, h₂⟩ := assignRule_does (by simp) hd
        dsimp only
        rw [if_neg (by simp), h₂]
        rcases hfin : r.finishes rule spec unit with _ | _ <;> rw [hfin] at h₁ <;>
          obtain ⟨v, rfl⟩ := h₁
        · exact ⟨⟨rfl, rfl⟩, rfl⟩
        · exact ⟨rfl, rfl⟩
      · rw [if_pos hmiss] at hd
        obtain ⟨rfl, rfl, -⟩ := does_pure hd
        exact ⟨⟨ht, hmiss⟩, by simp⟩
    · rw [afterMatch, Bool.or_true, if_pos rfl] at hd
      obtain ⟨rfl, rfl, -⟩ := does_pure hd
      exact ⟨⟨ht, by simp⟩, by simp⟩

/-- What was consulted stays consulted. -/
theorem firstPassRule_consulted {t : FirstPass} (h : t.consulted = true) :
    (r.firstPassRule t rule).consulted = true := by
  unfold firstPassRule
  split
  · exact h
  · split
    · exact h
    · exact h
    · split
      · exact h
      · split <;> exact h
      · exact h
      · simp [h]
      · rfl

/-- What is done with a match of a first pass does not depend on the records. -/
theorem resolveMatched_of_discovery {mt : RuleMatch} {records : List MaterializationRecord}
    {hasMissing : Bool}
    (hd : Does .discovery (r.afterMatch rule a spec unit hasMissing value mt) p W ∅)
    (hy : Yields (.complete records) (r.matchRule rule a spec unit) (.ok mt) ∅) :
    ∃ A', Does (.complete records) (r.resolveMatched rule a spec unit hasMissing value) p W A' := by
  have hafter := afterMatch_framed (r := r) (B := {.discovery, .complete records}) (by simp) rule a
    spec unit hasMissing value mt
  exact ⟨_, hy.does.bind (hafter.transfer hd) (noClash_nil_left _)⟩

/-- A rule whose match consulted no record, with every set of records. -/
theorem firstPassRule_decided {t : FirstPass} (ht : t.finished = false)
    (hc : (r.firstPassRule t rule).consulted = false)
    (h : Does .discovery (r.resolveRule rule false value) p W A)
    (records : List MaterializationRecord) :
    (∃ A', Does (.complete records) (r.resolveRule rule false value) p W A') ∧
      ∀ hasMissing v, p = .next hasMissing v → hasMissing = false := by
  unfold firstPassRule at hc
  rw [if_neg (by simp [ht])] at hc
  unfold resolveRule at h ⊢
  rcases hg : r.ruleGuard rule with _ | _ | ⟨a, spec, unit⟩ <;> rw [hg] at h hc <;>
    dsimp only at h hc ⊢
  · obtain ⟨rfl, rfl, -⟩ := does_pure h
    exact ⟨⟨∅, (Yields.pure _ _).does⟩, fun _ _ h => by cases h; rfl⟩
  · obtain ⟨rfl, rfl, -⟩ := does_pure h
    exact ⟨⟨∅, (Yields.pure _ _).does⟩, fun _ _ h => by cases h⟩
  · have ha := ruleGuard_mem hg
    obtain ⟨mt, hy, hd⟩ := resolveMatched_does_inv (by simp) ha h
    have hrun : r.matchRule rule a spec unit .discovery =
        (.ok mt, (r.matchRule rule a spec unit .discovery).2) := Eff.run_eq hy.fresh.1
    rw [hrun] at hc
    -- nothing was consulted, so the match is one that every record set gives
    rcases mt with ⟨assignment, u⟩ | missing | ⟨_ | _ | _, _ | _⟩
    · cases hc
    · simp only [Bool.or_eq_false_iff, Bool.not_eq_false', List.isEmpty_iff] at hc
      have hA : A = ∅ := by
        rw [← hy.fresh.2]
        exact asked_eq_empty.mpr hc.2
      rw [hA] at hy
      obtain ⟨rfl, hq⟩ := matchRule_quiet ha hy records
      refine ⟨resolveMatched_of_discovery hd hq, fun hasMissing v he => ?_⟩
      obtain ⟨h₁, -, -⟩ := does_pure hd
      rw [he] at h₁
      cases h₁
      rfl
    · cases hc
    · cases hc
    · refine ⟨resolveMatched_of_discovery hd (matchRule_refines ha hy records),
        fun hasMissing v he => ?_⟩
      obtain ⟨h₁, -, -⟩ := does_pure hd
      rw [he] at h₁
      cases h₁
      rfl
    · cases hc
    · refine ⟨resolveMatched_of_discovery hd (matchRule_refines ha hy records),
        fun hasMissing v he => ?_⟩
      obtain ⟨h₁, -⟩ := assignRule_does (by simp) hd
      split at h₁ <;> obtain ⟨v', rfl⟩ := h₁ <;> cases he
      rfl
    · cases hc

/-! ### The rules of a flag -/

theorem firstPass_finished {t : FirstPass} (h : t.finished = true) (rules : List Rule) :
    r.firstPass rules t = t := by
  induction rules with
  | nil => rfl
  | cons rule rules ih =>
      have : r.firstPassRule t rule = t := by rw [firstPassRule, if_pos h]
      rw [firstPass, List.foldl_cons, this]
      exact ih

theorem firstPass_consulted {t : FirstPass} (h : t.consulted = true) (rules : List Rule) :
    (r.firstPass rules t).consulted = true := by
  induction rules generalizing t with
  | nil => exact h
  | cons rule rules ih => exact ih (firstPassRule_consulted h)

/-- A run over the rules, from the first rule and the rest. -/
theorem runRules_does_inv (hb : b ≠ .unsupported) {rules : List Rule} {hasMissing : Bool}
    (h : Does b (r.runRules (rule :: rules) hasMissing value) p W A) :
    ∃ p₁ W₁ A₁ W₂ A₂, Does b (r.resolveRule rule hasMissing value) p₁ W₁ A₁ ∧
      Does b (match p₁ with
        | .next hasMissing value => r.runRules rules hasMissing value
        | .done value => pure (.done value)) p W₂ A₂ ∧
      NoClash W₁ W₂ ∧ W = W₁ ++ W₂ ∧ A = A₁ ∪ A₂ :=
  h.bind_inv (resolveRule_framed_one hb rule hasMissing value) fun p => by
    rcases p with ⟨m, v⟩ | v
    · exact runRules_framed_one hb rules m v
    · exact .pure _

/-- **The notes of a first pass are those of the code's run.** -/
theorem firstPass_spec {rules : List Rule} : ∀ {t : FirstPass} {value : ResolvedValue}
    {p : Progress} {W : List MaterializationRecord} {A : Set (String × String × String)},
    t.finished = false → Does .discovery (r.runRules rules t.missing value) p W A →
    (p.settled = none ↔ (r.firstPass rules t).isOpen = true) ∧
      (r.firstPass rules t).wrote = (t.wrote || !W.isEmpty) := by
  induction rules with
  | nil =>
      intro t value p W A ht h
      obtain ⟨rfl, rfl, -⟩ := does_pure h
      rcases hm : t.missing with _ | _ <;>
        simp [firstPass, FirstPass.isOpen, Progress.settled, ht, hm]
  | cons rule rules ih =>
      intro t value p W A ht h
      obtain ⟨p₁, W₁, A₁, W₂, A₂, h₁, h₂, -, rfl, -⟩ := runRules_does_inv (by simp) h
      obtain ⟨hp, hw⟩ := firstPassRule_spec ht h₁
      have hcons : r.firstPass (rule :: rules) t = r.firstPass rules (r.firstPassRule t rule) := rfl
      rcases p₁ with ⟨m, v⟩ | v
      · obtain ⟨hf, rfl⟩ := hp
        obtain ⟨h₃, h₄⟩ := ih hf h₂
        rw [hcons, h₄, hw]
        exact ⟨h₃, by cases W₁ <;> cases W₂ <;> simp⟩
      · obtain ⟨rfl, rfl, -⟩ := does_pure h₂
        have hf : (r.firstPassRule t rule).finished = true := hp
        rw [hcons, firstPass_finished hf, hw]
        simp [FirstPass.isOpen, Progress.settled, hf]

/-- **A first pass that consulted no record** is the pass with every set of records. -/
theorem firstPass_decided {rules : List Rule} (records : List MaterializationRecord) :
    ∀ {t : FirstPass} {value : ResolvedValue} {p : Progress} {W : List MaterializationRecord}
      {A : Set (String × String × String)}, t.finished = false → t.missing = false →
      (r.firstPass rules t).consulted = false →
      Does .discovery (r.runRules rules false value) p W A →
      ∃ A', Does (.complete records) (r.runRules rules false value) p W A' := by
  induction rules with
  | nil =>
      intro t value p W A _ _ _ h
      obtain ⟨rfl, rfl, -⟩ := does_pure h
      exact ⟨∅, (Yields.pure _ _).does⟩
  | cons rule rules ih =>
      intro t value p W A ht hm hc h
      obtain ⟨p₁, W₁, A₁, W₂, A₂, h₁, h₂, hn, rfl, -⟩ := runRules_does_inv (by simp) h
      have hc₁ : (r.firstPassRule t rule).consulted = false := by
        by_contra hne
        rw [Bool.not_eq_false] at hne
        have := firstPass_consulted (r := r) hne rules
        rw [show r.firstPass rules (r.firstPassRule t rule) = r.firstPass (rule :: rules) t from
          rfl, hc] at this
        cases this
      obtain ⟨⟨A₃, h₃⟩, hnext⟩ := firstPassRule_decided ht hc₁ h₁ records
      obtain ⟨hp, -⟩ := firstPassRule_spec ht (hm.symm ▸ h₁)
      rcases p₁ with ⟨m, v⟩ | v
      · obtain rfl := hnext m v rfl
        obtain ⟨A₄, h₄⟩ := ih hp.1 hp.2 hc h₂
        exact ⟨_, h₃.bind h₄ hn⟩
      · obtain ⟨rfl, rfl, rfl⟩ := does_pure h₂
        exact ⟨_, h₃.bind (Yields.pure _ _).does hn⟩

/-! ### A flag -/

/-- The first pass over a flag. -/
def flagFirstPass (r : AccountResolver) (flag : Flag) : FirstPass := r.firstPass flag.rules {}

/-- The first pass leaves the flag open. -/
theorem flagValue_discovery_eq_none {flag : Flag} (hf : flag.state ≠ .archived)
    (hp : r.Passes .discovery flag) :
    r.flagValue .discovery flag = none ↔ (r.flagFirstPass flag).isOpen = true := by
  obtain ⟨p, W, A, h⟩ := hp
  rw [(does_flag hf h).1, Option.map_eq_none_iff]
  exact (firstPass_spec (t := {}) rfl h).1

/-- The first pass schedules a write for the flag. -/
theorem flagWrites_discovery_eq_nil {flag : Flag} (hf : flag.state ≠ .archived)
    (hp : r.Passes .discovery flag) :
    r.flagWrites .discovery flag = [] ↔ (r.flagFirstPass flag).wrote = false := by
  obtain ⟨p, W, A, h⟩ := hp
  rw [(does_flag hf h).2.1, flagFirstPass, (firstPass_spec (t := {}) rfl h).2]
  cases W <;> simp

/-- A flag whose first pass consulted no record has its value and its writes with all records. -/
theorem flag_decided {flag : Flag} (hf : flag.state ≠ .archived) (hp : r.Passes .discovery flag)
    (hc : (r.flagFirstPass flag).consulted = false) (records : List MaterializationRecord) :
    r.Passes (.complete records) flag ∧
      r.flagValue (.complete records) flag = r.flagValue .discovery flag ∧
      r.flagWrites (.complete records) flag = r.flagWrites .discovery flag := by
  obtain ⟨p, W, A, h⟩ := hp
  obtain ⟨A', h'⟩ := firstPass_decided records (t := {}) rfl rfl hc h
  obtain ⟨h₁, h₂, -⟩ := does_flag hf h
  obtain ⟨h₃, h₄, -⟩ := does_flag hf h'
  exact ⟨⟨p, W, A', h'⟩, h₃.trans h₁.symm, h₄.trans h₂.symm⟩

end AccountResolver

end ConfidenceResolver
