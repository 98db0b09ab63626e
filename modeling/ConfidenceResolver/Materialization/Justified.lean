import ConfidenceResolver.Materialization.SuspendResume

/-!
# Materialization — where a reported write comes from

A write is scheduled at one place: behind the match of a rule that has a unit, an assignment, and
a materialization spec (`Assigns`).  So the keys of the writes of a pass are those it started with
and those of the rules it assigns (`resolveEach_adds`), and no key occurs twice.

The code schedules the write also where the spec's `write_materialization` is empty, which is how
a paused intake is configured.  A pass therefore reports sound writes exactly when it assigns no
such rule, and none with an empty name or for an empty unit (`writes_justified_iff`).
-/

namespace ConfidenceResolver

/-! ### Computations that schedule nothing -/

/-- The writes and the kind of records stay as they are. -/
def Silent {α : Type} (x : ResolveM α) : Prop :=
  ∀ c, (x c).2.toWrite = c.toWrite ∧ (x c).2.records = c.records

section Silent

variable {α β : Type} {x : ResolveM α}

theorem Silent.pure (a : α) : Silent (Pure.pure a : ResolveM α) := fun _ => ⟨rfl, rfl⟩

theorem Silent.bind {f : α → ResolveM β} (hx : Silent x) (hf : ∀ a, Silent (f a)) :
    Silent (x >>= f) := by
  intro c
  have hc := hx c
  rcases e : x c with ⟨e' | a, c'⟩ <;> rw [e] at hc
  · rw [Eff.bind_of_error e]
    exact hc
  · rw [Eff.bind_of_ok e]
    obtain ⟨hw, hr⟩ := hf a c'
    exact ⟨hw.trans hc.1, hr.trans hc.2⟩

theorem silent_isUnitInMaterialization (m u : String) :
    Silent (MaterializationContext.isUnitInMaterialization m u) := by
  intro c
  unfold MaterializationContext.isUnitInMaterialization
  split
  · exact ⟨rfl, rfl⟩
  · exact ⟨recordMissing_toWrite c u m "", recordMissing_records c u m ""⟩
  · exact ⟨rfl, rfl⟩

theorem silent_hasRuleMaterialization (m u k : String) :
    Silent (MaterializationContext.hasRuleMaterialization m u k) := by
  intro c
  unfold MaterializationContext.hasRuleMaterialization
  split
  · exact ⟨rfl, rfl⟩
  · exact ⟨recordMissing_toWrite c u m k, recordMissing_records c u m k⟩
  · exact ⟨rfl, rfl⟩

theorem Built.silent {S : Set (String × String)} {E : Set ResolveError} {y : ResolveM Tribool}
    (hy : Built materializationOracle S E y) : Silent y := by
  intro c
  refine hy.preserves (P := fun c' => c'.toWrite = c.toWrite ∧ c'.records = c.records) ?_
    ⟨rfl, rfl⟩
  intro k c' hc
  obtain ⟨hw, hr⟩ := silent_isUnitInMaterialization k.1 k.2 c'
  exact ⟨hw.trans hc.1, hr.trans hc.2⟩

theorem silent_recognized {y : ResolveM Tribool} (hy : Silent y) :
    Silent (AccountResolver.recognized y) := by
  intro c
  have hc := hy c
  unfold AccountResolver.recognized
  split <;> rename_i h <;> rw [h] at hc <;> exact hc

end Silent

namespace AccountResolver

variable {r : AccountResolver}

theorem matchSegment_silent {a : Segment} (ha : a ∈ r.state.segments.values)
    (unit : Option String) (missing : Bool) : Silent (r.matchSegment a unit missing) := by
  unfold matchSegment
  refine (silent_recognized (segmentMatch_built (Scope.all r unit) ha).silent).bind fun t => ?_
  cases t <;> exact .pure _

theorem selectSticky_silent (rule : Rule) (spec : AssignmentSpec) (u m : String) :
    Silent (r.selectSticky rule spec u m) := by
  intro c
  unfold selectSticky
  split <;> exact ⟨rfl, rfl⟩

theorem matchRule_silent {a : Segment} (ha : a ∈ r.state.segments.values) (rule : Rule)
    (spec : AssignmentSpec) (unit : Option String) : Silent (r.matchRule rule a spec unit) := by
  unfold matchRule
  split
  · exact matchSegment_silent ha unit false
  · split
    · exact .pure _
    · refine (silent_hasRuleMaterialization _ _ _).bind fun t => ?_
      rcases t with _ | _ | _
      · exact matchSegment_silent ha _ _
      · dsimp only
        split
        · exact .pure _
        · exact matchSegment_silent ha _ _
      · -- a unit with a record: its targeting, and the assignment of the record
        refine Silent.bind ?_ fun t => ?_
        · unfold stickyTargeting
          split
          · exact .pure _
          · exact silent_recognized (targetingMatchFresh_built (Scope.all r _) ha).silent
        · rcases t with _ | _ | _ | _
          · exact .pure _
          · exact matchSegment_silent ha _ _
          · exact matchSegment_silent ha _ _
          · exact selectSticky_silent rule spec _ _

end AccountResolver

/-! ### The keys of the scheduled writes -/

/-- The keys of the scheduled writes. -/
def MaterializationContext.scheduled (c : MaterializationContext) :
    List (String × String × String) :=
  c.toWrite.map MaterializationRecord.key

/-- From `c` to `c'` the keys of `K` are scheduled, where the context supports writes, and no key
is repeated. -/
structure Adds (K : Set (String × String × String)) (c c' : MaterializationContext) : Prop where
  records : c'.records = c.records
  nodup : c.scheduled.Nodup → c'.scheduled.Nodup
  mem : ∀ k, k ∈ c'.scheduled ↔ k ∈ c.scheduled ∨ (c.records ≠ .unsupported ∧ k ∈ K)

section Adds

variable {K K' : Set (String × String × String)} {c c' c'' : MaterializationContext}

theorem Adds.of_silent (hw : c'.toWrite = c.toWrite) (hr : c'.records = c.records) :
    Adds ∅ c c' where
  records := hr
  nodup h := by rwa [MaterializationContext.scheduled, hw]
  mem k := by simp [MaterializationContext.scheduled, hw]

theorem Adds.refl (c : MaterializationContext) : Adds ∅ c c := .of_silent rfl rfl

theorem Adds.trans (h : Adds K c c') (h' : Adds K' c' c'') : Adds (K ∪ K') c c'' where
  records := h'.records.trans h.records
  nodup hn := h'.nodup (h.nodup hn)
  mem k := by
    rw [h'.mem, h.mem, h.records, Set.mem_union]
    tauto

theorem Adds.congr (h : Adds K c c') (hK : ∀ k, k ∈ K ↔ k ∈ K') : Adds K' c c' := by
  obtain rfl : K = K' := Set.ext hK
  exact h

/-- A duplicate is refused, and its key was there. -/
theorem addToWrite_adds (u m k v : String) (c : MaterializationContext) :
    Adds {(u, m, k)} c (MaterializationContext.addToWrite u m k v c).2 := by
  unfold MaterializationContext.addToWrite
  split
  · next h =>
      refine ⟨rfl, id, fun key => ?_⟩
      simp [h]
  · next h =>
      have hany : (c.toWrite.any fun r => r.isFor u m k) = true ↔ (u, m, k) ∈ c.scheduled := by
        rw [List.any_eq_true, MaterializationContext.scheduled, List.mem_map]
        exact exists_congr fun q => and_congr_right fun _ => MaterializationRecord.isFor_iff
      split
      · next hdup =>
          refine ⟨rfl, id, fun key => ⟨.inl, ?_⟩⟩
          rintro (hk | ⟨-, rfl⟩)
          · exact hk
          · exact hany.mp hdup
      · next hdup =>
          have hkeys : MaterializationContext.scheduled
              { c with toWrite := c.toWrite ++ [⟨u, m, k, v⟩] } = c.scheduled ++ [(u, m, k)] := by
            simp only [MaterializationContext.scheduled, List.map_append]
            rfl
          refine ⟨rfl, fun hn => ?_, fun key => ?_⟩
          · rw [hkeys]
            refine List.nodup_append.mpr ⟨hn, List.nodup_singleton _, ?_⟩
            rintro a ha b hb rfl
            rw [List.mem_singleton.mp hb] at ha
            exact hdup (hany.mpr ha)
          · rw [hkeys, List.mem_append, List.mem_singleton]
            simp [h]

end Adds

/-! ### The rules that are assigned -/

namespace AccountResolver

variable (r : AccountResolver)

/-- The rule has an assignment for the unit. -/
def HasAssignment (rule : Rule) (spec : AssignmentSpec) (unit : Option String) : Prop :=
  ∃ assignment kind, r.matchedAssignment rule spec unit = .ok (some assignment) ∧
    assignment.assignment = some kind

/-- The loop matches the rule with nothing missing, and the rule has an assignment for the unit
`u`: where the source schedules the rule's write. -/
def Assigns (rule : Rule) (u : String) (hasMissing : Bool) (c : MaterializationContext) : Prop :=
  hasMissing = false ∧ ∃ segment spec c', r.ruleGuard rule = .go segment spec (some u) ∧
    r.matchRule rule segment spec (some u) c = (.ok (.segment (some true) false), c') ∧
    r.HasAssignment rule spec (some u)

/-- The loop over the rules comes to assigning `rule` to `u`. -/
def LoopAssigns (rule : Rule) (u : String) :
    List Rule → Bool → ResolvedValue → MaterializationContext → Prop
  | [], _, _, _ => False
  | first :: rules, hasMissing, value, c =>
      (first = rule ∧ r.Assigns rule u hasMissing c) ∨
        ∃ hasMissing' value' c',
          r.resolveRule first hasMissing value c = (.ok (.next hasMissing' value'), c') ∧
            LoopAssigns rule u rules hasMissing' value' c'

/-- The resolve of the flag comes to assigning `rule` to `u`. -/
def FlagAssigns (rule : Rule) (u : String) (flag : Flag) (c : MaterializationContext) : Prop :=
  flag.state ≠ .archived ∧ r.LoopAssigns rule u flag.rules false (.new flag) c

/-- The loop over the flags comes to assigning `rule` to `u`. -/
def PassAssigns (rule : Rule) (u : String) : List Flag → MaterializationContext → Prop
  | [], _ => False
  | flag :: flags, c =>
      r.FlagAssigns rule u flag c ∨
        ((∀ e, (r.resolveFlag flag c).1 = .error e → e = .missingMaterializations) ∧
          PassAssigns rule u flags (r.resolveFlag flag c).2)

/-- The keys under which the rules in `P` write, for their units. -/
def writeKeys (P : Rule → String → Prop) : Set (String × String × String) :=
  {k | ∃ rule u m, P rule u ∧ rule.writes = some m ∧ k = (u, m, rule.name)}

variable {r}

theorem writeKeys_or {P Q : Rule → String → Prop} (k : String × String × String) :
    k ∈ writeKeys (fun rule u => P rule u ∨ Q rule u) ↔ k ∈ writeKeys P ∪ writeKeys Q := by
  constructor
  · rintro ⟨rule, u, m, h | h, hm, rfl⟩
    · exact .inl ⟨rule, u, m, h, hm, rfl⟩
    · exact .inr ⟨rule, u, m, h, hm, rfl⟩
  · rintro (⟨rule, u, m, h, hm, rfl⟩ | ⟨rule, u, m, h, hm, rfl⟩)
    · exact ⟨rule, u, m, .inl h, hm, rfl⟩
    · exact ⟨rule, u, m, .inr h, hm, rfl⟩

theorem writeKeys_empty {P : Rule → String → Prop} (h : ∀ rule u, ¬ P rule u)
    (k : String × String × String) : k ∈ (∅ : Set _) ↔ k ∈ writeKeys P :=
  ⟨fun hk => hk.elim, fun ⟨rule, u, _, hP, _⟩ => (h rule u hP).elim⟩

theorem writeAssignment_adds (rule : Rule) (unit : Option String) (v : String)
    (c : MaterializationContext) :
    Adds (writeKeys fun rule' u => rule' = rule ∧ unit = some u) c
      (writeAssignment rule unit v c).2 := by
  unfold writeAssignment
  rcases unit with _ | u
  · exact (Adds.refl c).congr (writeKeys_empty fun _ _ h => by cases h.2)
  · rcases hw : rule.writes with _ | m
    · refine (Adds.refl c).congr fun k => ⟨fun hk => hk.elim, ?_⟩
      rintro ⟨_, _, m, ⟨rfl, -⟩, hm, -⟩
      rw [hw] at hm
      cases hm
    · refine (addToWrite_adds u m rule.name v c).congr fun k => ?_
      constructor
      · rintro rfl
        exact ⟨rule, u, m, ⟨rfl, rfl⟩, hw, rfl⟩
      · rintro ⟨_, _, m', ⟨rfl, hu⟩, hm, rfl⟩
        cases hu
        cases hw.symm.trans hm
        rfl

/-- The assignment of a matched rule adds the keys of the rule, if it has an assignment. -/
theorem assignRule_adds (rule : Rule) (segment : Segment) (spec : AssignmentSpec)
    (unit : Option String) (value : ResolvedValue) (c : MaterializationContext) :
    Adds (writeKeys fun rule' u =>
        rule' = rule ∧ unit = some u ∧ r.HasAssignment rule spec unit) c
      (r.assignRule rule segment spec unit value c).2 := by
  have hnone (h : ¬ r.HasAssignment rule spec unit) : Adds (writeKeys fun rule' u =>
      rule' = rule ∧ unit = some u ∧ r.HasAssignment rule spec unit) c c :=
    (Adds.refl c).congr (writeKeys_empty fun _ _ h' => h h'.2.2)
  unfold assignRule
  rcases hm : r.matchedAssignment rule spec unit with e | _ | ⟨assignmentId, _ | kind, ranges⟩
  · refine hnone ?_
    rintro ⟨_, _, h, -⟩
    rw [hm] at h
    cases h
  · refine hnone ?_
    rintro ⟨_, _, h, -⟩
    rw [hm] at h
    cases h
  · refine hnone ?_
    rintro ⟨_, _, h, hk⟩
    rw [hm] at h
    cases h
    cases hk
  · have hhas : r.HasAssignment rule spec unit := ⟨_, kind, hm, rfl⟩
    have hadds : Adds (writeKeys fun rule' u =>
        rule' = rule ∧ unit = some u ∧ r.HasAssignment rule spec unit) c
        (writeAssignment rule unit kind.variantName c).2 :=
      (writeAssignment_adds rule unit kind.variantName c).congr fun k => by
        simp only [hhas, and_true]
    -- what follows the write leaves the context alone
    rw [Eff.bind_of_ok (Eff.lift_apply _ c)]
    dsimp only
    rcases hw : writeAssignment rule unit kind.variantName c with ⟨e | _, c'⟩ <;> rw [hw] at hadds
    · rw [Eff.bind_of_error hw]
      exact hadds
    · rw [Eff.bind_of_ok hw]
      exact hadds

/-- A rule of the loop adds its keys when it is assigned. -/
theorem resolveRule_adds (rule : Rule) (hasMissing : Bool) (value : ResolvedValue)
    (c : MaterializationContext) :
    Adds (writeKeys fun rule' u => rule = rule' ∧ r.Assigns rule' u hasMissing c) c
      (r.resolveRule rule hasMissing value c).2 := by
  unfold resolveRule
  rcases hg : r.ruleGuard rule with _ | _ | ⟨segment, spec, unit⟩
  · refine (Adds.refl c).congr (writeKeys_empty ?_)
    rintro _ u ⟨rfl, -, _, _, _, h, -⟩
    cases hg.symm.trans h
  · refine (Adds.refl c).congr (writeKeys_empty ?_)
    rintro _ u ⟨rfl, -, _, _, _, h, -⟩
    cases hg.symm.trans h
  · -- matching is silent; only a match with nothing missing goes on to the assignment
    have hsilent := matchRule_silent (ruleGuard_mem hg) rule spec unit c
    have hskip (h : ∀ c', hasMissing = true ∨
        r.matchRule rule segment spec unit c ≠ (.ok (.segment (some true) false), c')) {c'}
        (hw : c'.toWrite = c.toWrite) (hr : c'.records = c.records) :
        Adds (writeKeys fun rule' u => rule = rule' ∧ r.Assigns rule' u hasMissing c) c c' := by
      refine (Adds.of_silent hw hr).congr (writeKeys_empty ?_)
      rintro _ u ⟨rfl, rfl, _, _, c'', hg', hm, -⟩
      cases hg.symm.trans hg'
      rcases h c'' with h | h
      · cases h
      · exact h hm
    dsimp only
    unfold resolveMatched
    rcases hm : r.matchRule rule segment spec unit c with ⟨e | mt, c'⟩ <;>
      rw [hm] at hsilent hskip <;> obtain ⟨hw, hr⟩ := hsilent
    · rw [Eff.bind_of_error hm]
      exact hskip (fun _ => .inr (by simp)) hw hr
    · rw [Eff.bind_of_ok hm]
      rcases mt with ⟨assignment, u⟩ | missing | ⟨_ | _ | _, missing⟩
      · exact hskip (fun _ => .inr (by simp)) hw hr
      · exact hskip (fun _ => .inr (by simp)) hw hr
      · exact hskip (fun _ => .inr (by simp)) hw hr
      · exact hskip (fun _ => .inr (by simp)) hw hr
      · rw [afterMatch]
        by_cases hmiss : (hasMissing || missing) = true
        · rw [if_pos hmiss]
          refine hskip (fun _ => ?_) hw hr
          rcases Bool.or_eq_true_iff.mp hmiss with h | h
          · exact .inl h
          · exact .inr (by simp [h])
        · rw [if_neg hmiss]
          rw [Bool.not_eq_true, Bool.or_eq_false_iff] at hmiss
          obtain ⟨rfl, rfl⟩ := hmiss
          refine ((Adds.of_silent hw hr).trans
            (assignRule_adds rule segment spec unit value c')).congr fun k => ?_
          rw [Set.empty_union]
          constructor
          · rintro ⟨_, u, m, ⟨rfl, rfl, hhas⟩, hwr, rfl⟩
            exact ⟨_, u, m, ⟨rfl, rfl, segment, spec, c', hg, hm, hhas⟩, hwr, rfl⟩
          · rintro ⟨_, u, m, ⟨rfl, -, segment', spec', c'', hg', -, hhas⟩, hwr, rfl⟩
            cases hg.symm.trans hg'
            exact ⟨_, u, m, ⟨rfl, rfl, hhas⟩, hwr, rfl⟩

/-- The loop over the rules adds the keys of the rules it assigns. -/
theorem resolveRules_adds (rules : List Rule) (hasMissing : Bool) (value : ResolvedValue)
    (c : MaterializationContext) :
    Adds (writeKeys fun rule u => r.LoopAssigns rule u rules hasMissing value c) c
      (r.resolveRules rules hasMissing value c).2 := by
  induction rules generalizing hasMissing value c with
  | nil =>
      refine (Adds.of_silent ?_ ?_).congr (writeKeys_empty fun _ _ h => h.elim) <;>
        cases hasMissing <;> rfl
  | cons rule rules ih =>
      have hrule := resolveRule_adds rule hasMissing value c (r := r)
      rw [resolveRules]
      rcases hr : r.resolveRule rule hasMissing value c with ⟨e | ⟨m, v⟩ | v, c'⟩ <;>
        rw [hr] at hrule
      · rw [Eff.bind_of_error hr]
        refine hrule.congr fun k => ?_
        simp only [LoopAssigns, hr, Prod.mk.injEq, reduceCtorEq, false_and, exists_false, or_false]
      · rw [Eff.bind_of_ok hr]
        refine (hrule.trans (ih m v c')).congr fun k => ?_
        rw [← writeKeys_or]
        simp only [LoopAssigns, hr, Prod.mk.injEq, Except.ok.injEq, Progress.next.injEq]
        constructor
        · rintro ⟨rule', u, n, h | h, hwr, rfl⟩
          · exact ⟨rule', u, n, .inl h, hwr, rfl⟩
          · exact ⟨rule', u, n, .inr ⟨m, v, c', ⟨⟨rfl, rfl⟩, rfl⟩, h⟩, hwr, rfl⟩
        · rintro ⟨rule', u, n, h | ⟨_, _, _, ⟨⟨rfl, rfl⟩, rfl⟩, h⟩, hwr, rfl⟩
          · exact ⟨rule', u, n, .inl h, hwr, rfl⟩
          · exact ⟨rule', u, n, .inr h, hwr, rfl⟩
      · rw [Eff.bind_of_ok hr]
        refine hrule.congr fun k => ?_
        simp only [LoopAssigns, hr, Prod.mk.injEq, Except.ok.injEq, reduceCtorEq, false_and,
          exists_false, or_false]

theorem resolveFlag_snd (flag : Flag) (c : MaterializationContext) :
    (r.resolveFlag flag c).2 = (r.resolveFlagInternal flag c).2 := by
  unfold resolveFlag
  rcases r.resolveFlagInternal flag c with ⟨e | v, c'⟩
  · cases e <;> rfl
  · rfl

theorem resolveFlag_adds (flag : Flag) (c : MaterializationContext) :
    Adds (writeKeys fun rule u => r.FlagAssigns rule u flag c) c (r.resolveFlag flag c).2 := by
  rw [resolveFlag_snd, resolveFlagInternal]
  split
  · next h => exact (Adds.refl c).congr (writeKeys_empty fun _ _ h' => h'.1 h)
  · next h =>
      refine (resolveRules_adds flag.rules false (.new flag) c).congr fun k => ?_
      simp only [FlagAssigns, ne_eq, h, not_false_eq_true, true_and]

/-- **The writes of a pass** are those it started with and those of the rules it assigns. -/
theorem resolveEach_adds {flags : List Flag} {c c' : MaterializationContext}
    {assigned : List AssignedFlag} (h : r.resolveEach flags c = (.ok assigned, c')) :
    Adds (writeKeys fun rule u => r.PassAssigns rule u flags c) c c' := by
  induction flags generalizing c assigned with
  | nil =>
      cases h
      exact (Adds.refl _).congr (writeKeys_empty fun _ _ h => h.elim)
  | cons flag flags ih =>
      have hflag := resolveFlag_adds flag c (r := r)
      have hlater (hcont : ∀ e, (r.resolveFlag flag c).1 = .error e → e = .missingMaterializations)
          (hrest : Adds (writeKeys fun rule u =>
            r.PassAssigns rule u flags (r.resolveFlag flag c).2) (r.resolveFlag flag c).2 c') :
          Adds (writeKeys fun rule u => r.PassAssigns rule u (flag :: flags) c) c c' := by
        refine (hflag.trans hrest).congr fun k => ?_
        rw [← writeKeys_or]
        simp only [PassAssigns, and_iff_right hcont]
      rcases hr : r.resolveFlag flag c with ⟨e | v, c''⟩ <;> rw [hr] at hlater
      · by_cases he : e = .missingMaterializations
        · subst he
          rw [resolveEach_cons_missing hr] at h
          exact hlater (fun e he => by cases he; rfl) (ih h)
        · rw [resolveEach_cons_fails he hr] at h
          cases h
      · rw [resolveEach_cons_ok hr] at h
        obtain ⟨rest, c₁, hrest, hpure⟩ := Eff.bind_ok_inv h
        cases hpure
        exact hlater (fun e he => by cases he) (ih hrest)

end AccountResolver

/-! ### A state that names no materialization -/

/-- No rule names a materialization to read or to write, and no segment has a materialized
segment among its criteria. -/
structure ResolverState.NamesNone (s : ResolverState) : Prop where
  rules : ∀ flag ∈ s.flags.values, ∀ rule ∈ flag.rules, ∀ spec,
    rule.materializationSpec = some spec →
      spec.readMaterialization = "" ∧ spec.writeMaterialization = ""
  segments : ∀ a ∈ s.segments.values, ∀ t id m, a.targeting = some t →
    t.criteria.lookup id ≠ some (some (.materializedSegment m))

/-- A run that asks for no record, ends with no record missing, and meets the lack of support
exactly under `P`. -/
structure Unread {α : Type} (P : Prop) (c : MaterializationContext)
    (run : Except ResolveError α × MaterializationContext) : Prop where
  reads : run.2.toRead = c.toRead
  known : run.1 ≠ .error .missingMaterializations
  unsupported : run.1 = .error .materializationsUnsupported ↔ P

namespace AccountResolver

variable {r : AccountResolver} {P : Prop} {c c' : MaterializationContext}

theorem Unread.ok {α : Type} {a : α} (hr : c'.toRead = c.toRead) (hP : ¬ P) :
    Unread P c (.ok a, c') where
  reads := hr
  known h := by cases h
  unsupported := by
    refine ⟨fun h => ?_, fun h => (hP h).elim⟩
    cases h

theorem Unread.fails {α : Type} {e : ResolveError} (he : e ∈ Fatal ∨ e = .unrecognizedRule)
    (hr : c'.toRead = c.toRead) (hP : ¬ P) :
    Unread P c ((.error e, c') : Except ResolveError α × MaterializationContext) where
  reads := hr
  known h := by
    cases h
    rcases he with he | he
    · exact he.1 rfl
    · cases he
  unsupported := by
    refine ⟨fun h => ?_, fun h => (hP h).elim⟩
    cases h
    rcases he with he | he
    · exact (he.2.1 rfl).elim
    · cases he

theorem assignErrors_fatal {e : ResolveError} (h : e ∈ assignErrors) : e ∈ Fatal := by
  obtain ⟨site, -, rfl⟩ := h
  exact fatal_internal site

theorem writeAssignment_unread (rule : Rule) (unit : Option String) (v : String)
    (c : MaterializationContext) :
    Unread (c.records = .unsupported ∧ unit.isSome ∧ rule.writes.isSome) c
      (writeAssignment rule unit v c) := by
  unfold writeAssignment
  rcases unit with _ | u
  · exact Unread.ok rfl (by simp)
  · rcases hw : rule.writes with _ | m
    · exact Unread.ok rfl (by simp)
    · dsimp only
      unfold MaterializationContext.addToWrite
      split
      · next h => exact ⟨rfl, by simp, by simp [h]⟩
      · next h =>
          split
          · exact Unread.fails (.inl (fatal_internal _)) rfl (by simp [h])
          · exact Unread.ok rfl (by simp [h])

theorem assignRule_unread (rule : Rule) (segment : Segment) (spec : AssignmentSpec)
    (unit : Option String) (value : ResolvedValue) (c : MaterializationContext) :
    Unread (c.records = .unsupported ∧ r.HasAssignment rule spec unit ∧ unit.isSome ∧
        rule.writes.isSome) c (r.assignRule rule segment spec unit value c) ∧
      ∀ m v, (r.assignRule rule segment spec unit value c).1 = .ok (.next m v) → m = false := by
  have hnone (h : ∀ assignment kind, r.matchedAssignment rule spec unit = .ok (some assignment) →
      assignment.assignment ≠ some kind) : ¬ (c.records = .unsupported ∧
        r.HasAssignment rule spec unit ∧ unit.isSome ∧ rule.writes.isSome) := by
    rintro ⟨-, ⟨assignment, kind, hm, hk⟩, -⟩
    exact h assignment kind hm hk
  unfold assignRule
  rcases hm : r.matchedAssignment rule spec unit with e | _ | ⟨assignmentId, _ | kind, ranges⟩ <;>
    rw [hm] at hnone
  · refine ⟨Unread.fails (.inl (assignErrors_fatal (matchedAssignment_error hm))) rfl
      (hnone fun _ _ h => by cases h), fun m v h => by cases h⟩
  · exact ⟨Unread.ok rfl (hnone fun _ _ h => by cases h), fun m v h => by cases h; rfl⟩
  · exact ⟨Unread.ok rfl (hnone fun _ _ h hk => by cases h; cases hk),
      fun m v h => by cases h; rfl⟩
  · have hhas : r.HasAssignment rule spec unit := ⟨_, kind, hm, rfl⟩
    have hw := writeAssignment_unread rule unit kind.variantName c
    rw [Eff.bind_of_ok (Eff.lift_apply _ c)]
    dsimp only
    rcases e : writeAssignment rule unit kind.variantName c with ⟨e' | _, c'⟩ <;> rw [e] at hw
    · rw [Eff.bind_of_error e]
      refine ⟨⟨hw.reads, fun h => hw.known (by cases h; rfl), ?_⟩, fun m v h => by cases h⟩
      rw [and_iff_right hhas, ← hw.unsupported]
      exact ⟨fun h => by cases h; rfl, fun h => by cases h; rfl⟩
    · rw [Eff.bind_of_ok e, Eff.lift_apply]
      have hP : ¬ (c.records = .unsupported ∧ r.HasAssignment rule spec unit ∧ unit.isSome ∧
          rule.writes.isSome) := by
        rintro ⟨h₁, -, h₂⟩
        cases hw.unsupported.mpr ⟨h₁, h₂⟩
      rcases ha : applyAssignment rule segment assignmentId kind (unit.getD "") value with e' | p
      · exact ⟨Unread.fails (.inl (assignErrors_fatal (applyAssignment_error ha))) hw.reads hP,
          fun m v h => by cases h⟩
      · refine ⟨Unread.ok hw.reads hP, ?_⟩
        intro m v h
        obtain rfl : p = .next m v := Except.ok.inj h
        unfold applyAssignment at ha
        split at ha
        · cases ha; rfl
        · cases ha
        · split at ha <;> cases ha

section NamesNone

variable (hnone : r.state.NamesNone)

include hnone

theorem segmentMatch_unasked {a : Segment} (ha : a ∈ r.state.segments.values)
    (unit : Option String) (c : MaterializationContext) :
    (∃ b, r.segmentMatch unit a c = (.ok (some b), c)) ∨
      ∃ e ∈ testErrors, r.segmentMatch unit a c = (.error e, c) := by
  have hscope : Scope r unit {a | a ∈ r.state.segments.values} ∅ testErrors :=
    { Scope.all r unit with
      asks := fun ha ht hc _ _ => (hnone.segments _ ha _ _ _ ht hc).elim }
  exact (segmentMatch_built hscope ha).unasked c

/-- A rule is matched by its segment alone, and the match is known. -/
theorem matchRule_unread {flag : Flag} (hf : flag ∈ r.state.flags.values) {rule : Rule}
    (hrule : rule ∈ flag.rules) {a : Segment} (ha : a ∈ r.state.segments.values)
    (spec : AssignmentSpec) (unit : Option String) (c : MaterializationContext) :
    (∃ b, r.matchRule rule a spec unit c = (.ok (.segment (some b) false), c)) ∨
      r.matchRule rule a spec unit c = (.ok (.skip false), c) ∨
        ∃ e ∈ testErrors, e ≠ .unrecognizedRule ∧
          r.matchRule rule a spec unit c = (.error e, c) := by
  have hreads : rule.reads = none := by
    unfold Rule.reads
    rcases hs : rule.materializationSpec with _ | mspec
    · rfl
    · rw [Option.bind_some, if_pos (hnone.rules flag hf rule hrule mspec hs).1]
  rw [matchRule_of_not_reads hreads]
  unfold matchSegment
  rcases segmentMatch_unasked hnone ha unit c with ⟨b, hb⟩ | ⟨e, he, hb⟩
  · left
    have hrec : recognized (r.segmentMatch unit a) c = (.ok (some (some b)), c) := by
      rw [recognized, hb]
    exact ⟨b, by rw [Eff.bind_of_ok hrec]; rfl⟩
  · right
    by_cases h : e = .unrecognizedRule
    · subst h
      have hrec : recognized (r.segmentMatch unit a) c = (.ok none, c) := by
        rw [recognized, hb]
      exact .inl (by rw [Eff.bind_of_ok hrec]; rfl)
    · have hrec : recognized (r.segmentMatch unit a) c = (.error e, c) := by
        rw [recognized, hb]
        cases e <;> first | rfl | exact absurd rfl h
      exact .inr ⟨e, he, h, by rw [Eff.bind_of_error hrec]⟩

theorem resolveRule_unread {flag : Flag} (hf : flag ∈ r.state.flags.values) {rule : Rule}
    (hrule : rule ∈ flag.rules) (value : ResolvedValue) (c : MaterializationContext) :
    Unread (c.records = .unsupported ∧ ∃ u, r.Assigns rule u false c ∧ rule.writes.isSome) c
        (r.resolveRule rule false value c) ∧
      ∀ m v, (r.resolveRule rule false value c).1 = .ok (.next m v) → m = false := by
  unfold resolveRule
  rcases hg : r.ruleGuard rule with _ | _ | ⟨segment, spec, unit⟩
  · refine ⟨Unread.ok rfl ?_, fun m v h => by cases h; rfl⟩
    rintro ⟨-, _, ⟨-, _, _, _, h, -⟩, -⟩
    cases hg.symm.trans h
  · refine ⟨Unread.ok rfl ?_, fun m v h => by cases h⟩
    rintro ⟨-, _, ⟨-, _, _, _, h, -⟩, -⟩
    cases hg.symm.trans h
  · dsimp only
    unfold resolveMatched
    have hassigns {u : String} : r.Assigns rule u false c ↔ unit = some u ∧
        (∃ c', r.matchRule rule segment spec unit c = (.ok (.segment (some true) false), c')) ∧
        r.HasAssignment rule spec unit := by
      constructor
      · rintro ⟨-, _, _, c', hg', hm, hhas⟩
        cases hg.symm.trans hg'
        exact ⟨rfl, ⟨c', hm⟩, hhas⟩
      · rintro ⟨rfl, ⟨c', hm⟩, hhas⟩
        exact ⟨rfl, segment, spec, c', hg, hm, hhas⟩
    -- the match is known, depends on a record that is missing, or fails
    rcases matchRule_unread hnone hf hrule (ruleGuard_mem hg) spec unit c with
        ⟨b, hm⟩ | hm | ⟨e, he, hrec, hm⟩
    · rw [Eff.bind_of_ok hm]
      cases b with
      | false =>
          refine ⟨Unread.ok rfl ?_, fun m v h => by cases h; rfl⟩
          rintro ⟨-, u, h, -⟩
          obtain ⟨-, ⟨c', h⟩, -⟩ := hassigns.mp h
          cases hm.symm.trans h
      | true =>
          rw [afterMatch, if_neg (by simp)]
          obtain ⟨h, hnext⟩ := assignRule_unread rule segment spec unit value c (r := r)
          refine ⟨⟨h.reads, h.known, h.unsupported.trans (and_congr_right fun _ => ?_)⟩, hnext⟩
          constructor
          · rintro ⟨hhas, hu, hw⟩
            obtain ⟨u, rfl⟩ := Option.isSome_iff_exists.mp hu
            exact ⟨u, hassigns.mpr ⟨rfl, ⟨c, hm⟩, hhas⟩, hw⟩
          · rintro ⟨u, h, hw⟩
            obtain ⟨rfl, -, hhas⟩ := hassigns.mp h
            exact ⟨hhas, rfl, hw⟩
    · rw [Eff.bind_of_ok hm]
      refine ⟨Unread.ok rfl ?_, fun m v h => by cases h; rfl⟩
      rintro ⟨-, u, h, -⟩
      obtain ⟨-, ⟨c', h⟩, -⟩ := hassigns.mp h
      cases hm.symm.trans h
    · rw [Eff.bind_of_error hm]
      refine ⟨Unread.fails (.inl ?_) rfl ?_, fun m v h => by cases h⟩
      · exact matchErrors_fatal (testErrors_match he hrec)
      · rintro ⟨-, u, h, -⟩
        obtain ⟨-, ⟨c', h⟩, -⟩ := hassigns.mp h
        cases hm.symm.trans h

theorem resolveRules_unread {flag : Flag} (hf : flag ∈ r.state.flags.values) {rules : List Rule}
    (hrules : ∀ rule ∈ rules, rule ∈ flag.rules) (value : ResolvedValue)
    (c : MaterializationContext) :
    Unread (c.records = .unsupported ∧
        ∃ rule u, r.LoopAssigns rule u rules false value c ∧ rule.writes.isSome) c
      (r.resolveRules rules false value c) := by
  induction rules generalizing value c with
  | nil =>
      refine Unread.ok rfl ?_
      rintro ⟨-, _, _, h, -⟩
      exact h
  | cons rule rules ih =>
      have hrec := (resolveRule_adds rule false value c (r := r)).records
      obtain ⟨h, hnext⟩ :=
        resolveRule_unread hnone hf (hrules rule List.mem_cons_self) value c
      -- a write of the loop is one of its first rule, or one of the loop that goes on from it
      have hcons : (∃ rule' u, r.LoopAssigns rule' u (rule :: rules) false value c ∧
            rule'.writes.isSome) ↔
          (∃ u, r.Assigns rule u false c ∧ rule.writes.isSome) ∨
            ∃ m v c', r.resolveRule rule false value c = (.ok (.next m v), c') ∧
              ∃ rule' u, r.LoopAssigns rule' u rules m v c' ∧ rule'.writes.isSome := by
        constructor
        · rintro ⟨rule', u, ⟨rfl, h⟩ | ⟨m, v, c', hr, h⟩, hw⟩
          · exact .inl ⟨u, h, hw⟩
          · exact .inr ⟨m, v, c', hr, rule', u, h, hw⟩
        · rintro (⟨u, h, hw⟩ | ⟨m, v, c', hr, rule', u, h, hw⟩)
          · exact ⟨rule, u, .inl ⟨rfl, h⟩, hw⟩
          · exact ⟨rule', u, .inr ⟨m, v, c', hr, h⟩, hw⟩
      rw [resolveRules, hcons]
      rcases hr : r.resolveRule rule false value c with ⟨e | ⟨m, v⟩ | v, c'⟩ <;>
        rw [hr] at h hnext hrec
      · rw [Eff.bind_of_error hr]
        refine ⟨h.reads, fun he => h.known (by cases he; rfl), ?_⟩
        simp only [Prod.mk.injEq, reduceCtorEq, false_and, exists_false, or_false]
        rw [← h.unsupported]
        exact ⟨fun he => by cases he; rfl, fun he => by cases he; rfl⟩
      · rw [Eff.bind_of_ok hr]
        obtain rfl := hnext m v rfl
        have hrest := ih (fun rule' h' => hrules rule' (List.mem_cons_of_mem _ h')) v c'
        refine ⟨hrest.reads.trans h.reads, hrest.known, hrest.unsupported.trans ?_⟩
        rw [hrec]
        refine and_congr_right fun hb => ?_
        constructor
        · exact fun h' => .inr ⟨false, v, c', rfl, h'⟩
        · rintro (h' | ⟨_, _, _, heq, h'⟩)
          · cases h.unsupported.mpr ⟨hb, h'⟩
          · cases heq
            exact h'
      · rw [Eff.bind_of_ok hr]
        refine Unread.ok h.reads ?_
        rintro ⟨hb, h' | ⟨_, _, _, heq, -⟩⟩
        · cases h.unsupported.mpr ⟨hb, h'⟩
        · cases heq

/-- A flag of a state that names no materialization. -/
theorem resolveFlagInternal_unread {flag : Flag} (hf : flag ∈ r.state.flags.values)
    (c : MaterializationContext) :
    Unread (c.records = .unsupported ∧ ∃ rule u, r.FlagAssigns rule u flag c ∧
      rule.writes.isSome) c (r.resolveFlagInternal flag c) := by
  unfold resolveFlagInternal
  split
  · next h =>
      refine Unread.ok rfl ?_
      rintro ⟨-, _, _, h', -⟩
      exact h'.1 h
  · next h =>
      have hrun := resolveRules_unread hnone hf (fun _ => id) (.new flag) c
      simp only [FlagAssigns, ne_eq, h, not_false_eq_true, true_and]
      exact hrun

theorem resolveEach_toRead {flags : List Flag} (hf : ∀ flag ∈ flags, flag ∈ r.state.flags.values)
    (c : MaterializationContext) : (r.resolveEach flags c).2.toRead = c.toRead := by
  induction flags generalizing c with
  | nil => rfl
  | cons flag flags ih =>
      have hflag : (r.resolveFlag flag c).2.toRead = c.toRead := by
        rw [resolveFlag_snd]
        exact (resolveFlagInternal_unread hnone (hf flag List.mem_cons_self) c).reads
      have hrest := ih (fun f h => hf f (List.mem_cons_of_mem _ h))
      rcases hr : r.resolveFlag flag c with ⟨e | v, c'⟩ <;> rw [hr] at hflag
      · by_cases he : e = .missingMaterializations
        · subst he
          rw [resolveEach_cons_missing hr, hrest, hflag]
        · rw [resolveEach_cons_fails he hr]
          exact hflag
      · rw [resolveEach_cons_ok hr]
        have hc' := (hrest c').trans hflag
        rcases he : r.resolveEach flags c' with ⟨e | as, c''⟩ <;> rw [he] at hc'
        · rw [Eff.bind_of_error he]
          exact hc'
        · rw [Eff.bind_of_ok he]
          exact hc'

end NamesNone

/-! ### The reported writes -/

variable {Bytes : Type} {wire : Wire Bytes} {host : Host Bytes} {visit : List Flag}

/-- The rule is one of the state's. -/
def HasRule (r : AccountResolver) (rule : Rule) : Prop :=
  ∃ flag ∈ r.state.flags.values, rule ∈ flag.rules

/-- Each write is of a rule that names a non-empty materialization to write to, for a unit and a
rule that are not empty; and there is one write for a unit, a materialization and a rule. -/
structure Justified (rules : Rule → Prop) (writes : List MaterializationRecord) : Prop where
  named : ∀ q ∈ writes,
    (∃ rule, rules rule ∧ rule.writes = some q.materialization ∧ rule.name = q.rule) ∧
      q.materialization ≠ "" ∧ q.unit ≠ "" ∧ q.rule ≠ ""
  unique : (writes.map MaterializationRecord.key).Nodup

theorem justified_nil (rules : Rule → Prop) : Justified rules [] where
  named q hq := by cases hq
  unique := List.nodup_nil

/-- A resolve, in a context that supports writes, comes to assigning `rule` to `u`. -/
def RequestAssigns (r : AccountResolver) (wire : Wire Bytes) (visit : List Flag)
    (request : ResolveProcessRequest Bytes) (rule : Rule) (u : String) : Prop :=
  ∃ state c resolveRequest, start wire request = .ok (state, c) ∧
    state.resolveRequest = some resolveRequest ∧ c.records ≠ .unsupported ∧
    r.PassAssigns rule u (r.flagsToResolve visit resolveRequest state.resolvedFlags) c

/-- No rule with a materialization spec is assigned whose `write_materialization` is empty, whose
name is empty, or to an empty unit. -/
def AssignsSoundly (r : AccountResolver) (wire : Wire Bytes) (visit : List Flag)
    (request : ResolveProcessRequest Bytes) : Prop :=
  ∀ rule u m, r.RequestAssigns wire visit request rule u → rule.writes = some m →
    m ≠ "" ∧ u ≠ "" ∧ rule.name ≠ ""

theorem LoopAssigns.mem {rule : Rule} {u : String} {rules : List Rule} {hasMissing : Bool}
    {value : ResolvedValue} {c : MaterializationContext}
    (h : r.LoopAssigns rule u rules hasMissing value c) : rule ∈ rules := by
  induction rules generalizing hasMissing value c with
  | nil => exact h.elim
  | cons first rules ih =>
      rcases h with ⟨rfl, -⟩ | ⟨_, _, _, -, h⟩
      · exact List.mem_cons_self
      · exact List.mem_cons_of_mem _ (ih h)

theorem PassAssigns.hasRule {rule : Rule} {u : String} {flags : List Flag}
    {c : MaterializationContext} (h : r.PassAssigns rule u flags c)
    (hf : ∀ flag ∈ flags, flag ∈ r.state.flags.values) : r.HasRule rule := by
  induction flags generalizing c with
  | nil => exact h.elim
  | cons flag flags ih =>
      rcases h with h | ⟨-, h⟩
      · exact ⟨flag, hf flag List.mem_cons_self, h.2.mem⟩
      · exact ih h fun f hmem => hf f (List.mem_cons_of_mem _ hmem)

/-- The key of a justified write. -/
def JustifiedKey (rules : Rule → Prop) (k : String × String × String) : Prop :=
  (∃ rule, rules rule ∧ rule.writes = some k.2.1 ∧ rule.name = k.2.2) ∧
    k.2.1 ≠ "" ∧ k.1 ≠ "" ∧ k.2.2 ≠ ""

theorem justified_iff {rules : Rule → Prop} {c : MaterializationContext} :
    Justified rules c.toWrite ↔ (∀ k ∈ c.scheduled, JustifiedKey rules k) ∧ c.scheduled.Nodup := by
  constructor
  · rintro ⟨hnamed, hn⟩
    refine ⟨fun k hk => ?_, hn⟩
    obtain ⟨q, hq, rfl⟩ := List.mem_map.mp hk
    exact hnamed q hq
  · rintro ⟨hkeys, hn⟩
    exact ⟨fun q hq => hkeys q.key (List.mem_map_of_mem hq), hn⟩

/-- What a pass adds to justified writes. -/
theorem justified_adds {P : Rule → String → Prop} {rules : Rule → Prop}
    (h : Adds (writeKeys P) c c') (hP : ∀ rule u, P rule u → rules rule)
    (hn : c.scheduled.Nodup) :
    Justified rules c'.toWrite ↔ Justified rules c.toWrite ∧
      ∀ rule u m, c.records ≠ .unsupported ∧ P rule u → rule.writes = some m →
        m ≠ "" ∧ u ≠ "" ∧ rule.name ≠ "" := by
  rw [justified_iff, justified_iff, and_iff_left (h.nodup hn), and_iff_left hn]
  constructor
  · intro hj
    refine ⟨fun k hk => hj k ((h.mem k).mpr (.inl hk)), ?_⟩
    rintro rule u m ⟨hb, hPu⟩ hw
    exact (hj _ ((h.mem _).mpr (.inr ⟨hb, rule, u, m, hPu, hw, rfl⟩))).2
  · rintro ⟨hj, hsound⟩ k hk
    rcases (h.mem k).mp hk with hk | ⟨hb, rule, u, m, hPu, hw, rfl⟩
    · exact hj k hk
    · exact ⟨⟨rule, hP rule u hPu, hw, rfl⟩, hsound rule u m ⟨hb, hPu⟩ hw⟩

/-- A request that was resolved or suspended: its pass, and the writes behind it. -/
theorem resolveFlags_pass {request : ResolveProcessRequest Bytes}
    {response : ResolveProcessResponse Bytes} {calls : List HostCall}
    (h : r.resolveFlags wire host visit request = .ok (response, calls)) :
    ∃ state c resolveRequest assigned c', start wire request = .ok (state, c) ∧
      state.resolveRequest = some resolveRequest ∧
      r.resolveEach (r.flagsToResolve visit resolveRequest state.resolvedFlags) c =
        (.ok assigned, c') ∧
      ((∃ flags, response = .resolved flags c'.toWrite) ∨
        c'.toRead ≠ [] ∧ response = .suspended c'.toRead
          (wire.encode ⟨some resolveRequest, state.resolvedFlags ++ assigned, c'.toWrite⟩)) := by
  unfold resolveFlags at h
  rcases hs : start wire request with e | ⟨state, c⟩ <;> rw [hs] at h
  · cases h
  · rcases hreq : state.resolveRequest with _ | resolveRequest <;> simp only [hreq] at h
    · cases h
    · unfold resolvePass at h
      dsimp only at h
      split at h
      · cases h
      · rcases he : r.resolveEach
            (r.flagsToResolve visit resolveRequest state.resolvedFlags) c with ⟨e | as, c'⟩ <;>
          rw [he] at h <;> dsimp only at h
        · cases h
        · refine ⟨state, c, resolveRequest, as, c', rfl, hreq, he, ?_⟩
          split at h
          · obtain ⟨⟨flags, calls'⟩, -, heq⟩ := ok_of_map h
            cases heq
            exact .inl ⟨flags, rfl⟩
          · next hread =>
              cases h
              rw [hreq]
              exact .inr ⟨fun hnil => hread (by rw [hnil]; rfl), rfl⟩

/-- What a request starts with: nothing to read, and writes only where it is resumed. -/
theorem start_inv {request : ResolveProcessRequest Bytes} {state : ResolveProcessState}
    (h : start wire request = .ok (state, c)) :
    c.toRead = [] ∧ ((∀ R bytes, request ≠ .resume R bytes) → c.toWrite = []) := by
  cases request with
  | unset => cases h
  | deferredMaterializations request => cases h; exact ⟨rfl, fun _ => rfl⟩
  | staticMaterializations request materializations =>
      cases request with
      | none => cases h
      | some request => cases h; exact ⟨rfl, fun _ => rfl⟩
  | withoutMaterializations request => cases h; exact ⟨rfl, fun _ => rfl⟩
  | resume R bytes =>
      rw [start] at h
      split at h
      · cases h
      · cases h
        exact ⟨rfl, fun hr => absurd rfl (hr R bytes)⟩

/-- The writes of one request, from those it started with. -/
theorem resolveFlags_justified (hv : visit.Perm r.state.flags.values) {rules : Rule → Prop}
    (hrules : ∀ rule, r.HasRule rule → rules rule) {request : ResolveProcessRequest Bytes}
    {state : ResolveProcessState} {resolveRequest : ResolveFlagsRequest}
    {assigned : List AssignedFlag} (hs : start wire request = .ok (state, c))
    (hreq : state.resolveRequest = some resolveRequest)
    (hrun : r.resolveEach (r.flagsToResolve visit resolveRequest state.resolvedFlags) c =
      (.ok assigned, c')) (hn : c.scheduled.Nodup) :
    Justified rules c'.toWrite ↔
      Justified rules c.toWrite ∧ r.AssignsSoundly wire visit request := by
  have hvisit : ∀ flag ∈ r.flagsToResolve visit resolveRequest state.resolvedFlags,
      flag ∈ r.state.flags.values := fun flag hf =>
    hv.mem_iff.mp (List.mem_of_mem_filter hf)
  rw [justified_adds (resolveEach_adds hrun)
    (fun rule u h => hrules rule (h.hasRule hvisit)) hn]
  refine and_congr_right fun _ => ?_
  constructor
  · rintro hsound rule u m ⟨state', c'', request', hs', hreq', hb, h⟩ hw
    cases hs.symm.trans hs'
    cases hreq.symm.trans hreq'
    exact hsound rule u m ⟨hb, h⟩ hw
  · rintro hsound rule u m ⟨hb, h⟩ hw
    exact hsound rule u m ⟨state, c, resolveRequest, hs, hreq, hb, h⟩ hw

end AccountResolver

open AccountResolver in
/-- **Where writes are sound.**  In one pass the reported writes are justified exactly when the
pass assigns soundly; behind a suspension exactly when both passes do, the second perhaps on a
newer state.  A state that names no materialization is never suspended and misses none; it meets
the lack of support exactly where a rule with a materialization spec is assigned without it. -/
theorem writes_justified_iff {Bytes : Type} (r : AccountResolver) (wire : Wire Bytes)
    (host : Host Bytes) (visit : List Flag) (hv : visit.Perm r.state.flags.values) :
    (∀ request response writes calls, (∀ R bytes, request ≠ .resume R bytes) →
      r.resolveFlags wire host visit request = .ok (.resolved response writes, calls) →
        (Justified r.HasRule writes ↔ r.AssignsSoundly wire visit request)) ∧
    (∀ (first : AccountResolver) (firstHost : Host Bytes) (firstVisit : List Flag) request K bytes
        calls R response writes calls',
      firstVisit.Perm first.state.flags.values →
      first.resolveFlags wire firstHost firstVisit (.deferredMaterializations request) =
        .ok (.suspended K bytes, calls) →
      r.resolveFlags wire host visit (.resume R bytes) =
        .ok (.resolved response writes, calls') →
        (Justified (fun rule => first.HasRule rule ∨ r.HasRule rule) writes ↔
          first.AssignsSoundly wire firstVisit (.deferredMaterializations request) ∧
            r.AssignsSoundly wire visit (.resume R bytes))) ∧
    (r.state.NamesNone →
      (∀ flag ∈ r.state.flags.values, ∀ c,
        (r.resolveFlagInternal flag c).1 ≠ .error .missingMaterializations ∧
        ((r.resolveFlagInternal flag c).1 ≠ .error .materializationsUnsupported ↔
          (c.records = .unsupported →
            ∀ rule u, r.FlagAssigns rule u flag c → rule.materializationSpec = none))) ∧
      ∀ request K bytes calls,
        r.resolveFlags wire host visit request ≠ .ok (.suspended K bytes, calls)) := by
  refine ⟨?_, ?_, ?_⟩
  · intro request response writes calls hr h
    obtain ⟨state, c, resolveRequest, assigned, c', hs, hreq, hrun, hcase⟩ := resolveFlags_pass h
    have hc := (start_inv hs).2 hr
    have hn : c.scheduled.Nodup := by
      rw [MaterializationContext.scheduled, hc]
      exact List.nodup_nil
    have hempty : Justified r.HasRule c.toWrite := by
      rw [hc]
      exact justified_nil _
    obtain ⟨flags, heq⟩ | ⟨-, heq⟩ := hcase <;> cases heq
    rw [resolveFlags_justified hv (fun _ => id) hs hreq hrun hn, and_iff_right hempty]
  · intro first firstHost firstVisit request K bytes calls R response writes calls' hv₀ h₀ h
    obtain ⟨state₀, c₀, request₀, assigned₀, c₁, hs₀, hreq₀, hrun₀, hcase₀⟩ := resolveFlags_pass h₀
    obtain ⟨_, heq⟩ | ⟨-, heq⟩ := hcase₀ <;> cases heq
    have hc₀ := (start_inv hs₀).2 fun _ _ h => by cases h
    have hn₀ : c₀.scheduled.Nodup := by
      rw [MaterializationContext.scheduled, hc₀]
      exact List.nodup_nil
    have hn₁ := (resolveEach_adds hrun₀).nodup hn₀
    obtain ⟨state, c, resolveRequest, assigned, c', hs, hreq, hrun, hcase⟩ := resolveFlags_pass h
    obtain ⟨flags, heq⟩ | ⟨-, heq⟩ := hcase <;> cases heq
    -- the continuation hands the first pass's writes to the second
    have hc : c.toWrite = c₁.toWrite := by
      rw [start, wire.decode_encode] at hs
      cases hs
      rfl
    have hn : c.scheduled.Nodup := by
      rw [MaterializationContext.scheduled, hc]
      exact hn₁
    have hempty : Justified (fun rule => first.HasRule rule ∨ r.HasRule rule) c₀.toWrite := by
      rw [hc₀]
      exact justified_nil _
    rw [resolveFlags_justified hv (fun _ => .inr) hs hreq hrun hn, hc,
      resolveFlags_justified hv₀ (fun _ => .inl) hs₀ hreq₀ hrun₀ hn₀, and_iff_right hempty]
  · intro hnone
    refine ⟨fun flag hf c => ?_, ?_⟩
    · have hrun := resolveFlagInternal_unread hnone hf c
      refine ⟨hrun.known, ?_⟩
      rw [ne_eq, hrun.unsupported]
      constructor
      · intro hno hb rule u h
        rcases hs : rule.materializationSpec with _ | spec
        · rfl
        · exact absurd ⟨hb, rule, u, h, by rw [Rule.writes, hs]; rfl⟩ hno
      · rintro hno ⟨hb, rule, u, h, hw⟩
        rw [Rule.writes, hno hb rule u h] at hw
        cases hw
    · intro request K bytes calls h
      obtain ⟨state, c, resolveRequest, assigned, c', hs, -, hrun, hcase⟩ := resolveFlags_pass h
      have hvisit : ∀ flag ∈ r.flagsToResolve visit resolveRequest state.resolvedFlags,
          flag ∈ r.state.flags.values := fun flag hf =>
        hv.mem_iff.mp (List.mem_of_mem_filter hf)
      have hread := resolveEach_toRead hnone hvisit c
      rw [hrun, (start_inv hs).1] at hread
      obtain ⟨flags, heq⟩ | ⟨hne, -⟩ := hcase
      · cases heq
      · exact hne hread

/-- A rule that reads and writes `m`. -/
def Sample.openIntake : AccountResolver :=
  Sample.resolver
    [Sample.flag "flags/f" [Sample.sticky (Sample.rule "flags/f/rules/1" (.variant "on"))]]
    [Sample.segment] (by decide) Sample.segment_nodup

theorem writes_justified_iff_sample :
    Sample.openIntake.AssignsSoundly Sample.wire Sample.openIntake.state.flags.values
      (.staticMaterializations (some Sample.request) []) := by
  have h : Sample.openIntake.resolveFlags Sample.wire Sample.host
      Sample.openIntake.state.flags.values (.staticMaterializations (some Sample.request) []) =
        .ok (.resolved _ [⟨"u", "m", "flags/f/rules/1", "on"⟩], _) := rfl
  refine ((writes_justified_iff Sample.openIntake Sample.wire Sample.host _ (.refl _)).1 _ _ _ _
    (fun _ _ h => by cases h) h).mp ⟨?_, List.nodup_singleton _⟩
  intro q hq
  obtain rfl := List.mem_singleton.mp hq
  exact ⟨⟨_, ⟨_, List.mem_cons_self, List.mem_cons_self⟩, rfl, rfl⟩, by decide, by decide,
    by decide⟩

/-- The same rule with its intake paused, as it is documented: it reads `m` and names nothing to
write to. -/
def Sample.pausedIntake : AccountResolver :=
  Sample.resolver
    [Sample.flag "flags/f"
      [{ Sample.rule "flags/f/rules/1" (.variant "on") with
          materializationSpec := some ⟨"", "m", some ⟨true, false⟩⟩ }]]
    [Sample.segment] (by decide) Sample.segment_nodup

/-- **A paused intake writes.**  The unit has a record without a variant, so the rule's ranges
assign it, and a write to the empty materialization is reported. -/
theorem paused_intake_writes :
    ∃ response calls,
      Sample.pausedIntake.resolveFlags Sample.wire Sample.host
        Sample.pausedIntake.state.flags.values
        (.staticMaterializations (some Sample.request) [⟨"u", "m", "flags/f/rules/1", ""⟩]) =
          .ok (.resolved response [⟨"u", "", "flags/f/rules/1", "on"⟩], calls) ∧
      ¬ AccountResolver.Justified Sample.pausedIntake.HasRule
        [⟨"u", "", "flags/f/rules/1", "on"⟩] := by
  refine ⟨_, _, rfl, fun h => ?_⟩
  exact (h.named _ List.mem_cons_self).2.1 rfl

end ConfidenceResolver
