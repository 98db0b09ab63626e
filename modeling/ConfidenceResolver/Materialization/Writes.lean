import ConfidenceResolver.Materialization.Justified

/-!
# Materialization — the writes of a suspended request

A flag that misses materializations should leave the scheduled writes as they were.  The code has
no rollback: a write of a fallthrough rule in front of the rule that misses its record stays, and
the second pass writes the same key again.

`passKeys` lists the keys that a pass comes to schedule, from the guards, the matches and the
assignments of the rules alone.

* `resolveEach_schedules`: a pass fails on a duplicate write exactly when a key is listed twice.
* `suspension_atomic`: when exactly a suspended flag leaves the writes alone, when exactly the
  second pass meets a duplicate write, and that it otherwise writes what the direct pass writes.
* `leftover_write`: it does not where a fallthrough rule stands in front of a rule that reads.
-/

namespace ConfidenceResolver

/-- The outcome is the error of a duplicate write. -/
def IsDuplicateWrite {Bytes : Type}
    (res : Except ProcessError (ResolveProcessResponse Bytes × List HostCall)) : Prop :=
  res = .error (.resolve duplicateWrite)

/-! ### Computations that schedule keys -/

/-- From every context with the records `b`, `x` has the result `res` and schedules the keys `K`;
if that makes a key occur twice, `x` fails on the duplicate write instead. -/
def Schedules {α : Type} (b : MaterializationRecords) (x : ResolveM α)
    (res : Except ResolveError α) (K : List (String × String × String)) : Prop :=
  ∀ c, c.records = b → c.scheduled.Nodup →
    ((c.scheduled ++ K).Nodup →
      ∃ c', x c = (res, c') ∧ c'.records = b ∧ c'.scheduled = c.scheduled ++ K) ∧
    (¬ (c.scheduled ++ K).Nodup → (x c).1 = .error duplicateWrite)

section Schedules

variable {α β : Type} {b : MaterializationRecords} {x : ResolveM α} {f : α → ResolveM β} {a : α}
  {res : Except ResolveError β} {e : ResolveError} {K K' : List (String × String × String)}

theorem Yields.schedules {res : Except ResolveError α} {A : Set (String × String × String)}
    (h : Yields b x res A) : Schedules b x res [] := by
  intro c hc hn
  obtain ⟨h₁, h₂, h₃, -⟩ := h c hc
  rw [List.append_nil]
  exact ⟨fun _ => ⟨_, Eff.run_eq h₁, h₂, by rw [MaterializationContext.scheduled, h₃]; rfl⟩,
    fun h => absurd hn h⟩

theorem Schedules.pure (a : α) : Schedules b (Pure.pure a : ResolveM α) (.ok a) [] :=
  (Yields.pure b a).schedules

theorem Schedules.lift (res : Except ResolveError α) :
    Schedules b (Eff.lift res : ResolveM α) res [] := by
  refine Yields.schedules (A := ∅) fun c hc => ⟨rfl, hc, rfl, ?_⟩
  exact (Set.union_empty _).symm

/-- The keys of the two parts of a sequence, one behind the other. -/
theorem Schedules.bind (hx : Schedules b x (.ok a) K) (hf : Schedules b (f a) res K') :
    Schedules b (x >>= f) res (K ++ K') := by
  intro c hc hn
  rw [← List.append_assoc]
  by_cases hK : (c.scheduled ++ K).Nodup
  · obtain ⟨c', e, hc', hs⟩ := (hx c hc hn).1 hK
    have hrest := hf c' hc' (hs ▸ hK)
    rw [hs] at hrest
    rw [Eff.bind_of_ok e]
    exact hrest
  · refine ⟨fun h => absurd h.of_append_left hK, fun _ => ?_⟩
    rw [Eff.bind_of_error (Eff.run_eq ((hx c hc hn).2 hK))]

theorem Schedules.bind_error (hx : Schedules b x (.error e) K) :
    Schedules b (x >>= f) (.error e) K := by
  intro c hc hn
  refine ⟨fun hK => ?_, fun hK => ?_⟩
  · obtain ⟨c', h, hc', hs⟩ := (hx c hc hn).1 hK
    exact ⟨c', Eff.bind_of_error h, hc', hs⟩
  · rw [Eff.bind_of_error (Eff.run_eq ((hx c hc hn).2 hK))]

/-- A part in front that schedules nothing. -/
theorem Schedules.bind_left (hx : Schedules b x (.ok a) []) (hf : Schedules b (f a) res K) :
    Schedules b (x >>= f) res K :=
  hx.bind hf

theorem noClash_iff_keys {c : MaterializationContext} {W : List MaterializationRecord}
    (hn : c.scheduled.Nodup) (hW : (W.map MaterializationRecord.key).Nodup) :
    NoClash c.toWrite W ↔ (c.scheduled ++ W.map MaterializationRecord.key).Nodup := by
  rw [List.nodup_append]
  simp only [MaterializationContext.scheduled] at hn ⊢
  simp only [hn, hW, true_and, NoClash, List.forall_mem_map]

/-- What a computation does, when it repeats no key of its own. -/
theorem Does.schedules {W : List MaterializationRecord} {A : Set (String × String × String)}
    (h : Does b x a W A) (hW : (W.map MaterializationRecord.key).Nodup) :
    Schedules b x (.ok a) (W.map MaterializationRecord.key) := by
  intro c hc hn
  obtain ⟨h₁, h₂⟩ := h c hc
  rw [← noClash_iff_keys hn hW]
  refine ⟨fun hclash => ?_, h₂⟩
  obtain ⟨c', e, hc', hw, -⟩ := h₁ hclash
  refine ⟨c', e, hc', ?_⟩
  rw [MaterializationContext.scheduled, hw, List.map_append]
  rfl

end Schedules

/-! ### The keys of a rule -/

/-- The key of what an assignment of the rule writes for a unit. -/
def Rule.keysFor (rule : Rule) (unit : Option String) : List (String × String × String) :=
  match unit, rule.writes with
  | some u, some m => [(u, m, rule.name)]
  | _, _ => []

theorem Rule.writesFor_keys (rule : Rule) (unit : Option String) (variantName : String) :
    (rule.writesFor unit variantName).map MaterializationRecord.key = rule.keysFor unit := by
  unfold Rule.writesFor Rule.keysFor
  rcases unit with _ | u
  · rfl
  · rcases rule.writes with _ | m <;> rfl

theorem Rule.keysFor_nodup (rule : Rule) (unit : Option String) : (rule.keysFor unit).Nodup := by
  unfold Rule.keysFor
  split
  · exact List.nodup_singleton _
  · exact List.nodup_nil

/-- What the body of the loop comes to for a rule. -/
structure RuleNotes where
  /-- The keys of the writes it schedules. -/
  keys : List (String × String × String) := []
  /-- It ends the request with an error. -/
  fails : Bool := false
  /-- `has_missing_materializations` for the next rule, where the loop goes on. -/
  next : Option Bool := none

/-- What the loop over some rules comes to. -/
structure LoopNotes where
  /-- The keys of the writes it schedules, in order. -/
  keys : List (String × String × String) := []
  /-- It ends the request with an error. -/
  fails : Bool := false

/-- The variant is one of the flag's. -/
def hasVariant (variants : List Variant) (variantName : String) : Bool :=
  (variants.find? fun v => v.name = variantName).isSome

namespace AccountResolver

section Notes

variable (r : AccountResolver) (b : MaterializationRecords) (variants : List Variant)

/-- The notes on a rule that is assigned: the write comes before the variant is looked up. -/
def assignNotes (rule : Rule) (spec : AssignmentSpec) (unit : Option String) : RuleNotes :=
  match r.matchedAssignment rule spec unit with
  | .error _ => { fails := true }
  | .ok (some ⟨_, some .fallthrough, _⟩) => { keys := rule.keysFor unit, next := some false }
  | .ok (some ⟨_, some .clientDefault, _⟩) => { keys := rule.keysFor unit }
  | .ok (some ⟨_, some (.variant v), _⟩) =>
      { keys := rule.keysFor unit, fails := !hasVariant variants v }
  | .ok _ => { next := some false }

/-- The assignment that a record selects is of one of the flag's variants. -/
def storedVariant : Assignment → Bool
  | ⟨_, some (.variant v), _⟩ => hasVariant variants v
  | _ => false

/-- The notes on a rule that was matched. -/
def matchNotes (rule : Rule) (spec : AssignmentSpec) (unit : Option String) (hasMissing : Bool) :
    RuleMatch → RuleNotes
  | .sticky assignment _ => { fails := !storedVariant variants assignment }
  | .skip missing => { next := some (hasMissing || missing) }
  | .segment (some true) missing =>
      if hasMissing || missing then { next := some true }
      else r.assignNotes variants rule spec unit
  | .segment (some false) missing => { next := some (hasMissing || missing) }
  | .segment none _ => { next := some true }

/-- The notes on a rule. -/
def ruleNotes (rule : Rule) (hasMissing : Bool) : RuleNotes :=
  match r.ruleGuard rule with
  | .skip => { next := some hasMissing }
  | .targetingKeyError => {}
  | .go segment spec unit =>
      match (r.matchRule rule segment spec unit ⟨[], [], b⟩).1 with
      | .error _ => { fails := true }
      | .ok m => r.matchNotes variants rule spec unit hasMissing m

/-- The notes on the loop over the rules. -/
def loopNotes : List Rule → Bool → LoopNotes
  | [], _ => {}
  | rule :: rules, hasMissing =>
      match r.ruleNotes b variants rule hasMissing with
      | ⟨keys, fails, none⟩ => ⟨keys, fails⟩
      | ⟨keys, _, some hasMissing⟩ =>
          ⟨keys ++ (loopNotes rules hasMissing).keys, (loopNotes rules hasMissing).fails⟩

/-- The notes on a flag. -/
def flagNotes (flag : Flag) : LoopNotes := r.loopNotes b flag.variants flag.rules false

/-- The keys that a pass over the flags schedules, in order. -/
def passKeys : List Flag → List (String × String × String)
  | [] => []
  | flag :: flags =>
      if (r.flagNotes b flag).fails then (r.flagNotes b flag).keys
      else (r.flagNotes b flag).keys ++ passKeys flags

end Notes

variable {Bytes : Type} {r : AccountResolver} {wire : Wire Bytes} {host host' host'' : Host Bytes}
  {visit visit' visit'' : List Flag} {request : ResolveFlagsRequest}
  {R : List MaterializationRecord} {b : MaterializationRecords} {variants : List Variant}
  {value : ResolvedValue}

/-- The errors that end a request, but for a duplicate write. -/
def passErrors : Set ResolveError := matchErrors ∪ assignErrors

theorem passErrors_fatal : passErrors ⊆ Fatal := by
  rintro e (h | ⟨site, -, rfl⟩)
  · exact matchErrors_fatal h
  · exact fatal_internal site

theorem ne_duplicateWrite {e : ResolveError} (h : e ∈ passErrors) : e ≠ duplicateWrite := by
  rintro rfl
  rcases h with (h | h | h) | ⟨site, hs, h⟩ <;> cases h
  exact hs rfl

/-- The notes on a rule fit a result of the body of the loop, for the flag with these variants. -/
def RuleNotes.Fits (t : RuleNotes) (variants : List Variant) : Except ResolveError Progress → Prop
  | .error e => t.fails = true ∧ t.next = none ∧ e ∈ passErrors
  | .ok (.next hasMissing v) =>
      t.fails = false ∧ t.next = some hasMissing ∧ v.flag.variants = variants
  | .ok (.done _) => t.fails = false ∧ t.next = none

/-- The assignment of a matched rule schedules the keys of its notes. -/
theorem assignRule_schedules (hb : b ≠ .unsupported) (hv : value.flag.variants = variants)
    (rule : Rule) (a : Segment) (spec : AssignmentSpec) (unit : Option String) :
    ∃ res, Schedules b (r.assignRule rule a spec unit value) res
        (r.assignNotes variants rule spec unit).keys ∧
      RuleNotes.Fits (r.assignNotes variants rule spec unit) variants res := by
  have hwrite : ∀ v, Schedules b (writeAssignment rule unit v) (.ok ()) (rule.keysFor unit) := by
    intro v
    rw [← rule.writesFor_keys unit v]
    exact (writeAssignment_does hb rule unit v).schedules
      (rule.writesFor_keys unit v ▸ rule.keysFor_nodup unit)
  -- the write, and what the assignment makes of the value
  have hassign : ∀ id kind ranges,
      r.matchedAssignment rule spec unit = .ok (some ⟨id, some kind, ranges⟩) →
      Schedules b (r.assignRule rule a spec unit value)
        (applyAssignment rule a id kind (unit.getD "") value) (rule.keysFor unit) := by
    intro id kind ranges hm
    unfold assignRule
    rw [hm]
    refine (Schedules.lift _).bind_left ?_
    have := (hwrite kind.variantName).bind
      (f := fun _ => Eff.lift (applyAssignment rule a id kind (unit.getD "") value)) (.lift _)
    rwa [List.append_nil] at this
  unfold assignNotes
  rcases hm : r.matchedAssignment rule spec unit with e | _ | ⟨id, _ | v | _ | _, ranges⟩
  · refine ⟨.error e, ?_, rfl, rfl, .inr (matchedAssignment_error hm)⟩
    unfold assignRule
    rw [hm]
    exact (Schedules.lift _).bind_error
  · refine ⟨.ok (.next false value), ?_, rfl, rfl, hv⟩
    unfold assignRule
    rw [hm]
    exact (Schedules.lift _).bind_left (.pure _)
  · refine ⟨.ok (.next false value), ?_, rfl, rfl, hv⟩
    unfold assignRule
    rw [hm]
    exact (Schedules.lift _).bind_left (.pure _)
  · refine ⟨_, hassign id (.variant v) ranges hm, ?_⟩
    subst hv
    rcases hw : value.flag.variants.find? fun w => w.name = v with _ | w <;>
      simp only [applyAssignment, hasVariant, hw]
    · exact ⟨rfl, rfl, .inr ⟨_, by simp, rfl⟩⟩
    · exact ⟨rfl, rfl⟩
  · exact ⟨_, hassign id .fallthrough ranges hm, rfl, rfl, hv⟩
  · exact ⟨_, hassign id .clientDefault ranges hm, rfl, rfl⟩

theorem afterMatch_schedules (hb : b ≠ .unsupported) (hv : value.flag.variants = variants)
    (rule : Rule) (a : Segment) (spec : AssignmentSpec) (unit : Option String)
    (hasMissing : Bool) (m : RuleMatch) :
    ∃ res, Schedules b (r.afterMatch rule a spec unit hasMissing value m) res
        (r.matchNotes variants rule spec unit hasMissing m).keys ∧
      RuleNotes.Fits (r.matchNotes variants rule spec unit hasMissing m) variants res := by
  rcases m with ⟨assignment, u⟩ | missing | ⟨_ | _ | _, missing⟩
  · refine ⟨_, .lift _, ?_⟩
    subst hv
    rcases hk : assignment.assignment with _ | v | _ | _ <;>
      obtain ⟨id, kind, ranges⟩ := assignment <;> cases hk
    · exact ⟨rfl, rfl, .inr ⟨_, by simp, rfl⟩⟩
    · rcases hw : value.flag.variants.find? fun w => w.name = v with _ | w <;>
        simp only [ResolvedValue.tryWithVariantMatch, matchNotes, storedVariant, hasVariant, hw]
      · exact ⟨rfl, rfl, .inr ⟨_, by simp, rfl⟩⟩
      · exact ⟨rfl, rfl⟩
    · exact ⟨rfl, rfl, .inr ⟨_, by simp, rfl⟩⟩
    · exact ⟨rfl, rfl, .inr ⟨_, by simp, rfl⟩⟩
  · exact ⟨_, .pure _, rfl, rfl, hv⟩
  · exact ⟨_, .pure _, rfl, rfl, hv⟩
  · exact ⟨_, .pure _, rfl, rfl, hv⟩
  · rw [afterMatch, matchNotes]
    split
    · exact ⟨_, .pure _, rfl, rfl, hv⟩
    · exact assignRule_schedules hb hv rule a spec unit

/-- The body of the loop schedules the keys of its notes. -/
theorem resolveRule_schedules (hb : b ≠ .unsupported) (hv : value.flag.variants = variants)
    (rule : Rule) (hasMissing : Bool) :
    ∃ res, Schedules b (r.resolveRule rule hasMissing value) res
        (r.ruleNotes b variants rule hasMissing).keys ∧
      RuleNotes.Fits (r.ruleNotes b variants rule hasMissing) variants res := by
  unfold resolveRule ruleNotes
  rcases hg : r.ruleGuard rule with _ | _ | ⟨a, spec, unit⟩
  · exact ⟨_, .pure _, rfl, rfl, hv⟩
  · exact ⟨_, .pure _, rfl, rfl⟩
  · obtain ⟨res, A, hy, he⟩ : Observes {b} matchErrors (r.matchRule rule a spec unit) :=
      matchRule_observes_one (ruleGuard_mem hg) hb
    have hy := hy b rfl
    dsimp only
    rw [hy.fresh.1]
    rcases res with e | m
    · exact ⟨.error e, hy.schedules.bind_error, rfl, rfl, .inl (he e rfl)⟩
    · obtain ⟨res, hs, hfits⟩ := afterMatch_schedules hb hv rule a spec unit hasMissing m (r := r)
      exact ⟨res, hy.schedules.bind_left hs, hfits⟩

/-- The notes on the loop fit a result of it. -/
def LoopNotes.Fits (t : LoopNotes) : Except ResolveError Progress → Prop
  | .error e => t.fails = true ∧ e ∈ passErrors
  | .ok _ => t.fails = false

/-- **The loop over the rules** schedules the keys of its notes. -/
theorem runRules_schedules (hb : b ≠ .unsupported) (rules : List Rule) :
    ∀ (hasMissing : Bool) (value : ResolvedValue), value.flag.variants = variants →
      ∃ res, Schedules b (r.runRules rules hasMissing value) res
          (r.loopNotes b variants rules hasMissing).keys ∧
        LoopNotes.Fits (r.loopNotes b variants rules hasMissing) res := by
  induction rules with
  | nil => exact fun _ _ _ => ⟨_, .pure _, rfl⟩
  | cons rule rules ih =>
      intro hasMissing value hv
      obtain ⟨res, hs, hfits⟩ := resolveRule_schedules hb hv rule hasMissing (r := r)
      unfold loopNotes
      rcases hnotes : r.ruleNotes b variants rule hasMissing with ⟨keys, fails, next⟩
      rw [hnotes] at hs hfits
      rcases res with e | ⟨m, v⟩ | v
      · obtain ⟨rfl, rfl, he⟩ := hfits
        exact ⟨.error e, hs.bind_error, rfl, he⟩
      · obtain ⟨rfl, rfl, hv'⟩ := hfits
        obtain ⟨res, hrest, hfits'⟩ := ih m v hv'
        exact ⟨res, hs.bind hrest, hfits'⟩
      · obtain ⟨rfl, rfl⟩ := hfits
        refine ⟨.ok (.done v), ?_, rfl⟩
        have hdone : Schedules b (r.runRules (rule :: rules) hasMissing value)
            (.ok (.done v)) (keys ++ []) := hs.bind (.pure (Progress.done v))
        rwa [List.append_nil] at hdone

/-- The resolve of a flag schedules the keys of its notes: it fails on the first that is there
twice, and otherwise its errors are those noted, but for missing materializations. -/
theorem resolveFlag_schedules (hb : b ≠ .unsupported) {flag : Flag}
    (hf : flag.state ≠ .archived) {c : MaterializationContext} (hc : c.records = b)
    (hn : c.scheduled.Nodup) :
    (¬ (c.scheduled ++ (r.flagNotes b flag).keys).Nodup →
      (r.resolveFlag flag c).1 = .error duplicateWrite) ∧
    ((c.scheduled ++ (r.flagNotes b flag).keys).Nodup →
      ((r.flagNotes b flag).fails = true ∧
        ∃ e ∈ passErrors, (r.resolveFlag flag c).1 = .error e) ∨
      ((r.flagNotes b flag).fails = false ∧ ∃ p c', r.resolveFlag flag c = (Progress.result p, c') ∧
        c'.records = b ∧ c'.scheduled = c.scheduled ++ (r.flagNotes b flag).keys)) := by
  obtain ⟨res, hs, hfits⟩ :=
    runRules_schedules hb flag.rules false (.new flag) rfl (r := r)
  obtain ⟨h₁, h₂⟩ := hs c hc hn
  refine ⟨fun hdup => resolveFlag_of_error hf (h₂ hdup) (fatal_internal _), fun hK => ?_⟩
  obtain ⟨c', hrun, hc', hkeys⟩ := h₁ hK
  rcases res with e | p
  · obtain ⟨hfails, he⟩ := hfits
    have hrun' : (r.runFlag flag c).1 = .error e := by rw [runFlag, hrun]
    exact .inl ⟨hfails, e, he, resolveFlag_of_error hf hrun' (passErrors_fatal he)⟩
  · exact .inr ⟨hfits, p, c', resolveFlag_of_ok hf hrun, hc', hkeys⟩

/-- **A pass over flags** fails on a duplicate write exactly when a key is listed twice.  A pass
that succeeds has scheduled the keys of the list. -/
theorem resolveEach_schedules (hb : b ≠ .unsupported) (flags : List Flag)
    (hf : ∀ flag ∈ flags, flag.state ≠ .archived) :
    ∀ {c : MaterializationContext}, c.records = b → c.scheduled.Nodup →
      ((r.resolveEach flags c).1 = .error duplicateWrite ↔
        ¬ (c.scheduled ++ r.passKeys b flags).Nodup) ∧
      ∀ as c', r.resolveEach flags c = (.ok as, c') →
        c'.scheduled = c.scheduled ++ r.passKeys b flags := by
  induction flags with
  | nil =>
      intro c _ hn
      have hnil : c.scheduled ++ r.passKeys b [] = c.scheduled := List.append_nil _
      rw [hnil]
      refine ⟨⟨nofun, fun h => absurd hn h⟩, fun as c' h => ?_⟩
      cases h
      rfl
  | cons flag flags ih =>
      intro c hc hn
      obtain ⟨hdup, hnodup⟩ := resolveFlag_schedules hb (hf flag List.mem_cons_self) hc hn (r := r)
      rw [passKeys]
      -- the first flag that repeats a key ends the pass, and nothing is scheduled after it
      by_cases hK : (c.scheduled ++ (r.flagNotes b flag).keys).Nodup
      · rcases hnodup hK with ⟨hfails, e, he, h⟩ | ⟨hfails, p, c₁, h, hc₁, hkeys⟩
        · -- the flag ends the pass
          have hend := resolveEach_cons_error flags (passErrors_fatal he) h
          rw [if_pos hfails, hend]
          refine ⟨⟨fun h => ?_, fun h => absurd hK h⟩, fun as c' h => ?_⟩
          · exact absurd (Except.error.inj h) (ne_duplicateWrite he)
          · rw [h] at hend
            cases hend
        · obtain ⟨hiff, hok⟩ := ih (fun f h => hf f (List.mem_cons_of_mem _ h)) hc₁ (hkeys ▸ hK)
          rw [if_neg (by simp [hfails]), ← List.append_assoc, ← hkeys, ← hiff]
          unfold Progress.result at h
          rcases hp : p.settled with _ | v <;> rw [hp] at h
          · rw [resolveEach_cons_missing h]
            exact ⟨Iff.rfl, hok⟩
          · rw [resolveEach_cons_ok h]
            rcases hrest : r.resolveEach flags c₁ with ⟨e | as, c₂⟩
            · rw [Eff.bind_of_error hrest]
              refine ⟨⟨fun h => ?_, fun h => ?_⟩, nofun⟩ <;> cases h <;> rfl
            · rw [Eff.bind_of_ok hrest]
              refine ⟨⟨nofun, nofun⟩, ?_⟩
              rintro _ _ ⟨⟩
              exact hok as c₂ hrest
      · -- the flag repeats a key
        have hend := resolveEach_cons_error flags (fatal_internal _) (hdup hK)
        refine ⟨⟨fun _ h => hK ?_, fun _ => hend⟩, fun as c' h => ?_⟩
        · split at h
          · exact h
          · rw [← List.append_assoc] at h
            exact h.of_append_left
        · rw [h] at hend
          cases hend

/-! ### Atomic suspension -/

/-- The errors behind a pass are not those of its flags. -/
theorem respond_error {resolved : List AssignedFlag} {e : ProcessError}
    (h : r.respond host request resolved = .error e) : ∀ e', e ≠ .resolve e' := by
  rintro e' rfl
  unfold respond at h
  rcases hv : resolved.mapM r.fromAssigned with e | values <;> rw [hv] at h
  · cases h
    obtain ⟨assigned, -, ha⟩ := mapM_error hv
    unfold fromAssigned at ha
    split at ha <;> cases ha
  · simp only [bind, Except.bind] at h
    rcases hf : values.mapM ResolvedValue.toResolvedFlag with e | flags <;> rw [hf] at h
    · cases h
      obtain ⟨value, -, hval⟩ := mapM_error hf
      unfold ResolvedValue.toResolvedFlag at hval
      dsimp only at hval
      split at hval
      · split at hval
        · split at hval <;> cases hval
        · cases hval
      · cases hval
    · dsimp only at h
      split at h
      · cases h
      · split at h
        · cases h
        · split at h <;> cases h

theorem resolvedOutcome_not_duplicate {resolved : List AssignedFlag}
    {W : List MaterializationRecord} :
    ¬ IsDuplicateWrite (resolvedOutcome W (r.respond host request resolved)) := by
  rcases h : r.respond host request resolved with e | ⟨response, calls⟩
  · rintro ⟨⟩
    exact respond_error h _ rfl
  · rintro ⟨⟩

/-- A suspended flag leaves the writes as they were. -/
def LeavesWrites (r : AccountResolver) (request : ResolveFlagsRequest) : Prop :=
  ∀ flag ∈ r.requested r.state.flags.values request, ∀ c c',
    c.records = .discovery → r.resolveFlag flag c = (.error .missingMaterializations, c') →
    c'.toWrite = c.toWrite

/-- The flags that a first pass leaves open. -/
def openFlags (r : AccountResolver) (visit : List Flag) (request : ResolveFlagsRequest) :
    List Flag := (r.requested visit request).filter fun f => (r.flagFirstPass f).isOpen

/-- The keys that the first pass schedules, and those that the second one schedules with the
records `R` for the flags left open, are distinct. -/
def WritesApart (r : AccountResolver) (request : ResolveFlagsRequest) (visit visit' : List Flag)
    (R : List MaterializationRecord) : Prop :=
  (r.passKeys .discovery (r.requested visit request) ++
    r.passKeys (.complete R) (r.openFlags visit' request)).Nodup

instance : Decidable (r.WritesApart request visit visit' R) := List.nodupDecidable _

theorem leavesWrites_iff
    (hp : ∀ flag ∈ r.requested r.state.flags.values request, r.Passes .discovery flag) :
    r.LeavesWrites request ↔ r.OpenUnwritten request := by
  refine forall₂_congr fun flag hm => ?_
  have hf := requested_active hm
  have hpass := hp flag hm
  rw [← flagValue_discovery_eq_none hf hpass, ← flagWrites_discovery_eq_nil hf hpass]
  constructor
  · intro h hv
    obtain ⟨c', res, hr, -, hw, -, hcase⟩ := hpass.resolveFlag hf
      (c := ⟨[], [], .discovery⟩) rfl (noClash_nil_left _)
    rcases hcase with ⟨rfl, -⟩ | ⟨v, -, hv'⟩
    · rw [h _ _ rfl hr] at hw
      exact hw.symm
    · rw [hv] at hv'
      cases hv'
  · intro h c c' hc hr
    by_cases hn : NoClash c.toWrite (r.flagWrites .discovery flag)
    · obtain ⟨c'', res, hr', -, hw, -, hcase⟩ := hpass.resolveFlag hf hc hn
      rw [hr] at hr'
      cases hr'
      rcases hcase with ⟨-, hv⟩ | ⟨v, hv, -⟩
      · rw [hw, h hv, List.append_nil]
      · cases hv
    · obtain ⟨e, he, h'⟩ := resolveFlag_fatal (b := .discovery) (by simp) hf hc fun h => hn h.2
      rw [hr] at h'
      cases h'
      exact absurd rfl he.1

/-- The flags left open are those whose value a first pass does not know. -/
theorem openFlags_eq (hperm : visit.Perm visit')
    (hp : ∀ flag ∈ r.requested visit request, r.Passes .discovery flag) :
    r.openFlags visit' request = r.leftOpen visit' request := by
  refine List.filter_congr fun f hf => ?_
  have hpass := hp f ((requested_perm hperm).mem_iff.mpr hf)
  rw [Bool.eq_iff_iff, ← flagValue_discovery_eq_none (requested_active hf) hpass,
    Option.isNone_iff_eq_none]

/-- The writes that a suspended request holds are under the keys of its first pass. -/
theorem suspended_keys (hp : ∀ flag ∈ r.requested visit request, r.Passes .discovery flag)
    (hd : Disjoint ((r.requested visit request).map (r.flagWrites .discovery))) :
    ((r.requested visit request).flatMap (r.flagWrites .discovery)).map
        MaterializationRecord.key = r.passKeys .discovery (r.requested visit request) ∧
      (r.passKeys .discovery (r.requested visit request)).Nodup := by
  obtain ⟨as, c', h⟩ := (resolveEach_eq_ok_iff (b := .discovery) (by simp)
    (fun _ => requested_active) (c := ⟨[], [], .discovery⟩) rfl).mpr
    ⟨hp, disjoint_cons.mpr ⟨fun V _ => noClash_nil_left V, hd⟩⟩
  obtain ⟨-, -, hw, -⟩ := resolveEach_outcome (b := .discovery) (by simp)
    (fun _ => requested_active) rfl h
  obtain ⟨hiff, hok⟩ := resolveEach_schedules (b := .discovery) (by simp)
    (r.requested visit request) (fun _ => requested_active) (c := ⟨[], [], .discovery⟩) rfl
    List.nodup_nil (r := r)
  have hkeys := hok as c' h
  rw [MaterializationContext.scheduled, hw] at hkeys
  refine ⟨hkeys, ?_⟩
  by_contra hdup
  have := hiff.mpr hdup
  rw [h] at this
  cases this

/-- **The second pass** meets a duplicate write exactly when the keys of the two passes are not
distinct. -/
theorem resume_duplicate_iff (hv : visit.Perm r.state.flags.values)
    (hv' : visit'.Perm r.state.flags.values) {K : List MaterializationRecord} {state : Bytes}
    {calls : List HostCall}
    (hs : r.resolveFlags wire host visit (.deferredMaterializations request) =
      .ok (.suspended K state, calls)) (R : List MaterializationRecord) :
    IsDuplicateWrite (r.resolveFlags wire host' visit' (.resume R state)) ↔
      ¬ r.WritesApart request visit visit' R := by
  obtain ⟨hp, hd, hlen, rfl, -⟩ := suspended_inv hs
  obtain ⟨hheld, hn⟩ := suspended_keys hp hd
  have hiff := (resolveEach_schedules (r := r) (b := .complete R) (by simp)
    (r.leftOpen visit' request) (fun _ => leftOpen_active)
    (c := ⟨[], (r.requested visit request).flatMap (r.flagWrites .discovery), .complete R⟩) rfl
    (by rw [MaterializationContext.scheduled, hheld]; exact hn)).1
  rw [MaterializationContext.scheduled, hheld,
    ← openFlags_eq (hv.trans hv'.symm) hp] at hiff
  rw [WritesApart, ← hiff, openFlags_eq (hv.trans hv'.symm) hp, resume_eq rfl]
  rcases resolvePass_complete wire host' R
      ((r.requested visit request).flatMap (r.flagWrites .discovery))
      ⟨some request, (r.requested visit request).filterMap (r.flagValue .discovery), []⟩
      (flagsToResolve_resumed hv hv' hp) (fun _ => leftOpen_active)
      (leftOpen_length_le (hv.trans hv'.symm) hlen) with ⟨hpass, hdis, hres⟩ | ⟨-, e, hres, he⟩
  · obtain ⟨as, c', h⟩ := (resolveEach_eq_ok_iff (by simp) (fun _ => leftOpen_active)
      (c := ⟨[], (r.requested visit request).flatMap (r.flagWrites .discovery), .complete R⟩)
      rfl).mpr ⟨hpass, hdis⟩
    dsimp only at hres ⊢
    rw [hres, h]
    exact ⟨fun h => absurd h resolvedOutcome_not_duplicate, fun h => by cases h⟩
  · dsimp only at hres ⊢
    rw [hres, he]
    constructor <;> rintro ⟨⟩ <;> rfl

/-- **Suspension is atomic** exactly when no flag that is left open has scheduled a write, and the
second pass meets no duplicate write exactly when the keys of the two passes are distinct.  If no
flag that is left open has scheduled a write, and no flag that the first pass resolved has
consulted a record, the second pass writes what the direct pass writes. -/
theorem suspension_atomic (hv : visit.Perm r.state.flags.values)
    (hv' : visit'.Perm r.state.flags.values) (hv'' : visit''.Perm r.state.flags.values)
    {K : List MaterializationRecord} {state : Bytes} {calls : List HostCall}
    (hs : r.resolveFlags wire host visit (.deferredMaterializations request) =
      .ok (.suspended K state, calls)) :
    (r.LeavesWrites request ↔ r.OpenUnwritten request) ∧
    (∀ R, ¬ IsDuplicateWrite (r.resolveFlags wire host' visit' (.resume R state)) ↔
      r.WritesApart request visit visit' R) ∧
    (r.SettledUnconsulted request → r.OpenUnwritten request → ∀ R,
      SameWrites (r.resolveFlags wire host' visit' (.resume R state))
        (r.resolveFlags wire host'' visit'' (.staticMaterializations (some request) R))) := by
  obtain ⟨hp, -⟩ := suspended_inv hs
  have hmem : ∀ {f}, f ∈ r.requested r.state.flags.values request ↔
      f ∈ r.requested visit request := fun {f} => (requested_perm hv).symm.mem_iff
  exact ⟨leavesWrites_iff fun f hf => hp f (hmem.mp hf),
    fun R => (not_congr (resume_duplicate_iff hv hv' hs R)).trans not_not,
    fun hsettled hopen R => (resume_alike hv hv' hv'' hsettled hopen hs).2⟩

end AccountResolver

/-- A flag with a rule that reads and writes `m`, and a flag that has such a rule of the same name
disabled. -/
def Sample.disabledNamesake : AccountResolver :=
  Sample.resolver
    [Sample.flag "flags/f" [Sample.sticky (Sample.rule "rules/1" (.variant "on"))],
      Sample.flag "flags/g"
        [{ Sample.sticky (Sample.rule "rules/1" (.variant "on")) with enabled := false },
          Sample.rule "rules/2" (.variant "on")]]
    [Sample.segment] (by decide) Sample.segment_nodup

theorem suspension_atomic_disabledNamesake :
    ∃ K state calls,
      Sample.disabledNamesake.resolveFlags Sample.wire Sample.host
        Sample.disabledNamesake.state.flags.values (.deferredMaterializations Sample.request) =
          .ok (.suspended K state, calls) ∧
      Sample.disabledNamesake.LeavesWrites Sample.request ∧
      (∀ R, SameWrites
        (Sample.disabledNamesake.resolveFlags Sample.wire Sample.host
          Sample.disabledNamesake.state.flags.values.reverse (.resume R state))
        (Sample.disabledNamesake.resolveFlags Sample.wire Sample.host
          Sample.disabledNamesake.state.flags.values
          (.staticMaterializations (some Sample.request) R))) ∧
      ¬ IsDuplicateWrite (Sample.disabledNamesake.resolveFlags Sample.wire Sample.host
        Sample.disabledNamesake.state.flags.values.reverse (.resume [] state)) :=
  have h : Sample.disabledNamesake.resolveFlags Sample.wire Sample.host
      Sample.disabledNamesake.state.flags.values (.deferredMaterializations Sample.request) =
        .ok (.suspended _ _, _) := rfl
  have hatomic := AccountResolver.suspension_atomic (.refl _) (List.reverse_perm _) (.refl _) h
  ⟨_, _, _, h, hatomic.1.mpr (by decide), hatomic.2.2 (by decide) (by decide),
    (hatomic.2.1 []).mpr (by decide)⟩

/-- A rule that writes `m` and goes on, and one that reads `m`. -/
def Sample.writeBeforeRead : AccountResolver :=
  Sample.resolver
    [Sample.flag "flags/f"
      [{ Sample.rule "flags/f/rules/1" .fallthrough with
          materializationSpec := some ⟨"m", "", none⟩ },
        Sample.sticky (Sample.rule "flags/f/rules/2" (.variant "on"))]]
    [Sample.segment] (by decide) Sample.segment_nodup

/-- **A leftover write.**  The first pass schedules the write of the first rule and then misses the
record of the second one.  The continuation holds the write, and the second pass fails on it; in
one pass the same request succeeds. -/
theorem leftover_write :
    ∃ K state calls,
      Sample.writeBeforeRead.resolveFlags Sample.wire Sample.host
        Sample.writeBeforeRead.state.flags.values (.deferredMaterializations Sample.request) =
          .ok (.suspended K state, calls) ∧
      ¬ Sample.writeBeforeRead.LeavesWrites Sample.request ∧
      IsDuplicateWrite (Sample.writeBeforeRead.resolveFlags Sample.wire Sample.host
        Sample.writeBeforeRead.state.flags.values (.resume [] state)) ∧
      Sample.reasons (Sample.writeBeforeRead.resolveFlags Sample.wire Sample.host
        Sample.writeBeforeRead.state.flags.values
        (.staticMaterializations (some Sample.request) [])) = [.match] := by
  refine ⟨_, _, _, rfl, fun h => ?_, ?_, ?_⟩
  · have := h _ List.mem_cons_self .discovery _ rfl rfl
    cases this
  · rfl
  · decide

end ConfidenceResolver
