import ConfidenceResolver.Materialization.Frames
import ConfidenceResolver.Resolver.Resolve

/-!
# Materialization — passes over the flags

One pass of `resolve_flags` resolves flag after flag against one context.  By the frame property
a flag's outcome in a pass is its outcome on the bare records: `flagValue` and `flagWrites`.  So a
pass succeeds exactly when every flag does on its own and no two of them write the same key
(`resolveEach_ok`, `resolveEach_inv`), whatever the order of the flags.
-/

namespace ConfidenceResolver

/-- The value a run over the rules ends with, if it is not missing materializations. -/
def Progress.settled : Progress → Option ResolvedValue
  | .next true _ => none
  | .next false value | .done value => some value

/-- Every record of each list has another key than those of the others. -/
def Disjoint (ws : List (List MaterializationRecord)) : Prop := ws.Pairwise NoClash

namespace AccountResolver

variable {r : AccountResolver} {b : MaterializationRecords}

/-- A run over the flag's rules. -/
def runFlag (r : AccountResolver) (flag : Flag) : ResolveM Progress :=
  r.runRules flag.rules false (.new flag)

theorem runFlag_framed (hb : b ≠ .unsupported) (flag : Flag) : Framed {b} (r.runFlag flag) :=
  runRules_framed_one hb _ _ _

/-! ### One flag -/

/-- What `resolve_flag` makes of the end of a run. -/
def Progress.result (p : Progress) : Except ResolveError ResolvedValue :=
  p.settled.elim (.error .missingMaterializations) .ok

theorem resolveFlag_of_ok {flag : Flag} (hf : flag.state ≠ .archived)
    {c c' : MaterializationContext} {p : Progress} (h : r.runFlag flag c = (.ok p, c')) :
    r.resolveFlag flag c = (Progress.result p, c') := by
  have h' : r.resolveFlagInternal flag c = (Progress.result p, c') := by
    rw [resolveFlagInternal, if_neg hf, resolveRules_eq]
    refine (Eff.bind_of_ok (x := r.runRules flag.rules false (.new flag)) h).trans ?_
    rcases p with ⟨_ | _, v⟩ | v <;> rfl
  unfold resolveFlag
  rw [h']
  rcases p with ⟨_ | _, v⟩ | v <;> rfl

theorem resolveFlag_of_error {flag : Flag} (hf : flag.state ≠ .archived)
    {c : MaterializationContext} {e : ResolveError} (h : (r.runFlag flag c).1 = .error e)
    (he : e ∈ Fatal) : (r.resolveFlag flag c).1 = .error e := by
  have h' : r.resolveFlagInternal flag c = (.error e, (r.runFlag flag c).2) := by
    rw [resolveFlagInternal, if_neg hf, resolveRules_eq]
    exact Eff.bind_of_error (x := r.runRules flag.rules false (.new flag)) (Eff.run_eq h)
  unfold resolveFlag
  rw [h']
  obtain ⟨-, h₁, h₂⟩ := he
  cases e <;> first | rfl | exact absurd rfl h₁ | exact absurd rfl h₂

/-- The value of a flag on the bare records, `none` where it fails or misses materializations. -/
def flagValue (r : AccountResolver) (b : MaterializationRecords) (flag : Flag) :
    Option AssignedFlag :=
  match (r.resolveFlag flag ⟨[], [], b⟩).1 with
  | .ok value => some value.inner
  | .error _ => none

/-- The writes of a flag on the bare records. -/
def flagWrites (r : AccountResolver) (b : MaterializationRecords) (flag : Flag) :
    List MaterializationRecord :=
  (r.resolveFlag flag ⟨[], [], b⟩).2.toWrite

/-- The keys a flag asks for on the bare records. -/
def flagAsked (r : AccountResolver) (b : MaterializationRecords) (flag : Flag) :
    Set (String × String × String) :=
  (r.resolveFlag flag ⟨[], [], b⟩).2.asked

/-- The flag does not fail on the bare records; it may miss materializations. -/
def Passes (r : AccountResolver) (b : MaterializationRecords) (flag : Flag) : Prop :=
  ∃ p W A, Does b (r.runFlag flag) p W A

theorem does_flag {flag : Flag} (hf : flag.state ≠ .archived) {p : Progress}
    {W : List MaterializationRecord} {A : Set (String × String × String)}
    (h : Does b (r.runFlag flag) p W A) :
    r.flagValue b flag = p.settled.map ResolvedValue.inner ∧ r.flagWrites b flag = W ∧
      r.flagAsked b flag = A := by
  obtain ⟨c, h₁, -, h₂, h₃⟩ := h.fresh
  unfold flagValue flagWrites flagAsked
  rw [resolveFlag_of_ok hf h₁]
  refine ⟨?_, h₂, h₃⟩
  rcases p with ⟨_ | _, v⟩ | v <;> rfl

/-- A flag that passes, in a pass whose writes it does not repeat. -/
theorem Passes.resolveFlag {flag : Flag} (hf : flag.state ≠ .archived)
    (h : r.Passes b flag) {c : MaterializationContext} (hc : c.records = b)
    (hn : NoClash c.toWrite (r.flagWrites b flag)) :
    ∃ c' res, r.resolveFlag flag c = (res, c') ∧ c'.records = b ∧
      c'.toWrite = c.toWrite ++ r.flagWrites b flag ∧ c'.asked = c.asked ∪ r.flagAsked b flag ∧
      ((res = .error .missingMaterializations ∧ r.flagValue b flag = none) ∨
        ∃ v, res = .ok v ∧ r.flagValue b flag = some v.inner) := by
  obtain ⟨p, W, A, h⟩ := h
  obtain ⟨hv, hW, hA⟩ := does_flag hf h
  rw [hW] at hn
  obtain ⟨c', h₁, h₂, h₃, h₄⟩ := (h c hc).1 hn
  refine ⟨c', _, resolveFlag_of_ok hf h₁, h₂, by rw [hW, h₃], by rw [hA, h₄], ?_⟩
  rw [hv]
  rcases p with ⟨_ | _, v⟩ | v
  · exact .inr ⟨v, rfl, rfl⟩
  · exact .inl ⟨rfl, rfl⟩
  · exact .inr ⟨v, rfl, rfl⟩

/-- A flag that does not pass, or repeats a write of the pass, ends the pass. -/
theorem resolveFlag_fatal (hb : b ≠ .unsupported) {flag : Flag} (hf : flag.state ≠ .archived)
    {c : MaterializationContext} (hc : c.records = b)
    (h : ¬ (r.Passes b flag ∧ NoClash c.toWrite (r.flagWrites b flag))) :
    ∃ e ∈ Fatal, (r.resolveFlag flag c).1 = .error e := by
  rcases runFlag_framed hb flag (r := r) with ⟨p, W, A, hd⟩ | ⟨e, he, hd⟩
  · have hd := hd b rfl
    rw [(does_flag hf hd).2.1] at h
    exact ⟨_, fatal_internal _, resolveFlag_of_error hf
      ((hd c hc).2 fun hn => h ⟨⟨p, W, A, hd⟩, hn⟩) (fatal_internal _)⟩
  · rcases hd b rfl c hc with h' | h'
    · exact ⟨e, he, resolveFlag_of_error hf h' he⟩
    · exact ⟨_, fatal_internal _, resolveFlag_of_error hf h' (fatal_internal _)⟩

/-! ### The loop over the flags -/

/-- The keys the flags ask for. -/
def passAsked (r : AccountResolver) (b : MaterializationRecords) (flags : List Flag) :
    Set (String × String × String) :=
  {key | ∃ flag ∈ flags, key ∈ r.flagAsked b flag}

theorem passAsked_cons (flag : Flag) (flags : List Flag) :
    r.passAsked b (flag :: flags) = r.flagAsked b flag ∪ r.passAsked b flags := by
  ext key
  constructor
  · rintro ⟨f, hf, hk⟩
    rcases List.mem_cons.mp hf with rfl | hf
    · exact .inl hk
    · exact .inr ⟨f, hf, hk⟩
  · rintro (hk | ⟨f, hf, hk⟩)
    · exact ⟨flag, List.mem_cons_self, hk⟩
    · exact ⟨f, List.mem_cons_of_mem _ hf, hk⟩

theorem resolveEach_cons_ok {flag : Flag} {flags : List Flag} {c c' : MaterializationContext}
    {v : ResolvedValue} (h : r.resolveFlag flag c = (.ok v, c')) :
    r.resolveEach (flag :: flags) c =
      (r.resolveEach flags >>= fun rest => pure (v.inner :: rest)) c' := by
  simp only [resolveEach, h]

theorem resolveEach_cons_missing {flag : Flag} {flags : List Flag}
    {c c' : MaterializationContext}
    (h : r.resolveFlag flag c = (.error .missingMaterializations, c')) :
    r.resolveEach (flag :: flags) c = r.resolveEach flags c' := by
  simp only [resolveEach, h]

theorem resolveEach_cons_fails {flag : Flag} {flags : List Flag} {c c' : MaterializationContext}
    {e : ResolveError} (he : e ≠ .missingMaterializations)
    (h : r.resolveFlag flag c = (.error e, c')) :
    r.resolveEach (flag :: flags) c = (.error e, c') := by
  cases e
  case missingMaterializations => exact absurd rfl he
  all_goals simp only [resolveEach, h]

theorem resolveEach_cons_error {flag : Flag} (flags : List Flag) {c : MaterializationContext}
    {e : ResolveError} (he : e ∈ Fatal) (h : (r.resolveFlag flag c).1 = .error e) :
    (r.resolveEach (flag :: flags) c).1 = .error e := by
  rw [resolveEach_cons_fails he.1 (Eff.run_eq h)]

/-- What a pass over flags that pass on their own does, when no key is written twice. -/
theorem resolveEach_ok {flags : List Flag} (hf : ∀ flag ∈ flags, flag.state ≠ .archived)
    (hp : ∀ flag ∈ flags, r.Passes b flag) :
    ∀ {c : MaterializationContext}, c.records = b →
      Disjoint (c.toWrite :: flags.map (r.flagWrites b)) →
      ∃ c', r.resolveEach flags c = (.ok (flags.filterMap (r.flagValue b)), c') ∧
        c'.records = b ∧ c'.toWrite = c.toWrite ++ flags.flatMap (r.flagWrites b) ∧
        c'.asked = c.asked ∪ r.passAsked b flags := by
  induction flags with
  | nil =>
      intro c hc _
      refine ⟨c, rfl, hc, (List.append_nil _).symm, ?_⟩
      rw [passAsked]
      simp
  | cons flag flags ih =>
      intro c hc hn
      obtain ⟨hn₁, hn₂⟩ := List.pairwise_cons.mp hn
      obtain ⟨hn₃, hn₄⟩ := List.pairwise_cons.mp hn₂
      obtain ⟨c₁, res, h, hc₁, hw, ha, hv⟩ := (hp flag List.mem_cons_self).resolveFlag
        (hf flag List.mem_cons_self) hc (hn₁ _ List.mem_cons_self)
      have hn' : Disjoint (c₁.toWrite :: flags.map (r.flagWrites b)) := by
        refine List.pairwise_cons.mpr ⟨fun V hV => ?_, hn₄⟩
        rw [hw, noClash_append_left]
        exact ⟨hn₁ V (List.mem_cons_of_mem _ hV), hn₃ V hV⟩
      obtain ⟨c', h', hc', hw', ha'⟩ := ih (fun f h => hf f (List.mem_cons_of_mem _ h))
        (fun f h => hp f (List.mem_cons_of_mem _ h)) hc₁ hn'
      refine ⟨c', ?_, hc', ?_, ?_⟩
      · rcases hv with ⟨rfl, hv⟩ | ⟨v, rfl, hv⟩
        · rw [resolveEach_cons_missing h, List.filterMap_cons_none hv]
          exact h'
        · rw [resolveEach_cons_ok h, List.filterMap_cons_some hv]
          exact Eff.bind_of_ok h'
      · rw [hw', hw, List.flatMap_cons, List.append_assoc]
      · rw [ha', ha, passAsked_cons, Set.union_assoc]

/-- A pass that succeeds: every flag passes, and no key is written twice. -/
theorem resolveEach_inv (hb : b ≠ .unsupported) {flags : List Flag}
    (hf : ∀ flag ∈ flags, flag.state ≠ .archived) :
    ∀ {c c' : MaterializationContext} {as : List AssignedFlag}, c.records = b →
      r.resolveEach flags c = (.ok as, c') →
      (∀ flag ∈ flags, r.Passes b flag) ∧
        Disjoint (flags.map (r.flagWrites b)) ∧
        ∀ flag ∈ flags, NoClash c.toWrite (r.flagWrites b flag) := by
  induction flags with
  | nil =>
      intro c c' as _ _
      exact ⟨by simp, .nil, by simp⟩
  | cons flag flags ih =>
      intro c c' as hc h
      -- a flag that fails or repeats a write ends the pass, which has not ended
      by_cases hp : r.Passes b flag ∧ NoClash c.toWrite (r.flagWrites b flag)
      · obtain ⟨hp, hn⟩ := hp
        obtain ⟨c₁, res, h₁, hc₁, hw, -, hv⟩ :=
          hp.resolveFlag (hf flag List.mem_cons_self) hc hn
        have hrest : ∃ as', r.resolveEach flags c₁ = (.ok as', c') := by
          rcases hv with ⟨rfl, -⟩ | ⟨v, rfl, -⟩
          · rw [resolveEach_cons_missing h₁] at h
            exact ⟨_, h⟩
          · rw [resolveEach_cons_ok h₁] at h
            obtain ⟨as', c₂, h₂, h₃⟩ := Eff.bind_ok_inv h
            cases h₃
            exact ⟨as', h₂⟩
        obtain ⟨as', h'⟩ := hrest
        obtain ⟨h₂, h₃, h₄⟩ := ih (fun f h => hf f (List.mem_cons_of_mem _ h)) hc₁ h'
        simp only [hw, noClash_append_left] at h₄
        refine ⟨?_, List.pairwise_cons.mpr ⟨?_, h₃⟩, ?_⟩
        · intro f hfm
          rcases List.mem_cons.mp hfm with rfl | hfm
          · exact hp
          · exact h₂ f hfm
        · intro V hV
          obtain ⟨f, hfm, rfl⟩ := List.mem_map.mp hV
          exact (h₄ f hfm).2
        · intro f hfm
          rcases List.mem_cons.mp hfm with rfl | hfm
          · exact hn
          · exact (h₄ f hfm).1
      · obtain ⟨e, he, h₁⟩ := resolveFlag_fatal hb (hf flag List.mem_cons_self) hc hp
        have h₂ : (r.resolveEach (flag :: flags) c).1 = .error e := resolveEach_cons_error _ he h₁
        rw [h] at h₂
        cases h₂

theorem disjoint_cons {w : List MaterializationRecord} {ws : List (List MaterializationRecord)} :
    Disjoint (w :: ws) ↔ (∀ V ∈ ws, NoClash w V) ∧ Disjoint ws :=
  List.pairwise_cons

/-- **A pass**: when it succeeds, and with what. -/
theorem resolveEach_eq_ok_iff (hb : b ≠ .unsupported) {flags : List Flag}
    (hf : ∀ flag ∈ flags, flag.state ≠ .archived) {c : MaterializationContext}
    (hc : c.records = b) :
    (∃ as c', r.resolveEach flags c = (.ok as, c')) ↔
      (∀ flag ∈ flags, r.Passes b flag) ∧
        Disjoint (c.toWrite :: flags.map (r.flagWrites b)) := by
  constructor
  · rintro ⟨as, c', h⟩
    obtain ⟨h₁, h₂, h₃⟩ := resolveEach_inv hb hf hc h
    refine ⟨h₁, disjoint_cons.mpr ⟨fun V hV => ?_, h₂⟩⟩
    obtain ⟨f, hfm, rfl⟩ := List.mem_map.mp hV
    exact h₃ f hfm
  · rintro ⟨h₁, h₂⟩
    obtain ⟨c', h, -⟩ := resolveEach_ok hf h₁ hc h₂
    exact ⟨_, c', h⟩

/-- The outcome of a pass that succeeds. -/
theorem resolveEach_outcome (hb : b ≠ .unsupported) {flags : List Flag}
    (hf : ∀ flag ∈ flags, flag.state ≠ .archived) {c c' : MaterializationContext}
    (hc : c.records = b) {as : List AssignedFlag} (h : r.resolveEach flags c = (.ok as, c')) :
    as = flags.filterMap (r.flagValue b) ∧ c'.records = b ∧
      c'.toWrite = c.toWrite ++ flags.flatMap (r.flagWrites b) ∧
      c'.asked = c.asked ∪ r.passAsked b flags := by
  obtain ⟨hp, hn⟩ := (resolveEach_eq_ok_iff hb hf hc).mp ⟨as, c', h⟩
  obtain ⟨c'', h', h₁, h₂, h₃⟩ := resolveEach_ok hf hp hc hn
  rw [h] at h'
  cases h'
  exact ⟨rfl, h₁, h₂, h₃⟩

end AccountResolver

end ConfidenceResolver
