import ConfidenceResolver.Materialization.Segments
import ConfidenceResolver.Resolver.Flag

/-!
# Materialization — the footprint of a computation

What a computation of the resolver does with the context depends only on the context's records.

* `Yields`: it has one result, asks for the same keys, and writes nothing.  Matching a rule is
  like this (`matchRule_observes`).
* `Does`: it has one result, asks for the same keys, and appends the same writes; unless one of
  them is scheduled already, and then it fails.  A whole run over a flag's rules is like this
  (`runRules_framed`).

`Observes` and `Framed` say so for a set of records at once: on all of the set, the computation
does the same.  For one set of records this is the frame property, for two it compares their
runs.
-/

namespace ConfidenceResolver

/-- No record of `w` has the key of a record of `ws`. -/
def NoClash (w ws : List MaterializationRecord) : Prop :=
  ∀ a ∈ w, ∀ b ∈ ws, a.key ≠ b.key

theorem NoClash.symm {w ws : List MaterializationRecord} (h : NoClash w ws) : NoClash ws w :=
  fun a ha b hb e => h b hb a ha e.symm

theorem noClash_nil_left (ws : List MaterializationRecord) : NoClash [] ws :=
  fun _ h => by cases h

theorem noClash_nil_right (w : List MaterializationRecord) : NoClash w [] :=
  fun _ _ _ h => by cases h

theorem noClash_append_right {w ws vs : List MaterializationRecord} :
    NoClash w (ws ++ vs) ↔ NoClash w ws ∧ NoClash w vs := by
  refine ⟨fun h => ⟨fun a ha b hb => h a ha b (List.mem_append_left _ hb),
    fun a ha b hb => h a ha b (List.mem_append_right _ hb)⟩, fun ⟨h₁, h₂⟩ a ha b hb => ?_⟩
  rcases List.mem_append.mp hb with hb | hb
  · exact h₁ a ha b hb
  · exact h₂ a ha b hb

theorem noClash_append_left {w ws vs : List MaterializationRecord} :
    NoClash (ws ++ vs) w ↔ NoClash ws w ∧ NoClash vs w := by
  refine ⟨fun h => ⟨fun a ha => h a (List.mem_append_left _ ha),
    fun a ha => h a (List.mem_append_right _ ha)⟩, fun ⟨h₁, h₂⟩ a ha b hb => ?_⟩
  rcases List.mem_append.mp ha with ha | ha
  · exact h₁ a ha b hb
  · exact h₂ a ha b hb

/-- The error of a write that is scheduled already. -/
def duplicateWrite : ResolveError := .internal .duplicateWrite

variable {α β : Type} {x : ResolveM α} {f : α → ResolveM β} {b : MaterializationRecords}
  {B : Set MaterializationRecords} {E : Set ResolveError}

/-- The errors that end a request: all that `resolve_flag` and its caller do not handle. -/
def Fatal : Set ResolveError :=
  {e | e ≠ .missingMaterializations ∧ e ≠ .materializationsUnsupported ∧ e ≠ .unrecognizedRule}

theorem fatal_internal (site : Site) : ResolveError.internal site ∈ Fatal := by
  simp [Fatal]

/-- The failures of assigning a rule, but for a duplicate write. -/
def assignErrors : Set ResolveError :=
  {e | ∃ site, site ≠ .duplicateWrite ∧ e = .internal site}

/-! ### Computations that write nothing -/

/-- From every context with the records `b`, `x` has the result `res` and asks for `A`. -/
def Yields (b : MaterializationRecords) (x : ResolveM α) (res : Except ResolveError α)
    (A : Set (String × String × String)) : Prop :=
  ∀ c, c.records = b → (x c).1 = res ∧ (x c).2.records = b ∧ (x c).2.toWrite = c.toWrite ∧
    (x c).2.asked = c.asked ∪ A

/-- On all records of `B`, `x` has one result, whose errors are in `E`, and writes nothing. -/
def Observes (B : Set MaterializationRecords) (E : Set ResolveError) (x : ResolveM α) : Prop :=
  ∃ res A, (∀ b ∈ B, Yields b x res A) ∧ ∀ e, res = .error e → e ∈ E

theorem Yields.pure (b : MaterializationRecords) (a : α) :
    Yields b (Pure.pure a : ResolveM α) (.ok a) ∅ :=
  fun _ h => ⟨rfl, h, rfl, (Set.union_empty _).symm⟩

theorem Yields.bind {a : α} {res : Except ResolveError β} {A A' : Set (String × String × String)}
    (hx : Yields b x (.ok a) A) (hf : Yields b (f a) res A') :
    Yields b (x >>= f) res (A ∪ A') := by
  intro c hc
  obtain ⟨h₁, h₂, h₃, h₄⟩ := hx c hc
  obtain ⟨h₅, h₆, h₇, h₈⟩ := hf _ h₂
  rw [Eff.bind_of_ok (Eff.run_eq h₁)]
  exact ⟨h₅, h₆, h₇.trans h₃, by rw [h₈, h₄, Set.union_assoc]⟩

theorem Yields.bind_error {e : ResolveError} {A : Set (String × String × String)}
    (hx : Yields b x (.error e) A) : Yields b (x >>= f) (.error e) A := by
  intro c hc
  obtain ⟨h₁, h₂⟩ := hx c hc
  rw [Eff.bind_of_error (Eff.run_eq h₁)]
  exact ⟨rfl, h₂⟩

theorem asked_fresh (b : MaterializationRecords) :
    (⟨[], [], b⟩ : MaterializationContext).asked = ∅ :=
  asked_eq_empty.mpr rfl

/-- What `x` yields is what it yields from the context that holds nothing but the records. -/
theorem Yields.fresh {res : Except ResolveError α} {A : Set (String × String × String)}
    (h : Yields b x res A) : (x ⟨[], [], b⟩).1 = res ∧ (x ⟨[], [], b⟩).2.asked = A := by
  obtain ⟨h₁, -, -, h₂⟩ := h ⟨[], [], b⟩ rfl
  rw [asked_fresh, Set.empty_union] at h₂
  exact ⟨h₁, h₂⟩

theorem Yields.unique {res res' : Except ResolveError α} {A A' : Set (String × String × String)}
    (h : Yields b x res A) (h' : Yields b x res' A') : res = res' ∧ A = A' :=
  ⟨h.fresh.1.symm.trans h'.fresh.1, h.fresh.2.symm.trans h'.fresh.2⟩

theorem Yields.observes {res : Except ResolveError α} {A : Set (String × String × String)}
    (h : Yields b x res A) (he : ∀ e, res = .error e → e ∈ E) : Observes {b} E x :=
  ⟨res, A, fun b' hb => by cases hb; exact h, he⟩

theorem Yields.observes_pair {b' : MaterializationRecords} {res : Except ResolveError α}
    {A : Set (String × String × String)} (h : Yields b x res A) (h' : Yields b' x res A)
    (he : ∀ e, res = .error e → e ∈ E) : Observes {b, b'} E x :=
  ⟨res, A, fun d hd => by rcases hd with rfl | rfl; exacts [h, h'], he⟩

theorem Observes.mono {E' : Set ResolveError} (h : Observes B E x) (hE : E ⊆ E') :
    Observes B E' x := by
  obtain ⟨res, A, h, he⟩ := h
  exact ⟨res, A, h, fun e hr => hE (he e hr)⟩

theorem Observes.pure (a : α) : Observes B E (Pure.pure a : ResolveM α) :=
  ⟨.ok a, ∅, fun b _ => Yields.pure b a, fun _ h => by cases h⟩

theorem Observes.bind (hx : Observes B E x) (hf : ∀ a, Observes B E (f a)) :
    Observes B E (x >>= f) := by
  obtain ⟨e | a, A, h, he⟩ := hx
  · exact ⟨.error e, A, fun b hb => (h b hb).bind_error, fun e' h' => by cases h'; exact he e rfl⟩
  · obtain ⟨res, A', h', he'⟩ := hf a
    exact ⟨res, A ∪ A', fun b hb => (h b hb).bind (h' b hb), he'⟩

/-! ### Computations that write -/

/-- From every context with the records `b`, `x` returns `a`, asks for `A` and writes `W`, unless
a write clashes with one of the context. -/
def Does (b : MaterializationRecords) (x : ResolveM α) (a : α) (W : List MaterializationRecord)
    (A : Set (String × String × String)) : Prop :=
  ∀ c, c.records = b →
    (NoClash c.toWrite W → ∃ c', x c = (.ok a, c') ∧ c'.records = b ∧
      c'.toWrite = c.toWrite ++ W ∧ c'.asked = c.asked ∪ A) ∧
    (¬ NoClash c.toWrite W → (x c).1 = .error duplicateWrite)

/-- From every context with the records `b`, `x` fails: with `e`, or on a duplicate write. -/
def Fails (b : MaterializationRecords) (x : ResolveM α) (e : ResolveError) : Prop :=
  ∀ c, c.records = b → (x c).1 = .error e ∨ (x c).1 = .error duplicateWrite

/-- On all records of `B`, `x` does the same, or fails with the same fatal error. -/
def Framed (B : Set MaterializationRecords) (x : ResolveM α) : Prop :=
  (∃ a W A, ∀ b ∈ B, Does b x a W A) ∨ ∃ e ∈ Fatal, ∀ b ∈ B, Fails b x e

theorem Yields.does {a : α} {A : Set (String × String × String)} (h : Yields b x (.ok a) A) :
    Does b x a [] A := by
  intro c hc
  obtain ⟨h₁, h₂, h₃, h₄⟩ := h c hc
  refine ⟨fun _ => ⟨_, Eff.run_eq h₁, h₂, ?_, h₄⟩, fun hn => absurd (noClash_nil_right _) hn⟩
  rw [h₃, List.append_nil]

theorem Yields.fails {e : ResolveError} {A : Set (String × String × String)}
    (h : Yields b x (.error e) A) : Fails b x e :=
  fun c hc => .inl (h c hc).1

/-- What `x` does is what it does from the context that holds nothing but the records. -/
theorem Does.fresh {a : α} {W : List MaterializationRecord} {A : Set (String × String × String)}
    (h : Does b x a W A) : ∃ c, x ⟨[], [], b⟩ = (.ok a, c) ∧ c.records = b ∧ c.toWrite = W ∧
      c.asked = A := by
  obtain ⟨c, h₁, h₂, h₃, h₄⟩ := (h ⟨[], [], b⟩ rfl).1 (noClash_nil_left W)
  rw [asked_fresh, Set.empty_union] at h₄
  exact ⟨c, h₁, h₂, h₃, h₄⟩

theorem Does.unique {a a' : α} {W W' : List MaterializationRecord}
    {A A' : Set (String × String × String)} (h : Does b x a W A) (h' : Does b x a' W' A') :
    a = a' ∧ W = W' ∧ A = A' := by
  obtain ⟨c, h₁, -, h₂, h₃⟩ := h.fresh
  obtain ⟨c', h₁', -, h₂', h₃'⟩ := h'.fresh
  rw [h₁] at h₁'
  cases h₁'
  exact ⟨rfl, h₂.symm.trans h₂', h₃.symm.trans h₃'⟩

theorem Does.not_fails {a : α} {W : List MaterializationRecord} {e : ResolveError}
    {A : Set (String × String × String)} (h : Does b x a W A) (h' : Fails b x e) : False := by
  obtain ⟨c, h₁, -⟩ := h.fresh
  rcases h' ⟨[], [], b⟩ rfl with h | h <;> rw [h₁] at h <;> cases h

theorem Does.bind {a : α} {a' : β} {W V : List MaterializationRecord}
    {A A' : Set (String × String × String)} (hx : Does b x a W A) (hf : Does b (f a) a' V A')
    (hn : NoClash W V) : Does b (x >>= f) a' (W ++ V) (A ∪ A') := by
  intro c hc
  by_cases hW : NoClash c.toWrite W
  · obtain ⟨c', e, h₁, h₂, h₃⟩ := (hx c hc).1 hW
    rw [Eff.bind_of_ok e, noClash_append_right]
    refine ⟨fun ⟨_, hV⟩ => ?_, fun h => ?_⟩
    · obtain ⟨c'', e', h₄, h₅, h₆⟩ := (hf c' h₁).1 (by
        rw [h₂, noClash_append_left]; exact ⟨hV, hn⟩)
      exact ⟨c'', e', h₄, by rw [h₅, h₂, List.append_assoc],
        by rw [h₆, h₃, Set.union_assoc]⟩
    · refine (hf c' h₁).2 fun hV => h ⟨hW, ?_⟩
      rw [h₂, noClash_append_left] at hV
      exact hV.1
  · refine ⟨fun h => absurd (noClash_append_right.mp h).1 hW, fun _ => ?_⟩
    rw [Eff.bind_of_error (Eff.run_eq ((hx c hc).2 hW))]

theorem Does.bind_fails {a : α} {W : List MaterializationRecord} {e : ResolveError}
    {A : Set (String × String × String)} (hx : Does b x a W A) (hf : Fails b (f a) e) :
    Fails b (x >>= f) e := by
  intro c hc
  by_cases hW : NoClash c.toWrite W
  · obtain ⟨c', e', h₁, -⟩ := (hx c hc).1 hW
    rw [Eff.bind_of_ok e']
    exact hf c' h₁
  · rw [Eff.bind_of_error (Eff.run_eq ((hx c hc).2 hW))]
    exact .inr rfl

theorem Does.bind_clash {a : α} {a' : β} {W V : List MaterializationRecord}
    {A A' : Set (String × String × String)} (hx : Does b x a W A) (hf : Does b (f a) a' V A')
    (hn : ¬ NoClash W V) : Fails b (x >>= f) duplicateWrite := by
  intro c hc
  by_cases hW : NoClash c.toWrite W
  · obtain ⟨c', e, h₁, h₂, -⟩ := (hx c hc).1 hW
    rw [Eff.bind_of_ok e]
    refine .inr ((hf c' h₁).2 fun h => hn ?_)
    rw [h₂, noClash_append_left] at h
    exact h.2
  · rw [Eff.bind_of_error (Eff.run_eq ((hx c hc).2 hW))]
    exact .inr rfl

theorem Fails.bind {e : ResolveError} (hx : Fails b x e) : Fails b (x >>= f) e := by
  intro c hc
  rcases hx c hc with h | h <;> rw [Eff.bind_of_error (Eff.run_eq h)]
  · exact .inl rfl
  · exact .inr rfl

theorem Observes.framed (hx : Observes B Fatal x) : Framed B x := by
  obtain ⟨e | a, A, h, he⟩ := hx
  · exact .inr ⟨e, he e rfl, fun b hb => (h b hb).fails⟩
  · exact .inl ⟨a, [], A, fun b hb => (h b hb).does⟩

theorem Framed.bind (hx : Framed B x) (hf : ∀ a, Framed B (f a)) : Framed B (x >>= f) := by
  rcases hx with ⟨a, W, A, h⟩ | ⟨e, he, h⟩
  · rcases hf a with ⟨a', V, A', h'⟩ | ⟨e, he, h'⟩
    · by_cases hn : NoClash W V
      · exact .inl ⟨a', _, _, fun b hb => (h b hb).bind (h' b hb) hn⟩
      · exact .inr ⟨_, fatal_internal _, fun b hb => (h b hb).bind_clash (h' b hb) hn⟩
    · exact .inr ⟨e, he, fun b hb => (h b hb).bind_fails (h' b hb)⟩
  · exact .inr ⟨e, he, fun b hb => (h b hb).bind⟩

theorem Framed.pure (a : α) : Framed B (Pure.pure a : ResolveM α) := (Observes.pure a).framed

theorem Framed.lift {res : Except ResolveError α}
    (h : ∀ e, res = .error e → e ∈ assignErrors) : Framed B (Eff.lift res : ResolveM α) := by
  rcases res with e | a
  · obtain ⟨site, -, rfl⟩ := h e rfl
    exact .inr ⟨_, fatal_internal site, fun _ _ _ _ => .inl rfl⟩
  · exact .inl ⟨a, [], ∅, fun b _ => (Yields.pure b a).does⟩

/-- A framed computation that succeeds does what it did. -/
theorem Framed.does_of_ok (h : Framed {b} x) {c c' : MaterializationContext} {a : α}
    (hc : c.records = b) (hx : x c = (.ok a, c')) :
    ∃ W A, Does b x a W A ∧ NoClash c.toWrite W ∧ c'.records = b ∧
      c'.toWrite = c.toWrite ++ W := by
  rcases h with ⟨a', W, A, h⟩ | ⟨e, -, h⟩
  · have h := h b rfl
    by_cases hn : NoClash c.toWrite W
    · obtain ⟨c'', h₁, h₂, h₃, -⟩ := (h c hc).1 hn
      rw [hx] at h₁
      cases h₁
      exact ⟨W, A, h, hn, h₂, h₃⟩
    · have := (h c hc).2 hn
      rw [hx] at this
      cases this
  · rcases h b rfl c hc with h | h <;> rw [hx] at h <;> cases h

/-- What is done on the one set of records is done on the other. -/
theorem Framed.transfer {b' : MaterializationRecords} {a : α} {W : List MaterializationRecord}
    {A : Set (String × String × String)} (h : Framed {b, b'} x) (hd : Does b x a W A) :
    Does b' x a W A := by
  rcases h with ⟨a', W', A', h⟩ | ⟨e, -, h⟩
  · obtain ⟨rfl, rfl, rfl⟩ := hd.unique (h b (.inl rfl))
    exact h b' (.inr rfl)
  · exact (hd.not_fails (h b (.inl rfl))).elim

/-- The parts of a sequence that succeeds. -/
theorem Does.bind_inv {a' : β} {W : List MaterializationRecord}
    {A : Set (String × String × String)} (hx : Framed {b} x) (hf : ∀ a, Framed {b} (f a))
    (h : Does b (x >>= f) a' W A) :
    ∃ a W₁ A₁ W₂ A₂, Does b x a W₁ A₁ ∧ Does b (f a) a' W₂ A₂ ∧ NoClash W₁ W₂ ∧
      W = W₁ ++ W₂ ∧ A = A₁ ∪ A₂ := by
  rcases hx with ⟨a, W₁, A₁, h₁⟩ | ⟨e, -, h₁⟩
  · have h₁ := h₁ b rfl
    rcases hf a with ⟨a₂, W₂, A₂, h₂⟩ | ⟨e, -, h₂⟩
    · have h₂ := h₂ b rfl
      by_cases hn : NoClash W₁ W₂
      · obtain ⟨rfl, rfl, rfl⟩ := h.unique (h₁.bind h₂ hn)
        exact ⟨a, W₁, A₁, W₂, A₂, h₁, h₂, hn, rfl, rfl⟩
      · exact (h.not_fails (h₁.bind_clash h₂ hn)).elim
    · exact (h.not_fails (h₁.bind_fails (h₂ b rfl))).elim
  · exact (h.not_fails (h₁ b rfl).bind).elim

theorem does_pure {y a : α} {W : List MaterializationRecord} {A : Set (String × String × String)}
    (h : Does b (pure y : ResolveM α) a W A) : y = a ∧ W = [] ∧ A = ∅ := by
  obtain ⟨h₁, h₂, h₃⟩ := h.unique (Yields.pure b y).does
  exact ⟨h₁.symm, h₂, h₃⟩

theorem does_lift {res : Except ResolveError α} {a : α} {W : List MaterializationRecord}
    {A : Set (String × String × String)} (h : Does b (Eff.lift res : ResolveM α) a W A) :
    res = .ok a ∧ W = [] ∧ A = ∅ := by
  obtain ⟨c, h₁, -, h₂, h₃⟩ := h.fresh
  cases h₁
  exact ⟨rfl, h₂.symm, h₃.symm.trans (asked_fresh b)⟩

/-! ### The computations on a context -/

theorem hasRuleMaterialization_yields_discovery (m u k : String) :
    Yields .discovery (MaterializationContext.hasRuleMaterialization m u k) (.ok none)
      {(u, m, k)} := by
  intro c hc
  simp only [MaterializationContext.hasRuleMaterialization, hc]
  exact ⟨trivial, (recordMissing_records _ _ _ _).trans hc, recordMissing_toWrite _ _ _ _,
    by rw [asked_recordMissing, Set.union_singleton]⟩

theorem hasRuleMaterialization_yields_complete (records : List MaterializationRecord)
    (m u k : String) :
    Yields (.complete records) (MaterializationContext.hasRuleMaterialization m u k)
      (.ok (some (findRecord records u m k).isSome)) ∅ := by
  intro c hc
  simp only [MaterializationContext.hasRuleMaterialization, hc]
  refine ⟨?_, trivial, trivial, (Set.union_empty _).symm⟩
  have h : (records.any fun r => r.isFor u m k) = (findRecord records u m k).isSome := by
    rw [findRecord, Bool.eq_iff_iff, List.any_eq_true, List.find?_isSome]
  rw [h]

theorem hasRuleMaterialization_observes (hb : b ≠ .unsupported) (m u k : String) :
    Observes {b} E (MaterializationContext.hasRuleMaterialization m u k) := by
  cases b with
  | discovery =>
      exact (hasRuleMaterialization_yields_discovery m u k).observes fun _ h => by cases h
  | unsupported => exact absurd rfl hb
  | complete records =>
      exact (hasRuleMaterialization_yields_complete records m u k).observes
        fun _ h => by cases h

section Built

variable {S : Set (String × String)} {y : ResolveM Tribool}

/-- A test without records: what it yields does not depend on what was asked before. -/
theorem Built.yields_discovery (hy : Built materializationOracle S E y) :
    Yields .discovery y (y .discovery).1 (y .discovery).2.asked := by
  intro c hc
  obtain ⟨A, hA, hA'⟩ := hy.open_seen (s := c) (t := .discovery) hc rfl
  have hA' : (y .discovery).2.asked = MaterializationContext.discovery.asked ∪ A := hA'
  have hw : (y c).2.toWrite = c.toWrite :=
    hy.preserves (P := fun c' => c'.toWrite = c.toWrite)
      (fun k s hs => by
        show ((MaterializationContext.isUnitInMaterialization k.1 k.2) s).2.toWrite = _
        unfold MaterializationContext.isUnitInMaterialization
        split
        · exact hs
        · exact (recordMissing_toWrite _ _ _ _).trans hs
        · exact hs) rfl
  refine ⟨hy.open_result hc rfl, (hy.open_run hc).1, hw, hA.trans ?_⟩
  rw [hA', MaterializationContext.discovery, asked_fresh, Set.empty_union]
  rfl

theorem Built.yields_complete (hy : Built materializationOracle S E y)
    (records : List MaterializationRecord) :
    Yields (.complete records) y (y (.complete records)).1 ∅ := by
  intro c hc
  have hc' : materializationOracle.Closed c := ⟨records, hc⟩
  have hr : (y c).1 = (y (.complete records)).1 :=
    hy.congr hc' ⟨records, rfl⟩ fun k _ => by
      simp only [materializationOracle, hc, MaterializationContext.complete]
  have hs : (y c).2 = c := by
    rcases hy.closed_run hc' with ⟨b, h⟩ | ⟨e, -, h⟩ <;> rw [h]
  rw [hs]
  exact ⟨hr, hc, rfl, (Set.union_empty _).symm⟩

theorem Built.complete_cases (hy : Built materializationOracle S E y)
    (records : List MaterializationRecord) :
    (∃ t, (y (.complete records)).1 = .ok (some t)) ∨
      ∃ e ∈ E, (y (.complete records)).1 = .error e := by
  rcases hy.closed_run (t := .complete records) ⟨records, rfl⟩ with ⟨t, h⟩ | ⟨e, he, h⟩
  · exact .inl ⟨t, by rw [h]⟩
  · exact .inr ⟨e, he, by rw [h]⟩

theorem Built.observes (hy : Built materializationOracle S E y) (hb : b ≠ .unsupported) :
    Observes {b} E y := by
  cases b with
  | discovery =>
      exact hy.yields_discovery.observes fun e he => hy.open_error (s := .discovery) rfl he
  | unsupported => exact absurd rfl hb
  | complete records =>
      refine (hy.yields_complete records).observes fun e he => ?_
      rcases hy.complete_cases records with ⟨t, h⟩ | ⟨e', h', h⟩ <;> rw [h] at he <;> cases he
      exact h'

end Built

theorem addToWrite_does (hb : b ≠ .unsupported) (u m k v : String) :
    Does b (MaterializationContext.addToWrite u m k v) () [⟨u, m, k, v⟩] ∅ := by
  intro c hc
  have hiff : NoClash c.toWrite [⟨u, m, k, v⟩] ↔ ¬ (c.toWrite.any fun q => q.isFor u m k) := by
    rw [List.any_eq_true]
    constructor
    · rintro h ⟨q, hq, hk⟩
      exact h q hq _ List.mem_cons_self (MaterializationRecord.isFor_iff.mp hk)
    · intro h q hq d hd e
      obtain rfl := List.mem_singleton.mp hd
      exact h ⟨q, hq, MaterializationRecord.isFor_iff.mpr e⟩
  unfold MaterializationContext.addToWrite
  rw [if_neg (by rw [hc]; exact hb), hiff]
  refine ⟨fun h => ?_, fun h => ?_⟩
  · rw [if_neg h]
    exact ⟨_, rfl, hc, rfl, (Set.union_empty _).symm⟩
  · rw [if_pos (not_not.mp h)]
    rfl

/-- The record that an assignment of the rule writes for a unit. -/
def Rule.writesFor (rule : Rule) (unit : Option String) (variantName : String) :
    List MaterializationRecord :=
  match unit, rule.writes with
  | some u, some m => [⟨u, m, rule.name, variantName⟩]
  | _, _ => []

namespace AccountResolver

variable {r : AccountResolver}

/-- What `recognized` makes of a result. -/
def recognizedResult : Except ResolveError Tribool → Except ResolveError (Option Tribool)
  | .ok t => .ok (some t)
  | .error .unrecognizedRule => .ok none
  | .error e => .error e

theorem recognized_yields {y : ResolveM Tribool} {res : Except ResolveError Tribool}
    {A : Set (String × String × String)} (h : Yields b y res A) :
    Yields b (recognized y) (recognizedResult res) A := by
  intro c hc
  obtain ⟨h₁, h₂⟩ := h c hc
  rcases e : y c with ⟨e' | t, c'⟩ <;> rw [e] at h₁ h₂ <;> subst h₁
  · cases e' <;> simp only [recognized, e] <;> exact ⟨rfl, h₂⟩
  · simp only [recognized, e]
    exact ⟨rfl, h₂⟩

/-- The failures of matching a rule. -/
def matchErrors : Set ResolveError :=
  {e | e = .internal .parseNumber ∨ e = .panic ∨ e = .internal .accountSalt}

theorem matchErrors_fatal : matchErrors ⊆ Fatal := by
  rintro e (rfl | rfl | rfl)
  · exact fatal_internal _
  · simp [Fatal]
  · exact fatal_internal _

theorem testErrors_match {e : ResolveError} (h : e ∈ testErrors)
    (hu : e ≠ .unrecognizedRule) : e ∈ matchErrors :=
  h.resolve_left hu

theorem recognized_observes {y : ResolveM Tribool} (h : Observes B testErrors y) :
    Observes B matchErrors (recognized y) := by
  obtain ⟨res, A, h, he⟩ := h
  refine ⟨_, _, fun b hb => recognized_yields (h b hb), fun e hr => ?_⟩
  rcases res with e' | t
  · cases e' <;> cases hr <;> exact testErrors_match (he _ rfl) (by simp)
  · cases hr

theorem matchSegment_observes {unit : Option String} {a : Segment} {missing : Bool}
    (h : Observes B testErrors (r.segmentMatch unit a)) :
    Observes B matchErrors (r.matchSegment a unit missing) := by
  refine (recognized_observes h).bind fun t => ?_
  rcases t with _ | t
  · exact .pure _
  · exact .pure _

theorem segmentMatch_observes {unit : Option String} {a : Segment}
    (ha : a ∈ r.state.segments.values) (hb : b ≠ .unsupported) :
    Observes {b} testErrors (r.segmentMatch unit a) :=
  (segmentMatch_built (Scope.all r unit) ha).observes hb

/-- What the record of a unit selects. -/
theorem selectSticky_yields (rule : Rule) (spec : AssignmentSpec) (u m : String) :
    Yields b (r.selectSticky rule spec u m)
      (.ok ((selectAssignment r.natives b m u rule.name spec.assignments rule.segment
        spec.bucketCount).elim (.segment (some true) false) (.sticky · u))) ∅ := by
  rintro c rfl
  unfold selectSticky
  rcases selectAssignment r.natives c.records m u rule.name spec.assignments rule.segment
    spec.bucketCount with _ | a <;> exact ⟨rfl, rfl, rfl, (Set.union_empty _).symm⟩

theorem selectSticky_observes (rule : Rule) (spec : AssignmentSpec) (u m : String) :
    Observes {b} E (r.selectSticky rule spec u m) :=
  (selectSticky_yields rule spec u m).observes fun _ h => by cases h

theorem stickyTargeting_observes {u : String} {a : Segment} {mode : MaterializationReadMode}
    (h : Observes B testErrors (r.targetingMatchFresh (some u) a)) :
    Observes B matchErrors (r.stickyTargeting a u mode) := by
  unfold stickyTargeting
  split
  · exact .pure _
  · exact recognized_observes h

/-- The match of a unit with a record, from its three parts. -/
theorem matchSticky_observes {rule : Rule} {spec : AssignmentSpec} {u m : String} {a : Segment}
    {mode : MaterializationReadMode}
    (ht : Observes B testErrors (r.targetingMatchFresh (some u) a))
    (hs : Observes B testErrors (r.segmentMatch (some u) a))
    (ha : Observes B matchErrors (r.selectSticky rule spec u m)) :
    Observes B matchErrors (r.matchSticky rule a spec u m mode) := by
  refine (stickyTargeting_observes ht).bind fun t => ?_
  rcases t with _ | _ | _ | _
  · exact .pure _
  · exact matchSegment_observes hs
  · exact matchSegment_observes hs
  · exact ha

/-- **Matching a rule**, from its parts.  The parts that need a unit are asked for at one that
the rule reads. -/
theorem matchRule_observes {rule : Rule} {spec : AssignmentSpec} {unit : Option String}
    {a : Segment} (hs : Observes B testErrors (r.segmentMatch unit a))
    (hread : ∀ m mode u, rule.reads = some (m, mode) → unit = some u →
      Observes B matchErrors (MaterializationContext.hasRuleMaterialization m u rule.name) ∧
      Observes B testErrors (r.targetingMatchFresh (some u) a) ∧
      Observes B matchErrors (r.selectSticky rule spec u m)) :
    Observes B matchErrors (r.matchRule rule a spec unit) := by
  unfold matchRule
  split
  · exact matchSegment_observes hs
  · next m mode hm =>
      split
      · exact .pure _
      · next u =>
          obtain ⟨h₁, h₂, h₃⟩ := hread m mode u hm rfl
          refine h₁.bind fun t => ?_
          rcases t with _ | _ | _
          · exact matchSegment_observes hs
          · dsimp only
            split
            · exact .pure _
            · exact matchSegment_observes hs
          · exact matchSticky_observes h₂ hs h₃

/-- For one set of records, matching a rule depends on the records alone. -/
theorem matchRule_observes_one {rule : Rule} {spec : AssignmentSpec} {unit : Option String}
    {a : Segment} (ha : a ∈ r.state.segments.values) (hb : b ≠ .unsupported) :
    Observes {b} matchErrors (r.matchRule rule a spec unit) :=
  matchRule_observes (segmentMatch_observes ha hb) fun _ _ u _ _ =>
    ⟨hasRuleMaterialization_observes hb _ _ _,
      (targetingMatchFresh_built (Scope.all r (some u)) ha).observes hb,
      selectSticky_observes _ _ _ _⟩

theorem matchedAssignment_error {rule : Rule} {spec : AssignmentSpec} {unit : Option String}
    {e : ResolveError} (h : r.matchedAssignment rule spec unit = .error e) : e ∈ assignErrors := by
  unfold matchedAssignment at h
  split at h
  · cases h
  · split at h
    · cases h
    · split at h
      · cases h; exact ⟨_, by simp, rfl⟩
      · split at h <;> cases h; exact ⟨_, by simp, rfl⟩

theorem applyAssignment_error {rule : Rule} {a : Segment} {assignmentId unit : String}
    {assignment : AssignmentKind} {value : ResolvedValue} {e : ResolveError}
    (h : applyAssignment rule a assignmentId assignment unit value = .error e) : e ∈ assignErrors := by
  unfold applyAssignment at h
  split at h
  · cases h
  · cases h
  · split at h <;> cases h
    exact ⟨_, by simp, rfl⟩

theorem tryWithVariantMatch_error {value : ResolvedValue} {rule : Rule} {a : Segment}
    {assignment : Assignment} {unit : String} {e : ResolveError}
    (h : value.tryWithVariantMatch rule a assignment unit = .error e) : e ∈ assignErrors := by
  unfold ResolvedValue.tryWithVariantMatch at h
  split at h
  · split at h <;> cases h
    exact ⟨_, by simp, rfl⟩
  · cases h; exact ⟨_, by simp, rfl⟩

theorem writeAssignment_does (hb : b ≠ .unsupported) (rule : Rule) (unit : Option String)
    (variantName : String) :
    Does b (writeAssignment rule unit variantName) () (rule.writesFor unit variantName) ∅ := by
  unfold writeAssignment Rule.writesFor
  rcases unit with _ | u
  · exact (Yields.pure b ()).does
  · rcases rule.writes with _ | m
    · exact (Yields.pure b ()).does
    · exact addToWrite_does hb u m rule.name variantName

theorem writeAssignment_framed (hB : .unsupported ∉ B) (rule : Rule) (unit : Option String)
    (variantName : String) : Framed B (writeAssignment rule unit variantName) :=
  .inl ⟨(), _, ∅, fun _ hb => writeAssignment_does (fun e => hB (e ▸ hb)) rule unit variantName⟩

/-- Assigning a rule does the same on all records. -/
theorem assignRule_framed (hB : .unsupported ∉ B) (rule : Rule) (a : Segment)
    (spec : AssignmentSpec) (unit : Option String) (value : ResolvedValue) :
    Framed B (r.assignRule rule a spec unit value) := by
  refine (Framed.lift fun _ => matchedAssignment_error).bind fun matched => ?_
  rcases matched with _ | ⟨assignmentId, _ | assignment, ranges⟩
  · exact .pure _
  · exact .pure _
  · exact (writeAssignment_framed hB _ _ _).bind fun _ => .lift fun _ => applyAssignment_error

/-- What an assignment that succeeds returns and writes. -/
theorem assignRule_inv (hb : b ≠ .unsupported) {rule : Rule} {a : Segment}
    {spec : AssignmentSpec} {unit : Option String} {value : ResolvedValue} {p : Progress}
    {W : List MaterializationRecord} {A : Set (String × String × String)}
    (h : Does b (r.assignRule rule a spec unit value) p W A) :
    A = ∅ ∧ ((p = .next false value ∧ W = [] ∧ (r.matchedAssignment rule spec unit = .ok none ∨
      ∃ id ranges, r.matchedAssignment rule spec unit = .ok (some ⟨id, none, ranges⟩))) ∨
    ∃ id kind ranges, r.matchedAssignment rule spec unit = .ok (some ⟨id, some kind, ranges⟩) ∧
      applyAssignment rule a id kind (unit.getD "") value = .ok p ∧
      W = rule.writesFor unit kind.variantName) := by
  have hB : MaterializationRecords.unsupported ∉ ({b} : Set _) := fun h => hb h.symm
  obtain ⟨matched, W₁, A₁, W₂, A₂, h₁, h₂, -, rfl, rfl⟩ := h.bind_inv
    (.lift fun _ => matchedAssignment_error) fun m => by
      rcases m with _ | ⟨assignmentId, _ | assignment, ranges⟩
      · exact .pure _
      · exact .pure _
      · exact (writeAssignment_framed hB _ _ _).bind fun _ => .lift fun _ => applyAssignment_error
  obtain ⟨hm, rfl, rfl⟩ := does_lift h₁
  rw [Set.empty_union]
  rcases matched with _ | ⟨id, _ | kind, ranges⟩
  · obtain ⟨rfl, rfl, rfl⟩ := does_pure h₂
    exact ⟨rfl, .inl ⟨rfl, rfl, .inl hm⟩⟩
  · obtain ⟨rfl, rfl, rfl⟩ := does_pure h₂
    exact ⟨rfl, .inl ⟨rfl, rfl, .inr ⟨id, ranges, hm⟩⟩⟩
  · obtain ⟨_, W₃, A₃, W₄, A₄, h₃, h₄, -, rfl, rfl⟩ := h₂.bind_inv
      (writeAssignment_framed hB _ _ _) fun _ => .lift fun _ => applyAssignment_error
    obtain ⟨hk, rfl, rfl⟩ := does_lift h₄
    obtain ⟨-, rfl, rfl⟩ := h₃.unique (writeAssignment_does hb rule unit kind.variantName)
    exact ⟨Set.union_empty _, .inr ⟨id, kind, ranges, hm, hk, by simp⟩⟩

/-- What is done with a match asks for nothing. -/
theorem afterMatch_asked (hb : b ≠ .unsupported) {rule : Rule} {a : Segment}
    {spec : AssignmentSpec} {unit : Option String} {hasMissing : Bool} {value : ResolvedValue}
    {m : RuleMatch} {p : Progress} {W : List MaterializationRecord}
    {A : Set (String × String × String)}
    (h : Does b (r.afterMatch rule a spec unit hasMissing value m) p W A) : A = ∅ := by
  rcases m with ⟨assignment, u⟩ | missing | ⟨_ | _ | _, missing⟩
  · exact (does_lift h).2.2
  · exact (does_pure h).2.2
  · exact (does_pure h).2.2
  · exact (does_pure h).2.2
  · rw [afterMatch] at h
    split at h
    · exact (does_pure h).2.2
    · exact (assignRule_inv hb h).1

theorem afterMatch_framed (hB : .unsupported ∉ B) (rule : Rule) (a : Segment)
    (spec : AssignmentSpec) (unit : Option String) (hasMissing : Bool) (value : ResolvedValue)
    (m : RuleMatch) : Framed B (r.afterMatch rule a spec unit hasMissing value m) := by
  rcases m with ⟨assignment, u⟩ | missing | ⟨_ | _ | _, missing⟩
  · refine .lift fun e he => ?_
    rcases hv : value.tryWithVariantMatch rule a assignment u with e' | v
    · rw [hv] at he; cases he; exact tryWithVariantMatch_error hv
    · rw [hv] at he; cases he
  · exact .pure _
  · exact .pure _
  · exact .pure _
  · rw [afterMatch]
    split
    · exact .pure _
    · exact assignRule_framed hB _ _ _ _ _

theorem resolveMatched_framed {rule : Rule} {spec : AssignmentSpec} {unit : Option String}
    {a : Segment} (hB : .unsupported ∉ B)
    (h : Observes B matchErrors (r.matchRule rule a spec unit))
    (hasMissing : Bool) (value : ResolvedValue) :
    Framed B (r.resolveMatched rule a spec unit hasMissing value) :=
  (h.mono matchErrors_fatal).framed.bind (afterMatch_framed hB rule a spec unit hasMissing value)

/-- A rule that passes its guard has its segment in the state. -/
theorem ruleGuard_go {rule : Rule} {a : Segment} {spec : AssignmentSpec} {unit : Option String}
    (h : r.ruleGuard rule = .go a spec unit) :
    rule.enabled = true ∧ r.enabledForEnvironment rule = true ∧
      r.state.segments.get rule.segment = some a ∧ rule.assignmentSpec = some spec ∧
      r.unitGuard rule = .ok (some unit) := by
  unfold ruleGuard at h
  split at h
  · cases h
  · next he =>
      split at h
      · cases h
      · next hn =>
          rcases hs : r.state.segments.get rule.segment with _ | a'
          · rw [hs] at h; cases h
          · rw [hs] at h
            dsimp only at h
            rcases hu : r.unitGuard rule with e | _ | unit'
            · rw [hu] at h; cases h
            · rw [hu] at h; cases h
            · rw [hu] at h
              dsimp only at h
              rcases hp : rule.assignmentSpec with _ | spec'
              · rw [hp] at h; cases h
              · rw [hp] at h
                cases h
                exact ⟨by simpa using he, by simpa using hn, rfl, rfl, rfl⟩

theorem ruleGuard_mem {rule : Rule} {a : Segment} {spec : AssignmentSpec} {unit : Option String}
    (h : r.ruleGuard rule = .go a spec unit) : a ∈ r.state.segments.values :=
  (NamedMap.get_some (ruleGuard_go h).2.2.1).1

theorem resolveRule_framed (hB : .unsupported ∉ B) {rule : Rule}
    (h : ∀ a spec unit, r.ruleGuard rule = .go a spec unit →
      Observes B matchErrors (r.matchRule rule a spec unit)) (hasMissing : Bool)
    (value : ResolvedValue) : Framed B (r.resolveRule rule hasMissing value) := by
  unfold resolveRule
  rcases hg : r.ruleGuard rule with _ | _ | ⟨a, spec, unit⟩
  · exact .pure _
  · exact .pure _
  · exact resolveMatched_framed hB (h a spec unit hg) hasMissing value

/-! ### The rules of a flag -/

/-- The loop over the rules without its end, where missing materializations become an error. -/
def runRules (r : AccountResolver) : List Rule → Bool → ResolvedValue → ResolveM Progress
  | [], hasMissing, value => pure (.next hasMissing value)
  | rule :: rules, hasMissing, value => do
      match ← r.resolveRule rule hasMissing value with
      | .next hasMissing value => runRules r rules hasMissing value
      | .done value => return .done value

/-- What the end of the loop makes of its state. -/
def finishRules : Progress → ResolveM ResolvedValue
  | .next true _ => Eff.throw .missingMaterializations
  | .next false value | .done value => pure value

theorem resolveRules_eq (rules : List Rule) (hasMissing : Bool) (value : ResolvedValue) :
    r.resolveRules rules hasMissing value = r.runRules rules hasMissing value >>= finishRules := by
  induction rules generalizing hasMissing value with
  | nil => cases hasMissing <;> rfl
  | cons rule rules ih =>
      funext c
      rw [resolveRules, runRules, Eff.bind_apply, Eff.bind_apply, Eff.bind_apply]
      rcases r.resolveRule rule hasMissing value c with ⟨_ | ⟨m, v⟩ | v, c'⟩
      · rfl
      · dsimp only
        rw [ih, Eff.bind_apply]
      · rfl

/-- **A run over the rules is framed**, when matching each of them observes. -/
theorem runRules_framed (hB : .unsupported ∉ B) {rules : List Rule}
    (h : ∀ rule ∈ rules, ∀ a spec unit, r.ruleGuard rule = .go a spec unit →
      Observes B matchErrors (r.matchRule rule a spec unit)) (hasMissing : Bool)
    (value : ResolvedValue) : Framed B (r.runRules rules hasMissing value) := by
  induction rules generalizing hasMissing value with
  | nil => exact .pure _
  | cons rule rules ih =>
      refine (resolveRule_framed hB (h rule List.mem_cons_self) hasMissing value).bind fun p => ?_
      rcases p with ⟨m, v⟩ | v
      · exact ih (fun rule' hr => h rule' (List.mem_cons_of_mem _ hr)) m v
      · exact .pure _

theorem resolveRule_framed_one (hb : b ≠ .unsupported) (rule : Rule) (hasMissing : Bool)
    (value : ResolvedValue) : Framed {b} (r.resolveRule rule hasMissing value) :=
  resolveRule_framed (fun h => hb h.symm)
    (fun _ _ _ hg => matchRule_observes_one (ruleGuard_mem hg) hb) hasMissing value

theorem runRules_framed_one (hb : b ≠ .unsupported) (rules : List Rule) (hasMissing : Bool)
    (value : ResolvedValue) : Framed {b} (r.runRules rules hasMissing value) :=
  runRules_framed (fun h => hb h.symm)
    (fun _ _ _ _ _ hg => matchRule_observes_one (ruleGuard_mem hg) hb) hasMissing value

end AccountResolver

end ConfidenceResolver
