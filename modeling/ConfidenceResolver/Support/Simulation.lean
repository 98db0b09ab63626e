import ConfidenceResolver.Support.Kleene

/-!
# Support — a test and one that knows more

Two tests run side by side, each on its own state; a relation `R` links the states.  The second
test *knows more* (`Sim R x y`): what `x` decides `y` decides the same way, and where `x` does not
know, `y` answers something.  A test that knows more may stop earlier, so `R` has to survive a run
of `x` alone; a failed run of `x` promises nothing.

`Sim` holds of the connectives as soon as it holds of their parts (`Sim.not`, `Sim.and`,
`Sim.or`), so a whole expression knows more when its leaves do.

`Definite` and `Decides` are about a test whose leaves always know: it ends with `true` or
`false` or fails, and where the leaves' answers are fixed the connectives compute the Boolean
operations.
-/

namespace ConfidenceResolver

/-- What is decided stays decided; what is not known may be answered. -/
def KnowsMore {ε δ : Type} : Except ε Tribool → Except δ Tribool → Prop
  | .ok (some b), q => q = .ok (some b)
  | .ok none, q => ∃ t, q = .ok t
  | .error _, _ => True

namespace KnowsMore

variable {ε δ : Type} {p : Except ε Tribool} {q : Except δ Tribool}

theorem not (h : KnowsMore p q) :
    KnowsMore (p.map (Option.map (!·))) (q.map (Option.map (!·))) := by
  rcases p with _ | _ | b
  · trivial
  · obtain ⟨t, rfl⟩ := h
    exact ⟨_, rfl⟩
  · obtain rfl : q = .ok (some b) := h
    rfl

/-- An answer is answered. -/
theorem ok {a : Tribool} (h : KnowsMore (.ok a : Except ε Tribool) q) : ∃ c, q = .ok c := by
  cases a with
  | none => exact h
  | some b => exact ⟨_, h⟩

/-- The second conjunction ends at its left part, which the first did not know. -/
theorem and_false {a : Tribool}
    (h : KnowsMore (.ok a : Except ε Tribool) (.ok (some false) : Except δ Tribool))
    (ha : a ≠ some false) : KnowsMore (p.map a.and) (.ok (some false) : Except δ Tribool) := by
  rcases a with _ | _ | _
  · rcases p with _ | _ | _ | _
    · trivial
    · exact ⟨_, rfl⟩
    · rfl
    · exact ⟨_, rfl⟩
  · exact absurd rfl ha
  · cases h

/-- Both conjunctions go on to their right parts. -/
theorem and {a c : Tribool} (h : KnowsMore (.ok a : Except ε Tribool) (.ok c : Except δ Tribool))
    (ha : a ≠ some false) (hc : c ≠ some false) (hq : KnowsMore p q) :
    KnowsMore (p.map a.and) (q.map c.and) := by
  rcases a with _ | _ | _
  · rcases p with _ | b
    · trivial
    · obtain ⟨d, rfl⟩ := hq.ok
      rcases b with _ | _ | _
      · exact ⟨_, rfl⟩
      · -- the right part is false in both
        obtain rfl : d = some false := by cases hq; rfl
        rcases c with _ | _ | _
        · rfl
        · exact absurd rfl hc
        · rfl
      · exact ⟨_, rfl⟩
  · exact absurd rfl ha
  · cases h
    rcases p with _ | _ | b
    · trivial
    · obtain ⟨d, rfl⟩ := hq
      exact ⟨_, rfl⟩
    · obtain rfl : q = .ok (some b) := hq
      rfl

end KnowsMore

namespace Test

variable {σ τ ε δ : Type}

/-- `y` knows more than `x`, on states linked by `R`. -/
structure Sim (R : σ → τ → Prop) (x : Test σ ε) (y : Test τ δ) : Prop where
  result : ∀ {s t}, R s t → KnowsMore (x s).1 (y t).1
  both : ∀ {s t a}, R s t → (x s).1 = .ok a → R (x s).2 (y t).2
  alone : ∀ {s t a}, R s t → (x s).1 = .ok a → R (x s).2 t

namespace Sim

variable {R : σ → τ → Prop} {x x' : Test σ ε} {y y' : Test τ δ}

theorem const (b : Bool) : Sim R (Test.const b : Test σ ε) (Test.const b : Test τ δ) where
  result _ := rfl
  both h _ := h
  alone h _ := h

theorem not (h : Sim R x y) : Sim R x.not y.not where
  result hR := by
    rw [not_eq, not_eq]
    exact (h.result hR).not
  both hR hok := by
    rw [not_eq] at hok ⊢
    rw [not_eq]
    obtain ⟨c, hc, -⟩ := ok_of_map hok
    exact h.both hR hc
  alone hR hok := by
    rw [not_eq] at hok ⊢
    obtain ⟨c, hc, -⟩ := ok_of_map hok
    exact h.alone hR hc

/-- A run of the second left part, from the first one's. -/
theorem run (h : Sim R x y) {s s' : σ} {t : τ} {a : Tribool} (hR : R s t)
    (hx : x s = (.ok a, s')) :
    ∃ c t', y t = (.ok c, t') ∧ R s' t' ∧
      KnowsMore (.ok a : Except ε Tribool) (.ok c : Except δ Tribool) := by
  have hres := h.result hR
  have hboth := h.both hR (a := a) (by rw [hx])
  rw [hx] at hres hboth
  obtain ⟨c, hc⟩ := hres.ok
  rw [hc] at hres
  exact ⟨c, (y t).2, Eff.run_eq hc, hboth, hres⟩

theorem alone_run (h : Sim R x y) {s s' : σ} {t : τ} {a : Tribool} (hR : R s t)
    (hx : x s = (.ok a, s')) : R s' t := by
  have := h.alone hR (a := a) (by rw [hx])
  rwa [hx] at this

theorem and (hx : Sim R x y) (hy : Sim R x' y') : Sim R (x.and x') (y.and y') where
  result {s t} hR := by
    rcases and_cases x x' s with ⟨e, s', hrun, h⟩ | ⟨s', hrun, h⟩ | ⟨a, s', hrun, ha, h⟩
    · rw [h]
      trivial
    · obtain ⟨c, t', hc, -, hk⟩ := hx.run hR hrun
      cases hk
      rw [h, and_of_false hc]
      rfl
    · obtain ⟨c, t', hc, hR', hk⟩ := hx.run hR hrun
      rw [h]
      by_cases hcf : c = some false
      · subst hcf
        rw [and_of_false hc]
        exact hk.and_false ha
      · rw [and_of_ok hc hcf]
        exact hk.and ha hcf (hy.result hR')
  both {s t b} hR hok := by
    rcases and_cases x x' s with ⟨e, s', hrun, h⟩ | ⟨s', hrun, h⟩ | ⟨a, s', hrun, ha, h⟩
    · rw [h] at hok
      cases hok
    · obtain ⟨c, t', hc, hR', hk⟩ := hx.run hR hrun
      cases hk
      rw [h, and_of_false hc]
      exact hR'
    · obtain ⟨c, t', hc, hR', hk⟩ := hx.run hR hrun
      rw [h] at hok ⊢
      obtain ⟨d, hd, -⟩ := ok_of_map hok
      by_cases hcf : c = some false
      · -- the second stops here, the first goes on alone
        subst hcf
        rw [and_of_false hc]
        exact hy.alone hR' hd
      · rw [and_of_ok hc hcf]
        exact hy.both hR' hd
  alone {s t b} hR hok := by
    rcases and_cases x x' s with ⟨e, s', hrun, h⟩ | ⟨s', hrun, h⟩ | ⟨a, s', hrun, ha, h⟩
    · rw [h] at hok
      cases hok
    · rw [h]
      exact hx.alone_run hR hrun
    · rw [h] at hok ⊢
      obtain ⟨d, hd, -⟩ := ok_of_map hok
      exact hy.alone (hx.alone_run hR hrun) hd

theorem or (hx : Sim R x y) (hy : Sim R x' y') : Sim R (x.or x') (y.or y') :=
  .not (.and (.not hx) (.not hy))

end Sim

/-! ### Tests that know the answer -/

/-- On the states of `P` the test stays in `P` and does not end with `none`. -/
structure Definite (P : σ → Prop) (x : Test σ ε) : Prop where
  stays : ∀ {s}, P s → P (x s).2
  result : ∀ {s}, P s → (x s).1 ≠ .ok none

namespace Definite

variable {P : σ → Prop} {x y : Test σ ε}

theorem const (b : Bool) : Definite P (Test.const b : Test σ ε) where
  stays h := h
  result _ h := by cases h

theorem not (h : Definite P x) : Definite P x.not where
  stays hP := by
    rw [not_eq]
    exact h.stays hP
  result hP hnone := by
    rw [not_eq] at hnone
    obtain ⟨a, ha, hmap⟩ := ok_of_map hnone
    rw [Option.map_eq_none_iff] at hmap
    exact h.result hP (hmap ▸ ha)

theorem and (hx : Definite P x) (hy : Definite P y) : Definite P (x.and y) where
  stays {s} hP := by
    have hs := hx.stays hP
    rcases and_cases x y s with ⟨e, s', hrun, h⟩ | ⟨s', hrun, h⟩ | ⟨a, s', hrun, -, h⟩ <;>
      rw [hrun] at hs <;> rw [h]
    · exact hs
    · exact hs
    · exact hy.stays hs
  result {s} hP hnone := by
    have hs := hx.stays hP
    have hx' := hx.result hP
    rcases hrun : x s with ⟨e | _ | c, s'⟩ <;> rw [hrun] at hs hx'
    · rw [and_of_error hrun] at hnone
      cases hnone
    · exact hx' rfl
    · rw [and_of_known hrun] at hnone
      cases c with
      | false => cases hnone
      | true => exact hy.result hs hnone

theorem or (hx : Definite P x) (hy : Definite P y) : Definite P (x.or y) :=
  .not (.and (.not hx) (.not hy))

end Definite

/-- On the states of `P` the test stays in `P`, and answers `v` or fails in `E`. -/
structure Decides (P : σ → Prop) (E : Set ε) (v : Bool) (x : Test σ ε) : Prop where
  stays : ∀ {s}, P s → P (x s).2
  result : ∀ {s}, P s → (x s).1 = .ok (some v) ∨ ∃ e ∈ E, (x s).1 = .error e

namespace Decides

variable {P : σ → Prop} {E E' : Set ε} {v w : Bool} {x y : Test σ ε}

theorem const (b : Bool) : Decides P E b (Test.const b : Test σ ε) where
  stays h := h
  result _ := .inl rfl

theorem mono (h : Decides P E v x) (hE : E ⊆ E') : Decides P E' v x where
  stays := h.stays
  result hP := (h.result hP).imp_right fun ⟨e, he, hx⟩ => ⟨e, hE he, hx⟩

theorem not (h : Decides P E v x) : Decides P E (!v) x.not where
  stays hP := by
    rw [not_eq]
    exact h.stays hP
  result hP := by
    rw [not_eq]
    rcases h.result hP with hr | ⟨e, he, hr⟩
    · exact .inl (by rw [hr]; rfl)
    · exact .inr ⟨e, he, by rw [hr]; rfl⟩

theorem and (hx : Decides P E v x) (hy : Decides P E w y) : Decides P E (v && w) (x.and y) where
  stays {s} hP := by
    have hs := hx.stays hP
    rcases and_cases x y s with ⟨e, s', hrun, h⟩ | ⟨s', hrun, h⟩ | ⟨a, s', hrun, -, h⟩ <;>
      rw [hrun] at hs <;> rw [h]
    · exact hs
    · exact hs
    · exact hy.stays hs
  result {s} hP := by
    have hs := hx.stays hP
    rcases hx.result hP with hr | ⟨e, he, hr⟩
    · rw [and_of_known (Eff.run_eq hr)]
      cases v with
      | false => exact .inl rfl
      | true => exact hy.result hs
    · exact .inr ⟨e, he, by rw [and_of_error (Eff.run_eq hr)]⟩

theorem or (hx : Decides P E v x) (hy : Decides P E w y) : Decides P E (v || w) (x.or y) := by
  have := (hx.not.and hy.not).not
  rwa [← Bool.not_or, Bool.not_not] at this

end Decides

end Test

end ConfidenceResolver
