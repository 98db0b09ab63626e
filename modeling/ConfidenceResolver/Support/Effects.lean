import Mathlib.Data.Set.Insert

/-!
# Support — computations with a state and failures

`Eff σ ε α` reads and updates a state of type `σ` and returns an `α` or fails with an `ε`; a
failure keeps the updates made before it.

* `Returns`: what holds of every result, whatever the state.
* `Avoids`: a failure that does not occur, whatever the state.
* `Ensures`: what a run from one state ends in.
-/

namespace ConfidenceResolver

theorem ok_ne_error {ε α : Type} {a : α} {e : ε} : (Except.ok a : Except ε α) ≠ .error e := by
  intro h
  cases h

theorem error_of_map {ε α β : Type} {x : Except ε α} {f : α → β} {e : ε}
    (h : x.map f = .error e) : x = .error e := by
  cases x with
  | error e' => cases h; rfl
  | ok a => cases h

theorem ok_of_map {ε α β : Type} {x : Except ε α} {f : α → β} {b : β} (h : x.map f = .ok b) :
    ∃ a, x = .ok a ∧ f a = b := by
  cases x with
  | error e => cases h
  | ok a => cases h; exact ⟨a, rfl, rfl⟩

/-- A computation over a state `σ` that may fail with an `ε`. -/
def Eff (σ ε α : Type) : Type := σ → Except ε α × σ

namespace Eff

variable {σ ε α β : Type}

def throw (e : ε) : Eff σ ε α := fun s => (.error e, s)

/-- A result computed without the state. -/
def lift (r : Except ε α) : Eff σ ε α := fun s => (r, s)

def bind (x : Eff σ ε α) (f : α → Eff σ ε β) : Eff σ ε β := fun s =>
  match x s with
  | (.ok a, s') => f a s'
  | (.error e, s') => (.error e, s')

instance : Monad (Eff σ ε) where
  pure a := fun s => (.ok a, s)
  bind := bind

@[simp] theorem lift_apply (r : Except ε α) (s : σ) : (lift r : Eff σ ε α) s = (r, s) := rfl

theorem bind_apply (x : Eff σ ε α) (f : α → Eff σ ε β) (s : σ) :
    (x >>= f) s = match x s with
      | (.ok a, s') => f a s'
      | (.error e, s') => (.error e, s') := rfl

/-- A run, from its result. -/
theorem run_eq {x : Eff σ ε α} {s : σ} {r : Except ε α} (h : (x s).1 = r) :
    x s = (r, (x s).2) :=
  Prod.ext h rfl

theorem bind_of_ok {x : Eff σ ε α} {f : α → Eff σ ε β} {s s' : σ} {a : α}
    (h : x s = (.ok a, s')) : (x >>= f) s = f a s' := by
  rw [bind_apply, h]

theorem bind_of_error {x : Eff σ ε α} {f : α → Eff σ ε β} {s s' : σ} {e : ε}
    (h : x s = (.error e, s')) : (x >>= f) s = (.error e, s') := by
  rw [bind_apply, h]

/-- A sequence that succeeds: its first part succeeded, and so did the rest. -/
theorem bind_ok_inv {x : Eff σ ε α} {f : α → Eff σ ε β} {s s' : σ} {b : β}
    (h : (x >>= f) s = (.ok b, s')) : ∃ a s₁, x s = (.ok a, s₁) ∧ f a s₁ = (.ok b, s') := by
  rw [bind_apply] at h
  rcases e : x s with ⟨_ | a, s₁⟩
  · rw [e] at h; cases h
  · rw [e] at h; exact ⟨a, s₁, rfl, h⟩

/-! ### Results -/

/-- Every result satisfies `P`. -/
def Returns (P : α → Prop) (x : Eff σ ε α) : Prop := ∀ s a s', x s = (.ok a, s') → P a

theorem Returns.pure {P : α → Prop} {a : α} (h : P a) :
    Returns P (Pure.pure a : Eff σ ε α) := by
  intro s b s' e
  cases e
  exact h

theorem returns_throw {P : α → Prop} (e : ε) : Returns P (throw e : Eff σ ε α) := by
  intro s b s' h
  cases h

theorem Returns.lift {P : α → Prop} {r : Except ε α} (h : ∀ a, r = .ok a → P a) :
    Returns P (Eff.lift r : Eff σ ε α) := by
  intro s b s' e
  exact h b (congrArg Prod.fst e)

theorem returns_true (x : Eff σ ε α) : Returns (fun _ => True) x := fun _ _ _ _ => trivial

theorem Returns.bind {P : α → Prop} {Q : β → Prop} {x : Eff σ ε α} {f : α → Eff σ ε β}
    (hx : Returns P x) (hf : ∀ a, P a → Returns Q (f a)) : Returns Q (x >>= f) := by
  intro s b s' h
  obtain ⟨a, s₁, ha, hb⟩ := bind_ok_inv h
  exact hf a (hx s a s₁ ha) s₁ b s' hb

/-! ### Failures -/

/-- The computation does not fail with `e`. -/
def Avoids (e : ε) (x : Eff σ ε α) : Prop := ∀ s, (x s).1 ≠ .error e

variable {e : ε}

theorem Avoids.pure (a : α) : Avoids e (Pure.pure a : Eff σ ε α) := fun _ => ok_ne_error

theorem Avoids.throw {e' : ε} (h : e' ≠ e) : Avoids e (Eff.throw e' : Eff σ ε α) := fun _ he =>
  h (Except.error.inj he)

theorem Avoids.lift {r : Except ε α} (h : r ≠ .error e) : Avoids e (Eff.lift r : Eff σ ε α) :=
  fun _ => h

theorem Avoids.bind {x : Eff σ ε α} {f : α → Eff σ ε β} (hx : Avoids e x)
    (hf : ∀ a, Avoids e (f a)) : Avoids e (x >>= f) := by
  intro s
  rw [bind_apply]
  have hs := hx s
  rcases hrun : x s with ⟨e' | a, s'⟩
  · rw [hrun] at hs
    exact fun he => hs (congrArg Except.error (Except.error.inj he))
  · exact hf a s'

/-! ### Runs from one state -/

/-- From `s` the run ends with a result and a state of `Q`, or fails with an error and a state of
`E`. -/
def Ensures (x : Eff σ ε α) (E : ε → σ → Prop) (Q : α → σ → Prop) (s : σ) : Prop :=
  match x s with
  | (.ok a, s') => Q a s'
  | (.error e, s') => E e s'

namespace Ensures

variable {E E' : ε → σ → Prop} {Q Q' : α → σ → Prop} {P : β → σ → Prop} {s : σ}

theorem pure {a : α} (h : Q a s) : (Pure.pure a : Eff σ ε α).Ensures E Q s := h

theorem throw {e : ε} (h : E e s) : (Eff.throw e : Eff σ ε α).Ensures E Q s := h

theorem bind {x : Eff σ ε β} {f : β → Eff σ ε α} (hx : x.Ensures E P s)
    (hf : ∀ b s', P b s' → (f b).Ensures E Q s') : (x >>= f).Ensures E Q s := by
  rw [Ensures] at hx ⊢
  rcases hrun : x s with ⟨e | b, s'⟩
  · rw [hrun] at hx
    simpa [bind_of_error hrun] using hx
  · rw [hrun] at hx
    have hnext := hf b s' hx
    rw [Ensures] at hnext
    rwa [bind_of_ok hrun]

/-- A first part whose run is known. -/
theorem after {x : Eff σ ε β} {f : β → Eff σ ε α} {b : β} {s' : σ} (hx : x s = (.ok b, s'))
    (hf : (f b).Ensures E Q s') : (x >>= f).Ensures E Q s := by
  rwa [Ensures, bind_of_ok hx]

theorem mono {x : Eff σ ε α} (hx : x.Ensures E Q s) (he : ∀ e s', E e s' → E' e s')
    (hq : ∀ a s', Q a s' → Q' a s') : x.Ensures E' Q' s := by
  rw [Ensures] at hx ⊢
  rcases hrun : x s with ⟨e | a, s'⟩
  · rw [hrun] at hx
    exact he e s' hx
  · rw [hrun] at hx
    exact hq a s' hx

end Ensures

end Eff

end ConfidenceResolver
