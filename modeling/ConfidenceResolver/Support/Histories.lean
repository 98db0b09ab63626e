import Mathlib.Data.List.Induction

/-!
# Support — histories

A history is a list that grows at its end.  What is said of an entry is often said in view of the
entries before it: that nothing is reported that was not seen, that a count is that of the entries
since the last one.

* `Throughout Q h`: every entry is `Q` in view of those before it.
* `throughout_concat`: the step of an induction on the run that writes the history.
* `throughout_append`: a history that goes on from another.
* `throughout_cons`: a history that is given, read from its start.
-/

namespace ConfidenceResolver

variable {A : Type*}

/-- Every entry of a history is as `Q` says, given the entries before it. -/
def Throughout (Q : List A → A → Prop) (history : List A) : Prop :=
  ∀ pre a post, history = pre ++ a :: post → Q pre a

variable {Q : List A → A → Prop} {history : List A} {a : A}

@[simp] theorem throughout_nil : Throughout Q [] := fun _ _ _ h => by simp at h

/-- **One more entry.** -/
theorem throughout_concat : Throughout Q (history ++ [a]) ↔ Throughout Q history ∧ Q history a := by
  constructor
  · intro h
    refine ⟨fun pre b post hsplit => h pre b (post ++ [a]) (by simp [hsplit]), h history a [] rfl⟩
  · rintro ⟨hold, hnew⟩ pre b post hsplit
    rcases List.eq_nil_or_concat post with rfl | ⟨post', x, rfl⟩
    · obtain ⟨rfl, hb⟩ := List.append_inj' hsplit rfl
      cases hb
      exact hnew
    · have hfront : history ++ [a] = (pre ++ b :: post') ++ [x] := by simpa using hsplit
      exact hold pre b post' (List.append_inj' hfront rfl).1

theorem throughout_append {later : List A} : Throughout Q (history ++ later) ↔
    Throughout Q history ∧ Throughout (fun pre => Q (history ++ pre)) later := by
  induction later using List.reverseRecOn with
  | nil => simp
  | append_singleton later b ih =>
      rw [← List.append_assoc, throughout_concat, ih, throughout_concat, and_assoc]

theorem throughout_cons : Throughout Q (a :: history) ↔
    Q [] a ∧ Throughout (fun pre => Q (a :: pre)) history := by
  have hfirst : Throughout Q [a] ↔ Q [] a := by
    rw [← List.nil_append [a], throughout_concat]
    simp
  rw [← List.singleton_append, throughout_append, hfirst]
  rfl

end ConfidenceResolver
