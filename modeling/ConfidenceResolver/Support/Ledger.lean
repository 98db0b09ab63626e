import Mathlib.Algebra.BigOperators.Group.List.Basic
import Mathlib.Tactic.Abel

/-!
# Support — ledgers

Amounts that one holder collects and hands out to parties, each of which gives its amount back or
has it accepted.  Nothing is lost when what is held, what the parties have and what was accepted is
all that was ever recorded.

* `getElem?_set_some`, `getElem?_concat_some`: the parties, by their numbers.  `forall_set`,
  `forall_concat`: what holds of each of them.
* `Has`: what the party with a number satisfies.
* `Balanced`: nothing is lost.
* `Balanced.record`, `Balanced.launch`, `Balanced.exchange`: a new amount, a new party, a party that
  changes.
-/

namespace ConfidenceResolver

structure Ledger (T A : Type*) where
  held : A
  flights : List T
  accepted : A
  recorded : A

namespace Ledger

variable {T A : Type*}

/-! ### Parties -/

/-- The parties after one of them has changed. -/
theorem getElem?_set_some {flights : List T} {i : Nat} {t t' : T} (h : flights[i]? = some t)
    (j : Nat) : (flights.set i t')[j]? = if i = j then some t' else flights[j]? := by
  rw [List.getElem?_set]
  split
  · rw [if_pos (List.getElem?_eq_some_iff.mp h).1]
  · rfl

/-- The parties after a new one. -/
theorem getElem?_concat_some {flights : List T} {t t' : T} {i : Nat}
    (h : (flights ++ [t])[i]? = some t') : flights[i]? = some t' ∨ i = flights.length ∧ t' = t := by
  rw [List.getElem?_append] at h
  split at h
  · exact .inl h
  · rw [List.getElem?_singleton] at h
    split at h
    · next hlt heq => exact .inr ⟨by omega, (Option.some.inj h).symm⟩
    · cases h

/-- What holds of each party still does after one of them has changed. -/
theorem forall_set {flights : List T} {P : Nat → T → Prop} {i : Nat} {t t' : T}
    (hi : flights[i]? = some t) (h : ∀ j s, flights[j]? = some s → P j s) (ht' : P i t') :
    ∀ j s, (flights.set i t')[j]? = some s → P j s := by
  intro j s hs
  rw [getElem?_set_some hi] at hs
  split at hs
  · next hij =>
      cases hs
      exact hij ▸ ht'
  · exact h j s hs

theorem forall_concat {flights : List T} {P : Nat → T → Prop} {t : T}
    (h : ∀ j s, flights[j]? = some s → P j s) (ht : P flights.length t) :
    ∀ j s, (flights ++ [t])[j]? = some s → P j s := by
  intro j s hs
  obtain hs | ⟨rfl, rfl⟩ := getElem?_concat_some hs
  · exact h j s hs
  · exact ht

/-- The party with number `i` satisfies `P`. -/
def Has (flights : List T) (P : T → Prop) (i : Nat) : Prop := ∃ t, flights[i]? = some t ∧ P t

theorem has_set {flights : List T} {P : T → Prop} {i : Nat} {t t' : T} (h : flights[i]? = some t)
    (j : Nat) : Has (flights.set i t') P j ↔ if i = j then P t' else Has flights P j := by
  simp only [Has, getElem?_set_some h]
  split <;> simp

theorem has_of_some {flights : List T} {P : T → Prop} {i : Nat} {t : T}
    (h : flights[i]? = some t) : Has flights P i ↔ P t := by
  simp [Has, h]

theorem has_concat {flights : List T} {P : T → Prop} {t : T} {i : Nat}
    (h : Has (flights ++ [t]) P i) : Has flights P i ∨ i = flights.length ∧ P t := by
  obtain ⟨t', ht', hP⟩ := h
  obtain ht' | ⟨hi, rfl⟩ := getElem?_concat_some ht'
  · exact .inl ⟨t', ht', hP⟩
  · exact .inr ⟨hi, hP⟩

theorem has_length {flights : List T} {P : T → Prop} {t : T} :
    Has (flights ++ [t]) P flights.length ↔ P t :=
  has_of_some List.getElem?_concat_length

theorem has_append {flights : List T} {P : T → Prop} {t : T} {i : Nat} (h : i ≠ flights.length) :
    Has (flights ++ [t]) P i ↔ Has flights P i := by
  simp only [Has, List.getElem?_append, List.getElem?_singleton]
  split
  · rfl
  · next hlt =>
      rw [if_neg (by omega), List.getElem?_eq_none (by omega)]

/-! ### Amounts -/

variable [AddCommGroup A] (amount : T → A)

def inFlight (flights : List T) : A := (flights.map amount).sum

def Balanced (l : Ledger T A) : Prop := l.held + inFlight amount l.flights + l.accepted = l.recorded

theorem inFlight_append (flights : List T) (t : T) :
    inFlight amount (flights ++ [t]) = inFlight amount flights + amount t := by
  simp [inFlight]

/-- A party changes: the sum changes by the difference. -/
theorem inFlight_set {flights : List T} {i : Nat} {t : T} (hi : flights[i]? = some t) (t' : T) :
    inFlight amount (flights.set i t') + amount t = inFlight amount flights + amount t' := by
  obtain ⟨hlt, rfl⟩ := List.getElem?_eq_some_iff.mp hi
  rw [inFlight, List.map_set, List.sum_set', dif_pos (by simpa using hlt), List.getElem_map, inFlight]
  abel

variable {amount} {l : Ledger T A}

/-- What is recorded is held. -/
theorem Balanced.record (h : l.Balanced amount) (new : A) :
    ({ l with held := l.held + new, recorded := l.recorded + new } : Ledger T A).Balanced amount := by
  rw [Balanced] at h ⊢
  rw [← h, add_right_comm l.held, add_right_comm _ new]

/-- A new party takes a part of what is held. -/
theorem Balanced.launch (h : l.Balanced amount) {t : T} {held : A}
    (hsplit : held + amount t = l.held) :
    ({ l with held := held, flights := l.flights ++ [t] } : Ledger T A).Balanced amount := by
  rw [Balanced] at h ⊢
  rw [← h, ← hsplit, inFlight_append]
  abel

/-- A party changes, and with it what is held, what was accepted and what is recorded. -/
theorem Balanced.exchange (h : l.Balanced amount) {i : Nat} {t : T} (hi : l.flights[i]? = some t)
    {t' : T} {held accepted new : A}
    (hmoved : held + amount t' + accepted = l.held + amount t + l.accepted + new) :
    (⟨held, l.flights.set i t', accepted, l.recorded + new⟩ : Ledger T A).Balanced amount := by
  rw [Balanced] at h ⊢
  have hset := inFlight_set amount hi t'
  rw [← h, ← add_right_cancel_iff (a := amount t)]
  calc held + inFlight amount (l.flights.set i t') + accepted + amount t
      = held + (inFlight amount (l.flights.set i t') + amount t) + accepted := by abel
    _ = held + amount t' + accepted + inFlight amount l.flights := by
        rw [hset]
        abel
    _ = l.held + inFlight amount l.flights + l.accepted + new + amount t := by
        rw [hmoved]
        abel

end Ledger

end ConfidenceResolver
