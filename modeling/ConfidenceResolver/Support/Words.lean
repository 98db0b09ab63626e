import Mathlib.Logic.Function.Basic

/-!
# Support — words that can be unmixed

Hash functions mix machine words by steps that lose nothing: a multiplication by an odd constant,
an exclusive or with the shifted word, a rotation.

* `mul_injective`, `xorShift_injective`, `rotateLeft_injective`: each step can be undone.
* `foldl_injective`: and so can many.
-/

namespace ConfidenceResolver

namespace Words

variable {w : Nat}

/-- Multiplication by a constant is undone by its inverse. -/
theorem mul_injective {c : BitVec w} (c' : BitVec w) (h : c * c' = 1#w) :
    Function.Injective fun k : BitVec w => k * c :=
  Function.LeftInverse.injective (g := fun k => k * c') fun k => by
    change k * c * c' = k
    rw [BitVec.mul_assoc, h, BitVec.mul_one]

/-- `k ^ (k >> n)`. -/
def xorShift (n : Nat) (k : BitVec w) : BitVec w := k ^^^ (k >>> n)

/-- A shift by at least half of the word is undone by the same step. -/
theorem xorShift_injective {n : Nat} (h : w ≤ n + n) :
    Function.Injective (xorShift n : BitVec w → BitVec w) :=
  Function.LeftInverse.injective (g := xorShift n) fun k => by
    rw [xorShift, xorShift, BitVec.ushiftRight_xor_distrib, ← BitVec.shiftRight_add,
      BitVec.ushiftRight_eq_zero h, BitVec.xor_zero, BitVec.xor_assoc, BitVec.xor_self,
      BitVec.xor_zero]

theorem xor_left_injective (a : BitVec w) : Function.Injective fun k : BitVec w => a ^^^ k :=
  Function.LeftInverse.injective (g := fun k => a ^^^ k) fun k => by
    change a ^^^ (a ^^^ k) = k
    rw [← BitVec.xor_assoc, BitVec.xor_self, BitVec.zero_xor]

theorem xor_right_injective (a : BitVec w) : Function.Injective fun k : BitVec w => k ^^^ a :=
  Function.LeftInverse.injective (g := fun k => k ^^^ a) fun k => by
    change k ^^^ a ^^^ a = k
    rw [BitVec.xor_assoc, BitVec.xor_self, BitVec.xor_zero]

/-- A rotation is undone by one the other way. -/
theorem rotateLeft_injective {n : Nat} (h : n < w) :
    Function.Injective fun k : BitVec w => k.rotateLeft n :=
  Function.LeftInverse.injective (g := fun k => k.rotateRight n) fun k => by
    ext i hi
    simp only [BitVec.getElem_rotateRight, BitVec.getElem_rotateLeft, Nat.mod_eq_of_lt h]
    by_cases hlow : i < w - n
    · have hhigh : ¬ n + i < n := Nat.not_lt.mpr (Nat.le_add_right n i)
      simp [hlow, hhigh]
    · have hpos : i - (w - n) < n := by omega
      have hback : w - n + (i - (w - n)) = i := by omega
      simp [hlow, hpos, hback]

/-- What takes in one element without loss takes in many. -/
theorem foldl_injective {S A : Type*} {f : S → A → S} (hf : ∀ a, Function.Injective fun s => f s a)
    (l : List A) : Function.Injective fun s => l.foldl f s := by
  induction l with
  | nil => exact Function.injective_id
  | cons a l ih => exact ih.comp (hf a)

end Words

end ConfidenceResolver
