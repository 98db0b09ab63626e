import Mathlib.Order.Compare
import Mathlib.Algebra.Order.Ring.Int

/-!
# Support — IEEE doubles

Two doubles compare as the numbers they are unpacked to.  A NaN compares with nothing.  A double
becomes an integer by dropping what follows the point.

* `compare_swap`: the comparison the other way round is the opposite one.
* `float_beq_comm`: equality of doubles is symmetric, though it is not reflexive.
* `asI64_of_exactly`: a double that is an `i64` becomes this `i64`.
-/

namespace ConfidenceResolver

open Float.Model

theorem compare_sign_swap (s t : UnpackedFloat.Sign) : compare t s = (compare s t).swap := by
  cases s <;> cases t <;> rfl

/-- The comparison of unpacked doubles, the other way round. -/
theorem compare_swap (a b : UnpackedFloat) :
    b.compare a = (a.compare b).map Ordering.swap := by
  have hparts (e e' : Int) (m m' : Nat) :
      (compare e' e).then (compare m' m) = ((compare e e').then (compare m m')).swap := by
    rw [Ordering.swap_then, Int.compare_swap, Nat.compare_swap]
  cases a with
  | notANumber => cases b <;> rfl
  | infinity s =>
      cases b with
      | notANumber => cases s <;> rfl
      | infinity t => exact congrArg some (compare_sign_swap s t)
      | zero t => cases s <;> rfl
      | finite t m e hm => cases s <;> cases t <;> rfl
  | zero s =>
      cases b with
      | notANumber => rfl
      | infinity t => cases t <;> rfl
      | zero t => rfl
      | finite t m e hm => cases t <;> rfl
  | finite s m e hm =>
      cases b with
      | notANumber => cases s <;> rfl
      | infinity t => cases s <;> cases t <;> rfl
      | zero t => cases s <;> rfl
      | finite t m' e' hm' =>
          cases s
          · cases t
            · exact congrArg some (congrArg Ordering.swap (hparts e e' m m'))
            · rfl
          · cases t
            · rfl
            · exact congrArg some (hparts e e' m m')

theorem float_beq_comm (a b : Float) : (a == b) = (b == a) := by
  change (a.toModel.unpack.compare b.toModel.unpack == some .eq) =
    (b.toModel.unpack.compare a.toModel.unpack == some .eq)
  rw [compare_swap a.toModel.unpack b.toModel.unpack]
  rcases a.toModel.unpack.compare b.toModel.unpack with _ | order
  · rfl
  · cases order <;> rfl

/-! ### Integers -/

/-- The unpacked double is exactly the integer `i`: a mantissa times a power of two. -/
def Exactly (i : Int) : UnpackedFloat → Prop
  | .zero _ => i = 0
  | .finite s m e _ => s.apply (m * 2 ^ e.toNat) = i * 2 ^ (-e).toNat
  | .infinity _ | .notANumber => False

/-- The double is exactly the integer `i`. -/
def IsExactly (n : Float) (i : Int) : Prop := Exactly i n.toModel.unpack

/-- `n as i64`: the number without what follows the point, the nearer end of the range beyond it,
and zero for a NaN. -/
def asI64 (n : Float) : Int64 := n.toModel.toInt64

theorem repeat_shiftRightOne (n : Nat) (em : UnpackedFloat.ExtendedMantissa) :
    (n.repeat UnpackedFloat.ExtendedMantissa.shiftRightOne em).mantissa =
      em.mantissa / 2 ^ n := by
  induction n with
  | zero => simp [Nat.repeat]
  | succ n ih =>
      rw [Nat.repeat, UnpackedFloat.ExtendedMantissa.shiftRightOne, ih, Nat.div_div_eq_div_mul,
        pow_succ]

/-- Rounding to an integer drops the bits behind the point. -/
theorem roundToInt_eq (s : UnpackedFloat.Sign) (m : Nat) (e : Int) :
    UnpackedFloat.roundToInt s m e = s.apply ((m * 2 ^ e.toNat / 2 ^ (-e).toNat : Nat) : Int) := by
  have hshift : (0 - (e - ((e - 0).toNat : Int))).toNat = (-e).toNat := by omega
  have hround : UnpackedFloat.roundToInt s m e = s.apply
      ((0 - (e - ((e - 0).toNat : Int))).toNat.repeat
        UnpackedFloat.ExtendedMantissa.shiftRightOne ⟨m <<< (e - 0).toNat, false, false⟩).mantissa :=
    rfl
  rw [hround, repeat_shiftRightOne, hshift, Nat.shiftLeft_eq, sub_zero]

theorem toInt_of_exactly {u : UnpackedFloat} {i lo hi : Int} (h : Exactly i u) :
    u.toInt lo hi = i := by
  cases u with
  | infinity s => exact h.elim
  | notANumber => exact h.elim
  | zero s => exact h.symm
  | finite s m e hm =>
      have hne : (2 : Int) ^ (-e).toNat ≠ 0 := pow_ne_zero _ (by decide)
      have hround : (UnpackedFloat.finite s m e hm).toInt lo hi =
          s.apply ((m * 2 ^ e.toNat / 2 ^ (-e).toNat : Nat) : Int) := roundToInt_eq s m e
      rw [hround]
      push_cast
      -- the division leaves no rest
      cases s with
      | positive =>
          have hm : (m * 2 ^ e.toNat : Int) = i * 2 ^ (-e).toNat := h
          exact Int.ediv_eq_of_eq_mul_left hne hm
      | negative =>
          have hm : (m * 2 ^ e.toNat : Int) = -i * 2 ^ (-e).toNat := by
            rw [neg_mul, ← show -(m * 2 ^ e.toNat : Int) = _ from h, neg_neg]
          exact (congrArg Neg.neg (Int.ediv_eq_of_eq_mul_left hne hm)).trans (neg_neg i)

/-- **A double that is an `i64`** becomes this `i64`. -/
theorem asI64_of_exactly {n : Float} {i : Int64} (h : IsExactly n i.toInt) : asI64 n = i := by
  have htoInt : asI64 n = Int64.ofIntClamp i.toInt :=
    congrArg Int64.ofIntClamp (toInt_of_exactly h)
  rw [htoInt, Int64.ofIntClamp_toInt]

end ConfidenceResolver
