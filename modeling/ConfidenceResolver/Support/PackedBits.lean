import Mathlib.Data.List.Basic
import Mathlib.Algebra.Order.Group.Nat

/-!
# Support — bits packed into bytes

A list of bytes holds a table of bits.  A layout says in which byte bit `j` is; within its byte it
is at `j % 8`, the lowest bit first.

* `getBit_setBit`: what setting one bit does to the table, in any layout that keeps bits apart.
* `Layout.bytes`, `Layout.bigEndianWords`: byte by byte, and in words of eight bytes, the highest
  byte of a word first.
* `getElem?_blocks`: an element of a list that is put together from blocks of one length.
-/

namespace ConfidenceResolver

/-- Where the byte of each bit is.  Two bits of one byte are at different places in it. -/
structure Layout where
  byteOf : Nat → Nat
  apart : ∀ {i j : Nat}, byteOf i = byteOf j → i % 8 = j % 8 → i = j

namespace Layout

def bytes : Layout where
  byteOf j := j / 8
  apart := by omega

def bigEndianWords : Layout where
  byteOf j := j / 64 * 8 + (7 - j % 64 / 8)
  apart := by omega

/-- In whole words every bit below the end has a byte. -/
theorem bigEndianWords_lt {words j : Nat} (h : j < 64 * words) :
    bigEndianWords.byteOf j < 8 * words := by
  have hword : j / 64 < words := Nat.div_lt_of_lt_mul h
  change j / 64 * 8 + (7 - j % 64 / 8) < 8 * words
  omega

end Layout

/-! ### One bit -/

variable (layout : Layout)

def getBit (data : List UInt8) (j : Nat) : Bool :=
  (data[layout.byteOf j]?.map fun b => b.toNat.testBit (j % 8)).getD false

/-- `data[byte] |= 1 << bit`. -/
def setBit (data : List UInt8) (j : Nat) : List UInt8 :=
  data.modify (layout.byteOf j) fun b => b ||| (1 : UInt8) <<< UInt8.ofNat (j % 8)

@[simp] theorem length_setBit (data : List UInt8) (j : Nat) :
    (setBit layout data j).length = data.length := List.length_modify ..

@[simp] theorem length_setBits (data : List UInt8) (js : List Nat) :
    (js.foldl (setBit layout) data).length = data.length := by
  induction js generalizing data with
  | nil => rfl
  | cons j js ih => rw [List.foldl_cons, ih, length_setBit]

/-- A byte with one more bit. -/
theorem testBit_or_shift (b : UInt8) {i k : Nat} (hi : i < 8) (hk : k < 8) :
    (b ||| (1 : UInt8) <<< UInt8.ofNat i).toNat.testBit k = (b.toNat.testBit k || decide (i = k)) := by
  have hshift : (UInt8.ofNat i).toNat % 8 = i := by
    rw [UInt8.toNat_ofNat']
    omega
  rw [UInt8.toNat_or, Nat.testBit_or, UInt8.toNat_shiftLeft, hshift, Nat.testBit_mod_two_pow,
    Nat.testBit_shiftLeft]
  congr 1
  by_cases h : i = k
  · subst h
    simp [hi]
  · have hone : (1 : UInt8).toNat = 1 := rfl
    have hclear : (decide (k ≥ i) && Nat.testBit 1 (k - i)) = false := by
      rw [Bool.and_eq_false_iff, decide_eq_false_iff_not, Bool.eq_false_iff, Ne,
        Nat.testBit_one_eq_true_iff_self_eq_zero]
      omega
    rw [hone, hclear, Bool.and_false, decide_eq_false h]

theorem getBit_setBit (data : List UInt8) {i : Nat} (hi : layout.byteOf i < data.length) (j : Nat) :
    getBit layout (setBit layout data i) j = (getBit layout data j || decide (i = j)) := by
  rw [getBit, getBit, setBit, List.getElem?_modify]
  by_cases hbyte : layout.byteOf i = layout.byteOf j
  · rw [hbyte] at hi
    rw [List.getElem?_eq_getElem hi]
    simp only [hbyte, if_true, Option.map_eq_map, Option.map_some, Option.getD_some]
    rw [testBit_or_shift _ (Nat.mod_lt _ (by decide)) (Nat.mod_lt _ (by decide))]
    congr 1
    by_cases hij : i = j
    · simp [hij]
    · have hplace : i % 8 ≠ j % 8 := fun hplace => hij (layout.apart hbyte hplace)
      simp [hij, hplace]
  · have hij : i ≠ j := by
      rintro rfl
      exact hbyte rfl
    simp [hbyte, hij]

/-- **Many bits set**: those that were, and these. -/
theorem getBit_setBits (data : List UInt8) {js : List Nat}
    (hjs : ∀ j ∈ js, layout.byteOf j < data.length) (j : Nat) :
    getBit layout (js.foldl (setBit layout) data) j = (getBit layout data j || decide (j ∈ js)) := by
  induction js generalizing data with
  | nil => simp
  | cons i js ih =>
      have hi := hjs i List.mem_cons_self
      have hrest : ∀ k ∈ js, layout.byteOf k < (setBit layout data i).length := by
        intro k hk
        rw [length_setBit]
        exact hjs k (List.mem_cons_of_mem _ hk)
      rw [List.foldl_cons, ih _ hrest, getBit_setBit layout data hi, Bool.or_assoc]
      congr 1
      by_cases hij : j = i
      · simp [hij]
      · simp [hij, Ne.symm hij]

/-- A table of zeros. -/
theorem getBit_zeros (n j : Nat) : getBit layout (List.replicate n 0) j = false := by
  rw [getBit, List.getElem?_replicate]
  split <;> simp

/-! ### Blocks -/

theorem length_blocks {A : Type*} (f : Nat → List A) {size : Nat} {blocks : Nat}
    (h : ∀ i < blocks, (f i).length = size) :
    ((List.range blocks).flatMap f).length = size * blocks := by
  induction blocks with
  | zero => rfl
  | succ blocks ih =>
      rw [List.range_succ, List.flatMap_append, List.flatMap_singleton, List.length_append,
        ih fun i hi => h i (Nat.lt_succ_of_lt hi), h blocks (Nat.lt_succ_self blocks), Nat.mul_succ]

/-- Element `m` of blocks of one length is in block `m / size`. -/
theorem getElem?_blocks {A : Type*} (f : Nat → List A) {size blocks m : Nat}
    (h : ∀ i < blocks, (f i).length = size) (hm : m < size * blocks) :
    ((List.range blocks).flatMap f)[m]? = (f (m / size))[m % size]? := by
  induction blocks with
  | zero => exact absurd hm (Nat.not_lt_zero _)
  | succ blocks ih =>
      have hinit : ∀ i < blocks, (f i).length = size := fun i hi => h i (Nat.lt_succ_of_lt hi)
      have hbefore := length_blocks f hinit
      rw [List.range_succ, List.flatMap_append, List.flatMap_singleton]
      by_cases hlt : m < size * blocks
      · rw [List.getElem?_append_left (by rwa [hbefore]), ih hinit hlt]
      · -- the last block
        have hge := Nat.not_lt.mp hlt
        have hdiv : m / size = blocks :=
          Nat.div_eq_of_lt_le (by rwa [Nat.mul_comm]) (by rwa [Nat.mul_comm])
        rw [List.getElem?_append_right (by rwa [hbefore]), hbefore, Nat.mod_def, hdiv]

end ConfidenceResolver
