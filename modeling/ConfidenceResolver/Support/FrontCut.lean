import ConfidenceResolver.Support.ByteQueue

/-!
# Support — cutting a chunk off the front of a queue

A chunk is counted from the front of a queue before it is taken off: up to a number of bytes and a
number of items, and only items that belong to the one who takes it.  The first item is taken
whatever its size.

* `extent`: the counting loop.  `extent_prefix`: it counts a prefix, and the bytes of that prefix.
* `cut`: what is taken, what stays, and the bytes counted.  `cut_append`, `cut_open_bytes`,
  `cut_eq_nil`, `cut_all`.
* `cut_bytes_append`: more items behind do not make the chunk smaller.
* `cut_map`: only the sizes matter.

Sizes are machine integers whose additions saturate at `maxSize`.
-/

namespace ConfidenceResolver

namespace FrontCut

open ByteQueue (add)

variable {E : Type*} (maxSize : Nat) (len : E → Nat) (limitBytes limitCount : Nat) (stop : E → Bool)

/-- The bytes and items counted when the loop stops. -/
def extent : List E → Nat → Nat → Nat × Nat
  | [], bytes, count => (bytes, count)
  | e :: queue, bytes, count =>
      if stop e then (bytes, count)
      else if 0 < count ∧ (limitBytes < add maxSize bytes (len e) ∨ limitCount ≤ count) then
        (bytes, count)
      else extent queue (add maxSize bytes (len e)) (count + 1)

/-- What is taken, what stays, and the bytes taken. -/
def cut (queue : List E) : List E × List E × Nat :=
  let (bytes, count) := extent maxSize len limitBytes limitCount stop queue 0 0
  (queue.take count, queue.drop count, bytes)

/-- **The loop** counts a prefix.  A sum within the limit has not saturated, and a first item fits
a machine integer. -/
theorem extent_prefix (hlimit : limitBytes < maxSize) (queue : List E)
    (hlen : ∀ e ∈ queue, len e ≤ maxSize) :
    ∀ bytes count : Nat, (count = 0 → bytes = 0) →
      ∃ k ≤ queue.length,
        extent maxSize len limitBytes limitCount stop queue bytes count =
            (bytes + ((queue.take k).map len).sum, count + k) ∧
          ∀ e ∈ queue.take k, stop e = false := by
  induction queue with
  | nil => exact fun bytes count _ => ⟨0, le_refl _, rfl, by simp⟩
  | cons e queue ih =>
      intro bytes count hstart
      by_cases hstop : stop e = true
      · exact ⟨0, Nat.zero_le _, by simp [extent, hstop], by simp⟩
      by_cases hfull : 0 < count ∧ (limitBytes < add maxSize bytes (len e) ∨ limitCount ≤ count)
      · exact ⟨0, Nat.zero_le _, by simp [extent, hstop, hfull], by simp⟩
      have hadd : add maxSize bytes (len e) = bytes + len e := by
        by_cases hcount : count = 0
        · rw [hstart hcount, add, Nat.zero_add]
          exact Nat.min_eq_left (hlen e List.mem_cons_self)
        · -- the sum is at most the limit, which is below the saturation point
          have hle : min (bytes + len e) maxSize ≤ limitBytes :=
            Nat.le_of_not_lt fun h => hfull ⟨Nat.pos_of_ne_zero hcount, .inl h⟩
          exact Nat.min_eq_left (by omega)
      obtain ⟨k, hk, hext, hopen⟩ := ih (fun x hx => hlen x (List.mem_cons_of_mem e hx))
        (bytes + len e) (count + 1) (by simp)
      refine ⟨k + 1, Nat.succ_le_succ hk, ?_, ?_⟩
      · rw [extent, if_neg hstop, if_neg hfull, hadd, hext, List.take_succ_cons, List.map_cons,
          List.sum_cons, Nat.add_assoc, Nat.add_assoc, Nat.add_comm 1 k]
      · rw [List.take_succ_cons]
        exact List.forall_mem_cons.mpr ⟨by simpa using hstop, hopen⟩

/-! ### The chunk -/

variable {maxSize len limitBytes limitCount stop}

theorem cut_append (queue : List E) :
    (cut maxSize len limitBytes limitCount stop queue).1 ++
      (cut maxSize len limitBytes limitCount stop queue).2.1 = queue := by
  simp [cut]

/-- A chunk has only items that belong to the one who takes it, and the bytes counted are theirs. -/
theorem cut_open_bytes (hlimit : limitBytes < maxSize) {queue : List E}
    (hlen : ∀ e ∈ queue, len e ≤ maxSize) :
    (∀ e ∈ (cut maxSize len limitBytes limitCount stop queue).1, stop e = false) ∧
      (cut maxSize len limitBytes limitCount stop queue).2.2 =
        ((cut maxSize len limitBytes limitCount stop queue).1.map len).sum := by
  obtain ⟨k, -, hext, hopen⟩ :=
    extent_prefix maxSize len limitBytes limitCount stop hlimit queue hlen 0 0
    fun _ => rfl
  rw [Nat.zero_add, Nat.zero_add] at hext
  simpa only [cut, hext, and_true] using hopen

theorem le_extent (queue : List E) :
    ∀ bytes count : Nat,
      count ≤ (extent maxSize len limitBytes limitCount stop queue bytes count).2 := by
  induction queue with
  | nil => exact fun _ count => le_refl count
  | cons e queue ih =>
      intro bytes count
      rw [extent]
      split
      · exact le_refl count
      split
      · exact le_refl count
      · exact Nat.le_of_succ_le (ih _ _)

/-- Only a queue without a first item of one's own gives an empty chunk. -/
theorem cut_eq_nil {queue : List E} (h : (cut maxSize len limitBytes limitCount stop queue).1 = []) :
    ∀ e ∈ queue.head?, stop e = true := by
  cases queue with
  | nil => simp
  | cons e queue =>
      intro x hx
      obtain rfl : e = x := by simpa using hx
      by_contra hstop
      have hpos : 1 ≤ (extent maxSize len limitBytes limitCount stop queue
          (add maxSize 0 (len e)) 1).2 := le_extent queue _ 1
      rw [cut, extent, if_neg hstop, if_neg (by simp)] at h
      rcases List.take_eq_nil_iff.mp h with hzero | hnil
      · exact absurd hpos (by simp [hzero])
      · simp at hnil

/-- A queue within the limits is taken whole. -/
theorem cut_all (hlimit : limitBytes < maxSize) {queue : List E} (hopen : ∀ e ∈ queue, stop e = false)
    (hbytes : (queue.map len).sum ≤ limitBytes) (hcount : queue.length ≤ limitCount) :
    cut maxSize len limitBytes limitCount stop queue = (queue, [], (queue.map len).sum) := by
  have hext : ∀ (queue : List E) (bytes count : Nat), (∀ e ∈ queue, stop e = false) →
      bytes + (queue.map len).sum ≤ limitBytes → count + queue.length ≤ limitCount →
      extent maxSize len limitBytes limitCount stop queue bytes count =
        (bytes + (queue.map len).sum, count + queue.length) := by
    intro queue
    induction queue with
    | nil => exact fun _ _ _ _ _ => rfl
    | cons e queue ih =>
        intro bytes count hopen hbytes hcount
        rw [List.map_cons, List.sum_cons] at hbytes ⊢
        rw [List.length_cons] at hcount ⊢
        obtain ⟨hfirst, hrest⟩ := List.forall_mem_cons.mp hopen
        have hadd : add maxSize bytes (len e) = bytes + len e := Nat.min_eq_left (by omega)
        rw [extent, hfirst, if_neg Bool.false_ne_true, if_neg (by rw [hadd]; omega), hadd,
          ih _ _ hrest (by omega) (by omega)]
        exact Prod.ext (by simp only; omega) (by simp only; omega)
  simp only [cut, hext queue 0 0 hopen (by omega) (by omega), Nat.zero_add, List.take_length,
    List.drop_length]

/-! ### A longer queue -/

theorem extent_append (queue more : List E) :
    ∀ bytes count : Nat, bytes ≤ maxSize →
      (extent maxSize len limitBytes limitCount stop queue bytes count).1 ≤
        (extent maxSize len limitBytes limitCount stop (queue ++ more) bytes count).1 := by
  have hmono : ∀ (queue : List E) (bytes count : Nat), bytes ≤ maxSize →
      bytes ≤ (extent maxSize len limitBytes limitCount stop queue bytes count).1 := by
    intro queue
    induction queue with
    | nil => exact fun bytes _ _ => le_refl bytes
    | cons e queue ih =>
        intro bytes count hbytes
        rw [extent]
        split
        · exact le_refl bytes
        split
        · exact le_refl bytes
        · exact le_trans (le_min (Nat.le_add_right _ _) hbytes) (ih _ _ (Nat.min_le_right _ _))
  induction queue with
  | nil => exact hmono more
  | cons e queue ih =>
      intro bytes count hbytes
      simp only [List.cons_append, extent]
      split
      · exact le_refl bytes
      split
      · exact le_refl bytes
      · exact ih _ _ (Nat.min_le_right _ _)

/-- More items behind do not make the chunk smaller. -/
theorem cut_bytes_append (queue more : List E) :
    (cut maxSize len limitBytes limitCount stop queue).2.2 ≤
      (cut maxSize len limitBytes limitCount stop (queue ++ more)).2.2 :=
  extent_append queue more 0 0 (Nat.zero_le _)

/-! ### Sizes only -/

/-- What the loop counts depends on the sizes of the items, and on where it stops. -/
theorem extent_map {F : Type*} (f : E → F) (len' : F → Nat) (stop' : F → Bool) (queue : List E) :
    ∀ bytes count : Nat,
      extent maxSize len' limitBytes limitCount stop' (queue.map f) bytes count =
        extent maxSize (len' ∘ f) limitBytes limitCount (stop' ∘ f) queue bytes count := by
  induction queue with
  | nil => exact fun _ _ => rfl
  | cons e queue ih =>
      intro bytes count
      simp only [List.map_cons, extent, Function.comp_apply]
      rw [ih]

theorem cut_map {F : Type*} (f : E → F) (len' : F → Nat) (stop' : F → Bool) (queue : List E) :
    cut maxSize len' limitBytes limitCount stop' (queue.map f) =
      ((cut maxSize (len' ∘ f) limitBytes limitCount (stop' ∘ f) queue).1.map f,
        (cut maxSize (len' ∘ f) limitBytes limitCount (stop' ∘ f) queue).2.1.map f,
        (cut maxSize (len' ∘ f) limitBytes limitCount (stop' ∘ f) queue).2.2) := by
  simp only [cut, extent_map, List.map_take, List.map_drop]

end FrontCut

end ConfidenceResolver
