import ConfidenceResolver.Support.Batches
import Mathlib.Data.List.Chain

/-!
# Support — draining a queue

A queue that is flushed by bytes again and again, each time into an empty request, until a flush
takes nothing.

* `Sound`: no more bytes are counted than the pending events have.  Pushes and flushes keep it, also
  where a sum has saturated.
* `Sound.flush_leaves`: a flush takes something when there is anything, and what it leaves first
  does not fit behind what it took.  `Sound.flush_fits`: and that is within the limit, or alone.
* `Drained`: flushes in a row that all took something.  `Drained.bytes`: two of them in a row took
  more than the limit, so a number of flushes needs a number of bytes.
-/

namespace ConfidenceResolver

namespace ByteQueue

variable {E : Type*}

/-! ### Sound queues -/

/-- The lengths are those of the events, and no more bytes are counted than the pending events
have. -/
structure Sound (maxSize : Nat) (len : E → Nat) (s : ByteQueue E) : Prop where
  lengths : ∀ p ∈ s.pending, p.2 = len p.1
  counted : s.pendingBytes ≤ total len (s.pending.map (·.1))
  bounded : s.pendingBytes ≤ maxSize

theorem sound_empty (maxSize : Nat) (len : E → Nat) : Sound maxSize len (empty : ByteQueue E) :=
  ⟨by simp [empty], by simp [empty], Nat.zero_le _⟩

variable {maxSize : Nat} {len : E → Nat} {s : ByteQueue E}

theorem Sound.push (h : Sound maxSize len s) (e : E) : Sound maxSize len (s.push e) :=
  ⟨h.lengths, h.counted, h.bounded⟩

@[simp] theorem held_push (s : ByteQueue E) (e : E) : (s.push e).held = s.held ++ [e] := by
  simp [held, ByteQueue.push]

@[simp] theorem held_empty : (empty : ByteQueue E).held = [] := rfl

theorem fill_sound (limit : Nat) (queue : List E) :
    ∀ pending n, Sound maxSize len ⟨queue, pending, n⟩ →
      Sound maxSize len (fill maxSize len limit queue pending n) := by
  induction queue with
  | nil => exact fun _ _ h => h
  | cons e queue ih =>
      intro pending n h
      rw [fill]
      split
      · refine ih _ _ ⟨fun p hp => ?_, ?_, add_le _ _⟩
        · rcases List.mem_append.mp hp with hp | hp
          · exact h.lengths p hp
          · rw [List.mem_singleton.mp hp]
        · have hcounted := h.counted
          have hsum : total len ((pending ++ [(e, len e)]).map (·.1)) =
              total len (pending.map (·.1)) + len e := by simp [total]
          have hadd : add maxSize n (len e) ≤ n + len e := Nat.min_le_left _ _
          dsimp only at hcounted ⊢
          omega
      · exact h

/-- The bytes written are those of the events written, as far as they can be counted. -/
theorem write_bytes (maxSize start limit : Nat) (pending : List (E × Nat))
    (hlengths : ∀ p ∈ pending, p.2 = len p.1) :
    ∀ written, written ≤ maxSize →
      (write maxSize start limit pending written).2.2 =
        add maxSize written (total len (write maxSize start limit pending written).1) := by
  induction pending with
  | nil =>
      intro written hle
      simp [write, total, add, hle]
  | cons p pending ih =>
      intro written hle
      obtain ⟨hp, hrest⟩ := List.forall_mem_cons.mp hlengths
      rw [write]
      split
      · have hbytes := ih hrest (add maxSize written p.2) (add_le _ _)
        dsimp only
        rw [hbytes, total_cons, hp]
        simp only [add]
        omega
      · simp [total, add, hle]

/-- What a write leaves is sound again, once the bytes written are taken off. -/
theorem Sound.write (h : Sound maxSize len s) (start limit : Nat) :
    Sound maxSize len
      ⟨s.queue, (ByteQueue.write maxSize start limit s.pending 0).2.1,
        s.pendingBytes - (ByteQueue.write maxSize start limit s.pending 0).2.2⟩ := by
  obtain ⟨front, hsplit, hevents⟩ := write_split maxSize start limit s.pending 0
  have hbytes := write_bytes maxSize start limit s.pending h.lengths 0 (Nat.zero_le _)
  have hmap := congrArg (fun ps => total len (ps.map (·.1))) hsplit
  simp only [List.map_append, total_append, ← hevents] at hmap
  have hcounted := h.counted
  have hbounded := h.bounded
  refine ⟨fun p hp => h.lengths p (hsplit ▸ List.mem_append_right front hp), ?_, ?_⟩
  · -- the bytes written are all taken off, or the count was at its bound
    simp only [add] at hbytes
    dsimp only
    omega
  · dsimp only
    omega

theorem Sound.flush (h : Sound maxSize len s) (start limitBytes : Nat) (requireFull : Bool) :
    Sound maxSize len (s.flush maxSize len start limitBytes requireFull).1 := by
  have hfilled := fill_sound (limitBytes - start) s.queue s.pending s.pendingBytes h
  rw [ByteQueue.flush]
  generalize fill maxSize len (limitBytes - start) s.queue s.pending s.pendingBytes = filled at *
  dsimp only
  split
  · exact hfilled.write start (limitBytes - start)
  · exact hfilled

/-! ### What a flush leaves -/

/-- The first event that is not written does not fit behind those that are. -/
theorem write_stops (maxSize start limit : Nat) (pending : List (E × Nat))
    (hlengths : ∀ p ∈ pending, p.2 = len p.1) :
    ∀ written bytes, written ≤ bytes →
      ∀ p ∈ (write maxSize start limit pending written).2.1.head?,
        limit < bytes + total len (write maxSize start limit pending written).1 + len p.1 := by
  induction pending with
  | nil =>
      intro _ _ _ p hp
      simp [write] at hp
  | cons q pending ih =>
      intro written bytes hle p hp
      obtain ⟨hq, hrest⟩ := List.forall_mem_cons.mp hlengths
      have hadd : add maxSize written q.2 ≤ written + q.2 := Nat.min_le_left _ _
      rw [write] at hp ⊢
      split at hp
      · next hfits =>
          have hstop := ih hrest (add maxSize written q.2) (bytes + len q.1) (by omega) p hp
          rw [if_pos hfits]
          dsimp only
          rw [total_cons]
          omega
      · next hfull =>
          rw [if_neg hfull]
          obtain rfl : q = p := by simpa using hp
          simp only [total, List.map_nil, List.sum_nil]
          omega

theorem write_ne_nil (maxSize limit : Nat) {pending : List (E × Nat)} (hne : pending ≠ []) :
    (write maxSize 0 limit pending 0).1 ≠ [] := by
  cases pending with
  | nil => exact absurd rfl hne
  | cons p pending =>
      rw [write, if_pos (.inr ⟨rfl, rfl⟩)]
      exact List.cons_ne_nil _ _

/-- Behind other events, what is written fits. -/
theorem write_fits {limit : Nat} (hwide : limit < maxSize) (start : Nat) (pending : List (E × Nat))
    (hlengths : ∀ p ∈ pending, p.2 = len p.1) :
    ∀ written, written ≠ 0 → written ≤ limit →
      written + total len (write maxSize start limit pending written).1 ≤ limit := by
  induction pending with
  | nil =>
      intro written _ hle
      simpa [write, total] using hle
  | cons p pending ih =>
      intro written hne hle
      obtain ⟨hp, hrest⟩ := List.forall_mem_cons.mp hlengths
      rw [write]
      split
      · next hfits =>
          have hroom : add maxSize written p.2 ≤ limit := hfits.resolve_right fun h => hne h.1
          have hadd : add maxSize written p.2 = written + len p.1 := by
            simp only [add] at hroom ⊢
            omega
          have hmore := ih hrest (add maxSize written p.2) (by omega) hroom
          dsimp only
          rw [total_cons]
          omega
      · simpa [total] using hle

/-- Behind more than the limit, nothing is written. -/
theorem write_full {limit : Nat} (hwide : limit < maxSize) (start : Nat) (pending : List (E × Nat))
    {written : Nat} (hfull : limit < written) :
    (write maxSize start limit pending written).1 = [] := by
  cases pending with
  | nil => rfl
  | cons p pending =>
      rw [write, if_neg]
      simp only [add]
      omega

variable (hpos : ∀ e, 0 < len e) {limit : Nat} (hlimit : 0 < limit)

include hpos hlimit

/-- **What a flush leaves.**  A flush for an empty request takes something when there is anything,
and the first event that it leaves does not fit behind what it took. -/
theorem Sound.flush_leaves (h : Sound maxSize len s) :
    ((s.flush maxSize len 0 limit false).2.1 = [] → s.held = []) ∧
      ∀ e ∈ (s.flush maxSize len 0 limit false).1.held.head?,
        limit < total len (s.flush maxSize len 0 limit false).2.1 + len e := by
  have hheld := fill_held maxSize len limit s.queue s.pending s.pendingBytes
  have hstop := fill_stop maxSize len limit s.queue s.pending s.pendingBytes
  have hfilled := fill_sound limit s.queue s.pending s.pendingBytes h
  rw [ByteQueue.flush]
  dsimp only
  rw [Nat.sub_zero, if_pos (.inr rfl)]
  generalize fill maxSize len limit s.queue s.pending s.pendingBytes = filled at *
  have hcounted := hfilled.counted
  refine ⟨fun hnone => ?_, fun e he => ?_⟩
  · have hpending : filled.pending = [] := by
      by_contra hne
      exact write_ne_nil maxSize limit hne hnone
    have hqueue : filled.queue = [] := by
      rcases hstop with hfull | hnil
      · rw [hpending] at hcounted
        simp [total] at hcounted
        omega
      · exact hnil
    change s.pending.map (·.1) ++ s.queue = []
    rw [← hheld, held, hpending, hqueue]
    rfl
  · obtain ⟨front, hsplit, hevents⟩ := write_split maxSize 0 limit filled.pending 0
    have hlast := write_stops maxSize 0 limit filled.pending hfilled.lengths 0 0 (Nat.le_refl _)
    rw [held] at he
    cases hrest : (ByteQueue.write maxSize 0 limit filled.pending 0).2.1 with
    | nil =>
        -- all pending events were written, so there were enough of them to stop the filling
        rw [hrest, List.append_nil] at hsplit
        rw [hrest, List.map_nil, List.nil_append] at he
        have hfull : limit ≤ filled.pendingBytes := by
          rcases hstop with hfull | hnil
          · exact hfull
          · simp [hnil] at he
        rw [hevents, ← hsplit]
        have hlen := hpos e
        omega
    | cons p rest =>
        rw [hrest] at he hlast
        obtain rfl : p.1 = e := by simpa using he
        simpa using hlast p rfl

omit hlimit in
/-- **The size of a batch**: it is within the limit, or it is one event. -/
theorem Sound.flush_fits (h : Sound maxSize len s) (hwide : limit < maxSize) :
    total len (s.flush maxSize len 0 limit false).2.1 ≤ limit ∨
      ∃ e, (s.flush maxSize len 0 limit false).2.1 = [e] := by
  have hfilled := fill_sound limit s.queue s.pending s.pendingBytes h
  rw [ByteQueue.flush]
  dsimp only
  rw [Nat.sub_zero, if_pos (.inr rfl)]
  generalize fill maxSize len limit s.queue s.pending s.pendingBytes = filled at *
  obtain ⟨queue, pending, bytes⟩ := filled
  cases pending with
  | nil => exact .inl (Nat.zero_le _)
  | cons p pending =>
      obtain ⟨hp, hrest⟩ := List.forall_mem_cons.mp hfilled.lengths
      have hlen := hpos p.1
      have hadd : add maxSize 0 p.2 = min (len p.1) maxSize := by rw [hp, add, Nat.zero_add]
      rw [ByteQueue.write, if_pos (.inr ⟨rfl, rfl⟩)]
      dsimp only
      by_cases hone : len p.1 ≤ limit
      · have hbytes := write_fits hwide 0 pending hrest (add maxSize 0 p.2) (by omega) (by omega)
        rw [total_cons]
        exact .inl (by omega)
      · rw [write_full hwide 0 pending (by omega)]
        exact .inr ⟨p.1, rfl⟩

/-! ### Draining -/

/-- Flushes in a row, all of which took something: the queue before, what they took, the queue after
them. -/
inductive Drained (maxSize : Nat) (len : E → Nat) (limit : Nat) :
    ByteQueue E → List (List E) → ByteQueue E → Prop where
  | nil (s : ByteQueue E) : Drained maxSize len limit s [] s
  | cons {s s' : ByteQueue E} {bs : List (List E)}
      (hne : (s.flush maxSize len 0 limit false).2.1 ≠ [])
      (h : Drained maxSize len limit (s.flush maxSize len 0 limit false).1 bs s') :
    Drained maxSize len limit s ((s.flush maxSize len 0 limit false).2.1 :: bs) s'

omit hpos hlimit in
theorem Drained.held_eq {bs : List (List E)} {s' : ByteQueue E}
    (h : Drained maxSize len limit s bs s') : bs.flatten ++ s'.held = s.held := by
  induction h with
  | nil s => rfl
  | @cons s s' bs _ _ ih =>
      rw [List.flatten_cons, List.append_assoc, ih]
      exact flush_held maxSize len s 0 limit false

/-- Two batches in a row do not fit into one. -/
theorem Drained.isChain {bs : List (List E)} {s' : ByteQueue E}
    (h : Drained maxSize len limit s bs s') (hsound : Sound maxSize len s) :
    bs.IsChain fun b b' => limit < total len b + total len b' := by
  induction h with
  | nil s => exact .nil
  | @cons s s' bs hne hrest ih =>
      have hnext := ih (hsound.flush 0 limit false)
      cases hrest with
      | nil => exact .singleton _
      | @cons _ _ bs hne' hrest =>
          refine .cons_cons ?_ hnext
          have hleaves := (hsound.flush_leaves hpos hlimit).2
          have hheld := flush_held maxSize len (s.flush maxSize len 0 limit false).1 0 limit false
          generalize ((s.flush maxSize len 0 limit false).1.flush maxSize len 0 limit false).2.1 =
            b' at *
          cases b' with
          | nil => exact absurd rfl hne'
          | cons e b' =>
              have hfirst := hleaves e (by rw [← hheld]; rfl)
              rw [total_cons]
              omega

omit hpos hlimit in
/-- Batches of which no two in a row fit into one have half their number times the limit. -/
theorem total_of_isChain : ∀ bs : List (List E),
    (bs.IsChain fun b b' => limit < total len b + total len b') →
      bs.length / 2 * (limit + 1) ≤ total len bs.flatten
  | [], _ => by simp
  | [_], _ => by simp
  | b :: b' :: bs, h => by
      obtain ⟨hpair, htail⟩ := List.isChain_cons_cons.mp h
      have hrest := total_of_isChain bs htail.tail
      have hhalf : (b :: b' :: bs).length / 2 = bs.length / 2 + 1 := by
        simp only [List.length_cons]
        omega
      rw [hhalf, Nat.add_mul, Nat.one_mul, List.flatten_cons, List.flatten_cons, total_append,
        total_append]
      omega

/-- **Flushes need bytes.**  Flushes in a row take, two by two, more than the limit. -/
theorem Drained.bytes {bs : List (List E)} {s' : ByteQueue E}
    (h : Drained maxSize len limit s bs s') (hsound : Sound maxSize len s) :
    bs.length / 2 * (limit + 1) ≤ total len s.held := by
  have hbatches := total_of_isChain bs (h.isChain hpos hlimit hsound)
  rw [← h.held_eq, total_append]
  omega

end ByteQueue

end ConfidenceResolver
