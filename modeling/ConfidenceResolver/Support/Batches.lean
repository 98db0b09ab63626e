import ConfidenceResolver.Support.ByteQueue

/-!
# Support — what a flush takes

A queue flushed by bytes, whose count of bytes is exact, read as the list of the events that it
holds.  A flush takes a front of that list.

* `batch`: the front that a flush for an empty request takes; `fitting`: behind other data.
* `flush_events`: what a flush takes.  `flush_held`: and what it leaves.
* `flush_drained_iff`: when one flush leaves nothing.
* `batches`, `rest`: what repeated full flushes take, and what they leave.
-/

namespace ConfidenceResolver

namespace ByteQueue

variable {E : Type*}

/-- The events held, oldest first. -/
def held (s : ByteQueue E) : List E := s.pending.map (·.1) ++ s.queue

/-! ### Fronts of a list -/

section Front

variable (len : E → Nat) (limit : Nat)

def total (es : List E) : Nat := (es.map len).sum

/-- The front that fits within the limit, behind `written` bytes. -/
def fitting (written : Nat) : List E → List E
  | [] => []
  | e :: es => if written + len e ≤ limit then e :: fitting (written + len e) es else []

/-- The front that fits within the limit, the first event whatever its size. -/
def batch : List E → List E
  | [] => []
  | e :: es => e :: fitting len limit (len e) es

/-- What a flush takes for a request of `start` bytes. -/
def taken (start : Nat) (es : List E) : List E :=
  if start = 0 then batch len limit es else fitting len limit 0 es

/-- The batches that are taken as long as there are `limit` bytes. -/
def batches : List E → List (List E)
  | [] => []
  | e :: es =>
      if total len (e :: es) < limit then []
      else batch len limit (e :: es) :: batches (es.drop (fitting len limit (len e) es).length)
termination_by es => es.length
decreasing_by simp only [List.length_drop, List.length_cons]; omega

/-- What is left behind them. -/
def rest : List E → List E
  | [] => []
  | e :: es =>
      if total len (e :: es) < limit then e :: es
      else rest (es.drop (fitting len limit (len e) es).length)
termination_by es => es.length
decreasing_by simp only [List.length_drop, List.length_cons]; omega

variable {len limit}

theorem total_append (len : E → Nat) (es fs : List E) :
    total len (es ++ fs) = total len es + total len fs := by
  simp [total]

theorem total_cons (e : E) (es : List E) : total len (e :: es) = len e + total len es := by
  simp [total]

/-- Events behind `limit` bytes are not taken. -/
theorem fitting_append (hpos : ∀ e, 0 < len e) (fs : List E) (es : List E) :
    ∀ written, limit ≤ written + total len es →
      fitting len limit written (es ++ fs) = fitting len limit written es := by
  induction es with
  | nil =>
      intro written hfull
      cases fs with
      | nil => rfl
      | cons f fs =>
          have hf := hpos f
          rw [List.nil_append, fitting, fitting, if_neg]
          simp [total] at hfull
          omega
  | cons e es ih =>
      intro written hfull
      rw [total_cons] at hfull
      rw [List.cons_append, fitting, fitting, ih _ (by omega)]

theorem fitting_eq_self (es : List E) :
    ∀ written, written ≤ limit →
      (fitting len limit written es = es ↔ written + total len es ≤ limit) := by
  induction es with
  | nil =>
      intro written hle
      simpa [fitting, total] using hle
  | cons e es ih =>
      intro written _
      rw [fitting, total_cons]
      split
      · next hfits => rw [List.cons_inj_right, ih _ hfits, Nat.add_assoc]
      · next hfits =>
          have hne : [] ≠ e :: es := (List.cons_ne_nil e es).symm
          exact iff_of_false hne (by omega)

theorem fitting_le (len : E → Nat) (es : List E) :
    ∀ written, written ≤ limit → written + total len (fitting len limit written es) ≤ limit := by
  induction es with
  | nil => exact fun _ hle => hle
  | cons e es ih =>
      intro written hle
      rw [fitting]
      split
      · next hfits =>
          rw [total_cons, ← Nat.add_assoc]
          exact ih _ hfits
      · exact hle

theorem fitting_full (hpos : ∀ e, 0 < len e) (es : List E) {written : Nat} (h : limit ≤ written) :
    fitting len limit written es = [] := by
  cases es with
  | nil => rfl
  | cons e es =>
      have he := hpos e
      exact if_neg (by omega)

theorem taken_append (hpos : ∀ e, 0 < len e) {start : Nat} (hlimit : start = 0 → 0 < limit)
    {es : List E} (fs : List E) (hfull : limit ≤ total len es) :
    taken len limit start (es ++ fs) = taken len limit start es := by
  rw [taken, taken]
  split
  · next hstart =>
      cases es with
      | nil => exact absurd (hlimit hstart) (Nat.not_lt.mpr hfull)
      | cons e es =>
          rw [total_cons] at hfull
          rw [List.cons_append, batch, batch, fitting_append hpos fs es _ hfull]
  · exact fitting_append hpos fs es 0 (by omega)

/-- Everything is taken when it fits, or when it is one event and the request was empty. -/
theorem taken_eq_self (hpos : ∀ e, 0 < len e) (start : Nat) (es : List E) :
    taken len limit start es = es ↔
      total len es ≤ limit ∨ (start = 0 ∧ es.length ≤ 1) := by
  rw [taken]
  split
  · next hstart =>
      cases es with
      | nil => simp [batch, total]
      | cons e es =>
          rw [batch, List.cons_inj_right, total_cons, List.length_cons]
          by_cases he : len e ≤ limit
          · rw [fitting_eq_self es _ he]
            refine ⟨.inl, fun h => h.elim id fun ⟨_, hone⟩ => ?_⟩
            obtain rfl := List.eq_nil_of_length_eq_zero (by omega : es.length = 0)
            simpa [total] using he
          · rw [fitting_full hpos es (by omega), eq_comm, ← List.length_eq_zero_iff]
            constructor
            · exact fun hnil => .inr ⟨hstart, by omega⟩
            · rintro (hle | ⟨_, hone⟩) <;> omega
  · next hstart =>
      rw [fitting_eq_self es 0 (Nat.zero_le _), Nat.zero_add]
      exact ⟨.inl, fun h => h.elim id fun hzero => absurd hzero.1 hstart⟩

/-- What is taken stays within the limit, except when the request exceeds it already, or was empty
and the first event exceeds it. -/
theorem taken_le (hpos : ∀ e, 0 < len e) (start limitBytes : Nat) (es : List E) :
    start + total len (taken len (limitBytes - start) start es) ≤ limitBytes ∨
      (limitBytes < start ∧ taken len (limitBytes - start) start es = []) ∨
      (start = 0 ∧ ∃ e, taken len (limitBytes - start) start es = [e] ∧ limitBytes < len e) := by
  rw [taken]
  split
  · next hstart =>
      subst hstart
      rw [Nat.zero_add, Nat.sub_zero]
      cases es with
      | nil => exact .inl (Nat.zero_le _)
      | cons e es =>
          rw [batch]
          by_cases he : len e ≤ limitBytes
          · rw [total_cons]
            exact .inl (fitting_le len es _ he)
          · rw [fitting_full hpos es (by omega)]
            exact .inr (.inr ⟨rfl, e, rfl, Nat.lt_of_not_le he⟩)
  · by_cases hroom : start ≤ limitBytes
    · have hle := fitting_le len es 0 (Nat.zero_le (limitBytes - start))
      exact .inl (by omega)
    · have hnone : fitting len (limitBytes - start) 0 es = [] := fitting_full hpos es (by omega)
      exact .inr (.inl ⟨Nat.lt_of_not_le hroom, hnone⟩)

theorem batch_eq_nil {es : List E} : batch len limit es = [] ↔ es = [] := by
  cases es <;> simp [batch]

/-- Nothing is taken when there is nothing, or when the first event does not fit. -/
theorem taken_eq_nil {start : Nat} {es : List E} (h : taken len limit start es = []) :
    es = [] ∨ (start ≠ 0 ∧ ∃ e ∈ es.head?, limit < len e) := by
  rw [taken] at h
  cases es with
  | nil => exact .inl rfl
  | cons e es =>
      split at h
      · exact absurd (batch_eq_nil.mp h) (List.cons_ne_nil e es)
      · next hstart =>
          rw [fitting, Nat.zero_add] at h
          split at h
          · exact absurd h (List.cons_ne_nil _ _)
          · next hfull => exact .inr ⟨hstart, e, rfl, Nat.lt_of_not_le hfull⟩

theorem batches_rest_of_lt {es : List E} (h : total len es < limit) :
    batches len limit es = [] ∧ rest len limit es = es := by
  cases es with
  | nil => exact ⟨by rw [batches], by rw [rest]⟩
  | cons e es => exact ⟨by rw [batches, if_pos h], by rw [rest, if_pos h]⟩

/-- A batch is taken off. -/
theorem batches_rest_of_le {es fs : List E} (hfull : limit ≤ total len es)
    (hsplit : batch len limit es ++ fs = es) (hne : es ≠ []) :
    batches len limit es = batch len limit es :: batches len limit fs ∧
      rest len limit es = rest len limit fs := by
  cases es with
  | nil => exact absurd rfl hne
  | cons e es =>
      have hmore := Nat.not_lt.mpr hfull
      rw [batch, List.cons_append, List.cons_inj_right] at hsplit
      have hdrop : es.drop (fitting len limit (len e) es).length = fs := by
        have h := congrArg (List.drop (fitting len limit (len e) es).length) hsplit
        rw [List.drop_left] at h
        exact h.symm
      exact ⟨by rw [batches, if_neg hmore, hdrop], by rw [rest, if_neg hmore, hdrop]⟩

end Front

/-! ### Exact queues -/

/-- The lengths are those of the events, the count is that of the pending events, and the bytes of
all events held can be counted: they are in memory. -/
structure Exact (maxSize : Nat) (len : E → Nat) (s : ByteQueue E) : Prop where
  lengths : ∀ p ∈ s.pending, p.2 = len p.1
  counted : s.pendingBytes = total len (s.pending.map (·.1))
  fits : total len s.held ≤ maxSize

section Flush

variable {maxSize : Nat} {len : E → Nat} {s : ByteQueue E}

theorem Exact.pending_le (h : Exact maxSize len s) :
    total len (s.pending.map (·.1)) ≤ maxSize := by
  have hfits := h.fits
  rw [held, total_append] at hfits
  omega

/-! Filling. -/

theorem fill_held (maxSize : Nat) (len : E → Nat) (limit : Nat) (queue : List E) :
    ∀ pending n, (fill maxSize len limit queue pending n).held = pending.map (·.1) ++ queue := by
  induction queue with
  | nil => exact fun _ _ => rfl
  | cons e queue ih =>
      intro pending n
      rw [fill]
      split
      · rw [ih, List.map_append, List.append_assoc]
        rfl
      · rfl

theorem fill_stop (maxSize : Nat) (len : E → Nat) (limit : Nat) (queue : List E) :
    ∀ pending n, limit ≤ (fill maxSize len limit queue pending n).pendingBytes ∨
      (fill maxSize len limit queue pending n).queue = [] := by
  induction queue with
  | nil => exact fun _ _ => .inr rfl
  | cons e queue ih =>
      intro pending n
      rw [fill]
      split
      · exact ih _ _
      · next hroom => exact .inl (Nat.le_of_not_lt hroom)

theorem fill_exact (limit : Nat) (queue : List E) :
    ∀ pending n, Exact maxSize len ⟨queue, pending, n⟩ →
      Exact maxSize len (fill maxSize len limit queue pending n) := by
  induction queue with
  | nil => exact fun _ _ h => h
  | cons e queue ih =>
      intro pending n h
      rw [fill]
      split
      · refine ih _ _ ⟨fun p hp => ?_, ?_, ?_⟩
        · rcases List.mem_append.mp hp with hp | hp
          · exact h.lengths p hp
          · rw [List.mem_singleton.mp hp]
        · have hfits := h.fits
          have hcounted : n = total len (pending.map (·.1)) := h.counted
          simp only [held, total_append, total_cons, ← hcounted] at hfits
          rw [add_eq (by omega), List.map_append, total_append, hcounted]
          simp [total]
        · simpa [held] using h.fits
      · exact h

/-! Writing. -/

/-- What is written is the front of the pending events, and the others stay. -/
theorem write_split (maxSize start limit : Nat) (pending : List (E × Nat)) :
    ∀ written, ∃ front, pending = front ++ (write maxSize start limit pending written).2.1 ∧
      (write maxSize start limit pending written).1 = front.map (·.1) := by
  induction pending with
  | nil => exact fun _ => ⟨[], rfl, rfl⟩
  | cons p pending ih =>
      intro written
      rw [write]
      split
      · obtain ⟨front, hsplit, hevents⟩ := ih (add maxSize written p.2)
        refine ⟨p :: front, ?_, ?_⟩
        · rw [List.cons_append, ← hsplit]
        · rw [List.map_cons, ← hevents]
      · exact ⟨[], rfl, rfl⟩

/-- Behind other data, what fits is written. -/
theorem write_fitting (start limit : Nat) (hpos : ∀ e, 0 < len e) (pending : List (E × Nat))
    (hlengths : ∀ p ∈ pending, p.2 = len p.1) :
    ∀ written, (written ≠ 0 ∨ start ≠ 0) → written + total len (pending.map (·.1)) ≤ maxSize →
      (write maxSize start limit pending written).1 =
          fitting len limit written (pending.map (·.1)) ∧
        (write maxSize start limit pending written).2.2 =
          written + total len (write maxSize start limit pending written).1 := by
  induction pending with
  | nil => exact fun _ _ _ => ⟨rfl, rfl⟩
  | cons p pending ih =>
      intro written hother hfits
      obtain ⟨hp, hrest⟩ := List.forall_mem_cons.mp hlengths
      rw [List.map_cons, total_cons] at hfits
      have hadd : add maxSize written p.2 = written + len p.1 := by
        rw [hp]
        exact add_eq (by omega)
      have hcond : (add maxSize written p.2 ≤ limit ∨ (written = 0 ∧ start = 0)) ↔
          written + len p.1 ≤ limit := by
        rw [hadd]
        exact or_iff_left fun hzero => hother.elim (· hzero.1) (· hzero.2)
      have hlen := hpos p.1
      obtain ⟨hevents, htotal⟩ := ih hrest (written + len p.1) (.inl (by omega)) (by omega)
      rw [write, List.map_cons, fitting, hadd]
      simp only [hcond, ← hadd]
      split
      · rw [hadd]
        exact ⟨congrArg (p.1 :: ·) hevents, by rw [htotal, total_cons, Nat.add_assoc]⟩
      · exact ⟨rfl, rfl⟩

/-- A write takes the front, and counts its bytes. -/
theorem write_taken (start limit : Nat) (hpos : ∀ e, 0 < len e) {pending : List (E × Nat)}
    (hlengths : ∀ p ∈ pending, p.2 = len p.1) (hfits : total len (pending.map (·.1)) ≤ maxSize) :
    (write maxSize start limit pending 0).1 = taken len limit start (pending.map (·.1)) ∧
      (write maxSize start limit pending 0).2.2 =
        total len (write maxSize start limit pending 0).1 := by
  by_cases hstart : start = 0
  · rw [taken, if_pos hstart]
    cases pending with
    | nil => exact ⟨rfl, rfl⟩
    | cons p pending =>
        obtain ⟨hp, hrest⟩ := List.forall_mem_cons.mp hlengths
        rw [List.map_cons, total_cons] at hfits
        have hadd : add maxSize 0 p.2 = len p.1 := by
          rw [hp, add, Nat.zero_add]
          exact Nat.min_eq_left (by omega)
        obtain ⟨hevents, htotal⟩ := write_fitting start limit hpos pending hrest
          (len p.1) (.inl (hpos p.1).ne') hfits
        rw [write, if_pos (.inr ⟨rfl, hstart⟩), List.map_cons, batch, hadd]
        exact ⟨congrArg (p.1 :: ·) hevents, by rw [htotal, total_cons]⟩
  · rw [taken, if_neg hstart]
    simpa using write_fitting start limit hpos pending hlengths 0 (.inr hstart)
      (by simpa using hfits)

/-! A flush. -/

/-- **A flush** loses nothing: it takes a front of the events held, and leaves the others. -/
theorem flush_held (maxSize : Nat) (len : E → Nat) (s : ByteQueue E) (start limitBytes : Nat)
    (requireFull : Bool) :
    (s.flush maxSize len start limitBytes requireFull).2.1 ++
      (s.flush maxSize len start limitBytes requireFull).1.held = s.held := by
  have hfill := fill_held maxSize len (limitBytes - start) s.queue s.pending
    s.pendingBytes
  rw [flush]
  generalize fill maxSize len (limitBytes - start) s.queue s.pending s.pendingBytes = filled at *
  dsimp only
  split
  · obtain ⟨front, hsplit, hevents⟩ := write_split maxSize start (limitBytes - start)
      filled.pending 0
    have hmap := congrArg (List.map (·.1)) hsplit
    rw [List.map_append, ← hevents] at hmap
    rw [held, ← List.append_assoc, ← hmap]
    exact hfill
  · exact hfill

variable (hpos : ∀ e, 0 < len e) {start limitBytes : Nat}

include hpos

/-- What a write leaves is exact again, once the bytes written are taken off. -/
theorem Exact.write (start limit : Nat) (h : Exact maxSize len s) :
    Exact maxSize len
      ⟨s.queue, (ByteQueue.write maxSize start limit s.pending 0).2.1,
        s.pendingBytes - (ByteQueue.write maxSize start limit s.pending 0).2.2⟩ := by
  obtain ⟨front, hsplit, hevents⟩ := write_split maxSize start limit s.pending 0
  have htotal := (write_taken start limit hpos h.lengths h.pending_le).2
  have hmap := congrArg (fun ps => total len (ps.map (·.1))) hsplit
  simp only [List.map_append, ← hevents, total_append] at hmap
  refine ⟨fun p hp => h.lengths p (hsplit ▸ List.mem_append_right front hp), ?_, ?_⟩
  · rw [htotal, h.counted]
    exact Nat.sub_eq_of_eq_add' hmap
  · have hheld := h.fits
    rw [held, total_append] at hheld ⊢
    dsimp only
    omega

theorem Exact.flush (h : Exact maxSize len s) (requireFull : Bool) :
    Exact maxSize len (s.flush maxSize len start limitBytes requireFull).1 := by
  have hfilled := fill_exact (limitBytes - start) s.queue s.pending s.pendingBytes h
  rw [ByteQueue.flush]
  generalize fill maxSize len (limitBytes - start) s.queue s.pending s.pendingBytes = filled at *
  dsimp only
  split
  · exact hfilled.write hpos start (limitBytes - start)
  · exact hfilled

/-- What a flush writes is what a request takes of some of its events, and it counts the bytes. -/
theorem flush_written (start limitBytes : Nat) (h : Exact maxSize len s) (requireFull : Bool) :
    ((s.flush maxSize len start limitBytes requireFull).2.1 = [] ∨
        ∃ es, (s.flush maxSize len start limitBytes requireFull).2.1 =
          taken len (limitBytes - start) start es) ∧
      (s.flush maxSize len start limitBytes requireFull).2.2 =
        total len (s.flush maxSize len start limitBytes requireFull).2.1 := by
  have hfilled := fill_exact (limitBytes - start) s.queue s.pending s.pendingBytes h
  rw [ByteQueue.flush]
  generalize fill maxSize len (limitBytes - start) s.queue s.pending s.pendingBytes = filled at *
  dsimp only
  split
  · obtain ⟨hevents, htotal⟩ := write_taken start (limitBytes - start) hpos hfilled.lengths
      hfilled.pending_le
    exact ⟨.inr ⟨_, hevents⟩, htotal⟩
  · exact ⟨.inl rfl, rfl⟩

/-- **What a flush takes**, when it takes anything. -/
theorem flush_events (h : Exact maxSize len s) (hroom : start = 0 → 0 < limitBytes)
    (requireFull : Bool) :
    (s.flush maxSize len start limitBytes requireFull).2.1 =
      if limitBytes - start ≤ total len s.held ∨ requireFull = false then
        taken len (limitBytes - start) start s.held
      else [] := by
  have hfill := fill_held maxSize len (limitBytes - start) s.queue s.pending
    s.pendingBytes
  have hstop := fill_stop maxSize len (limitBytes - start) s.queue s.pending
    s.pendingBytes
  have hfilled := fill_exact (limitBytes - start) s.queue s.pending s.pendingBytes h
  rw [ByteQueue.flush]
  generalize fill maxSize len (limitBytes - start) s.queue s.pending s.pendingBytes = filled at *
  have hheld : filled.held = s.held := hfill
  have hsum := total_append len (filled.pending.map (·.1)) filled.queue
  rw [← held, hheld, ← hfilled.counted] at hsum
  have hfull : limitBytes - start ≤ filled.pendingBytes ↔
      limitBytes - start ≤ total len s.held := by
    refine ⟨fun hle => by omega, fun hle => hstop.elim id fun hnil => ?_⟩
    rw [hsum, hnil] at hle
    simpa [total] using hle
  simp only [hfull]
  split
  · next hwrite =>
      have hevents := (write_taken start (limitBytes - start) hpos hfilled.lengths
        hfilled.pending_le).1
      rw [hevents, ← hheld, held]
      -- events still in the queue do not fit behind a full list of pending ones
      rcases hstop with hpending | hnil
      · refine (taken_append hpos (fun hzero => ?_) _ (hfilled.counted ▸ hpending)).symm
        rw [hzero]
        exact hroom hzero
      · rw [hnil, List.append_nil]
  · rfl

/-- **One flush leaves nothing** exactly when the events fit, or there is one and the request was
empty. -/
theorem flush_drained_iff (h : Exact maxSize len s) (hroom : start = 0 → 0 < limitBytes) :
    (s.flush maxSize len start limitBytes false).1.held = [] ↔
      total len s.held ≤ limitBytes - start ∨ (start = 0 ∧ s.held.length ≤ 1) := by
  have hsplit := flush_held maxSize len s start limitBytes false
  rw [flush_events hpos h hroom, if_pos (.inr rfl)] at hsplit
  rw [← taken_eq_self hpos]
  constructor
  · intro hnil
    rwa [hnil, List.append_nil] at hsplit
  · intro hall
    rw [hall] at hsplit
    exact List.append_right_eq_self.mp hsplit

end Flush

end ByteQueue

end ConfidenceResolver
