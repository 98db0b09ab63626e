import ConfidenceResolver.FlagLog.SinkInvariant

/-!
# FlagLog — the bytes buffered

How much is buffered when deliveries do not end.  An offer that finds the buffer at its ceiling
takes one chunk, and the chunk at the front may be smaller than the record.

* `Room`: what an offer finds is enough for the record; `Roomy`: every offer of a run does.
* `buffered_bounded`: then at most the ceiling and the largest record are buffered.
* `Lengths`: the buffer with the lengths only; `lengths_run`: runs of offers.
* `ceiling_exceeded`: small and large records in turn, then large ones only.
-/

namespace ConfidenceResolver

namespace FlagLog

variable {sizes : LogSizes}

/-- The bytes of the records buffered. -/
def Isolate.buffered (s : Isolate sizes) : Nat := (s.buffer.logs.map (·.len)).sum

/-- The length of the largest record offered. -/
def Isolate.largest (s : Isolate sizes) : Nat := (s.offered.map sizes.encodedLen).foldr max 0

/-- The bytes of the chunk at the front. -/
def Isolate.frontBytes (s : Isolate sizes) : Nat :=
  (FrontCut.cut sizes.usizeMax Entry.len flushBytes flushRecords (fun _ => false) s.buffer.logs).2.2

/-- The bytes fit the count, and the buffer is below its ceiling or has a chunk at its front that is
at least as long as the record. -/
def Room (s : Isolate sizes) (log : WriteFlagLogsRequest) : Prop :=
  s.buffered + sizes.encodedLen log ≤ sizes.usizeMax ∧
    (s.buffered < maxBufferBytes ∨ sizes.encodedLen log ≤ s.frontBytes)

instance (s : Isolate sizes) (log : WriteFlagLogsRequest) : Decidable (Room s log) :=
  inferInstanceAs (Decidable (_ ∧ (_ ∨ _)))

/-- Every offer of a run finds room. -/
def Roomy : World sizes → List Event → Prop
  | _, [] => True
  | w, .offer log nowMs :: events => Room w.isolate log ∧ Roomy (w.exec (.offer log nowMs)) events
  | w, e :: events => Roomy (w.exec e) events

instance decidableRoomy : ∀ (w : World sizes) (events : List Event), Decidable (Roomy w events)
  | _, [] => .isTrue trivial
  | w, .offer log nowMs :: events =>
      have := decidableRoomy (w.exec (.offer log nowMs)) events
      inferInstanceAs (Decidable (Room w.isolate log ∧ Roomy (w.exec (.offer log nowMs)) events))
  | w, .tick deadline :: events => decidableRoomy (w.exec (.tick deadline)) events
  | w, .poll task nowMs :: events => decidableRoomy (w.exec (.poll task nowMs)) events
  | w, .cancel task :: events => decidableRoomy (w.exec (.cancel task)) events

/-! ### With room -/

section Bounded

variable {s s' : Isolate sizes} {p : Taker → Prop}

theorem buffered_removes (hr : Removes p s s') : s'.buffered ≤ s.buffered := by
  obtain ⟨removed, new, hr⟩ := hr
  rw [Isolate.buffered, Isolate.buffered, hr.logs, List.map_append, List.sum_append]
  exact Nat.le_add_left _ _

theorem buffered_push (s : Isolate sizes) (log : WriteFlagLogsRequest) (nowMs : Int) :
    (s.push log nowMs).buffered = s.buffered + sizes.encodedLen log := by
  simp [Isolate.buffered, Isolate.push, Buffer.push]

/-- A chunk that is taken is that much less. -/
theorem buffered_took (s : Isolate sizes) (taker : Taker) (shed : Bool) :
    (s.took s.buffer.takeChunk taker shed).2.buffered + s.frontBytes = s.buffered := by
  have hcut : s.buffer.takeChunk.2.logs = (FrontCut.cut sizes.usizeMax Entry.len flushBytes
      flushRecords (fun _ => false) s.buffer.logs).2.1 := rfl
  have hbytes : s.frontBytes = ((FrontCut.cut sizes.usizeMax Entry.len flushBytes
      flushRecords (fun _ => false) s.buffer.logs).1.map (·.len)).sum :=
    (FrontCut.cut_open_bytes sizes.flushBytes_lt fun e _ => e.len_le).2
  have hsplit : s.buffered = (((FrontCut.cut sizes.usizeMax Entry.len flushBytes flushRecords
      (fun _ => false) s.buffer.logs).1 ++ (FrontCut.cut sizes.usizeMax Entry.len flushBytes
      flushRecords (fun _ => false) s.buffer.logs).2.1).map (·.len)).sum := by
    rw [FrontCut.cut_append]
    rfl
  rw [hsplit, hbytes, List.map_append, List.sum_append, Nat.add_comm, ← hcut]
  rfl

/-- The chunk at the front does not get smaller when a record is pushed behind. -/
theorem frontBytes_push (s : Isolate sizes) (log : WriteFlagLogsRequest) (nowMs : Int) :
    s.frontBytes ≤ (s.push log nowMs).frontBytes :=
  FrontCut.cut_bytes_append _ _

theorem le_foldr_max (ns : List Nat) (n : Nat) :
    ns.foldr max 0 ≤ (ns ++ [n]).foldr max 0 ∧ n ≤ (ns ++ [n]).foldr max 0 := by
  induction ns with
  | nil => simp
  | cons m ns ih =>
      obtain ⟨hold, hnew⟩ := ih
      exact ⟨max_le_max (le_refl m) hold, le_trans hnew (le_max_right _ _)⟩

theorem largest_push (s : Isolate sizes) (log : WriteFlagLogsRequest) (nowMs : Int) :
    s.largest ≤ (s.push log nowMs).largest ∧ sizes.encodedLen log ≤ (s.push log nowMs).largest := by
  have hlargest : (s.push log nowMs).largest =
      (s.offered.map sizes.encodedLen ++ [sizes.encodedLen log]).foldr max 0 := by
    simp [Isolate.largest, Isolate.push]
  rw [hlargest]
  exact le_foldr_max _ _

/-- At most the ceiling and the largest record are buffered, and the count is exact. -/
def Bounded (s : Isolate sizes) : Prop :=
  s.saturated = false ∧ s.buffered ≤ maxBufferBytes + s.largest

theorem Bounded.removes (h : Bounded s) (hr : Removes p s s') : Bounded s' := by
  have hle := buffered_removes hr
  obtain ⟨removed, new, hr⟩ := hr
  refine ⟨hr.saturated.trans h.1, Nat.le_trans hle ?_⟩
  rw [Isolate.largest, hr.offered]
  exact h.2

/-- **An offer with room**: below the ceiling the record is the largest at most, and at the ceiling
the chunk that goes is as long. -/
theorem Bounded.offerAt (h : Bounded s) (hinv : s.Inv) {log : WriteFlagLogsRequest}
    (hroom : Room s log) (nowMs : Int) : Bounded (s.offerAt log nowMs).2 := by
  have hbytes : s.buffer.bytes = s.buffered := hinv.bytes h.1
  have hexact : (s.push log nowMs).saturated = false := by
    simp only [Isolate.push, h.1, hbytes, Bool.false_or]
    exact decide_eq_false (Nat.not_lt.mpr hroom.1)
  have hpushed : (s.push log nowMs).buffer.bytes = (s.push log nowMs).buffered :=
    (hinv.push log nowMs).bytes hexact
  obtain ⟨hlargest, hlen⟩ := largest_push s log nowMs
  have hbefore := h.2
  have hpush := buffered_push s log nowMs
  have hfront := frontBytes_push s log nowMs
  have htook : ∀ shed,
      ((s.push log nowMs).took (s.push log nowMs).buffer.takeChunk .offer shed).2.buffered ≤
      maxBufferBytes + (s.push log nowMs).largest := by
    intro shed
    have hless := buffered_took (s.push log nowMs) .offer shed
    rcases hroom.2 with hbelow | hchunk <;> omega
  rcases offerAt_cases s log nowMs with ⟨hoffer, hceiling⟩ | ⟨hoffer, -⟩ | ⟨hoffer, -⟩
  · rw [hoffer]
    simp only [Buffer.atCeiling, Bool.or_eq_false_iff, decide_eq_false_iff_not] at hceiling
    have hbelow := Nat.lt_of_not_le hceiling.1
    rw [hpushed] at hbelow
    exact ⟨hexact, Nat.le_trans (Nat.le_of_lt hbelow) (Nat.le_add_right _ _)⟩
  · rw [hoffer]
    exact ⟨hexact, htook true⟩
  · rw [hoffer]
    exact ⟨hexact, htook false⟩

end Bounded

namespace World

theorem bounded_exec {w : World sizes} (h : Bounded w.isolate) (hinv : w.Inv) (e : Event)
    (hroom : ∀ log nowMs, e = .offer log nowMs → Room w.isolate log) :
    Bounded (w.exec e).isolate := by
  cases e with
  | offer log nowMs =>
      have hoffer := h.offerAt hinv.records (hroom log nowMs rfl) nowMs
      revert hoffer
      rw [exec]
      rcases w.isolate.offerAt log nowMs with ⟨_ | batch, s⟩ <;> exact id
  | tick deadline => exact h.removes (exec_removes w (.tick deadline))
  | poll task nowMs => exact h.removes (exec_removes w (.poll task nowMs))
  | cancel task => exact h.removes (exec_removes w (.cancel task))

theorem bounded_foldl (events : List Event) :
    ∀ w : World sizes, Bounded w.isolate → w.Inv → Roomy w events →
      Bounded (events.foldl exec w).isolate := by
  induction events with
  | nil => exact fun w h _ _ => h
  | cons e events ih =>
      intro w h hinv hroomy
      refine ih (w.exec e) (bounded_exec h hinv e ?_) (hinv.exec e) ?_
      · rintro log nowMs rfl
        exact hroomy.1
      · cases e with
        | offer log nowMs => exact hroomy.2
        | tick deadline => exact hroomy
        | poll task nowMs => exact hroomy
        | cancel task => exact hroomy

theorem roomy_left {events more : List Event} :
    ∀ {w : World sizes}, Roomy w (events ++ more) → Roomy w events := by
  induction events with
  | nil => exact fun _ => trivial
  | cons e events ih =>
      intro w h
      cases e with
      | offer log nowMs => exact ⟨h.1, ih h.2⟩
      | tick deadline => exact ih (w := w.exec (.tick deadline)) h
      | poll task nowMs => exact ih (w := w.exec (.poll task nowMs)) h
      | cancel task => exact ih (w := w.exec (.cancel task)) h

/-- **Bounded buffering**: in a run in which every offer finds room, at most the ceiling and the
largest record are buffered, in every state, and the count is exact. -/
theorem buffered_bounded (events : List Event) (h : Roomy (new : World sizes) events) :
    ∀ pre more, events = pre ++ more →
      (run sizes pre).isolate.buffered ≤ maxBufferBytes + (run sizes pre).isolate.largest ∧
        (run sizes pre).Exact := by
  rintro pre more rfl
  have hbounded := bounded_foldl pre new ⟨rfl, Nat.zero_le _⟩ inv_new (roomy_left h)
  exact ⟨hbounded.2, (inv_run pre).records.bytes hbounded.1⟩

/-- Records of so many half mebibytes: four are delivered at once, and at the ceiling a small one
goes for a large one. -/
def toTheCeiling : List Event :=
  [2, 2, 2, 2, 1, 3, 3, 3, 3, 3, 3, 3, 1, 3].map fun n => .offer (envelopes n) 0

/-- The next offer finds the buffer above the ceiling, and a chunk at its front that is as long. -/
theorem buffered_bounded_sample :
    maxBufferBytes < (run bulkSizes toTheCeiling).isolate.buffered ∧
      (run bulkSizes (toTheCeiling ++ [.offer (envelopes 3) 0])).isolate.buffered ≤
        maxBufferBytes + 3 * 2 ^ 19 := by
  have hroomy : Roomy (new : World bulkSizes) (toTheCeiling ++ [.offer (envelopes 3) 0]) := by
    decide +kernel
  have hlargest : (run bulkSizes (toTheCeiling ++ [.offer (envelopes 3) 0])).isolate.largest =
      3 * 2 ^ 19 := by
    decide +kernel
  refine ⟨by decide +kernel, ?_⟩
  rw [← hlargest]
  exact (buffered_bounded _ hroomy _ [] (List.append_nil _).symm).1

end World

/-! ### Lengths only -/

/-- The lengths of the records buffered, their count, and the deliveries in flight. -/
structure Lengths where
  lens : List Nat
  bytes : Nat
  inFlight : Nat

/-- An offer of a record of a length. -/
def Lengths.offer (usizeMax : Nat) (b : Lengths) (len : Nat) : Lengths :=
  let lens := b.lens ++ [len]
  let bytes := ByteQueue.add usizeMax b.bytes len
  let chunk := FrontCut.cut usizeMax id flushBytes flushRecords (fun _ => false) lens
  if !(flushBytes ≤ bytes || flushRecords ≤ lens.length) then ⟨lens, bytes, b.inFlight⟩
  else
    match Decision.decide (maxBufferBytes ≤ bytes || maxBufferRecords ≤ lens.length) b.inFlight with
    | .hold => ⟨lens, bytes, b.inFlight⟩
    | .shed => ⟨chunk.2.1, bytes - chunk.2.2, b.inFlight⟩
    | .deliver => ⟨chunk.2.1, bytes - chunk.2.2, b.inFlight + 1⟩

def Isolate.lengths (s : Isolate sizes) : Lengths :=
  ⟨s.buffer.logs.map (·.len), s.buffer.bytes, s.inFlight⟩

/-- **What an offer does** depends on lengths only. -/
theorem lengths_offerAt (s : Isolate sizes) (log : WriteFlagLogsRequest) (nowMs : Int) :
    (s.offerAt log nowMs).2.lengths = s.lengths.offer sizes.usizeMax (sizes.encodedLen log) := by
  obtain ⟨t, ht⟩ : ∃ t, s.push log nowMs = t := ⟨_, rfl⟩
  have hlens : t.buffer.logs.map (·.len) = s.buffer.logs.map (·.len) ++ [sizes.encodedLen log] := by
    simp [← ht, Isolate.push, Buffer.push]
  have hbytes : t.buffer.bytes =
      ByteQueue.add sizes.usizeMax s.buffer.bytes (sizes.encodedLen log) := by
    rw [← ht]
    rfl
  have hslots : t.inFlight = s.inFlight := by
    rw [← ht]
    rfl
  have hcut : FrontCut.cut sizes.usizeMax id flushBytes flushRecords (fun _ => false)
      (t.buffer.logs.map (·.len)) =
        ((FrontCut.cut sizes.usizeMax Entry.len flushBytes flushRecords (fun _ => false)
            t.buffer.logs).1.map (·.len),
          t.buffer.takeChunk.2.logs.map (·.len), _) := FrontCut.cut_map Entry.len id _ _
  simp only [Isolate.offerAt, Isolate.lengths, Lengths.offer, ht, ← hlens, ← hbytes, ← hslots, hcut,
    List.length_map]
  by_cases hdue : t.buffer.sizeDue = true
  · have hdue' : (decide (flushBytes ≤ t.buffer.bytes) ||
        decide (flushRecords ≤ t.buffer.logs.length)) = true := hdue
    simp only [hdue, hdue', Bool.not_true, Bool.false_eq_true, if_false]
    rw [Buffer.atCeiling]
    cases Decision.decide (decide (maxBufferBytes ≤ t.buffer.bytes) ||
      decide (maxBufferRecords ≤ t.buffer.logs.length)) t.inFlight <;> rfl
  · have hdue' : (decide (flushBytes ≤ t.buffer.bytes) ||
        decide (flushRecords ≤ t.buffer.logs.length)) = false := Bool.eq_false_iff.mpr hdue
    simp only [Bool.eq_false_iff.mpr hdue, hdue', Bool.not_false, if_true]

/-- Offers, with no delivery that ends. -/
def offers (logs : List WriteFlagLogsRequest) : List Event := logs.map fun log => .offer log 0

open World

theorem lengths_run (sizes : LogSizes) (logs : List WriteFlagLogsRequest) :
    (run sizes (offers logs)).isolate.lengths =
        (logs.map sizes.encodedLen).foldl (Lengths.offer sizes.usizeMax) ⟨[], 0, 0⟩ ∧
      (run sizes (offers logs)).isolate.offered = logs := by
  induction logs using List.reverseRecOn with
  | nil => exact ⟨rfl, rfl⟩
  | append_singleton logs log ih =>
      obtain ⟨hlengths, hoffered⟩ := ih
      have hrun : run sizes (offers (logs ++ [log])) =
          (run sizes (offers logs)).exec (.offer log 0) := by
        rw [offers, List.map_append]
        exact run_concat _ _
      have hisolate : ((run sizes (offers logs)).exec (.offer log 0)).isolate =
          ((run sizes (offers logs)).isolate.offerAt log 0).2 := by
        rw [exec]
        rcases (run sizes (offers logs)).isolate.offerAt log 0 with ⟨_ | batch, s⟩ <;> rfl
      obtain ⟨removed, new, hr⟩ := exec_removes (run sizes (offers logs)) (.offer log 0)
      rw [hrun]
      constructor
      · rw [hisolate, lengths_offerAt, hlengths, List.map_append, List.foldl_append]
        rfl
      · rw [hr.offered]
        exact congrArg (· ++ [log]) hoffered

/-- Envelopes of records: four large ones, small and large ones in turn up to the ceiling, and then
large ones only. -/
def heavyTraffic : List Nat :=
  List.replicate 4 400000 ++ (List.replicate 16 [1, 400000]).flatten ++ List.replicate 32 400000

/-- A run of offers, by its lengths. -/
theorem offers_run (sizes : LogSizes) (logs : List WriteFlagLogsRequest) {lens : List Nat}
    (hlens : logs.map sizes.encodedLen = lens) :
    (run sizes (offers logs)).isolate.inFlight =
        (lens.foldl (Lengths.offer sizes.usizeMax) ⟨[], 0, 0⟩).inFlight ∧
      (run sizes (offers logs)).isolate.buffered =
        (lens.foldl (Lengths.offer sizes.usizeMax) ⟨[], 0, 0⟩).lens.sum ∧
      (run sizes (offers logs)).isolate.largest = lens.foldr max 0 := by
  obtain ⟨hlengths, hoffered⟩ := lengths_run sizes logs
  rw [hlens] at hlengths
  rw [← hlengths, Isolate.largest, hoffered, hlens]
  exact ⟨rfl, rfl, rfl⟩

theorem encodedLen_heavyTraffic :
    (heavyTraffic.map envelopes).map sampleSizes.encodedLen = heavyTraffic.map (2 * ·) := by
  rw [List.map_map]
  refine List.map_congr_left fun n hn => encodedLen_envelopes n ?_
  have hle : ∀ n ∈ heavyTraffic, 2 * n ≤ 2 ^ 32 - 1 := by decide +kernel
  exact hle n hn

/-- **Beyond the ceiling**: no delivery ends, every offer of a large record takes a chunk, half of
them small ones, and almost twice the ceiling is buffered. -/
theorem ceiling_exceeded :
    (run sampleSizes (offers (heavyTraffic.map envelopes))).isolate.inFlight = hardInFlight ∧
      maxBufferBytes + (run sampleSizes (offers (heavyTraffic.map envelopes))).isolate.largest <
        (run sampleSizes (offers (heavyTraffic.map envelopes))).isolate.buffered := by
  obtain ⟨hslots, hbuffered, hlargest⟩ := offers_run sampleSizes _ encodedLen_heavyTraffic
  rw [hslots, hbuffered, hlargest]
  decide +kernel

end FlagLog

end ConfidenceResolver
