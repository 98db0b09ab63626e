import ConfidenceResolver.Apply.ApplyDedup

/-!
# Apply — batches against single applies

`filter_duplicates` runs over a batch and marks what it keeps in a bit mask; `check_hash` answers
one apply.

* `DedupResult.isKept_mark`: the mask, in one word or in many.
* `checkAll`: the applies of a batch one at a time; `filterDuplicates_checkAll`: the batch does the
  same.
* `Counts`: what calls add to the counters and the table.
* `batch_dedup`: both, over every batch and every run.
-/

namespace ConfidenceResolver

/-! ### The mask -/

namespace DedupResult

/-- The mask has a bit for every flag of a batch of `n`. -/
def Holds (keep : DedupResult) (n : Nat) : Prop :=
  if keep.large.isEmpty then n ≤ 64 else n ≤ 64 * keep.large.length

theorem toBitVec_bit (i : Nat) : (bit i).toBitVec = BitVec.twoPow 64 (i % 64) := by
  have hlt : i % 64 < 64 := Nat.mod_lt i (by decide)
  have hsmall : i % 64 % 18446744073709551616 = i % 64 := Nat.mod_eq_of_lt (by omega)
  simp [bit, BitVec.twoPow_eq, hsmall]

/-- A word has the bit of a flag. -/
theorem and_bit_ne_zero (w : UInt64) (i : Nat) :
    (w &&& bit i != 0) = w.toBitVec.getLsbD (i % 64) := by
  have hlt : i % 64 < 64 := Nat.mod_lt i (by decide)
  rw [Bool.eq_iff_iff, bne_iff_ne, ne_eq, ← UInt64.toBitVec_inj, UInt64.toBitVec_and, toBitVec_bit,
    BitVec.and_twoPow]
  split
  · next hset =>
      simp only [hset, iff_true]
      intro hzero
      have hbit := congrArg (fun b => b.getLsbD (i % 64)) hzero
      simp [hlt] at hbit
  · next hset => simp [hset]

theorem or_bit (w : UInt64) (i j : Nat) :
    (w ||| bit i).toBitVec.getLsbD (j % 64) =
      (w.toBitVec.getLsbD (j % 64) || decide (j % 64 = i % 64)) := by
  have hlt : i % 64 < 64 := Nat.mod_lt i (by decide)
  rw [UInt64.toBitVec_or, BitVec.getLsbD_or, toBitVec_bit, BitVec.getLsbD_twoPow, decide_eq_true hlt,
    Bool.true_and, decide_eq_decide.mpr eq_comm]

@[simp] theorem count_mark (keep : DedupResult) (i : Nat) :
    (keep.mark i).count = keep.count + 1 := rfl

theorem Holds.mark {keep : DedupResult} {n : Nat} (h : keep.Holds n) (i : Nat) :
    (keep.mark i).Holds n := by
  rw [Holds] at h ⊢
  cases hlarge : keep.large with
  | nil => simpa [DedupResult.mark, hlarge, apply_ite large] using h
  | cons w ws => simpa [DedupResult.mark, hlarge] using h

theorem holds_new (n : Nat) : (new n).Holds n := by
  by_cases hn : n > 64
  · rw [Holds, new, if_pos hn, if_neg (by simp [List.replicate_succ]), List.length_replicate]
    omega
  · rw [Holds, new, if_neg hn]
    exact Nat.not_lt.mp hn

theorem isKept_new (n i : Nat) : (new n).isKept i = false := by
  by_cases hn : n > 64
  · have hwords : (List.replicate (n / 64 + 1) (0 : UInt64)).isEmpty = false := rfl
    simp only [isKept, new, if_pos hn, hwords, Bool.false_eq_true, if_false]
    cases hi : (List.replicate (n / 64 + 1) (0 : UInt64))[i / 64]? with
    | none => rfl
    | some w =>
        obtain ⟨_, rfl⟩ := List.getElem?_eq_some_iff.mp hi
        simp
  · simp [isKept, new, if_neg hn]

theorem isEmpty_modify (l : List UInt64) (f : UInt64 → UInt64) (i : Nat) :
    (l.modify i f).isEmpty = l.isEmpty := by
  cases l with
  | nil => simp
  | cons w ws => cases i <;> rfl

/-- **A mark** keeps its flag and no other. -/
theorem isKept_mark {keep : DedupResult} {n i : Nat} (h : keep.Holds n) (hi : i < n) (j : Nat) :
    (keep.mark i).isKept j = (keep.isKept j || decide (j = i)) := by
  rw [Holds] at h
  cases hlarge : keep.large with
  | nil =>
      rw [hlarge, List.isEmpty_nil, if_pos rfl] at h
      have hi' : i < 64 := by omega
      simp only [isKept, mark, hlarge, List.isEmpty_nil, if_true, if_pos hi', and_bit_ne_zero, or_bit]
      by_cases hj : j < 64
      · have hsame : j % 64 = i % 64 ↔ j = i := by omega
        simp [hj, hsame]
      · have hne : j ≠ i := by omega
        simp [hj, hne]
  | cons w ws =>
      rw [hlarge, List.isEmpty_cons, if_neg Bool.false_ne_true] at h
      have hi' : i / 64 < (w :: ws).length := by omega
      simp only [isKept, mark, hlarge, List.isEmpty_cons, Bool.false_eq_true, if_false,
        isEmpty_modify, and_bit_ne_zero, List.getElem?_modify]
      by_cases hword : i / 64 = j / 64
      · -- the word of the flag: the bits decide
        have hsame : j % 64 = i % 64 ↔ j = i := by omega
        rw [hword] at hi'
        simp only [hword, if_true, List.getElem?_eq_getElem hi', Option.map_eq_map, Option.map_some,
          Option.any_some, or_bit, hsame]
      · have hne : j ≠ i := by
          rintro rfl
          exact hword rfl
        simp [hword, hne]

/-- The mask says of the first flags of a batch of `n` what the answers say. -/
structure Marks (keep : DedupResult) (n : Nat) (answers : List Bool) : Prop where
  holds : keep.Holds n
  count : keep.count = answers.count true
  kept : ∀ j, keep.isKept j = answers[j]?.getD false

theorem marks_new (n : Nat) : (new n).Marks n [] :=
  ⟨holds_new n, rfl, isKept_new n⟩

/-- **A turn** adds an answer. -/
theorem Marks.push {keep : DedupResult} {n : Nat} {answers : List Bool}
    (h : keep.Marks n answers) (hlen : answers.length < n) (isNew : Bool) :
    (if isNew then keep.mark answers.length else keep).Marks n (answers ++ [isNew]) := by
  have hlast : ∀ j, (answers ++ [isNew])[j]?.getD false =
      (answers[j]?.getD false || (isNew && decide (j = answers.length))) := by
    intro j
    rw [List.getElem?_append]
    split
    · next hj => simp [hj.ne]
    · next hj =>
        rw [List.getElem?_eq_none (Nat.not_lt.mp hj), List.getElem?_singleton]
        have hhere : j - answers.length = 0 ↔ j = answers.length := by omega
        simp only [hhere, Option.getD_none, Bool.false_or]
        split
        · next hsame => simp [hsame]
        · next hother => simp [hother]
  cases isNew with
  | false =>
      refine ⟨h.holds, by simp [h.count], fun j => ?_⟩
      rw [hlast, Bool.false_and, Bool.or_false]
      exact h.kept j
  | true =>
      refine ⟨h.holds.mark _, by simp [h.count], fun j => ?_⟩
      rw [if_pos rfl, isKept_mark h.holds hlen, hlast, h.kept, Bool.true_and]

end DedupResult

/-! ### One at a time -/

namespace ApplyDedup

/-- The applies of a batch, each with its own `check_hash`: the table after them, and the
answers. -/
def checkAll (nowSeconds : Int64) : ApplyDedup → List Word → ApplyDedup × List Bool
  | d, [] => (d, [])
  | d, hash :: hashes =>
      let (d, isNew) := d.checkHash hash nowSeconds
      let (d, answers) := checkAll nowSeconds d hashes
      (d, isNew :: answers)

/-- The flags that are let through. -/
def letThrough (flags : List FlagToApply) (answers : List Bool) : List FlagToApply :=
  ((flags.zip answers).filter (·.2)).map (·.1)

theorem length_checkAll (nowSeconds : Int64) (hashes : List Word) :
    ∀ d : ApplyDedup, (d.checkAll nowSeconds hashes).2.length = hashes.length := by
  induction hashes with
  | nil => exact fun _ => rfl
  | cons hash hashes ih => exact fun d => congrArg (· + 1) (ih _)

theorem see_lastSweepSeconds (d : ApplyDedup) (hash : Word) (nowSeconds : Int64) :
    (d.see hash nowSeconds).1.lastSweepSeconds = d.lastSweepSeconds := by
  rw [see]
  split
  · rfl
  · split <;> rfl

/-- **The loop of `filter_duplicates`** from a turn on: the table is that of the single applies, and
the mask says what they answer. -/
theorem foldl_filterOne (nowSeconds : Int64) {n : Nat} (flags : List FlagToApply) :
    ∀ (d : ApplyDedup) (keep : DedupResult) (answers : List Bool),
      keep.Marks n answers → answers.length + flags.length ≤ n →
      let res := (flags.zipIdx answers.length).foldl
        (filterOne (max nowSeconds d.lastSweepSeconds)) (d, keep)
      let one := d.checkAll nowSeconds (flags.map fun f => computeDedupHash f.assignedFlag)
      res.1 = one.1 ∧ res.2.Marks n (answers ++ one.2) := by
  induction flags with
  | nil =>
      intro d keep answers hmarks _
      exact ⟨rfl, by simpa [checkAll] using hmarks⟩
  | cons f flags ih =>
      intro d keep answers hmarks hlen
      rw [List.length_cons] at hlen
      have hpush := hmarks.push (by omega) (d.see (computeDedupHash f.assignedFlag)
        (max nowSeconds d.lastSweepSeconds)).2
      have hrest := ih (d.see (computeDedupHash f.assignedFlag)
        (max nowSeconds d.lastSweepSeconds)).1 _ _ hpush (by simp; omega)
      simp only [see_lastSweepSeconds, List.length_append, List.length_singleton,
        List.append_assoc] at hrest
      exact hrest

/-- The flags kept from a turn on. -/
theorem filter_zipIdx (keep : DedupResult) (flags : List FlagToApply) :
    ∀ (k : Nat) (answers : List Bool), answers.length = flags.length →
      (∀ j, keep.isKept (k + j) = answers[j]?.getD false) →
      ((flags.zipIdx k).filter fun f => keep.isKept f.2).map (·.1) = letThrough flags answers := by
  induction flags with
  | nil =>
      intro k answers hlen _
      rw [List.eq_nil_of_length_eq_zero hlen]
      rfl
  | cons f flags ih =>
      intro k answers hlen hkept
      cases answers with
      | nil => cases hlen
      | cons isNew answers =>
          have hrest := ih (k + 1) answers (Nat.succ.inj hlen) fun j => by
            rw [Nat.add_assoc, Nat.add_comm 1 j]
            exact hkept (j + 1)
          have hfirst : keep.isKept k = isNew := hkept 0
          rw [letThrough] at hrest ⊢
          rw [List.zipIdx_cons, List.zip_cons_cons, List.filter_cons, List.filter_cons, hfirst]
          cases isNew with
          | false => exact hrest
          | true => exact congrArg (f :: ·) hrest

theorem letThrough_all {flags : List FlagToApply} {answers : List Bool}
    (hlen : answers.length = flags.length) (hall : answers.count true = flags.length) :
    letThrough flags answers = flags := by
  have htrue : ∀ b ∈ answers, true = b := List.count_eq_length.mp (hall.trans hlen.symm)
  have hkeep : (flags.zip answers).filter (·.2) = flags.zip answers :=
    List.filter_eq_self.mpr fun p hp => (htrue p.2 (List.of_mem_zip hp).2).symm
  rw [letThrough, hkeep]
  exact List.map_fst_zip hlen.ge

/-- **Collecting** yields the flags that are let through. -/
theorem collect_marks {keep : DedupResult} {flags : List FlagToApply} {answers : List Bool}
    (h : keep.Marks flags.length answers) (hlen : answers.length = flags.length) :
    keep.collect flags = letThrough flags answers := by
  rw [DedupResult.collect]
  split
  · next hall => exact (letThrough_all hlen (h.count.symm.trans hall)).symm
  · exact filter_zipIdx keep flags 0 answers hlen fun j => by rw [Nat.zero_add, h.kept]

end ApplyDedup

/-! ### Counters -/

namespace ApplyDedup

/-- What calls without a sweep do: each apply is counted as a duplicate, as overflowed, or by a new
entry, and the table stays within its maximum size. -/
structure Counts (d d' : ApplyDedup) : Prop where
  grows : d.seen.entries.length ≤ d'.seen.entries.length
  maxEntries : d'.maxEntries = d.maxEntries
  bounded : d.seen.entries.length ≤ d.maxEntries → d'.seen.entries.length ≤ d'.maxEntries
  counted : d'.appliesTotal - d.appliesTotal =
    (d'.appliesDeduped - d.appliesDeduped) + (d'.applyDedupOverflow - d.applyDedupOverflow) +
      UInt64.ofNat (d'.seen.entries.length - d.seen.entries.length)

theorem Counts.refl (d : ApplyDedup) : Counts d d :=
  ⟨le_refl _, rfl, id, by simp⟩

theorem Counts.trans {d d' d'' : ApplyDedup} (h : Counts d d') (h' : Counts d' d'') :
    Counts d d'' where
  grows := h.grows.trans h'.grows
  maxEntries := h'.maxEntries.trans h.maxEntries
  bounded hd := h'.bounded (h.bounded hd)
  counted := by
    have hgrows := h.grows
    have hgrows' := h'.grows
    have hsplit : d''.seen.entries.length - d.seen.entries.length =
        (d'.seen.entries.length - d.seen.entries.length) +
          (d''.seen.entries.length - d'.seen.entries.length) := by omega
    have hcounted := h.counted
    have hcounted' := h'.counted
    rw [hsplit, UInt64.ofNat_add]
    grind

/-- **An apply** is counted once. -/
theorem counts_see (d : ApplyDedup) (hash : Word) (nowSeconds : Int64) :
    Counts d (d.see hash nowSeconds).1 := by
  rw [see]
  split
  · exact ⟨le_refl _, rfl, id, by simp⟩
  · next hnew =>
      split
      · next hroom =>
          have hentries := HashMap.entries_insert (by simpa using hnew) nowSeconds
          refine ⟨?_, rfl, fun _ => ?_, ?_⟩ <;> simp only [hentries, List.length_cons]
          · exact Nat.le_succ _
          · exact hroom
          · simp
      · exact ⟨le_refl _, rfl, id, by simp⟩

theorem counts_checkAll (nowSeconds : Int64) (hashes : List Word) :
    ∀ d : ApplyDedup, Counts d (d.checkAll nowSeconds hashes).1 := by
  induction hashes with
  | nil => exact Counts.refl
  | cons hash hashes ih => exact fun d => (counts_see d hash _).trans (ih _)

/-- The hashes of a batch. -/
def hashesOf (flags : List FlagToApply) : List Word :=
  flags.map fun f => computeDedupHash f.assignedFlag

/-- A batch does what its applies do one at a time: the same table and counters; it keeps the flags
that are let through, and collects them in order. -/
structure Sequential (d : ApplyDedup) (flags : List FlagToApply) (nowSeconds : Int64) : Prop where
  table : (d.filterDuplicates flags nowSeconds).1 = (d.checkAll nowSeconds (hashesOf flags)).1
  kept : ∀ i, (d.filterDuplicates flags nowSeconds).2.isKept i =
    (d.checkAll nowSeconds (hashesOf flags)).2[i]?.getD false
  count : (d.filterDuplicates flags nowSeconds).2.count =
    (d.checkAll nowSeconds (hashesOf flags)).2.count true
  collect : (d.filterDuplicates flags nowSeconds).2.collect flags =
    letThrough flags (d.checkAll nowSeconds (hashesOf flags)).2

theorem sequential (d : ApplyDedup) (flags : List FlagToApply) (nowSeconds : Int64) :
    d.Sequential flags nowSeconds := by
  obtain ⟨htable, hmarks⟩ := foldl_filterOne nowSeconds flags d (.new flags.length) []
    (DedupResult.marks_new flags.length) (by simp)
  have hlen : (d.checkAll nowSeconds (hashesOf flags)).2.length = flags.length := by
    rw [length_checkAll, hashesOf, List.length_map]
  exact ⟨htable, hmarks.kept, hmarks.count, collect_marks hmarks hlen⟩

end ApplyDedup

/-! ### Runs -/

/-- A call on the table. -/
inductive TableCall where
  | checkHash (hash : Word) (nowSeconds : Int64)
  | filterDuplicates (flags : List FlagToApply) (nowSeconds : Int64)
  | sweep (nowSeconds : Int64)

/-- A table, and how many entries it was given since it was made. -/
structure TableRun where
  dedup : ApplyDedup
  inserted : Nat

namespace TableRun

def new (ttlSeconds : Int64) (maxEntries : Nat) : TableRun := ⟨.new ttlSeconds maxEntries, 0⟩

/-- The table after applies, which remove nothing: what it has grown by was inserted. -/
def grown (r : TableRun) (d : ApplyDedup) : TableRun :=
  ⟨d, r.inserted + (d.seen.entries.length - r.dedup.seen.entries.length)⟩

def step (r : TableRun) : TableCall → TableRun
  | .checkHash hash nowSeconds => r.grown (r.dedup.checkHash hash nowSeconds).1
  | .filterDuplicates flags nowSeconds => r.grown (r.dedup.filterDuplicates flags nowSeconds).1
  | .sweep nowSeconds => { r with dedup := r.dedup.sweep nowSeconds }

def run (r : TableRun) (calls : List TableCall) : TableRun := calls.foldl step r

/-- The table is within its maximum size, and every apply is counted as a duplicate, as overflowed,
or was inserted.  The counters wrap. -/
structure Balanced (maxEntries : Nat) (r : TableRun) : Prop where
  config : r.dedup.maxEntries = maxEntries
  bounded : r.dedup.seen.entries.length ≤ maxEntries
  counted : r.dedup.appliesTotal =
    r.dedup.appliesDeduped + r.dedup.applyDedupOverflow + UInt64.ofNat r.inserted

variable {maxEntries : Nat} {r : TableRun}

theorem balanced_new (ttlSeconds : Int64) (maxEntries : Nat) :
    (new ttlSeconds maxEntries).Balanced maxEntries :=
  ⟨rfl, Nat.zero_le _, rfl⟩

theorem Balanced.grown (h : r.Balanced maxEntries) {d : ApplyDedup}
    (hcounts : r.dedup.Counts d) : (r.grown d).Balanced maxEntries where
  config := hcounts.maxEntries.trans h.config
  bounded := by
    have hbounded := hcounts.bounded (h.config.symm ▸ h.bounded)
    rwa [hcounts.maxEntries, h.config] at hbounded
  counted := by
    have hcounted := hcounts.counted
    have hbefore := h.counted
    simp only [TableRun.grown, UInt64.ofNat_add]
    grind

theorem Balanced.sweep (h : r.Balanced maxEntries) (nowSeconds : Int64) :
    ({ r with dedup := r.dedup.sweep nowSeconds } : TableRun).Balanced maxEntries := by
  rw [ApplyDedup.sweep]
  split
  · exact ⟨h.config, (List.length_filter_le _ _).trans h.bounded, h.counted⟩
  · exact h

/-- **A call** keeps the balance. -/
theorem Balanced.step (h : r.Balanced maxEntries) (call : TableCall) :
    (r.step call).Balanced maxEntries := by
  cases call with
  | checkHash hash nowSeconds => exact h.grown (r.dedup.counts_see hash _)
  | filterDuplicates flags nowSeconds =>
      have hcounts := ApplyDedup.counts_checkAll nowSeconds (ApplyDedup.hashesOf flags) r.dedup
      rw [← (r.dedup.sequential flags nowSeconds).table] at hcounts
      exact h.grown hcounts
  | sweep nowSeconds => exact h.sweep nowSeconds

theorem Balanced.run (calls : List TableCall) :
    ∀ {r : TableRun}, r.Balanced maxEntries → (r.run calls).Balanced maxEntries := by
  induction calls with
  | nil => exact fun h => h
  | cons call calls ih => exact fun h => ih (h.step call)

end TableRun

/-! ### Main results -/

/-- **A batch is its applies, one at a time**, and the table and its counters stay in balance over
every run.  A state in the middle of a batch is the one after the front of the batch. -/
theorem batch_dedup :
    (∀ (d : ApplyDedup) (flags : List FlagToApply) (nowSeconds : Int64),
      d.Sequential flags nowSeconds) ∧
    ∀ (ttlSeconds : Int64) (maxEntries : Nat) (calls : List TableCall),
      ((TableRun.new ttlSeconds maxEntries).run calls).Balanced maxEntries :=
  ⟨ApplyDedup.sequential, fun ttlSeconds maxEntries calls =>
    TableRun.Balanced.run calls (TableRun.balanced_new ttlSeconds maxEntries)⟩

end ConfidenceResolver
