import ConfidenceResolver.Apply.ApplyDedup
import ConfidenceResolver.Apply.Deferred

/-!
# Apply — how long an apply is suppressed

Runs of applies and sweeps on one table, each at a time of the host's clock.  The time of an entry
is not the host's: it comes from the first flag of the batch, and with a deferred apply from the
client.

* `DedupRun.step_dedup`: the table of a run is that of the calls.
* `DedupRun.Inv`: the entries against the history; `Inv.see`, `Inv.sweep`: the steps keep it.
* `suppression_bounded`: after a sweep no apply is suppressed by an insertion as old as the window,
  if no entry was given a time ahead of the host's clock.
* `future_apply_suppressed`: a client that applies, by its own clock, after it has sent.
-/

namespace ConfidenceResolver

open Saturating

/-- What is remembered of a run: insertions and sweeps with the host's time, and duplicates. -/
inductive Mark where
  | inserted (hash : Word) (hostTime : Int64)
  | suppressed (hash : Word)
  | swept (hostTime : Int64)
deriving DecidableEq

/-- The times at which a hash was inserted. -/
def insertions (hash : Word) (history : List Mark) : List Int64 :=
  history.filterMap fun
    | .inserted hash' hostTime => if hash' = hash then some hostTime else none
    | _ => none

/-- The time at which a hash was last inserted. -/
def lastInserted (hash : Word) (history : List Mark) : Option Int64 :=
  (insertions hash history).getLast?

/-- After a sweep, a hash that was last inserted before the window is suppressed only if it was
inserted again since. -/
def SuppressionBounded (ttlSeconds : Int64) (history : List Mark) : Prop :=
  ∀ pre s mid hash post hostTime,
    history = pre ++ .swept s :: (mid ++ .suppressed hash :: post) →
    lastInserted hash pre = some hostTime → hostTime.toInt ≤ s.toInt - ttlSeconds.toInt →
    insertions hash mid ≠ []

/-! ### Runs -/

/-- The calls of a host, each with the reading of its clock: `log_assign` and `check_hash`, with
whatever times they are given, and `sweep`. -/
inductive DedupEvent where
  | logAssign (hostTime : Int64) (enabled : Bool) (assignedFlags : List FlagToApply)
  | checkHash (hostTime : Int64) (hash : Word) (nowSeconds : Int64)
  | sweep (hostTime : Int64)

/-- The time of new entries, and the hashes of a call. -/
def DedupEvent.batch (d : ApplyDedup) : DedupEvent → Option (Int64 × Int64 × List Word)
  | .logAssign hostTime enabled assignedFlags =>
      if enabled then
        assignedFlags.head?.map fun first =>
          (hostTime,
            max (Int64.ofInt first.skewAdjustedAppliedTime.seconds) d.lastSweepSeconds,
            assignedFlags.map fun f => computeDedupHash f.assignedFlag)
      else none
  | .checkHash hostTime hash nowSeconds => some (hostTime, max nowSeconds d.lastSweepSeconds, [hash])
  | .sweep _ => none

/-- A table and its history. -/
structure DedupRun where
  dedup : ApplyDedup
  history : List Mark

namespace DedupRun

/-- What an apply does. -/
def mark (d : ApplyDedup) (hostTime : Int64) (hash : Word) : Option Mark :=
  if (d.seen.get? hash).isSome then some (.suppressed hash)
  else if d.seen.entries.length < d.maxEntries then some (.inserted hash hostTime)
  else none

/-- A duplicate is what the table answers `false` to. -/
theorem mark_suppressed_iff (d : ApplyDedup) (hostTime nowSeconds : Int64) (hash : Word) :
    mark d hostTime hash = some (.suppressed hash) ↔ (d.see hash nowSeconds).2 = false := by
  rw [mark, ApplyDedup.see]
  by_cases hseen : (d.seen.get? hash).isSome
  · simp [hseen]
  · by_cases hroom : d.seen.entries.length < d.maxEntries <;> simp [hseen, hroom]

/-- A single apply. -/
def see (hostTime nowSeconds : Int64) (r : DedupRun) (hash : Word) : DedupRun :=
  ⟨(r.dedup.see hash nowSeconds).1, r.history ++ (mark r.dedup hostTime hash).toList⟩

/-- The applies of a batch. -/
def seeAll (r : DedupRun) (hostTime nowSeconds : Int64) (hashes : List Word) : DedupRun :=
  hashes.foldl (see hostTime nowSeconds) r

/-- A sweep. -/
def sweep (r : DedupRun) (hostTime : Int64) : DedupRun :=
  ⟨r.dedup.sweep hostTime,
    r.history ++ if r.dedup.sweepDue hostTime then [.swept hostTime] else []⟩

/-- A call. -/
def step (r : DedupRun) (event : DedupEvent) : DedupRun :=
  match event with
  | .sweep hostTime => r.sweep hostTime
  | event => (event.batch r.dedup).elim r fun (hostTime, nowSeconds, hashes) =>
      r.seeAll hostTime nowSeconds hashes

def run (r : DedupRun) (events : List DedupEvent) : DedupRun := events.foldl step r

/-- The table after a call. -/
def after (d : ApplyDedup) : DedupEvent → ApplyDedup
  | .logAssign _ enabled assignedFlags => (logAssign d enabled assignedFlags).1
  | .checkHash _ hash nowSeconds => (d.checkHash hash nowSeconds).1
  | .sweep hostTime => d.sweep hostTime

theorem foldl_filterOne (hostTime nowSeconds : Int64) (flags : List (FlagToApply × Nat)) :
    ∀ (r : DedupRun) (keep : DedupResult),
      (flags.foldl (ApplyDedup.filterOne nowSeconds) (r.dedup, keep)).1 =
        (r.seeAll hostTime nowSeconds
          (flags.map fun f => computeDedupHash f.1.assignedFlag)).dedup := by
  induction flags with
  | nil => exact fun _ _ => rfl
  | cons f flags ih =>
      intro r keep
      exact ih (r.see hostTime nowSeconds (computeDedupHash f.1.assignedFlag)) _

theorem filterDuplicates_dedup (r : DedupRun) (hostTime : Int64) (flags : List FlagToApply)
    (nowSeconds : Int64) :
    (r.dedup.filterDuplicates flags nowSeconds).1 =
      (r.seeAll hostTime (max nowSeconds r.dedup.lastSweepSeconds)
        (flags.map fun f => computeDedupHash f.assignedFlag)).dedup := by
  have hflags : flags.zipIdx.map (fun f => computeDedupHash f.1.assignedFlag) =
      flags.map fun f => computeDedupHash f.assignedFlag := by
    have hmap := List.map_map (f := Prod.fst) (g := fun f : FlagToApply =>
      computeDedupHash f.assignedFlag) (l := flags.zipIdx)
    rw [List.zipIdx_map_fst] at hmap
    exact hmap.symm
  rw [ApplyDedup.filterDuplicates, foldl_filterOne hostTime, hflags]

/-- **The table of a run** is that of the calls. -/
theorem step_dedup (r : DedupRun) (event : DedupEvent) :
    (r.step event).dedup = after r.dedup event := by
  cases event with
  | sweep hostTime => rfl
  | checkHash hostTime hash nowSeconds => rfl
  | logAssign hostTime enabled assignedFlags =>
      rcases assignedFlags with _ | ⟨first, rest⟩
      · cases enabled <;> rfl
      · cases enabled with
        | false => rfl
        | true =>
            have htable := filterDuplicates_dedup r hostTime (first :: rest)
              (Int64.ofInt first.skewAdjustedAppliedTime.seconds)
            simp only [after, logAssign, List.head?_cons, if_true]
            by_cases hempty : (r.dedup.filterDuplicates (first :: rest)
                (Int64.ofInt first.skewAdjustedAppliedTime.seconds)).2.isEmpty = true
            · rw [if_pos hempty, htable]
              rfl
            · rw [if_neg hempty]
              by_cases hall : (r.dedup.filterDuplicates (first :: rest)
                  (Int64.ofInt first.skewAdjustedAppliedTime.seconds)).2.count =
                    (first :: rest).length
              · rw [if_pos hall, htable]
                rfl
              · rw [if_neg hall, htable]
                rfl

end DedupRun

/-! ### Histories -/

theorem insertions_append (hash : Word) (l l' : List Mark) :
    insertions hash (l ++ l') = insertions hash l ++ insertions hash l' :=
  List.filterMap_append

theorem lastInserted_append {hash : Word} {l : List Mark} (l' : List Mark)
    (h : insertions hash l' = []) :
    lastInserted hash (l ++ l') = lastInserted hash l := by
  rw [lastInserted, insertions_append, h, List.append_nil, lastInserted]

/-- Where a mark stands in a history that has grown by one. -/
theorem split_append_singleton {l pre mid : List Mark} {m x : Mark}
    (h : l ++ [m] = pre ++ x :: mid) :
    (mid = [] ∧ x = m ∧ pre = l) ∨ ∃ mid', mid = mid' ++ [m] ∧ l = pre ++ x :: mid' := by
  rcases List.eq_nil_or_concat mid with rfl | ⟨mid', m', rfl⟩
  · obtain ⟨hl, hm⟩ := List.append_inj' h rfl
    cases hm
    exact .inl ⟨rfl, rfl, hl.symm⟩
  · rw [List.concat_eq_append, ← List.cons_append, ← List.append_assoc] at h
    obtain ⟨hl, hm⟩ := List.append_inj' h rfl
    cases hm
    exact .inr ⟨mid', List.concat_eq_append, hl⟩

/-! ### The invariant -/

/-- An entry is not ahead of the host's time of its insertion, and no sweep since was a window
later. -/
def Entry (ttlSeconds : Int64) (history : List Mark) (hash : Word) (ts : Int64) : Prop :=
  ∃ hostTime, lastInserted hash history = some hostTime ∧ ts.toInt ≤ hostTime.toInt ∧
    ∀ pre s mid, history = pre ++ .swept s :: mid → insertions hash mid = [] →
      s.toInt - ttlSeconds.toInt < hostTime.toInt

variable {ttlSeconds ts : Int64} {history : List Mark} {hash : Word}

theorem Entry.new (ttlSeconds : Int64) (history : List Mark) (hash : Word) {hostTime : Int64}
    (h : ts.toInt ≤ hostTime.toInt) :
    Entry ttlSeconds (history ++ [.inserted hash hostTime]) hash ts := by
  refine ⟨hostTime, by simp [lastInserted, insertions], h, fun pre s mid hsplit hmid => ?_⟩
  rcases split_append_singleton hsplit with ⟨-, hswept, -⟩ | ⟨mid', rfl, -⟩
  · cases hswept
  · simp [insertions] at hmid

/-- A mark that is no insertion of the hash, and no sweep a window after the entry. -/
theorem Entry.append (h : Entry ttlSeconds history hash ts) {m : Mark}
    (hm : insertions hash [m] = [])
    (hswept : ∀ s, m = .swept s → s.toInt - ttlSeconds.toInt < ts.toInt) :
    Entry ttlSeconds (history ++ [m]) hash ts := by
  obtain ⟨hostTime, hlast, hts, hsince⟩ := h
  refine ⟨hostTime, by rw [lastInserted_append [m] hm, hlast], hts, fun pre s mid hsplit hmid => ?_⟩
  rcases split_append_singleton hsplit with ⟨-, hs, -⟩ | ⟨mid', rfl, hold⟩
  · exact (hswept s hs.symm).trans_le hts
  · rw [insertions_append, hm, List.append_nil] at hmid
    exact hsince pre s mid' hold hmid

/-- A mark that is no duplicate. -/
theorem SuppressionBounded.append (h : SuppressionBounded ttlSeconds history) {m : Mark}
    (hm : ∀ hash, m ≠ .suppressed hash) : SuppressionBounded ttlSeconds (history ++ [m]) := by
  intro pre s mid hash post hostTime hsplit
  rw [← List.cons_append, ← List.append_assoc] at hsplit
  rcases split_append_singleton hsplit with ⟨-, hx, -⟩ | ⟨post', -, hold⟩
  · exact absurd hx.symm (hm hash)
  · exact h pre s mid hash post' hostTime (by rw [hold, List.append_assoc, List.cons_append])

/-- A duplicate of an entry. -/
theorem SuppressionBounded.suppressed (h : SuppressionBounded ttlSeconds history)
    (hentry : Entry ttlSeconds history hash ts) :
    SuppressionBounded ttlSeconds (history ++ [.suppressed hash]) := by
  intro pre s mid hash' post hostTime hsplit hpre hwindow hmid
  rw [← List.cons_append, ← List.append_assoc] at hsplit
  rcases split_append_singleton hsplit with ⟨-, hx, hold⟩ | ⟨post', -, hold⟩
  · cases hx
    obtain ⟨hostTime', hlast, -, hsince⟩ := hentry
    have hsame : lastInserted hash (pre ++ .swept s :: mid) = lastInserted hash pre :=
      lastInserted_append (.swept s :: mid) hmid
    rw [← hold, hsame, hpre] at hlast
    cases hlast
    exact absurd (hsince pre s mid hold.symm hmid) (Int.not_lt.mpr (by omega))
  · exact h pre s mid hash' post' hostTime (by rw [hold, List.append_assoc, List.cons_append])
      hpre hwindow hmid

namespace DedupRun

structure Inv (ttlSeconds : Int64) (r : DedupRun) : Prop where
  ttl : r.dedup.ttlSeconds = ttlSeconds
  entries : ∀ hash ts, r.dedup.seen.get? hash = some ts → Entry ttlSeconds r.history hash ts
  bounded : SuppressionBounded ttlSeconds r.history

theorem inv_new (ttlSeconds : Int64) (maxEntries : Nat) :
    Inv ttlSeconds ⟨.new ttlSeconds maxEntries, []⟩ where
  ttl := rfl
  entries hash ts h := by cases h
  bounded pre s mid hash post hostTime h := by simp at h

/-- A call inserts something: there is room, and a hash that is not in the table. -/
def Inserts (d : ApplyDedup) (hashes : List Word) : Prop :=
  d.seen.entries.length < d.maxEntries ∧ ∃ hash ∈ hashes, d.seen.get? hash = none

variable {r : DedupRun} {hostTime nowSeconds : Int64}

/-- The table after a single apply. -/
theorem see_cases (r : DedupRun) (hostTime nowSeconds : Int64) (hash : Word) :
    (∃ ts, r.dedup.seen.get? hash = some ts ∧
        (r.see hostTime nowSeconds hash).dedup.seen = r.dedup.seen ∧
        (r.see hostTime nowSeconds hash).history = r.history ++ [.suppressed hash]) ∨
      (r.dedup.seen.get? hash = none ∧ r.dedup.seen.entries.length < r.dedup.maxEntries ∧
        (r.see hostTime nowSeconds hash).dedup.seen = r.dedup.seen.insert hash nowSeconds ∧
        (r.see hostTime nowSeconds hash).history = r.history ++ [.inserted hash hostTime]) ∨
      (r.dedup.seen.get? hash = none ∧
        (r.see hostTime nowSeconds hash).dedup.seen = r.dedup.seen ∧
        (r.see hostTime nowSeconds hash).history = r.history) := by
  rcases hget : r.dedup.seen.get? hash with _ | ts
  · by_cases hroom : r.dedup.seen.entries.length < r.dedup.maxEntries
    · exact .inr (.inl ⟨rfl, hroom, by simp [see, ApplyDedup.see, hget, hroom],
        by simp [see, mark, hget, hroom]⟩)
    · exact .inr (.inr ⟨rfl, by simp [see, ApplyDedup.see, hget, hroom],
        by simp [see, mark, hget, hroom]⟩)
  · exact .inl ⟨ts, rfl, by simp [see, ApplyDedup.see, hget], by simp [see, mark, hget]⟩

theorem see_config (r : DedupRun) (hostTime nowSeconds : Int64) (hash : Word) :
    (r.see hostTime nowSeconds hash).dedup.ttlSeconds = r.dedup.ttlSeconds ∧
      (r.see hostTime nowSeconds hash).dedup.maxEntries = r.dedup.maxEntries := by
  rw [see, ApplyDedup.see]
  by_cases hseen : (r.dedup.seen.get? hash).isSome
  · simp [hseen]
  · by_cases hroom : r.dedup.seen.entries.length < r.dedup.maxEntries <;> simp [hseen, hroom]

/-- **An apply** keeps the invariant, if what it inserts is not ahead of the host's clock. -/
theorem Inv.see (h : Inv ttlSeconds r) (hash : Word)
    (htimely : Inserts r.dedup [hash] → nowSeconds.toInt ≤ hostTime.toInt) :
    Inv ttlSeconds (r.see hostTime nowSeconds hash) := by
  refine ⟨(see_config r hostTime nowSeconds hash).1.trans h.ttl, fun hash' ts hget => ?_, ?_⟩
  · rcases see_cases r hostTime nowSeconds hash with
      ⟨_, -, hseen, hhistory⟩ | ⟨hnone, hroom, hseen, hhistory⟩ | ⟨-, hseen, hhistory⟩ <;>
      rw [hseen] at hget <;> rw [hhistory]
    · exact (h.entries hash' ts hget).append rfl (by simp)
    · rw [HashMap.get?_insert] at hget
      by_cases hsame : hash = hash'
      · rw [if_pos hsame] at hget
        cases hget
        subst hsame
        exact .new _ _ _ (htimely ⟨hroom, hash, List.mem_singleton_self hash, hnone⟩)
      · rw [if_neg hsame] at hget
        exact (h.entries hash' ts hget).append (by simp [insertions, hsame]) (by simp)
    · exact h.entries hash' ts hget
  · rcases see_cases r hostTime nowSeconds hash with
      ⟨ts, hget, -, hhistory⟩ | ⟨-, -, -, hhistory⟩ | ⟨-, -, hhistory⟩ <;> rw [hhistory]
    · exact h.bounded.suppressed (h.entries hash ts hget)
    · exact h.bounded.append (by simp)
    · exact h.bounded

/-- What a batch inserts later, it would have inserted at once. -/
theorem Inserts.of_see {hash : Word} {hashes : List Word}
    (h : Inserts (r.see hostTime nowSeconds hash).dedup hashes) :
    Inserts r.dedup (hash :: hashes) := by
  obtain ⟨hroom, hash', hmem, hnone⟩ := h
  rw [(see_config r hostTime nowSeconds hash).2] at hroom
  rcases see_cases r hostTime nowSeconds hash with
    ⟨_, -, hseen, -⟩ | ⟨hget, -, hseen, -⟩ | ⟨-, hseen, -⟩ <;> rw [hseen] at hroom hnone
  · exact ⟨hroom, hash', List.mem_cons_of_mem hash hmem, hnone⟩
  · rw [HashMap.entries_insert hget, List.length_cons] at hroom
    exact ⟨(Nat.lt_succ_self _).trans hroom, hash, List.mem_cons_self, hget⟩
  · exact ⟨hroom, hash', List.mem_cons_of_mem hash hmem, hnone⟩

/-- **A batch** keeps the invariant. -/
theorem Inv.seeAll {hashes : List Word} :
    ∀ {r : DedupRun}, Inv ttlSeconds r →
      (Inserts r.dedup hashes → nowSeconds.toInt ≤ hostTime.toInt) →
      Inv ttlSeconds (r.seeAll hostTime nowSeconds hashes) := by
  induction hashes with
  | nil => exact fun h _ => h
  | cons hash hashes ih =>
      intro r h htimely
      refine ih (h.see hash fun ⟨hroom, hash', hmem, hnone⟩ => htimely ⟨hroom, hash', ?_, hnone⟩)
        fun hinserts => htimely hinserts.of_see
      exact List.mem_cons.mpr (.inl (List.mem_singleton.mp hmem))

/-- **A sweep** keeps the invariant: what it leaves is younger than the window. -/
theorem Inv.sweep (h : Inv ttlSeconds r) (hostTime : Int64) :
    Inv ttlSeconds (r.sweep hostTime) := by
  by_cases hdue : r.dedup.sweepDue hostTime
  · rw [DedupRun.sweep, if_pos hdue, ApplyDedup.sweep, if_pos hdue]
    refine ⟨h.ttl, fun hash ts hget => ?_, h.bounded.append (by simp)⟩
    rw [HashMap.get?_retain, Option.filter_eq_some_iff] at hget
    obtain ⟨hget, hyoung⟩ := hget
    refine (h.entries hash ts hget).append rfl fun s hs => ?_
    cases hs
    have hlt := sub_lt_of_saturatingSub_lt (of_decide_eq_true hyoung)
    rw [h.ttl] at hlt
    omega
  · rw [DedupRun.sweep, if_neg hdue, ApplyDedup.sweep, if_neg hdue, List.append_nil]
    exact h

/-- A call gives no new entry a time ahead of the host's clock. -/
def Timely (d : ApplyDedup) (event : DedupEvent) : Prop :=
  ∀ hostTime nowSeconds hashes, event.batch d = some (hostTime, nowSeconds, hashes) →
    Inserts d hashes → nowSeconds.toInt ≤ hostTime.toInt

/-- **A call** keeps the invariant. -/
theorem Inv.step (h : Inv ttlSeconds r) {event : DedupEvent} (htimely : Timely r.dedup event) :
    Inv ttlSeconds (r.step event) := by
  cases event with
  | sweep hostTime => exact h.sweep hostTime
  | checkHash hostTime hash nowSeconds => exact h.seeAll (htimely _ _ _ rfl)
  | logAssign hostTime enabled assignedFlags =>
      rcases hbatch : (DedupEvent.logAssign hostTime enabled assignedFlags).batch r.dedup
        with _ | ⟨t, now, hashes⟩
      · simp only [DedupRun.step, hbatch]
        exact h
      · simp only [DedupRun.step, hbatch]
        exact h.seeAll (htimely _ _ _ hbatch)

end DedupRun

/-- Every call of a run is timely when it is made. -/
def TimelyRun (r : DedupRun) : List DedupEvent → Prop
  | [] => True
  | event :: events => DedupRun.Timely r.dedup event ∧ TimelyRun (r.step event) events

theorem DedupRun.Inv.run {events : List DedupEvent} :
    ∀ {r : DedupRun}, Inv ttlSeconds r → TimelyRun r events → Inv ttlSeconds (r.run events) := by
  induction events with
  | nil => exact fun h _ => h
  | cons event events ih => exact fun h htimely => ih (h.step htimely.1) htimely.2

/-- The table of a run, by the calls. -/
theorem DedupRun.run_dedup (events : List DedupEvent) :
    ∀ r : DedupRun, (r.run events).dedup = events.foldl after r.dedup := by
  induction events with
  | nil => exact fun _ => rfl
  | cons event events ih =>
      intro r
      rw [List.foldl_cons, ← r.step_dedup event]
      exact ih (r.step event)

/-- **Suppression is bounded by the window**, in every run whose calls are timely.  The table of the
run is that of the calls, and what it marks as suppressed is what `see` answers `false` to. -/
theorem suppression_bounded {ttlSeconds : Int64} {maxEntries : Nat} {events : List DedupEvent}
    (h : TimelyRun ⟨.new ttlSeconds maxEntries, []⟩ events) :
    let r := (⟨.new ttlSeconds maxEntries, []⟩ : DedupRun).run events
    SuppressionBounded ttlSeconds r.history ∧
      r.dedup = events.foldl DedupRun.after (.new ttlSeconds maxEntries) ∧
      ∀ hostTime nowSeconds hash, DedupRun.mark r.dedup hostTime hash = some (.suppressed hash) ↔
        (r.dedup.see hash nowSeconds).2 = false := by
  intro r
  refine ⟨(DedupRun.Inv.run (DedupRun.inv_new ttlSeconds maxEntries) h).bounded,
    DedupRun.run_dedup events _, ?_⟩
  intro hostTime nowSeconds hash
  exact DedupRun.mark_suppressed_iff r.dedup hostTime nowSeconds hash

namespace Sample

/-- The flag, applied at a time of the host's. -/
def appliedAt (seconds : Int) : List FlagToApply := [⟨everyoneAssigned, ⟨seconds, 0⟩⟩]

/-- Sent at 100 by the client's clock, and applied an hour later by the same clock. -/
def futureRequest : ApplyFlagsRequest Encoded :=
  { applyRequest with flags := [⟨"flags/f", some ⟨3700, 0⟩⟩], sendTime := some ⟨100, 0⟩ }

def appliedHash : Word := computeDedupHash everyoneAssigned

/-- An apply at 1000, a sweep at 1200 and an apply of the same at 1300, the first with a given
time. -/
def sweptBetween (seconds : Int) : List DedupEvent :=
  [.logAssign 1000 true (appliedAt seconds), .sweep 1200, .logAssign 1300 true (appliedAt 1300)]

def guest : DedupRun := ⟨.new 120 100000, []⟩

end Sample

theorem suppression_bounded_sample :
    (Sample.guest.run (Sample.sweptBetween 1000)).history =
        [.inserted Sample.appliedHash 1000, .swept 1200, .inserted Sample.appliedHash 1300] ∧
      SuppressionBounded 120 (Sample.guest.run (Sample.sweptBetween 1000)).history := by
  have htimely : TimelyRun Sample.guest (Sample.sweptBetween 1000) := by
    refine ⟨?_, ?_, ?_, trivial⟩
    · intro hostTime nowSeconds hashes hbatch _
      cases hbatch
      decide
    · intro hostTime nowSeconds hashes hbatch
      cases hbatch
    · intro hostTime nowSeconds hashes hbatch _
      cases hbatch
      decide +kernel
  exact ⟨by decide +kernel, (suppression_bounded htimely).1⟩

/-- **A client that applies after it has sent**, by its own clock: its apply suppresses another one
300 seconds later, after a sweep. -/
theorem future_apply_suppressed :
    Sample.everyoneResolver.applyFlags Sample.seconds
          { Sample.applyHost with currentTime := ⟨1000, 0⟩ } Sample.futureRequest =
        .ok [.logAssign "r" (Sample.appliedAt 4600) Sample.everyoneResolver.client none] ∧
      (Sample.guest.run (Sample.sweptBetween 4600)).history =
        [.inserted Sample.appliedHash 1000, .swept 1200, .suppressed Sample.appliedHash] ∧
      ¬ SuppressionBounded 120 (Sample.guest.run (Sample.sweptBetween 4600)).history := by
  have hhistory : (Sample.guest.run (Sample.sweptBetween 4600)).history =
      [.inserted Sample.appliedHash 1000, .swept 1200, .suppressed Sample.appliedHash] := by
    decide +kernel
  refine ⟨rfl, hhistory, fun h => ?_⟩
  refine h [.inserted Sample.appliedHash 1000] 1200 [] Sample.appliedHash [] 1000 hhistory ?_
    (by decide) rfl
  simp [lastInserted, insertions]

end ConfidenceResolver
