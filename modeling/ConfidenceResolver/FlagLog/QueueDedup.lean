import Mathlib.Data.Finset.Card
import ConfidenceResolver.FlagLog.Disposition
import ConfidenceResolver.Support.Firsts

/-!
# FlagLog — the pass for duplicates

The consumer of the queue drops the applied flags whose hash occurred earlier in its records, and
the envelopes that have no flags then.

* `Tracks`: the table holds the hashes that were seen, as long as they fit in.
* `dedupFlagApplies_eq`: what the pass keeps are the first occurrences, in envelopes with flags.
* `keeps_firsts_iff`: that it keeps first occurrences and nothing else changes, except for envelopes
  that were without flags from the start.
-/

namespace ConfidenceResolver

/-! ### The table -/

namespace ApplyDedup

/-- The table holds the hashes that were seen. -/
def Tracks (d : ApplyDedup) (seen : List Word) : Prop :=
  ∀ hash, (d.seen.get? hash).isSome = true ↔ hash ∈ seen

theorem tracks_new (ttlSeconds : Int64) (maxEntries : Nat) :
    (new ttlSeconds maxEntries).Tracks [] :=
  fun _ => iff_of_false Bool.false_ne_true List.not_mem_nil

/-- Its entries are as many as there are distinct hashes. -/
theorem Tracks.length_eq {d : ApplyDedup} {seen : List Word} (h : d.Tracks seen) :
    d.seen.entries.length = seen.toFinset.card := by
  have hkeys : (d.seen.entries.map Prod.fst).toFinset = seen.toFinset := by
    ext hash
    rw [List.mem_toFinset, List.mem_toFinset, ← h hash, Option.isSome_iff_exists]
    constructor
    · intro hmem
      obtain ⟨⟨_, ts⟩, he, rfl⟩ := List.mem_map.mp hmem
      exact ⟨ts, HashMap.mem_entries.mp he⟩
    · rintro ⟨ts, hts⟩
      exact List.mem_map.mpr ⟨(hash, ts), HashMap.mem_entries.mpr hts, rfl⟩
  rw [← hkeys, List.toFinset_card_of_nodup d.seen.nodup, List.length_map]

/-- **One apply** is new when its hash was not seen, and is seen after that. -/
theorem Tracks.checkHash {d : ApplyDedup} {seen : List Word} (h : d.Tracks seen) (hash : Word)
    (nowSeconds : Int64) (hfits : (hash :: seen).toFinset.card ≤ d.maxEntries) :
    (d.checkHash hash nowSeconds).2 = decide (hash ∉ seen) ∧
      (d.checkHash hash nowSeconds).1.Tracks (hash :: seen) ∧
      (d.checkHash hash nowSeconds).1.maxEntries = d.maxEntries := by
  rw [ApplyDedup.checkHash, see]
  by_cases hseen : hash ∈ seen
  · rw [if_pos ((h hash).mpr hseen)]
    refine ⟨by simp [hseen], fun hash' => (h hash').trans ?_, rfl⟩
    rw [List.mem_cons, iff_or_self]
    rintro rfl
    exact hseen
  · have hroom : d.seen.entries.length < d.maxEntries := by
      rw [h.length_eq]
      rw [List.toFinset_cons, Finset.card_insert_of_notMem (by rwa [List.mem_toFinset])] at hfits
      exact hfits
    rw [if_neg (fun hsome => hseen ((h hash).mp hsome)), if_pos hroom]
    refine ⟨by simp [hseen], fun hash' => ?_, rfl⟩
    change ((d.seen.insert hash _).get? hash').isSome = true ↔ _
    rw [HashMap.get?_insert, List.mem_cons]
    by_cases hsame : hash = hash'
    · simp [hsame]
    · simp [hsame, Ne.symm hsame, h hash']

end ApplyDedup

namespace FlagLog

/-! ### First occurrences -/

/-- `compute_applied_flag_dedup_hash` of an applied flag of an event. -/
def flagHash (flag : AppliedFlag) : Word := computeAppliedFlagDedupHash (.ofAppliedFlag flag)

def envelopeHashes (envelopes : List FlagAssigned) : List Word :=
  envelopes.flatMap fun e => e.flags.map flagHash

def logHashes (logs : List WriteFlagLogsRequest) : List Word :=
  logs.flatMap fun log => envelopeHashes log.flagAssigned

/-- Which envelopes stay, by what they were and what they become. -/
abbrev Keep : Type := FlagAssigned → FlagAssigned → Bool

/-- Those that have flags. -/
def withFlags : Keep := fun _ e => decide (e.flags ≠ [])

/-- And those that had none before. -/
def notEmptied : Keep := fun before e => decide (before.flags = [] ∨ e.flags ≠ [])

/-- The envelopes with the first occurrences of their flags. -/
def firstEnvelopes (keep : Keep) (seen : List Word) : List FlagAssigned → List FlagAssigned
  | [] => []
  | e :: rest =>
      let first := { e with flags := firsts flagHash seen e.flags }
      let rest := firstEnvelopes keep (e.flags.map flagHash ++ seen) rest
      if keep e first then first :: rest else rest

/-- The logs with them, and with all else as it was. -/
def firstLogs (keep : Keep) (seen : List Word) :
    List WriteFlagLogsRequest → List WriteFlagLogsRequest
  | [] => []
  | log :: logs =>
      { log with flagAssigned := firstEnvelopes keep seen log.flagAssigned } ::
        firstLogs keep (envelopeHashes log.flagAssigned ++ seen) logs

theorem firstEnvelopes_congr {keep : Keep} {seen seen' : List Word}
    (h : ∀ hash, hash ∈ seen ↔ hash ∈ seen') (l : List FlagAssigned) :
    firstEnvelopes keep seen l = firstEnvelopes keep seen' l := by
  induction l generalizing seen seen' with
  | nil => rfl
  | cons e rest ih =>
      have hnext : ∀ hash, hash ∈ e.flags.map flagHash ++ seen ↔
          hash ∈ e.flags.map flagHash ++ seen' := by
        intro hash
        rw [List.mem_append, List.mem_append, h]
      rw [firstEnvelopes, firstEnvelopes, firsts_congr h, ih hnext]

theorem firstLogs_congr {keep : Keep} {seen seen' : List Word}
    (h : ∀ hash, hash ∈ seen ↔ hash ∈ seen') (logs : List WriteFlagLogsRequest) :
    firstLogs keep seen logs = firstLogs keep seen' logs := by
  induction logs generalizing seen seen' with
  | nil => rfl
  | cons log logs ih =>
      have hnext : ∀ hash, hash ∈ envelopeHashes log.flagAssigned ++ seen ↔
          hash ∈ envelopeHashes log.flagAssigned ++ seen' := by
        intro hash
        rw [List.mem_append, List.mem_append, h]
      rw [firstLogs, firstLogs, firstEnvelopes_congr h, ih hnext]

/-! ### What the pass keeps -/

/-- The table after some hashes. -/
structure After (d d' : ApplyDedup) (seen hashes : List Word) : Prop where
  tracks : d'.Tracks (hashes ++ seen)
  maxEntries : d'.maxEntries = d.maxEntries

theorem After.trans {d d' d'' : ApplyDedup} {seen hashes hashes' : List Word}
    (h : After d d' seen hashes) (h' : After d' d'' (hashes ++ seen) hashes') :
    After d d'' seen (hashes ++ hashes') where
  tracks hash := by
    rw [h'.tracks hash]
    simp only [List.mem_append]
    tauto
  maxEntries := h'.maxEntries.trans h.maxEntries

/-- Fewer hashes fit where more do. -/
theorem fits_of_subset {l l' : List Word} {n : Nat} (h : l ⊆ l') (hfits : l'.toFinset.card ≤ n) :
    l.toFinset.card ≤ n := by
  refine (Finset.card_le_card fun x hx => ?_).trans hfits
  rw [List.mem_toFinset] at hx ⊢
  exact h hx

/-- What fits with the hashes seen is made room for in two parts. -/
theorem fits_append {l l' seen : List Word} {n : Nat}
    (hfits : ((l ++ l') ++ seen).toFinset.card ≤ n) :
    (l ++ seen).toFinset.card ≤ n ∧ (l' ++ (l ++ seen)).toFinset.card ≤ n := by
  have hperm : (l' ++ (l ++ seen)).Perm ((l ++ l') ++ seen) := by
    rw [List.append_assoc]
    exact List.perm_append_comm_assoc l' l seen
  exact ⟨fits_of_subset (fun _ hx => hperm.subset (List.mem_append_right l' hx)) hfits,
    fits_of_subset hperm.subset hfits⟩

theorem dedupFlags_eq (nowSeconds : Int64) {d : ApplyDedup} {seen : List Word}
    (h : d.Tracks seen) {flags : List AppliedFlag}
    (hfits : (flags.map flagHash ++ seen).toFinset.card ≤ d.maxEntries) :
    (dedupFlags nowSeconds d flags).2 = firsts flagHash seen flags ∧
      After d (dedupFlags nowSeconds d flags).1 seen (flags.map flagHash) := by
  induction flags generalizing d seen with
  | nil => exact ⟨rfl, h, rfl⟩
  | cons flag flags ih =>
      obtain ⟨hone, hrest⟩ := fits_append (l := [flagHash flag]) hfits
      obtain ⟨hnew, htracks, hmax⟩ := h.checkHash (flagHash flag) nowSeconds hone
      have hfirst : After d (d.checkHash (flagHash flag) nowSeconds).1 seen [flagHash flag] :=
        ⟨htracks, hmax⟩
      obtain ⟨hkept, hafter⟩ := ih htracks (by rwa [hmax])
      refine ⟨?_, hfirst.trans hafter⟩
      change (if (d.checkHash (flagHash flag) nowSeconds).2 then
        flag :: (dedupFlags nowSeconds (d.checkHash (flagHash flag) nowSeconds).1 flags).2
        else (dedupFlags nowSeconds (d.checkHash (flagHash flag) nowSeconds).1 flags).2) = _
      rw [hkept, hnew, firsts]
      by_cases hseen : flagHash flag ∈ seen <;> simp [hseen]

theorem dedupEnvelopes_eq (nowSeconds : Int64) {d : ApplyDedup} {seen : List Word}
    (h : d.Tracks seen) {envelopes : List FlagAssigned}
    (hfits : (envelopeHashes envelopes ++ seen).toFinset.card ≤ d.maxEntries) :
    (dedupEnvelopes nowSeconds d envelopes).2 = firstEnvelopes withFlags seen envelopes ∧
      After d (dedupEnvelopes nowSeconds d envelopes).1 seen (envelopeHashes envelopes) := by
  induction envelopes generalizing d seen with
  | nil => exact ⟨rfl, h, rfl⟩
  | cons e rest ih =>
      obtain ⟨hone, hrest⟩ := fits_append (l := e.flags.map flagHash) hfits
      obtain ⟨hflags, hafter⟩ := dedupFlags_eq nowSeconds h hone
      obtain ⟨hkept, hafter'⟩ := ih hafter.tracks (by rwa [hafter.maxEntries])
      refine ⟨?_, hafter.trans hafter'⟩
      rw [firstEnvelopes, ← hflags, ← hkept, withFlags]
      change (if (dedupFlags nowSeconds d e.flags).2 = [] then _ else _) = _
      by_cases hnil : (dedupFlags nowSeconds d e.flags).2 = []
      · rw [if_pos hnil]
        simp [hnil]
      · rw [if_neg hnil]
        simp [hnil]

/-- **What the pass keeps**: the first occurrences, in the envelopes that have one. -/
theorem dedupFlagApplies_eq (nowSeconds : Int64) {d : ApplyDedup} {seen : List Word}
    (h : d.Tracks seen) {logs : List WriteFlagLogsRequest}
    (hfits : (logHashes logs ++ seen).toFinset.card ≤ d.maxEntries) :
    (dedupFlagApplies nowSeconds d logs).2 = firstLogs withFlags seen logs := by
  induction logs generalizing d seen with
  | nil => rfl
  | cons log logs ih =>
      obtain ⟨hone, hrest⟩ := fits_append (l := envelopeHashes log.flagAssigned) hfits
      obtain ⟨henvelopes, hafter⟩ := dedupEnvelopes_eq nowSeconds h hone
      rw [firstLogs, ← henvelopes, ← ih hafter.tracks (by rwa [hafter.maxEntries])]
      rfl

/-! ### Nothing else -/

/-- The flags of the envelopes that stay, each with its resolve, are the first occurrences. -/
theorem appliedIn_firstEnvelopes {keep : Keep}
    (hkeep : ∀ before e, e.flags ≠ [] → keep before e = true) (seen : List Word)
    (l : List FlagAssigned) :
    appliedIn (firstEnvelopes keep seen l) =
      firsts (fun flag => flagHash flag.2.2) seen (appliedIn l) := by
  induction l generalizing seen with
  | nil => rfl
  | cons e rest ih =>
      have hmap : (e.flags.map fun flag => (e.resolveId, e.clientInfo, flag)).map
          (fun flag => flagHash flag.2.2) = e.flags.map flagHash := by
        rw [List.map_map]
        rfl
      have hcons : appliedIn (e :: rest) =
          e.flags.map (fun flag => (e.resolveId, e.clientInfo, flag)) ++ appliedIn rest := rfl
      rw [hcons, firsts_append, firsts_map, hmap, ← ih, firstEnvelopes]
      by_cases hfirst : firsts flagHash seen e.flags = []
      · -- what stays or goes has no flags
        rw [hfirst]
        split <;> rfl
      · rw [if_pos (hkeep _ _ hfirst)]
        rfl

/-- The hashes are those of the flags. -/
theorem envelopeHashes_eq (l : List FlagAssigned) :
    envelopeHashes l = (appliedIn l).map fun flag => flagHash flag.2.2 := by
  rw [appliedIn, envelopeHashes, List.map_flatMap]
  congr 1
  funext e
  rw [List.map_map]
  rfl

theorem withFlags_stays (before e : FlagAssigned) (h : e.flags ≠ []) : withFlags before e = true :=
  decide_eq_true h

theorem applied_firstLogs {keep : Keep}
    (hkeep : ∀ before e, e.flags ≠ [] → keep before e = true) (seen : List Word)
    (logs : List WriteFlagLogsRequest) :
    (firstLogs keep seen logs).flatMap applied =
      firsts (fun flag => flagHash flag.2.2) seen (logs.flatMap applied) := by
  induction logs generalizing seen with
  | nil => rfl
  | cons log logs ih =>
      rw [firstLogs, List.flatMap_cons, List.flatMap_cons, firsts_append, envelopeHashes_eq, ih,
        applied, appliedIn_firstEnvelopes hkeep]
      rfl

/-- No hash is lost. -/
theorem mem_envelopeHashes_first (seen : List Word) (l : List FlagAssigned) (hash : Word) :
    hash ∈ envelopeHashes (firstEnvelopes withFlags seen l) ++ seen ↔
      hash ∈ envelopeHashes l ++ seen := by
  rw [envelopeHashes_eq, envelopeHashes_eq, appliedIn_firstEnvelopes withFlags_stays]
  exact mem_keys_firsts seen (appliedIn l) hash

/-- What is kept has no new hashes. -/
theorem logHashes_firstLogs (seen : List Word) (logs : List WriteFlagLogsRequest) :
    logHashes (firstLogs withFlags seen logs) ⊆ logHashes logs := by
  have hmap (logs : List WriteFlagLogsRequest) : logHashes logs =
      (logs.flatMap applied).map fun flag => flagHash flag.2.2 := by
    rw [logHashes, List.map_flatMap]
    congr 1
    funext log
    exact envelopeHashes_eq log.flagAssigned
  rw [hmap, hmap, applied_firstLogs withFlags_stays]
  exact List.map_subset _ (firsts_sublist seen _).subset

theorem firstEnvelopes_idem (seen : List Word) (l : List FlagAssigned) :
    firstEnvelopes withFlags seen (firstEnvelopes withFlags seen l) =
      firstEnvelopes withFlags seen l := by
  induction l generalizing seen with
  | nil => rfl
  | cons e rest ih =>
      have hkeys : ∀ hash, hash ∈ (firsts flagHash seen e.flags).map flagHash ++ seen ↔
          hash ∈ e.flags.map flagHash ++ seen := mem_keys_firsts seen e.flags
      rw [firstEnvelopes]
      by_cases hfirst : firsts flagHash seen e.flags = []
      · -- the envelope is emptied: its hashes were all seen
        rw [hfirst] at hkeys
        have hdrop : withFlags e { e with flags := [] } = false := decide_eq_false (by simp)
        rw [hfirst, if_neg (by rw [hdrop]; exact Bool.false_ne_true),
          firstEnvelopes_congr (fun hash => (hkeys hash).symm) rest]
        exact ih seen
      · have hstay (before : FlagAssigned) :
            withFlags before { e with flags := firsts flagHash seen e.flags } = true :=
          decide_eq_true hfirst
        rw [if_pos (hstay e), firstEnvelopes, firsts_firsts, if_pos (hstay _),
          firstEnvelopes_congr hkeys, ih]

theorem firstLogs_idem (seen : List Word) (logs : List WriteFlagLogsRequest) :
    firstLogs withFlags seen (firstLogs withFlags seen logs) = firstLogs withFlags seen logs := by
  induction logs generalizing seen with
  | nil => rfl
  | cons log logs ih =>
      rw [firstLogs, firstLogs, firstEnvelopes_idem,
        firstLogs_congr (mem_envelopeHashes_first seen log.flagAssigned), ih]

/-- No envelope is left without flags. -/
theorem firstEnvelopes_withFlags (seen : List Word) (l : List FlagAssigned) :
    ∀ e ∈ firstEnvelopes withFlags seen l, e.flags ≠ [] := by
  induction l generalizing seen with
  | nil => exact fun e he => absurd he List.not_mem_nil
  | cons e rest ih =>
      intro e' he'
      rw [firstEnvelopes] at he'
      split at he'
      · rename_i hstay
        obtain rfl | hrest := List.mem_cons.mp he'
        · exact of_decide_eq_true hstay
        · exact ih _ e' hrest
      · exact ih _ e' he'

/-- The two ways to keep envelopes agree where none was without flags. -/
theorem firstEnvelopes_notEmptied (seen : List Word) (l : List FlagAssigned) :
    firstEnvelopes withFlags seen l = firstEnvelopes notEmptied seen l ↔ ∀ e ∈ l, e.flags ≠ [] := by
  induction l generalizing seen with
  | nil => exact iff_of_true rfl fun e he => absurd he List.not_mem_nil
  | cons e rest ih =>
      have hrest := ih (e.flags.map flagHash ++ seen)
      rw [List.forall_mem_cons]
      by_cases hempty : e.flags = []
      · refine iff_of_false ?_ fun h => h.1 hempty
        intro heq
        -- the envelope is among those that are not emptied
        have hmem : ({ e with flags := firsts flagHash seen e.flags } : FlagAssigned) ∈
            firstEnvelopes notEmptied seen (e :: rest) := by
          have hstay : notEmptied e { e with flags := firsts flagHash seen e.flags } = true :=
            decide_eq_true (.inl hempty)
          rw [firstEnvelopes, if_pos hstay]
          exact List.mem_cons_self
        rw [← heq] at hmem
        refine firstEnvelopes_withFlags seen (e :: rest) _ hmem ?_
        rw [hempty]
        rfl
      · have hsame (e' : FlagAssigned) : withFlags e e' = notEmptied e e' := by
          simp [withFlags, notEmptied, hempty]
        refine Iff.trans ?_ (hrest.trans (and_iff_right hempty).symm)
        rw [firstEnvelopes, firstEnvelopes, hsame]
        split
        · rw [List.cons.injEq, and_iff_right rfl]
        · rfl

theorem firstLogs_notEmptied (seen : List Word) (logs : List WriteFlagLogsRequest) :
    firstLogs withFlags seen logs = firstLogs notEmptied seen logs ↔
      ∀ log ∈ logs, NoEmptyEnvelope log := by
  induction logs generalizing seen with
  | nil => exact iff_of_true rfl fun log hlog => absurd hlog List.not_mem_nil
  | cons log logs ih =>
      rw [firstLogs, firstLogs, List.cons.injEq, ih, List.forall_mem_cons, NoEmptyEnvelope,
        ← firstEnvelopes_notEmptied seen log.flagAssigned]
      refine and_congr_left fun _ => ?_
      constructor
      · exact fun h => congrArg WriteFlagLogsRequest.flagAssigned h
      · intro h
        rw [h]

/-- The pass keeps first occurrences, changes nothing else, and nothing the second time. -/
structure KeepsFirsts (pass : List WriteFlagLogsRequest → List WriteFlagLogsRequest)
    (logs : List WriteFlagLogsRequest) : Prop where
  flags : (pass logs).flatMap applied =
    firsts (fun flag => flagHash flag.2.2) [] (logs.flatMap applied)
  rest : pass logs = firstLogs notEmptied [] logs
  idempotent : pass (pass logs) = pass logs

/-- **The pass for duplicates keeps exactly first occurrences** and nothing else changes, exactly
when no envelope is without flags from the start. -/
theorem keeps_firsts_iff (logs : List WriteFlagLogsRequest) (nowSeconds ttlSeconds : Int64)
    (maxEntries : Nat) (hfits : (logHashes logs).toFinset.card ≤ maxEntries) :
    KeepsFirsts (fun logs => (dedupFlagApplies nowSeconds (.new ttlSeconds maxEntries) logs).2)
        logs ↔ ∀ log ∈ logs, NoEmptyEnvelope log := by
  have hpass (logs : List WriteFlagLogsRequest) (hfits : (logHashes logs).toFinset.card ≤ maxEntries) :
      (dedupFlagApplies nowSeconds (.new ttlSeconds maxEntries) logs).2 =
        firstLogs withFlags [] logs :=
    dedupFlagApplies_eq nowSeconds (ApplyDedup.tracks_new ttlSeconds maxEntries)
      (by rwa [List.append_nil])
  have hsecond : (logHashes (firstLogs withFlags [] logs)).toFinset.card ≤ maxEntries :=
    fits_of_subset (logHashes_firstLogs [] logs) hfits
  constructor
  · intro h
    rw [← firstLogs_notEmptied [], ← hpass logs hfits]
    exact h.rest
  · intro hfull
    refine ⟨?_, ?_, ?_⟩
    · rw [hpass logs hfits]
      exact applied_firstLogs withFlags_stays [] logs
    · rw [hpass logs hfits]
      exact (firstLogs_notEmptied [] logs).mpr hfull
    · simp only [hpass logs hfits, hpass _ hsecond, firstLogs_idem]

end FlagLog

namespace Sample

/-- A flag of a user, as two isolates log it. -/
def appliedTo (user : String) : AppliedFlag :=
  ⟨"flags/f", user, "", "", "flags/f/rules/1", [], none, none⟩

def appliesOf (resolveId : String) (users : List String) : WriteFlagLogsRequest :=
  { flagAssigned := [⟨resolveId, none, users.map appliedTo⟩] }

end Sample

namespace FlagLog

theorem keeps_firsts_iff_sample :
    KeepsFirsts
      (fun logs => (dedupFlagApplies 7 (.new Int64.maxValue dedupMaxEntries) logs).2)
      [Sample.appliesOf "r" ["u", "v"], Sample.appliesOf "s" ["u"]] := by
  refine (keeps_firsts_iff _ 7 Int64.maxValue dedupMaxEntries ?_).mpr ?_
  · exact (List.toFinset_card_le _).trans (show 3 ≤ dedupMaxEntries by decide)
  · simp [NoEmptyEnvelope, Sample.appliesOf]

/-- **An envelope without flags**, as an apply of no flags makes it, is removed. -/
theorem empty_envelope_removed :
    (Sample.appliesOf "r" []).flagAssigned ≠ [] ∧
      dedupBatchFlagApplies [Sample.appliesOf "r" []] 7 =
        [{ Sample.appliesOf "r" [] with flagAssigned := [] }] ∧
      ¬ KeepsFirsts (fun logs => dedupBatchFlagApplies logs 7) [Sample.appliesOf "r" []] := by
  refine ⟨List.cons_ne_nil _ _, rfl, fun h => ?_⟩
  have hrest := h.rest
  simp [dedupBatchFlagApplies, dedupFlagApplies, dedupEnvelopes, dedupFlags, firstLogs,
    firstEnvelopes, firsts, notEmptied, Sample.appliesOf] at hrest

end FlagLog

end ConfidenceResolver
