import ConfidenceResolver.Hosts.ReloadingResolver
import ConfidenceResolver.Logs.Conservation
import ConfidenceResolver.Proto.LogFields
import Mathlib.Algebra.BigOperators.Group.Multiset.Basic

/-!
# Hosts — logs recovered from a crashed instance

The logs that a reload takes from the old instance are joined with those of the next flush, by
appending their encodings.  What is read from a result of `flushLogs` is compared with what the
instances have flushed.

* `LogRun.step`: a run of the JS or the Python resolver.
* `LogRun.Preserved`: the assignment events, the counts by key and the telemetry counters.
* `LogRun.OneEach`: no counter of the telemetry is overwritten in a result.
* `recovered_logs_iff`: in every run, the first if and only if the second.
-/

namespace ConfidenceResolver

open Saturating

/-! ### The model -/

/-- The two resolvers. -/
inductive LogHost where
  | js
  | python

def CallOutcome.map {α β : Type*} (f : α → β) : CallOutcome α → CallOutcome β
  | .returned value => .returned (f value)
  | .guestError => .guestError
  | .trapped => .trapped

namespace LogHost

variable {S : Type*} [DecidableEq S]

/-- The instance is reloaded behind a call that ends so. -/
def reloads {α : Type*} : LogHost → CallOutcome α → Bool
  | .js, .trapped | .python, .trapped | .python, .guestError => true
  | .js, .returned _ | .js, .guestError | .python, .returned _ => false

def call (host : LogHost) (r : ReloadingResolver S LogField) (outcome : CallOutcome Unit)
    (reload : Reload LogField) : ReloadingResolver S LogField :=
  match host with
  | .js => JsResolver.call r outcome reload.flushed
  | .python => PyResolver.call r outcome reload

def setResolverState (host : LogHost) (r : ReloadingResolver S LogField) (state : S)
    (outcome : CallOutcome Unit) (reload : Reload LogField) : ReloadingResolver S LogField :=
  match host with
  | .js => (JsResolver.setResolverState r state outcome reload.flushed).1
  | .python => (PyResolver.setResolverState r state outcome reload).1

def flushLogs (host : LogHost) (r : ReloadingResolver S LogField)
    (outcome : CallOutcome (List LogField)) (reload : Reload LogField) :
    ReloadingResolver S LogField × Option (List LogField) :=
  match host with
  | .js => JsResolver.flushLogs r outcome reload.flushed
  | .python => PyResolver.flushLogs r outcome reload

end LogHost

/-- What a reload meets, with the request that the old instance flushes. -/
structure RequestReload where
  flushed : Option WriteFlagLogsRequest
  accepts : Bool

def RequestReload.encode (reload : RequestReload) : Reload LogField :=
  ⟨reload.flushed.map WriteFlagLogsRequest.encode, reload.accepts⟩

/-- A run: the resolver, and the results of `flushLogs`.  For stating what follows: the requests
that were joined in each result, and those that were flushed since. -/
structure LogRun (S : Type*) where
  resolver : ReloadingResolver S LogField
  results : List (List LogField)
  joined : List (List WriteFlagLogsRequest)
  kept : List WriteFlagLogsRequest

inductive LogRunEvent (S : Type*) where
  | resolve (outcome : CallOutcome Unit) (reload : RequestReload)
  /-- `registerResolve` swallows its errors, and reloads nothing. -/
  | registerResolve (outcome : CallOutcome Unit)
  | setResolverState (state : S) (outcome : CallOutcome Unit) (reload : RequestReload)
  | flushLogs (outcome : CallOutcome WriteFlagLogsRequest) (reload : RequestReload)

namespace LogRun

variable {S : Type*} [DecidableEq S]

def new : LogRun S := ⟨.new, [], [], []⟩

/-- What a call has flushed from the instance that it gives up. -/
def recovered {α : Type*} (host : LogHost) (outcome : CallOutcome α) (reload : RequestReload) :
    List WriteFlagLogsRequest :=
  if host.reloads outcome then reload.flushed.toList else []

def step (host : LogHost) (w : LogRun S) : LogRunEvent S → LogRun S
  | .resolve outcome reload =>
      { w with
        resolver := host.call w.resolver outcome reload.encode
        kept := w.kept ++ recovered host outcome reload }
  | .registerResolve _ => w
  | .setResolverState state outcome reload =>
      { w with
        resolver := host.setResolverState w.resolver state outcome reload.encode
        kept := w.kept ++ recovered host outcome reload }
  | .flushLogs outcome reload =>
      let next := host.flushLogs w.resolver (outcome.map WriteFlagLogsRequest.encode) reload.encode
      let results := w.results ++ next.2.toList
      match outcome with
      | .returned logs => ⟨next.1, results, w.joined ++ [w.kept ++ [logs]], []⟩
      | .guestError | .trapped =>
          ⟨next.1, results, w.joined, w.kept ++ recovered host outcome reload⟩

def run (host : LogHost) (w : LogRun S) (es : List (LogRunEvent S)) : LogRun S :=
  es.foldl (step host) w

end LogRun

/-! ### What is claimed -/

/-- What is counted in repeated fields: resolves by key, observed latencies by bucket, resolves by
reason. -/
inductive LogKey where
  | variant (flag variant : String)
  | rule (flag rule : String)
  | assignment (flag rule assignmentId : String)
  | bucket (exponent : Int)
  | rate (reason : Int32)

/-- The count of a bucket in a span. -/
def BucketSpan.countAt (exponent : Int) (span : BucketSpan) : Int :=
  let i := exponent - span.offset.toInt
  if 0 ≤ i then (span.counts[i.toNat]?.getD 0).toNat else 0

/-- The count of a reason in a rate. -/
def ResolveRate.countOf (reason : Int32) (rate : ResolveRate) : Int :=
  if rate.reason = reason then rate.count.toNat else 0

def LogKey.totalIn (k : LogKey) (m : WriteFlagLogsRequest) : Int :=
  match k with
  | .variant flag key => total (variantCounts flag key m.flagResolveInfo)
  | .rule flag key => total (ruleCounts flag key m.flagResolveInfo)
  | .assignment flag key assignmentId =>
      total (assignmentCounts flag key assignmentId m.flagResolveInfo)
  | .bucket exponent => (m.buckets.map (·.countAt exponent)).sum
  | .rate reason => (m.rates.map (·.countOf reason)).sum

namespace LogRun

variable {S : Type*}

/-- The requests that the instances have flushed. -/
def flushed (w : LogRun S) : List WriteFlagLogsRequest := w.joined.flatten ++ w.kept

/-- What is read: from the results, and from the logs that are still buffered. -/
def read (w : LogRun S) : List WriteFlagLogsRequest :=
  (w.results ++ w.resolver.bufferedLogs).map WriteFlagLogsRequest.decode

/-- What is read has the events, the counts and the telemetry counters of what was flushed. -/
structure Preserved (w : LogRun S) : Prop where
  flagAssigned : (w.read.map fun m => (m.flagAssigned : Multiset FlagAssigned)).sum =
    (w.flushed.map fun m => (m.flagAssigned : Multiset FlagAssigned)).sum
  counts : ∀ k : LogKey, (w.read.map k.totalIn).sum = (w.flushed.map k.totalIn).sum
  scalars : ∀ k : Scalar, (w.read.map fun m => (m.scalar k).toNat).sum =
    (w.flushed.map fun m => (m.scalar k).toNat).sum

/-- Of the requests that are joined in a result, at most one has a counter that is not zero, for
each counter. -/
def OneEach (w : LogRun S) : Prop :=
  ∀ ms ∈ w.joined, ∀ k : Scalar, Overwrite.AtMostOne (ms.map fun m => (m.scalar k).toNat)

end LogRun

/-! ### What is read from joined requests -/

/-- An amount of a request that adds up when encodings are joined. -/
def AddsUp {A : Type*} [AddMonoid A] (amount : WriteFlagLogsRequest → A) : Prop :=
  ∀ ms : List WriteFlagLogsRequest,
    amount (.decode (ms.flatMap WriteFlagLogsRequest.encode)) = (ms.map amount).sum

theorem flagAssigned_addsUp :
    AddsUp fun m => (m.flagAssigned : Multiset FlagAssigned) := by
  intro ms
  have happended : (WriteFlagLogsRequest.decode
      (ms.flatMap WriteFlagLogsRequest.encode)).flagAssigned = ms.flatMap (·.flagAssigned) :=
    WriteFlagLogsRequest.flagAssigned_appended ms
  dsimp only
  rw [happended]
  clear happended
  induction ms with
  | nil => rfl
  | cons m ms ih => rw [List.flatMap_cons, ← Multiset.coe_add, ih, List.map_cons, List.sum_cons]

/-- The sum over a repeated field that is appended. -/
theorem addsUp_of_appended {A : Type*} {part : WriteFlagLogsRequest → List A}
    (h : Appended WriteFlagLogsRequest.encode WriteFlagLogsRequest.decode part) (amount : A → Int) :
    AddsUp fun m => ((part m).map amount).sum := by
  intro ms
  dsimp only
  rw [h ms]
  induction ms with
  | nil => rfl
  | cons m ms ih =>
      rw [List.flatMap_cons, List.map_append, List.sum_append, ih, List.map_cons, List.sum_cons]

/-- **Counts in repeated fields add up.** -/
theorem LogKey.addsUp (k : LogKey) : AddsUp k.totalIn := by
  intro ms
  have hinfos : (WriteFlagLogsRequest.decode (ms.flatMap WriteFlagLogsRequest.encode)).flagResolveInfo =
      allInfos ms := WriteFlagLogsRequest.flagResolveInfo_appended ms
  cases k with
  | variant flag key =>
      rw [totalIn, hinfos]
      exact total_variantCounts ms flag key
  | rule flag key =>
      rw [totalIn, hinfos]
      exact total_ruleCounts ms flag key
  | assignment flag key assignmentId =>
      rw [totalIn, hinfos]
      exact total_assignmentCounts ms flag key assignmentId
  | bucket exponent =>
      exact addsUp_of_appended WriteFlagLogsRequest.buckets_appended (·.countAt exponent) ms
  | rate reason => exact addsUp_of_appended WriteFlagLogsRequest.rates_appended (·.countOf reason) ms

/-! ### Runs -/

namespace LogRun

variable {S : Type*}

/-- The encodings that are not empty; Python does not buffer an empty one. -/
def chunks (encodings : List (List LogField)) : List (List LogField) :=
  encodings.filter fun chunk => !chunk.isEmpty

/-- The results are the joined requests, and the buffered logs are those that were kept. -/
structure Inv (w : LogRun S) : Prop where
  results : w.results = w.joined.map fun ms => ms.flatMap WriteFlagLogsRequest.encode
  buffered : chunks w.resolver.bufferedLogs = chunks (w.kept.map WriteFlagLogsRequest.encode)

theorem inv_new : (new : LogRun S).Inv := ⟨rfl, rfl⟩

variable {w : LogRun S}

theorem chunks_append (l l' : List (List LogField)) : chunks (l ++ l') = chunks l ++ chunks l' :=
  List.filter_append _ _

theorem flatten_chunks (l : List (List LogField)) : (chunks l).flatten = l.flatten :=
  List.flatten_filter_not_isEmpty

/-- The buffered logs, joined. -/
theorem Inv.flatten_buffered (h : w.Inv) :
    w.resolver.bufferedLogs.flatten = w.kept.flatMap WriteFlagLogsRequest.encode := by
  rw [← flatten_chunks, h.buffered, flatten_chunks, List.flatMap_def]

/-- Logs are kept: those of requests that were flushed. -/
theorem Inv.keep (h : w.Inv) {resolver : ReloadingResolver S LogField}
    {ms : List WriteFlagLogsRequest}
    (hbuffer : chunks resolver.bufferedLogs =
      chunks (w.resolver.bufferedLogs ++ ms.map WriteFlagLogsRequest.encode)) :
    ({ w with resolver := resolver, kept := w.kept ++ ms } : LogRun S).Inv where
  results := h.results
  buffered := by
    dsimp only
    rw [hbuffer, chunks_append, h.buffered, ← chunks_append, List.map_append]

/-! What a call does to the buffered logs. -/

theorem chunks_keepLogs (bufferedLogs : List (List LogField)) (flushed : Option (List LogField)) :
    chunks (PyResolver.keepLogs bufferedLogs flushed) = chunks (bufferedLogs ++ flushed.toList) := by
  cases flushed with
  | none => simp [PyResolver.keepLogs]
  | some logs =>
      cases logs with
      | nil => simp [PyResolver.keepLogs, chunks]
      | cons field fields => simp [PyResolver.keepLogs]

variable [DecidableEq S]

omit [DecidableEq S] in
theorem chunks_jsReloadInstance (r : ReloadingResolver S LogField) (reload : RequestReload) :
    chunks (JsResolver.reloadInstance r reload.encode.flushed).bufferedLogs =
      chunks (r.bufferedLogs ++ reload.flushed.toList.map WriteFlagLogsRequest.encode) := by
  rw [JsResolver.reloadInstance, RequestReload.encode, Option.toList_map]

theorem reloadInstance_bufferedLogs (r : ReloadingResolver S LogField) (reload : Reload LogField) :
    (PyResolver.reloadInstance r reload).bufferedLogs =
      PyResolver.keepLogs r.bufferedLogs reload.flushed := by
  rw [PyResolver.reloadInstance]
  cases hstate : r.currentState with
  | none => rfl
  | some state =>
      dsimp only
      split
      · rfl
      · rfl

theorem chunks_reloadInstance (r : ReloadingResolver S LogField) (reload : RequestReload) :
    chunks (PyResolver.reloadInstance r reload.encode).bufferedLogs =
      chunks (r.bufferedLogs ++ reload.flushed.toList.map WriteFlagLogsRequest.encode) := by
  rw [reloadInstance_bufferedLogs, chunks_keepLogs, RequestReload.encode, Option.toList_map]

theorem chunks_call (host : LogHost) (r : ReloadingResolver S LogField) (outcome : CallOutcome Unit)
    (reload : RequestReload) :
    chunks (host.call r outcome reload.encode).bufferedLogs =
      chunks (r.bufferedLogs ++ (recovered host outcome reload).map WriteFlagLogsRequest.encode) := by
  cases host with
  | js =>
      cases outcome with
      | returned _ | guestError => exact congrArg chunks (List.append_nil _).symm
      | trapped => exact chunks_jsReloadInstance r reload
  | python =>
      cases outcome with
      | returned _ => exact congrArg chunks (List.append_nil _).symm
      | guestError | trapped => exact chunks_reloadInstance r reload

theorem chunks_setResolverState (host : LogHost) (r : ReloadingResolver S LogField) (state : S)
    (outcome : CallOutcome Unit) (reload : RequestReload) :
    chunks (host.setResolverState r state outcome reload.encode).bufferedLogs =
      chunks (r.bufferedLogs ++ (recovered host outcome reload).map WriteFlagLogsRequest.encode) := by
  cases host with
  | js =>
      cases outcome with
      | returned _ | guestError => exact congrArg chunks (List.append_nil _).symm
      | trapped => exact chunks_jsReloadInstance r reload
  | python =>
      cases outcome with
      | returned _ => exact congrArg chunks (List.append_nil _).symm
      | guestError | trapped =>
          exact chunks_reloadInstance { r with currentState := some state } reload

/-- A flush that fails keeps logs, or changes nothing, and there is no result. -/
theorem flushLogs_fails (host : LogHost) (r : ReloadingResolver S LogField)
    (outcome : CallOutcome WriteFlagLogsRequest) (reload : RequestReload)
    (hfails : ∀ logs, outcome ≠ .returned logs) :
    chunks (host.flushLogs r (outcome.map WriteFlagLogsRequest.encode)
        reload.encode).1.bufferedLogs =
      chunks (r.bufferedLogs ++
        (recovered host outcome reload).map WriteFlagLogsRequest.encode) ∧
      (host.flushLogs r (outcome.map WriteFlagLogsRequest.encode) reload.encode).2 = none := by
  cases outcome with
  | returned logs => exact absurd rfl (hfails logs)
  | guestError =>
      cases host with
      | js => exact ⟨congrArg chunks (List.append_nil _).symm, rfl⟩
      | python => exact ⟨chunks_reloadInstance r reload, rfl⟩
  | trapped =>
      cases host with
      | js => exact ⟨chunks_jsReloadInstance r reload, rfl⟩
      | python => exact ⟨chunks_reloadInstance r reload, rfl⟩

/-- A flush that returns joins what was kept with its logs. -/
theorem flushLogs_returned (host : LogHost) (r : ReloadingResolver S LogField)
    (logs : List LogField) (reload : Reload LogField) :
    host.flushLogs r (.returned logs) reload =
      ({ r with bufferedLogs := [] }, some (r.bufferedLogs ++ [logs]).flatten) := by
  cases host with
  | js => rfl
  | python => rfl

/-- **Step lemma.** -/
theorem Inv.step (h : w.Inv) (host : LogHost) (e : LogRunEvent S) : (w.step host e).Inv := by
  cases e with
  | resolve outcome reload => exact h.keep (chunks_call host w.resolver outcome reload)
  | registerResolve outcome => exact h
  | setResolverState state outcome reload =>
      exact h.keep (chunks_setResolverState host w.resolver state outcome reload)
  | flushLogs outcome reload =>
      cases outcome with
      | returned logs =>
          simp only [LogRun.step, CallOutcome.map, flushLogs_returned, Option.toList_some]
          refine ⟨?_, rfl⟩
          rw [h.results, List.map_append, List.map_singleton, List.flatten_append,
            h.flatten_buffered, List.flatMap_append]
          simp
      | guestError =>
          have hfails := flushLogs_fails host w.resolver .guestError reload (by simp)
          simp only [LogRun.step, hfails.2, Option.toList_none, List.append_nil]
          exact h.keep hfails.1
      | trapped =>
          have hfails := flushLogs_fails host w.resolver .trapped reload (by simp)
          simp only [LogRun.step, hfails.2, Option.toList_none, List.append_nil]
          exact h.keep hfails.1

/-- **Run lemma.** -/
theorem Inv.run (h : w.Inv) (host : LogHost) (es : List (LogRunEvent S)) : (w.run host es).Inv := by
  induction es generalizing w with
  | nil => exact h
  | cons e es ih => exact ih (h.step host e)

/-! What is read. -/

omit [DecidableEq S] in
/-- The amounts that are read: those of each result, and of the requests that are kept. -/
theorem Inv.sum_read (h : w.Inv) {A : Type*} [AddCommMonoid A] {amount : WriteFlagLogsRequest → A}
    (hone : ∀ m, amount (.decode m.encode) = amount m) (hnone : amount (.decode []) = 0) :
    (w.read.map amount).sum =
      (w.joined.map fun ms => amount (.decode (ms.flatMap WriteFlagLogsRequest.encode))).sum +
        (w.kept.map amount).sum := by
  have hchunks : ∀ l : List (List LogField),
      (l.map fun chunk => amount (.decode chunk)).sum =
        ((chunks l).map fun chunk => amount (.decode chunk)).sum := by
    intro l
    induction l with
    | nil => rfl
    | cons chunk l ih =>
        cases chunk with
        | nil => simpa [chunks, hnone] using ih
        | cons field fields =>
            have hcons : chunks ((field :: fields) :: l) = (field :: fields) :: chunks l := rfl
            rw [hcons, List.map_cons, List.map_cons, List.sum_cons, List.sum_cons, ih]
  have hkept : (w.resolver.bufferedLogs.map fun chunk => amount (.decode chunk)).sum =
      (w.kept.map amount).sum := by
    rw [hchunks, h.buffered, ← hchunks, List.map_map]
    exact congrArg List.sum (List.map_congr_left fun m _ => hone m)
  rw [read, List.map_map, List.map_append, List.sum_append, h.results, List.map_map]
  exact congrArg _ hkept

omit [DecidableEq S] in
/-- An amount that adds up is preserved. -/
theorem Inv.addsUp (h : w.Inv) {A : Type*} [AddCommMonoid A] {amount : WriteFlagLogsRequest → A}
    (hadds : AddsUp amount) : (w.read.map amount).sum = (w.flushed.map amount).sum := by
  have hone : ∀ m, amount (.decode m.encode) = amount m := by
    intro m
    have hadd := hadds [m]
    simpa using hadd
  rw [h.sum_read hone (hadds []), flushed, List.map_append, List.sum_append, ← sum_flatten]
  exact congrArg (· + _) (congrArg List.sum (List.map_congr_left fun ms _ => hadds ms))

omit [DecidableEq S] in
/-- A counter is preserved only if it is not overwritten. -/
theorem Inv.scalar_iff (h : w.Inv) (k : Scalar) :
    (w.read.map fun m => (m.scalar k).toNat).sum = (w.flushed.map fun m => (m.scalar k).toNat).sum ↔
      ∀ ms ∈ w.joined, Overwrite.AtMostOne (ms.map fun m => (m.scalar k).toNat) := by
  have hlast := WriteFlagLogsRequest.scalar_overwritten k
  have hone : ∀ m : WriteFlagLogsRequest,
      ((WriteFlagLogsRequest.decode m.encode).scalar k).toNat = (m.scalar k).toNat := by
    intro m
    have hm := hlast [m]
    rw [List.flatMap_singleton] at hm
    rw [hm]
    exact (Overwrite.last_eq_sum_iff _).mpr (List.length_filter_le _ _)
  rw [h.sum_read hone (hlast []), flushed, List.map_append, List.sum_append, ← sum_flatten,
    Nat.add_right_cancel_iff]
  have hread : (w.joined.map fun ms =>
      ((WriteFlagLogsRequest.decode (ms.flatMap WriteFlagLogsRequest.encode)).scalar k).toNat) =
        (w.joined.map fun ms => ms.map fun m => (m.scalar k).toNat).map Overwrite.last := by
    rw [List.map_map]
    exact List.map_congr_left fun ms _ => hlast ms
  have hall : (w.joined.map fun ms => (ms.map fun m => (m.scalar k).toNat).sum) =
      (w.joined.map fun ms => ms.map fun m => (m.scalar k).toNat).map List.sum := by
    rw [List.map_map]
    rfl
  rw [hread, hall, Overwrite.sum_last_eq_iff]
  exact List.forall_mem_map

end LogRun

/-! ### Main results -/

/-- **Recovered logs are preserved if and only if** no counter of the telemetry is overwritten.  The
assignment events and the counts by key always are. -/
theorem recovered_logs_iff {S : Type*} [DecidableEq S] (host : LogHost) (es : List (LogRunEvent S)) :
    (LogRun.new.run host es).Preserved ↔ (LogRun.new.run host es).OneEach := by
  have hinv := LogRun.inv_new.run host es
  constructor
  · intro h ms hms k
    exact (hinv.scalar_iff k).mp (h.scalars k) ms hms
  · intro h
    exact ⟨hinv.addsUp flagAssigned_addsUp, fun k => hinv.addsUp k.addsUp,
      fun k => (hinv.scalar_iff k).mpr fun ms hms => h ms hms k⟩

namespace Sample

def appliesLogs (appliesTotal : UInt32) : WriteFlagLogsRequest :=
  { telemetryData := some { applyDedup := some ⟨appliesTotal, 0, 0, 0, 0, 0⟩ } }

/-- A resolve traps behind three applies.  The fresh instance counts five. -/
def trapBetweenApplies : List (LogRunEvent SetResolverStateRequest) :=
  [.setResolverState ⟨[1], "a", none, true, false⟩ (.returned ()) ⟨none, true⟩,
    .resolve .trapped ⟨some (appliesLogs 3), true⟩,
    .flushLogs (.returned (appliesLogs 5)) ⟨none, true⟩]

/-- The applies that are read, and those that were flushed. -/
def applies (host : LogHost) : Nat × Nat :=
  let w := LogRun.new.run host trapBetweenApplies
  ((w.read.map fun m => (m.scalar .appliesTotal).toNat).sum,
    (w.flushed.map fun m => (m.scalar .appliesTotal).toNat).sum)

end Sample

/-- **Recovered counters are overwritten**: of eight applies five are read. -/
theorem recovered_applies_lost :
    Sample.applies .js = (5, 8) ∧ Sample.applies .python = (5, 8) ∧
      ¬ (LogRun.new.run .js Sample.trapBetweenApplies).Preserved ∧
      ¬ (LogRun.new.run .python Sample.trapBetweenApplies).Preserved := by
  have hjs : Sample.applies .js = (5, 8) := by decide +kernel
  have hpython : Sample.applies .python = (5, 8) := by decide +kernel
  refine ⟨hjs, hpython, fun h => ?_, fun h => ?_⟩
  · have hkept : (Sample.applies .js).1 = (Sample.applies .js).2 := h.scalars .appliesTotal
    rw [hjs] at hkept
    cases hkept
  · have hkept : (Sample.applies .python).1 = (Sample.applies .python).2 := h.scalars .appliesTotal
    rw [hpython] at hkept
    cases hkept

end ConfidenceResolver
