import ConfidenceResolver.Hosts.MemoryStore
import ConfidenceResolver.Materialization.Answers

/-!
# Hosts — a resolver with a store

`materialization.go` and `MaterializingResolver.java` wrap a resolver; `provider.py`, `provider.rs`
and `ConfidenceServerProviderLocal.ts` do the same in place.  The request goes to the resolver as a
deferred one, the reads of a suspension are answered by the store, the request is resumed with the
answers, and the writes of the response go to the store.

* `resolveProcess`: the cycle, from the two calls to the resolver and the read between them.
* `deliver_answers`: the records that are delivered answer the reads as all records of the store do
  once the variants that the host drops are forgotten.
* `resolveProcess_direct`: so the cycle is one direct resolve on these records.
* `resolveProcess_settles`: on states that may change between the calls, it never hands out a
  suspension.
-/

namespace ConfidenceResolver

/-! ### The hosts -/

namespace Java

/-- `readMaterializations`, before the store is read. -/
def toReadOps (records : List MaterializationRecord) : List ReadOp := records.map toReadOp

/-- `readMaterializations`, after the store was read: `variant().isPresent()`. -/
def toRecords (results : List ReadResult) : List MaterializationRecord :=
  results.filterMap (toRecord fun _ => true)

end Java

namespace Python

/-- `_read_materializations`, before the store is read. -/
def toReadOps (records : List MaterializationRecord) : List ReadOp := records.map toReadOp

/-- `_read_materializations`, after the store was read: an empty variant counts as none. -/
def toRecords (results : List ReadResult) : List MaterializationRecord :=
  results.filterMap (toRecord (· ≠ ""))

end Python

/-- A host with a store: its conversions, the variants that these keep, and the texts of a failed
read and of a second suspension. -/
structure StoreHost where
  port : Port
  keeps : String → Bool
  readError : String → String
  secondSuspend : String
  toReadOps_eq : ∀ records, port.toReadOps records = records.map toReadOp
  toRecords_eq : ∀ results, port.toRecords results = results.filterMap (toRecord keeps)

namespace StoreHost

def go : StoreHost where
  port := .go
  keeps := (· ≠ "")
  readError e := "failed to read materializations: " ++ e
  secondSuspend := "unexpected second suspend after resume"
  toReadOps_eq _ := rfl
  toRecords_eq _ := rfl

def java : StoreHost where
  port := ⟨Java.toReadOps, Java.toRecords⟩
  keeps _ := true
  readError e := e
  secondSuspend := "Unexpected second suspend after resume"
  toReadOps_eq _ := rfl
  toRecords_eq _ := rfl

def js : StoreHost where
  port := .js
  keeps := (· ≠ "")
  readError e := e
  secondSuspend := "Resolve still suspended after providing materializations"
  toReadOps_eq _ := rfl
  toRecords_eq _ := rfl

/-- The error is that of a store without support for reads. -/
def python : StoreHost where
  port := ⟨Python.toReadOps, Python.toRecords⟩
  keeps := (· ≠ "")
  readError e := "failed to read materializations: " ++ e
  secondSuspend := "Unexpected second suspend after resume"
  toReadOps_eq _ := rfl
  toRecords_eq _ := rfl

def rust : StoreHost where
  port := .rust
  keeps _ := true
  readError e := "Failed to read materializations: " ++ e
  secondSuspend := "Unexpected second suspend after resume"
  toReadOps_eq _ := rfl
  toRecords_eq _ := rfl

/-! ### The cycle -/

variable {Bytes : Type}

/-- An error of the resolver, or of the host. -/
inductive Error where
  | resolver (e : ProcessError)
  | host (text : String)

/-- What a first response comes to: it is returned, and the writes are started; or the store is to
be read, to resume from a continuation. -/
inductive Handled (Bytes : Type) where
  | returned (response : ResolveProcessResponse Bytes) (writes : List WriteOp)
  | read (ops : List ReadOp) (state : Bytes)

/-- The request that goes to the resolver. -/
def innerRequest : ResolveProcessRequest Bytes → ResolveProcessRequest Bytes
  | .withoutMaterializations request => .deferredMaterializations request
  | request => request

/-- `handleResponse`, up to the read. -/
def handleResponse (h : StoreHost) : ResolveProcessResponse Bytes → Handled Bytes
  | .resolved response toWrite => .returned (.resolved response toWrite) (toWrite.map toWriteOp)
  | .suspended toRead state => .read (h.port.toReadOps toRead) state

/-- The request that resumes with the results of the read. -/
def resumeRequest (h : StoreHost) (results : List ReadResult) (state : Bytes) :
    ResolveProcessRequest Bytes := .resume (h.port.toRecords results) state

/-- `handleResumeResponse`. -/
def handleResumeResponse (h : StoreHost) :
    ResolveProcessResponse Bytes → Except Error (ResolveProcessResponse Bytes × List WriteOp)
  | .resolved response toWrite => .ok (.resolved response toWrite, toWrite.map toWriteOp)
  | .suspended _ _ => .error (.host h.secondSuspend)

/-- A resolver at one moment. -/
abbrev Resolver (Bytes : Type) :=
  ResolveProcessRequest Bytes → Except ProcessError (ResolveProcessResponse Bytes × List HostCall)

/-- `ResolveProcess`: the response, what the resolver logged, and the writes that are started.  The
resolver is called at two moments, and its state may change between them. -/
def resolveProcess (h : StoreHost) (first second : Resolver Bytes)
    (read : List ReadOp → Except String (List ReadResult))
    (request : ResolveProcessRequest Bytes) :
    Except Error ((ResolveProcessResponse Bytes × List HostCall) × List WriteOp) :=
  match first (innerRequest request) with
  | .error e => .error (.resolver e)
  | .ok (response, calls) =>
      match h.handleResponse response with
      | .returned response writes => .ok ((response, calls), writes)
      | .read ops state =>
          match read ops with
          | .error e => .error (.host (h.readError e))
          | .ok results =>
              match second (h.resumeRequest results state) with
              | .error e => .error (.resolver e)
              | .ok (response, calls') =>
                  (h.handleResumeResponse response).map fun (response, writes) =>
                    ((response, calls ++ calls'), writes)

end StoreHost

/-! ### What is delivered -/

/-- A record as a host sees it that keeps variants by `keeps`: one with a variant that is dropped is
no more than an inclusion. -/
def MaterializationRecord.seen (keeps : String → Bool) (q : MaterializationRecord) :
    MaterializationRecord :=
  if q.rule = "" || keeps q.variant then q else ⟨q.unit, q.materialization, "", ""⟩

/-- The records of the store as such a host sees them. -/
def MaterializationStore.seen (keeps : String → Bool) (s : MaterializationStore) :
    List MaterializationRecord := s.records.map (MaterializationRecord.seen keeps)

variable {keeps : String → Bool} {s : MaterializationStore} {K : List MaterializationRecord}

theorem isIncluded_seen (R : List MaterializationRecord) (u m : String) :
    isIncluded (R.map (MaterializationRecord.seen keeps)) u m = isIncluded R u m := by
  have hkept : ∀ q : MaterializationRecord, (q.seen keeps).unit = q.unit ∧
      (q.seen keeps).materialization = q.materialization := by
    intro q
    rw [MaterializationRecord.seen]
    split <;> exact ⟨rfl, rfl⟩
  simp [isIncluded, Function.comp_def, hkept]

/-- The record of a rule, if its variant is kept. -/
theorem findRecord_seen {u m k : String} (hk : k ≠ "") {R : List MaterializationRecord}
    (hnodup : (R.map MaterializationRecord.key).Nodup) :
    findRecord (R.map (MaterializationRecord.seen keeps)) u m k =
      (findRecord R u m k).filter (keeps ·.variant) := by
  induction R with
  | nil => rfl
  | cons q R ih =>
      obtain ⟨hq, hR⟩ := List.nodup_cons.mp hnodup
      have hrest := ih hR
      by_cases hfor : q.isFor u m k = true
      · have hkey := MaterializationRecord.isFor_iff.mp hfor
        have hrule : q.rule ≠ "" := by
          rw [show q.rule = k from congrArg (fun key => key.2.2) hkey]
          exact hk
        -- no other record has the key
        have hnone : findRecord R u m k = none := findRecord_eq_none.mpr fun q' hq' hkey' =>
          hq (List.mem_map.mpr ⟨q', hq', hkey'.trans hkey.symm⟩)
        rw [hnone] at hrest
        by_cases hv : keeps q.variant = true
        · have hseen : q.seen keeps = q := by simp [MaterializationRecord.seen, hv]
          simp [findRecord, hseen, hfor, hv, Option.filter_some]
        · have hseen : q.seen keeps = ⟨q.unit, q.materialization, "", ""⟩ := by
            simp [MaterializationRecord.seen, hv, hrule]
          have hskip : (q.seen keeps).isFor u m k = false := by
            simp [hseen, MaterializationRecord.isFor, hk.symm]
          rw [List.map_cons, findRecord, List.find?_cons, hskip]
          refine hrest.trans ?_
          simp [findRecord, hfor, hv, Option.filter_some]
      · have hskip : (q.seen keeps).isFor u m k = false := by
          rw [MaterializationRecord.seen]
          split
          · simpa using hfor
          · simp [MaterializationRecord.isFor, hk.symm]
        rw [List.map_cons, findRecord, List.find?_cons, hskip]
        refine hrest.trans ?_
        simp [findRecord, hfor]

/-- **What is delivered answers the reads** as the records do that the host sees. -/
theorem deliver_answers : SameAnswers K (deliver keeps s K) (s.seen keeps) where
  included key hkey hrule := by
    rw [isIncluded_deliver hkey hrule, MaterializationStore.seen, isIncluded_seen]
  record key hkey hrule := by
    rw [findRecord_deliver hkey hrule, MaterializationStore.seen, findRecord_seen hrule s.nodup]

/-! ### Main results -/

namespace StoreHost

variable {Bytes : Type} {h : StoreHost} {r : AccountResolver} {wire : Wire Bytes}
  {host host' host'' : Host Bytes} {visit visit' visit'' : List Flag}
  {request : ResolveFlagsRequest} {read : List ReadOp → Except String (List ReadResult)}

/-- The store answers the operations that hosts make as the records of `s` do. -/
def Reads (read : List ReadOp → Except String (List ReadResult)) (s : MaterializationStore) :
    Prop :=
  ∀ K : List MaterializationRecord, read (K.map toReadOp) = .ok ((K.map toReadOp).map s.read)

/-- The writes that are started behind a response. -/
def started : ResolveProcessResponse Bytes → List WriteOp
  | .resolved _ toWrite => toWrite.map toWriteOp
  | .suspended _ _ => []

/-- The outcome of the resolver's last call, as the host hands it on. -/
def handOn (out : Except ProcessError (ResolveProcessResponse Bytes × List HostCall)) :
    Except Error ((ResolveProcessResponse Bytes × List HostCall) × List WriteOp) :=
  match out with
  | .error e => .error (.resolver e)
  | .ok (response, calls) => .ok ((response, calls), started response)

/-- A suspension logs nothing. -/
theorem suspended_calls {K : List MaterializationRecord} {state : Bytes} {calls : List HostCall}
    (hs : r.resolveFlags wire host visit (.deferredMaterializations request) =
      .ok (.suspended K state, calls)) : calls = [] := by
  simp only [AccountResolver.resolveFlags, AccountResolver.start, AccountResolver.resolvePass] at hs
  split at hs
  · cases hs
  · split at hs
    · cases hs
    · split at hs
      · obtain ⟨res, -, heq⟩ := ok_of_map hs
        cases heq
      · cases hs
        rfl

/-- What the host makes of a request that is suspended. -/
theorem resolveProcess_suspended {s : MaterializationStore} (hread : Reads read s)
    {K : List MaterializationRecord} {state : Bytes} {calls : List HostCall}
    (hs : r.resolveFlags wire host visit (.deferredMaterializations request) =
      .ok (.suspended K state, calls)) (r' : AccountResolver) :
    h.resolveProcess (r.resolveFlags wire host visit) (r'.resolveFlags wire host' visit') read
        (.withoutMaterializations request) =
      handOn (r'.resolveFlags wire host' visit' (.resume (deliver h.keeps s K) state)) := by
  obtain rfl := suspended_calls hs
  have hdeliver : h.port.toRecords ((K.map toReadOp).map s.read) = deliver h.keeps s K := by
    rw [h.toRecords_eq, filterMap_read]
  simp only [resolveProcess, innerRequest, hs, handleResponse, h.toReadOps_eq, hread K,
    resumeRequest, hdeliver]
  rcases hout : r'.resolveFlags wire host' visit' (.resume (deliver h.keeps s K) state) with
    e | ⟨_ | _, calls'⟩
  · rfl
  · rfl
  · -- a resumed request does not suspend
    exact absurd hout (AccountResolver.resume_resolves r' wire host' visit' _ state _ _ _)

/-- The cycle settles, also when the resolver's state is replaced between the two calls: a
suspension is never handed out, and the host fails on its own only where the store does. -/
theorem resolveProcess_settles (r' : AccountResolver) :
    (∀ K state calls writes, h.resolveProcess (r.resolveFlags wire host visit)
        (r'.resolveFlags wire host' visit') read (.withoutMaterializations request) ≠
      .ok ((.suspended K state, calls), writes)) ∧
    ∀ text, h.resolveProcess (r.resolveFlags wire host visit) (r'.resolveFlags wire host' visit')
        read (.withoutMaterializations request) = .error (.host text) →
      ∃ K state calls e, r.resolveFlags wire host visit (.deferredMaterializations request) =
          .ok (.suspended K state, calls) ∧
        read (K.map toReadOp) = .error e ∧ text = h.readError e := by
  rcases hs : r.resolveFlags wire host visit (.deferredMaterializations request) with
    e | ⟨response | ⟨K, state⟩, calls⟩
  · simp [resolveProcess, innerRequest, hs]
  · simp [resolveProcess, innerRequest, hs, handleResponse]
  · rcases hread : read (K.map toReadOp) with e | results
    · simp [resolveProcess, innerRequest, hs, handleResponse, h.toReadOps_eq, hread]
    · rcases hout : r'.resolveFlags wire host' visit' (h.resumeRequest results state) with
        e | ⟨_ | _, calls'⟩
      · simp [resolveProcess, innerRequest, hs, handleResponse, h.toReadOps_eq, hread, hout]
      · simp [resolveProcess, innerRequest, hs, handleResponse, h.toReadOps_eq, hread, hout,
          handleResumeResponse, Except.map]
      · exact absurd hout (AccountResolver.resume_resolves r' wire host' visit' _ state _ _ _)

/-- **One direct resolve.**  Unless the first call fails, a request that goes through a host with a
store has the flags and the writes that it has when it is resolved in one pass on all records of the
store, as the host sees them: where the first pass is sound, in any order of the flags, and whatever
the store holds when it is read.  Also when the resolver's state is replaced between the two calls,
a suspension is never handed out, and the host fails on its own only where the store does. -/
theorem resolveProcess_direct (hc : r.state.Acyclic) (he : r.AttributesEvaluate)
    (hname : r.NamedReaders request) (hsettled : r.SettledUnconsulted request)
    (hopen : r.OpenUnwritten request) (hv : visit.Perm r.state.flags.values)
    (hv' : visit'.Perm r.state.flags.values) (hv'' : visit''.Perm r.state.flags.values)
    {s : MaterializationStore} (hread : Reads read s) :
    ((∃ e, r.resolveFlags wire host visit (.deferredMaterializations request) = .error e ∧
      h.resolveProcess (r.resolveFlags wire host visit) (r.resolveFlags wire host' visit') read
        (.withoutMaterializations request) = .error (.resolver e)) ∨
    ∃ out, h.resolveProcess (r.resolveFlags wire host visit) (r.resolveFlags wire host' visit') read
        (.withoutMaterializations request) = handOn out ∧
      SameFlags out (r.resolveFlags wire host'' visit''
        (.staticMaterializations (some request) (s.seen h.keeps))) ∧
      SameWrites out (r.resolveFlags wire host'' visit''
        (.staticMaterializations (some request) (s.seen h.keeps)))) ∧
    ∀ r' : AccountResolver,
      (∀ K state calls writes, h.resolveProcess (r.resolveFlags wire host visit)
          (r'.resolveFlags wire host' visit') read (.withoutMaterializations request) ≠
        .ok ((.suspended K state, calls), writes)) ∧
      ∀ text, h.resolveProcess (r.resolveFlags wire host visit) (r'.resolveFlags wire host' visit')
          read (.withoutMaterializations request) = .error (.host text) →
        ∃ K state calls e, r.resolveFlags wire host visit (.deferredMaterializations request) =
            .ok (.suspended K state, calls) ∧
          read (K.map toReadOp) = .error e ∧ text = h.readError e := by
  refine ⟨?_, fun r' => resolveProcess_settles r'⟩
  rcases hs : r.resolveFlags wire host visit (.deferredMaterializations request) with
    e | ⟨response | ⟨K, state⟩, calls⟩
  · refine .inl ⟨e, rfl, ?_⟩
    simp only [resolveProcess, innerRequest, hs]
  · refine .inr ⟨_, ?_, AccountResolver.deferred_unasked hv hv'' hs (s.seen h.keeps)⟩
    simp only [resolveProcess, innerRequest, hs, handleResponse]
    rfl
  · exact .inr ⟨_, resolveProcess_suspended hread hs r,
      AccountResolver.resume_direct hc he hname hsettled hopen hv hv' hv'' hs deliver_answers⟩

end StoreHost

/-- The store in memory, with a write for the unit of the request. -/
def Sample.memory : MemoryStore :=
  (MemoryStore.withInclusions .empty).run [.write [.variant "u" "m" "flags/f/rules/1" "on"]]

theorem resolveProcess_direct_memory :
    ∃ out, StoreHost.go.resolveProcess
        (Sample.materialized.resolveFlags Sample.wire Sample.host
          Sample.materialized.state.flags.values)
        (Sample.materialized.resolveFlags Sample.wire Sample.host
          Sample.materialized.state.flags.values.reverse)
        (fun ops => .ok (Sample.memory.read ops)) (.withoutMaterializations Sample.request) =
          StoreHost.handOn out ∧
      SameFlags out (Sample.materialized.resolveFlags Sample.wire Sample.host
        Sample.materialized.state.flags.values
        (.staticMaterializations (some Sample.request)
          [⟨"u", "m", "flags/f/rules/1", "on"⟩])) := by
  have hread : StoreHost.Reads (fun ops => .ok (Sample.memory.read ops))
      (.ofWrites [⟨"u", "m", "flags/f/rules/1", "on"⟩]) := fun K =>
    congrArg Except.ok (MemoryStore.read_refines .empty _ K)
  obtain ⟨⟨e, herror, -⟩ | ⟨out, hout, hflags, -⟩, -⟩ :=
    @StoreHost.resolveProcess_direct _ .go Sample.materialized Sample.wire Sample.host Sample.host
      Sample.host _ _ _ Sample.request _ Sample.materialized_acyclic Sample.materialized_evaluates
      (by decide) (by decide) (by decide) (.refl _) (List.reverse_perm _) (.refl _) _ hread
  · cases herror
  · exact ⟨out, hout, hflags⟩

end ConfidenceResolver
