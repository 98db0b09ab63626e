import ConfidenceResolver.Apply.ApplyFlags
import ConfidenceResolver.Materialization.SuspendResume
import ConfidenceResolver.Resolver.Outcome
import ConfidenceResolver.Support.Traverse

/-!
# Apply — deferred and immediate

A request resolved with `apply` set logs its assignments at once; without, it returns them in a
token, and the client has them logged by `apply_flags`.

* `Issued`: a request whose continuation, if it has one, was returned by `resolve_flags`.
* `lookup_resolveToken`: the token holds the values that should be applied.
* `resolveFlags_withApply`: a deferred request and the immediate one resolve to the same values.
* `deferred_apply_agrees`: the two ways log the same assignments.
-/

namespace ConfidenceResolver

open Eff

variable {Bytes Plain : Type}

/-! ### Requests that differ in `apply` -/

def ResolveFlagsRequest.withApply (request : ResolveFlagsRequest) (apply : Bool) :
    ResolveFlagsRequest :=
  { request with apply := apply }

def ResolveProcessState.withApply (state : ResolveProcessState) (apply : Bool) :
    ResolveProcessState :=
  { state with resolveRequest := state.resolveRequest.map (·.withApply apply) }

@[simp] theorem resolvedFlags_withApply (state : ResolveProcessState) (apply : Bool) :
    (state.withApply apply).resolvedFlags = state.resolvedFlags := rfl

/-- The request with `apply` set or not, also inside a continuation. -/
def ResolveProcessRequest.withApply (wire : Wire Bytes) (apply : Bool) :
    ResolveProcessRequest Bytes → ResolveProcessRequest Bytes
  | .unset => .unset
  | .deferredMaterializations request => .deferredMaterializations (request.withApply apply)
  | .staticMaterializations request materializations =>
      .staticMaterializations (request.map (·.withApply apply)) materializations
  | .withoutMaterializations request => .withoutMaterializations (request.withApply apply)
  | .resume materializations state =>
      .resume materializations
        ((wire.decode state).elim state fun st => wire.encode (st.withApply apply))

open AccountResolver

/-- Both start alike, but for `apply`. -/
theorem start_withApply (wire : Wire Bytes) (request : ResolveProcessRequest Bytes) (apply : Bool) :
    start wire (request.withApply wire apply) =
      (start wire request).map fun (st, c) => (st.withApply apply, c) := by
  rcases request with _ | _ | ⟨_ | _, _⟩ | _ | ⟨materializations, state⟩
  case resume =>
    rcases hdecode : wire.decode state with _ | st
    · simp only [ResolveProcessRequest.withApply, start, hdecode, Option.elim_none]
      rfl
    · simp only [ResolveProcessRequest.withApply, start, hdecode, Option.elim_some,
        wire.decode_encode]
      rfl
  all_goals rfl

/-! ### Resolved requests -/

namespace AccountResolver

variable (r : AccountResolver) {wire : Wire Bytes} {host : Host Bytes} {visit : List Flag}

/-- What the passes of a request resolve, and with which context they end. -/
structure Resolves (wire : Wire Bytes) (visit : List Flag) (request : ResolveProcessRequest Bytes)
    (st : ResolveProcessState) (resolveRequest : ResolveFlagsRequest) (assigned : List AssignedFlag)
    (c' : MaterializationContext) : Prop where
  started : ∃ c, start wire request = .ok (st, c) ∧
    r.resolveEach (r.flagsToResolve visit resolveRequest st.resolvedFlags) c = (.ok assigned, c')
  asked : st.resolveRequest = some resolveRequest
  few : (r.flagsToResolve visit resolveRequest st.resolvedFlags).length ≤ maxFlags

/-- A request that gets an answer has resolved its flags. -/
theorem resolveFlags_inv {request : ResolveProcessRequest Bytes}
    {res : ResolveProcessResponse Bytes × List HostCall}
    (h : r.resolveFlags wire host visit request = .ok res) :
    ∃ st resolveRequest assigned c',
      r.Resolves wire visit request st resolveRequest assigned c' ∧
        ((c'.toRead.isEmpty = true ∧ ∃ response calls,
            r.respond host resolveRequest (st.resolvedFlags ++ assigned) = .ok (response, calls) ∧
              res = (.resolved response c'.toWrite, calls)) ∨
          (c'.toRead.isEmpty = false ∧ res = (.suspended c'.toRead (wire.encode
            ⟨st.resolveRequest, st.resolvedFlags ++ assigned, c'.toWrite⟩), []))) := by
  rw [resolveFlags] at h
  rcases hstart : start wire request with e | ⟨st, c⟩ <;> rw [hstart] at h
  · cases h
  rcases hasked : st.resolveRequest with _ | resolveRequest <;> simp only [hasked] at h
  · cases h
  rw [resolvePass] at h
  by_cases hfew : (r.flagsToResolve visit resolveRequest st.resolvedFlags).length > maxFlags
  · rw [if_pos hfew] at h
    cases h
  rw [if_neg hfew] at h
  rcases hrun : r.resolveEach (r.flagsToResolve visit resolveRequest st.resolvedFlags) c
    with ⟨e | assigned, c'⟩ <;> simp only [hrun] at h
  · cases h
  refine ⟨st, resolveRequest, assigned, c', ⟨⟨c, hstart, hrun⟩, hasked, Nat.le_of_not_gt hfew⟩, ?_⟩
  by_cases hread : c'.toRead.isEmpty = true
  · rw [if_pos hread] at h
    rcases hrespond : r.respond host resolveRequest (st.resolvedFlags ++ assigned)
      with e | ⟨response, calls⟩ <;> rw [hrespond] at h <;> cases h
    exact .inl ⟨hread, response, calls, rfl, rfl⟩
  · rw [if_neg hread] at h
    cases h
    exact .inr ⟨by simpa using hread, by rw [hasked]⟩

/-- And its answer is that of `respond`, when nothing is left to read. -/
theorem Resolves.resolveFlags (host : Host Bytes) {request : ResolveProcessRequest Bytes}
    {st : ResolveProcessState}
    {resolveRequest : ResolveFlagsRequest} {assigned : List AssignedFlag}
    {c' : MaterializationContext}
    (h : r.Resolves wire visit request st resolveRequest assigned c')
    (hread : c'.toRead.isEmpty = true) :
    r.resolveFlags wire host visit request =
      (r.respond host resolveRequest (st.resolvedFlags ++ assigned)).map fun (response, calls) =>
        (.resolved response c'.toWrite, calls) := by
  obtain ⟨c, hstart, hrun⟩ := h.started
  rw [AccountResolver.resolveFlags, hstart]
  simp only [h.asked]
  rw [resolvePass, if_neg (Nat.not_lt.mpr h.few), hrun]
  exact if_pos hread

theorem Resolves.withApply {request : ResolveProcessRequest Bytes} {st : ResolveProcessState}
    {resolveRequest : ResolveFlagsRequest} {assigned : List AssignedFlag}
    {c' : MaterializationContext}
    (h : r.Resolves wire visit request st resolveRequest assigned c') (apply : Bool) :
    r.Resolves wire visit (request.withApply wire apply) (st.withApply apply)
      (resolveRequest.withApply apply) assigned c' where
  started := by
    obtain ⟨c, hstart, hrun⟩ := h.started
    exact ⟨c, by rw [start_withApply, hstart]; rfl, hrun⟩
  asked := by
    rw [ResolveProcessState.withApply, h.asked]
    rfl
  few := h.few

theorem Resolves.of_withApply {request : ResolveProcessRequest Bytes} {st : ResolveProcessState}
    {resolveRequest : ResolveFlagsRequest} {assigned : List AssignedFlag}
    {c' : MaterializationContext} {apply : Bool}
    (h : r.Resolves wire visit (request.withApply wire apply) st resolveRequest assigned c') :
    ∃ st₀ request₀, r.Resolves wire visit request st₀ request₀ assigned c' ∧
      st = st₀.withApply apply ∧ resolveRequest = request₀.withApply apply := by
  obtain ⟨c, hstart, hrun⟩ := h.started
  rw [start_withApply] at hstart
  rcases hstart₀ : start wire request with e | ⟨st₀, c₀⟩ <;> rw [hstart₀] at hstart <;> cases hstart
  obtain ⟨request₀, hasked, rfl⟩ := Option.map_eq_some_iff.mp h.asked
  exact ⟨st₀, request₀, ⟨⟨c, hstart₀, hrun⟩, hasked, h.few⟩, rfl, rfl⟩

/-! ### Continuations -/

/-- A request whose continuation, if it has one, was returned by `resolve_flags`. -/
inductive Issued (wire : Wire Bytes) : ResolveProcessRequest Bytes → Prop where
  | deferredMaterializations (request : ResolveFlagsRequest) :
    Issued wire (.deferredMaterializations request)
  | staticMaterializations (request : Option ResolveFlagsRequest)
      (materializations : List MaterializationRecord) :
    Issued wire (.staticMaterializations request materializations)
  | withoutMaterializations (request : ResolveFlagsRequest) :
    Issued wire (.withoutMaterializations request)
  | resume (r : AccountResolver) (host : Host Bytes) {visit : List Flag}
      (hvisit : visit.Perm r.state.flags.values) {request : ResolveProcessRequest Bytes}
      (h : Issued wire request) {toRead : List MaterializationRecord} {state : Bytes}
      {calls : List HostCall}
      (hrun : r.resolveFlags wire host visit request = .ok (.suspended toRead state, calls))
      (materializations : List MaterializationRecord) :
    Issued wire (.resume materializations state)

/-- A pass resolves no flag that was resolved before, and none twice. -/
theorem Resolves.nodup {request : ResolveProcessRequest Bytes} {st : ResolveProcessState}
    {resolveRequest : ResolveFlagsRequest} {assigned : List AssignedFlag}
    {c' : MaterializationContext}
    (h : r.Resolves wire visit request st resolveRequest assigned c')
    (hvisit : visit.Perm r.state.flags.values) (hst : (st.resolvedFlags.map (·.flag)).Nodup) :
    ((st.resolvedFlags ++ assigned).map (·.flag)).Nodup := by
  obtain ⟨c, -, hrun⟩ := h.started
  have hsub := r.resolveEach_names _ c assigned c' hrun
  have hnames : (visit.map Flag.name).Nodup :=
    (hvisit.map Flag.name).nodup_iff.mpr r.state.flags.nodup
  rw [List.map_append, List.nodup_append]
  refine ⟨hst, hsub.nodup ((List.filter_sublist.map Flag.name).nodup hnames), ?_⟩
  rintro name hold _ hnew rfl
  obtain ⟨rf, hrf, rfl⟩ := List.mem_map.mp hold
  obtain ⟨flag, hflag, hname⟩ := List.mem_map.mp (hsub.subset hnew)
  have hopen := (List.mem_filter.mp hflag).2
  simp only [Bool.and_eq_true, Bool.not_eq_true', List.any_eq_false, decide_eq_true_eq] at hopen
  exact hopen.2 rf hrf hname.symm

theorem Issued.nodup {request : ResolveProcessRequest Bytes} (h : Issued wire request) :
    ∀ {st : ResolveProcessState} {c : MaterializationContext}, start wire request = .ok (st, c) →
      (st.resolvedFlags.map (·.flag)).Nodup := by
  induction h with
  | deferredMaterializations _ | withoutMaterializations _ =>
      intro st c h
      cases h
      exact List.nodup_nil
  | staticMaterializations request _ =>
      intro st c h
      cases request <;> cases h
      exact List.nodup_nil
  | resume r host hvisit _ hrun materializations ih =>
      intro st c hstart
      obtain ⟨st₀, resolveRequest, assigned, c', hres, ⟨-, _, _, -, hres'⟩ | ⟨-, hres'⟩⟩ :=
        r.resolveFlags_inv hrun
      · cases hres'
      · cases hres'
        rw [start, wire.decode_encode] at hstart
        cases hstart
        obtain ⟨c, hstart₀, -⟩ := hres.started
        exact hres.nodup r hvisit (ih hstart₀)

/-! ### The token -/

/-- The values of assigned flags, each with the flag of its name. -/
theorem fromAssigned_values {resolved : List AssignedFlag} {values : List ResolvedValue}
    (h : resolved.mapM r.fromAssigned = .ok values) :
    values.map (·.inner) = resolved ∧ values.map (·.flag.name) = resolved.map (·.flag) := by
  have hone : ∀ a v, r.fromAssigned a = .ok v → v.inner = a ∧ v.flag.name = a.flag := by
    intro a v hv
    rw [fromAssigned] at hv
    rcases hget : r.state.flags.get a.flag with _ | flag <;> rw [hget] at hv <;> cases hv
    exact ⟨rfl, (NamedMap.get_some hget).2⟩
  refine ⟨?_, map_of_mapM (fun a v hv => (hone a v hv).2) h⟩
  rw [map_of_mapM (fun a v hv => (hone a v hv).1) h, List.map_id']

/-- The flags of a response that should be applied. -/
theorem shouldApply_flags {values : List ResolvedValue} {flags : List ResolvedFlag}
    (h : values.mapM ResolvedValue.toResolvedFlag = .ok flags) :
    (flags.filter (·.shouldApply)).map (·.flag) =
      (values.filter (·.shouldApply)).map (·.flag.name) := by
  have hone : ∀ v f, ResolvedValue.toResolvedFlag v = .ok f →
      (f.flag, f.shouldApply) = (v.flag.name, v.shouldApply) := by
    intro v f hf
    rw [ResolvedValue.toResolvedFlag] at hf
    by_cases hrule : v.inner.rule ≠ "" ∨ v.inner.segment ≠ ""
    · rw [if_pos hrule] at hf
      by_cases hvariant : v.inner.variant ≠ ""
      · rw [if_pos hvariant] at hf
        rcases hfind : v.flag.variants.find? fun w => w.name = v.inner.variant with _ | w <;>
          rw [hfind] at hf <;> cases hf
        rfl
      · rw [if_neg hvariant] at hf
        cases hf
        rfl
    · rw [if_neg hrule] at hf
      cases hf
      rfl
  have hpairs := map_of_mapM hone h
  have hkeep : ∀ {α : Type} (l : List α) (name : α → String) (p : α → Bool),
      (l.filter p).map name = ((l.map fun a => (name a, p a)).filter (·.2)).map (·.1) := by
    intro α l name p
    rw [List.filter_map, List.map_map]
    rfl
  rw [hkeep flags, hkeep values, hpairs]

theorem lookup_foldl_of_not_mem {values : List ResolvedValue} {name : String}
    (h : name ∉ values.map (·.inner.flag)) (m : Finmap fun _ : String => AssignedFlag) :
    (values.foldl (fun m v => m.insert v.inner.flag v.inner) m).lookup name = m.lookup name := by
  induction values generalizing m with
  | nil => rfl
  | cons v values ih =>
      rw [List.map_cons, List.mem_cons, not_or] at h
      rw [List.foldl_cons, ih h.2, Finmap.lookup_insert_of_ne _ h.1]

/-- **The token** holds, under its flag, each value that should be applied. -/
theorem lookup_resolveToken {resolveId : String} {values : List ResolvedValue}
    (hnodup : (values.map (·.inner.flag)).Nodup) {v : ResolvedValue}
    (hv : v ∈ values.filter (·.shouldApply)) :
    (resolveToken resolveId values).assignments.lookup v.inner.flag = some v.inner := by
  have hlookup : ∀ {values : List ResolvedValue} (m : Finmap fun _ : String => AssignedFlag),
      (values.map (·.inner.flag)).Nodup → v ∈ values →
      (values.foldl (fun m v => m.insert v.inner.flag v.inner) m).lookup v.inner.flag =
        some v.inner := by
    intro values
    induction values with
    | nil => exact fun m _ hv => absurd hv List.not_mem_nil
    | cons w values ih =>
        intro m hnodup hv
        rw [List.map_cons, List.nodup_cons] at hnodup
        rw [List.foldl_cons]
        rcases List.mem_cons.mp hv with rfl | hv
        · rw [lookup_foldl_of_not_mem hnodup.1, Finmap.lookup_insert]
        · exact ih _ hnodup.2 hv
  exact hlookup ∅ ((List.filter_sublist.map _).nodup hnodup) hv

end AccountResolver

/-! ### What is logged -/

/-- A call of `log_assign`, without the times. -/
structure AssignLog where
  resolveId : String
  assigned : List AssignedFlag
  client : Client
  sdk : Option Sdk

def assignLogs (calls : List HostCall) : List AssignLog :=
  calls.filterMap fun
    | .logAssign resolveId flags client sdk =>
        some ⟨resolveId, flags.map (·.assignedFlag), client, sdk⟩
    | .logResolve _ _ _ _ => none

/-- The same id, client and assigned flags. -/
structure AssignLog.Same (a b : AssignLog) : Prop where
  resolveId : a.resolveId = b.resolveId
  client : a.client = b.client
  sdk : a.sdk = b.sdk
  assigned : a.assigned.Perm b.assigned

namespace AccountResolver

variable (r : AccountResolver) {host : Host Bytes}

/-- The assignments of values, as a request with `apply` logs them. -/
def immediateLog (resolveId : String) (values : List ResolvedValue) : AssignLog :=
  ⟨resolveId, (values.filter (·.shouldApply)).map (·.inner), r.client, r.state.sdk⟩

/-- **Without `apply`** nothing is logged as assigned, and the token is returned. -/
theorem respond_deferred {request : ResolveFlagsRequest} {resolved : List AssignedFlag}
    {response : ResolveFlagsResponse Bytes} {calls : List HostCall}
    (h : r.respond host (request.withApply false) resolved = .ok (response, calls)) :
    ∃ values, resolved.mapM r.fromAssigned = .ok values ∧
      values.mapM ResolvedValue.toResolvedFlag = .ok response.resolvedFlags ∧
      assignLogs calls = [] ∧
      (r.disableExposureCollection = false → response.resolveToken =
        some (host.encryptResolveToken (resolveToken host.resolveId values))) := by
  rw [respond] at h
  obtain ⟨values, hv, h⟩ := bind_eq_ok.mp h
  obtain ⟨flags, hf, h⟩ := bind_eq_ok.mp h
  refine ⟨values, hv, ?_⟩
  rcases hdisabled : r.disableExposureCollection <;>
    simp only [hdisabled, ResolveFlagsRequest.withApply, Bool.false_eq_true, if_false, if_true] at h
  · rcases hencrypt : r.canEncrypt <;>
      simp only [hencrypt, Bool.false_eq_true, if_false, if_true] at h <;> cases h
    exact ⟨hf, rfl, fun _ => rfl⟩
  · cases h
    exact ⟨hf, rfl, fun hfalse => by cases hfalse⟩

/-- **With `apply`** the values are logged. -/
theorem respond_immediate (host : Host Bytes) (request : ResolveFlagsRequest)
    {resolved : List AssignedFlag} {values : List ResolvedValue} {flags : List ResolvedFlag}
    (hv : resolved.mapM r.fromAssigned = .ok values)
    (hf : values.mapM ResolvedValue.toResolvedFlag = .ok flags) :
    ∃ response calls, r.respond host (request.withApply true) resolved = .ok (response, calls) ∧
      response.resolvedFlags = flags ∧
      assignLogs calls = if r.disableExposureCollection then []
        else [r.immediateLog host.resolveId values] := by
  rw [respond, hv]
  simp only [ok_bind, hf]
  rcases r.disableExposureCollection
  · refine ⟨_, _, rfl, rfl, ?_⟩
    simp [assignLogs, immediateLog, Function.comp_def]
  · exact ⟨_, _, rfl, rfl, rfl⟩

end AccountResolver

/-! ### Applying -/

/-- Decrypting undoes encrypting, and decoding undoes encoding. -/
def Undoes (host : Host Bytes) (applyHost : ApplyHost Bytes Plain) : Prop :=
  ∀ token, ∃ plain, applyHost.decryptResolveToken (host.encryptResolveToken token) = .ok plain ∧
    applyHost.decodeResolveToken plain = some (some token)

theorem Undoes.tokenV1 {host : Host Bytes} {applyHost : ApplyHost Bytes Plain}
    (h : Undoes host applyHost) (token : ResolveToken) :
    applyHost.tokenV1 (host.encryptResolveToken token) = .ok token := by
  obtain ⟨plain, hplain, htoken⟩ := h token
  rw [ApplyHost.tokenV1, hplain]
  simp only [Except.mapError, ok_bind, htoken]
  rfl

/-- The times of a request are dates, and can be moved to the clock of the host. -/
def ValidTimes (chrono : Chrono) (currentTime : Timestamp) (request : ApplyFlagsRequest Bytes) :
    Prop :=
  ∃ sentAt sendTime receiveTime, request.sendTime = some sentAt ∧
    chrono.fromTimestamp sentAt = some sendTime ∧
    chrono.fromTimestamp currentTime = some receiveTime ∧
    ∀ f ∈ request.flags, ∃ appliedAt applyTime adjustedTime, f.applyTime = some appliedAt ∧
      chrono.fromTimestamp appliedAt = some applyTime ∧
      chrono.checkedSubSigned receiveTime (chrono.signedDurationSince sendTime applyTime) =
        some adjustedTime

theorem orFail_eq_ok {α : Type} {e : ApplyError} {x : Option α} {a : α} (h : orFail e x = .ok a) :
    x = some a := by
  cases x <;> cases h
  rfl

/-- What is logged for a flag is what the token has under its name. -/
theorem flagToApply_lookup {chrono : Chrono} {sendTime receiveTime : chrono.DateTime}
    {token : ResolveToken} {f : ResolverAppliedFlag} {a : FlagToApply}
    (h : flagToApply chrono sendTime receiveTime token f = .ok a) :
    token.assignments.lookup f.flag = some a.assignedFlag := by
  obtain ⟨assigned, hassigned, h⟩ := bind_eq_ok.mp h
  obtain ⟨_, -, h⟩ := bind_eq_ok.mp h
  obtain ⟨_, -, h⟩ := bind_eq_ok.mp h
  obtain ⟨_, -, h⟩ := bind_eq_ok.mp h
  cases h
  exact orFail_eq_ok hassigned

/-- Flags of the token, with valid times, are logged as the token has them. -/
theorem AccountResolver.applyFlags_ok (r : AccountResolver) {chrono : Chrono}
    {host : ApplyHost Bytes Plain} {request : ApplyFlagsRequest Bytes} {token : ResolveToken}
    (henabled : r.disableExposureCollection = false)
    (htoken : host.tokenV1 request.resolveToken = .ok token)
    (htimes : ValidTimes chrono host.currentTime request)
    (hflags : ∀ f ∈ request.flags, ∃ a, token.assignments.lookup f.flag = some a) :
    ∃ applied, r.applyFlags chrono host request =
        .ok [.logAssign token.resolveId applied r.client r.state.sdk] ∧
      applied.map (fun a => some a.assignedFlag) =
        request.flags.map fun f => token.assignments.lookup f.flag := by
  obtain ⟨sentAt, sendTime, receiveTime, hsent, hsend, hreceive, hadjust⟩ := htimes
  have hone : ∀ f ∈ request.flags,
      ∃ a, flagToApply chrono sendTime receiveTime token f = .ok a := by
    intro f hf
    obtain ⟨a, ha⟩ := hflags f hf
    obtain ⟨appliedAt, applyTime, adjustedTime, hat, htime, hsub⟩ := hadjust f hf
    refine ⟨⟨a, chrono.toTimestamp adjustedTime⟩, ?_⟩
    simp only [flagToApply, ha, hat, htime, hsub, orFail, Option.elim_some, ok_bind]
    rfl
  obtain ⟨applied, happlied⟩ := mapM_isOk hone
  refine ⟨applied, ?_, map_of_mapM (fun f a ha => (flagToApply_lookup ha).symm) happlied⟩
  rw [applyFlags, henabled, if_neg Bool.false_ne_true]
  simp only [hsent, hsend, hreceive, htoken, happlied, orFail, Option.elim_some, ok_bind]
  rfl

/-! ### The two ways agree -/

/-- The flags of the request, applied in any order. -/
theorem applied_perm (resolveId : String) {values : List ResolvedValue} {names : List String}
    {applied : List FlagToApply} (hnodup : (values.map (·.inner.flag)).Nodup)
    (hnames : names.Perm ((values.filter (·.shouldApply)).map (·.inner.flag)))
    (happlied : applied.map (fun a => some a.assignedFlag) =
      names.map (AccountResolver.resolveToken resolveId values).assignments.lookup) :
    (applied.map (·.assignedFlag)).Perm ((values.filter (·.shouldApply)).map (·.inner)) := by
  have hlookup := hnames.map (AccountResolver.resolveToken resolveId values).assignments.lookup
  have hvalues : ((values.filter (·.shouldApply)).map (·.inner.flag)).map
      (AccountResolver.resolveToken resolveId values).assignments.lookup =
      ((values.filter (·.shouldApply)).map (·.inner)).map some := by
    rw [List.map_map, List.map_map]
    exact List.map_congr_left fun v hv => AccountResolver.lookup_resolveToken hnodup hv
  rw [← happlied, hvalues] at hlookup
  have hsome := hlookup.filterMap id
  simpa [List.filterMap_map, Function.comp_def] using hsome

/-- A token whose flags are all applied logs the values behind it. -/
theorem AccountResolver.applyFlags_token (r : AccountResolver) {chrono : Chrono}
    {host : ApplyHost Bytes Plain} {request : ApplyFlagsRequest Bytes} {resolveId : String}
    {values : List ResolvedValue} (henabled : r.disableExposureCollection = false)
    (htoken : host.tokenV1 request.resolveToken = .ok (resolveToken resolveId values))
    (htimes : ValidTimes chrono host.currentTime request)
    (hnodup : (values.map (·.inner.flag)).Nodup)
    (hnames : (request.flags.map (·.flag)).Perm
      ((values.filter (·.shouldApply)).map (·.inner.flag))) :
    ∃ applied log, r.applyFlags chrono host request = .ok applied ∧ assignLogs applied = [log] ∧
      log.Same (r.immediateLog resolveId values) := by
  have hknown : ∀ f ∈ request.flags, ∃ a,
      (resolveToken resolveId values).assignments.lookup f.flag = some a := by
    intro f hf
    obtain ⟨v, hv, hname⟩ := List.mem_map.mp (hnames.subset (List.mem_map_of_mem hf))
    exact ⟨v.inner, hname ▸ lookup_resolveToken hnodup hv⟩
  obtain ⟨applied, happly, hassigned⟩ := r.applyFlags_ok henabled htoken htimes hknown
  refine ⟨_, _, happly, rfl, rfl, rfl, rfl, applied_perm resolveId hnodup hnames ?_⟩
  rw [hassigned, List.map_map]
  rfl

/-- **A deferred apply logs what an immediate one does.**  A request is resolved without `apply`,
and the flags that should be applied are then applied with its token, in any order and in any
evaluation context; the same request resolved with `apply` succeeds too. -/
theorem deferred_apply_agrees (r : AccountResolver) {wire : Wire Bytes} {visit : List Flag}
    (hvisit : visit.Perm r.state.flags.values) {request : ResolveProcessRequest Bytes}
    (hissued : AccountResolver.Issued wire request) {host host' : Host Bytes}
    (hid : host'.resolveId = host.resolveId) {response : ResolveFlagsResponse Bytes}
    {writes : List MaterializationRecord} {calls : List HostCall}
    (hdeferred : r.resolveFlags wire host visit (request.withApply wire false) =
      .ok (.resolved response writes, calls))
    (chrono : Chrono) {applyHost : ApplyHost Bytes Plain} (hundoes : Undoes host applyHost)
    (context : Struct) {applyRequest : ApplyFlagsRequest Bytes}
    (htoken : ∀ token ∈ response.resolveToken, applyRequest.resolveToken = token)
    (hflags : (applyRequest.flags.map (·.flag)).Perm
      ((response.resolvedFlags.filter (·.shouldApply)).map (·.flag)))
    (htimes : ValidTimes chrono applyHost.currentTime applyRequest) :
    ∃ response' calls' applied,
      r.resolveFlags wire host' visit (request.withApply wire true) =
          .ok (.resolved response' writes, calls') ∧
        response'.resolvedFlags = response.resolvedFlags ∧
        ({ r with context := context } : AccountResolver).applyFlags chrono applyHost applyRequest =
          .ok applied ∧
        List.Forall₂ AssignLog.Same (assignLogs (calls ++ applied)) (assignLogs calls') ∧
        (assignLogs calls').length = if r.disableExposureCollection then 0 else 1 := by
  obtain ⟨_, _, assigned, c', hrun, ⟨hread, _, _, hrespond, hres⟩ | ⟨-, hres⟩⟩ :=
    r.resolveFlags_inv hdeferred
  swap
  · cases hres
  cases hres
  obtain ⟨st, resolveRequest, hres, rfl, rfl⟩ := hrun.of_withApply r
  rw [resolvedFlags_withApply] at hrespond
  obtain ⟨values, hvalues, hresolved, hnone, hencrypted⟩ := r.respond_deferred hrespond
  obtain ⟨response', calls', hrespond', hsame, hlogs⟩ :=
    r.respond_immediate host' resolveRequest hvalues hresolved
  have himmediate := (hres.withApply r true).resolveFlags r host' hread
  rw [resolvedFlags_withApply, hrespond'] at himmediate
  refine ⟨response', calls', ?_⟩
  -- without exposure collection neither way logs anything
  by_cases hdisabled : r.disableExposureCollection = true
  · refine ⟨[], himmediate, hsame, ?_, ?_, ?_⟩
    · rw [AccountResolver.applyFlags, if_pos hdisabled]
    · rw [hlogs, if_pos hdisabled, List.append_nil, hnone]
      exact .nil
    · rw [hlogs, if_pos hdisabled, if_pos hdisabled]
      rfl
  · rw [Bool.not_eq_true] at hdisabled
    obtain ⟨hinner, hname⟩ := r.fromAssigned_values hvalues
    have hkeys : values.map (·.inner.flag) = (st.resolvedFlags ++ assigned).map (·.flag) := by
      rw [← hinner, List.map_map]
      rfl
    -- a flag is in the token once, so that the applied flags say which values are meant
    have hnodup : (values.map (·.inner.flag)).Nodup := by
      obtain ⟨c, hstart, -⟩ := hres.started
      rw [hkeys]
      exact hres.nodup r hvisit (hissued.nodup hstart)
    have hnames : (applyRequest.flags.map (·.flag)).Perm
        ((values.filter (·.shouldApply)).map (·.inner.flag)) := by
      have hall := List.map_inj_left.mp (hname.trans hkeys.symm)
      rw [AccountResolver.shouldApply_flags hresolved] at hflags
      rw [← List.map_congr_left fun v hv => hall v (List.mem_of_mem_filter hv)]
      exact hflags
    have htokenV1 := hundoes.tokenV1 (AccountResolver.resolveToken host.resolveId values)
    rw [← htoken _ (hencrypted hdisabled)] at htokenV1
    obtain ⟨applied, log, happly, hlog, hlogged⟩ := AccountResolver.applyFlags_token
      ({ r with context := context }) hdisabled htokenV1 htimes hnodup hnames
    refine ⟨applied, himmediate, hsame, happly, ?_, ?_⟩
    · rw [hlogs, hdisabled, assignLogs, List.filterMap_append, ← assignLogs, ← assignLogs, hnone,
        hlog, AccountResolver.immediateLog, hid]
      exact .cons hlogged .nil
    · rw [hlogs, hdisabled]
      rfl

namespace Sample

/-- Bytes that hold a continuation or a token. -/
abbrev Encoded := ResolveProcessState ⊕ ResolveToken

def bytesWire : Wire Encoded := ⟨.inl, Sum.getLeft?, fun _ => rfl⟩

def tokenHost : Host Encoded := ⟨⟨100, 0⟩, "r", .inr⟩

def applyHost : ApplyHost Encoded ResolveToken where
  currentTime := ⟨160, 0⟩
  decryptResolveToken bytes := bytes.getRight?.elim (.error "") .ok
  decodeResolveToken token := some (some token)

/-- Dates as seconds. -/
def seconds : Chrono where
  DateTime := Int
  TimeDelta := Int
  fromTimestamp t := some t.seconds
  signedDurationSince a b := a - b
  checkedSubSigned a d := some (a - d)
  toTimestamp t := ⟨t, 0⟩

/-- A flag with a variant for everyone. -/
def everyone : Flag := flag "flags/f" [rule "flags/f/rules/1" (.variant "on")]

def everyoneResolver : AccountResolver :=
  resolver [everyone] [segment] (List.nodup_singleton _) segment_nodup

def everyoneAssigned : AssignedFlag where
  flag := "flags/f"
  targetingKey := "u"
  segment := "segments/s"
  variant := "on"
  rule := "flags/f/rules/1"
  reason := .match
  assignmentId := "a"

def deferredToken : ResolveToken := ⟨"r", Finmap.singleton "flags/f" everyoneAssigned⟩

/-- The response to a request without `apply`. -/
def deferredResponse : ResolveFlagsResponse Encoded where
  resolvedFlags := [⟨"flags/f", "on", some [], none, .match, true, "flags/f/rules/1"⟩]
  resolveToken := some (.inr deferredToken)
  resolveId := "r"

def deferredCalls : List HostCall :=
  [.logResolve "r" everyoneResolver.context [⟨everyone, everyoneAssigned⟩] everyoneResolver.client]

/-- The flag, applied five seconds before the request was sent. -/
def applyRequest : ApplyFlagsRequest Encoded where
  flags := [⟨"flags/f", some ⟨90, 0⟩⟩]
  resolveToken := .inr deferredToken
  sendTime := some ⟨95, 0⟩

end Sample

theorem deferred_apply_agrees_sample :
    ∃ response' calls' applied,
      Sample.everyoneResolver.resolveFlags Sample.bytesWire Sample.tokenHost [Sample.everyone]
          (.withoutMaterializations ⟨[], true⟩) = .ok (.resolved response' [], calls') ∧
        response'.resolvedFlags = Sample.deferredResponse.resolvedFlags ∧
        Sample.everyoneResolver.applyFlags Sample.seconds Sample.applyHost Sample.applyRequest =
          .ok applied ∧
        List.Forall₂ AssignLog.Same (assignLogs (Sample.deferredCalls ++ applied))
          (assignLogs calls') ∧
        (assignLogs calls').length = 1 := by
  have hissued : AccountResolver.Issued Sample.bytesWire (.withoutMaterializations ⟨[], true⟩) :=
    .withoutMaterializations _
  have hdeferred : Sample.everyoneResolver.resolveFlags Sample.bytesWire Sample.tokenHost
      [Sample.everyone]
      (ResolveProcessRequest.withApply Sample.bytesWire false (.withoutMaterializations ⟨[], true⟩)) =
        .ok (.resolved Sample.deferredResponse [], Sample.deferredCalls) := rfl
  have htimes : ValidTimes Sample.seconds Sample.applyHost.currentTime Sample.applyRequest := by
    refine ⟨⟨95, 0⟩, (95 : Int), (160 : Int), rfl, rfl, rfl, fun f hf => ?_⟩
    rw [List.mem_singleton.mp hf]
    exact ⟨⟨90, 0⟩, (90 : Int), (155 : Int), rfl, rfl, rfl⟩
  have hundoes : Undoes Sample.tokenHost Sample.applyHost := fun token => ⟨token, rfl, rfl⟩
  exact deferred_apply_agrees Sample.everyoneResolver (.refl _) hissued rfl hdeferred Sample.seconds
    hundoes Sample.everyoneResolver.context (fun token h => by cases h; rfl) (by decide) htimes

end ConfidenceResolver
