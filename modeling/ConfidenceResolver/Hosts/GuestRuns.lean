import ConfidenceResolver.Apply.BatchDedup
import ConfidenceResolver.Apply.Deferred
import ConfidenceResolver.Hosts.GuestExports
import ConfidenceResolver.Logs.TwoPaths
import ConfidenceResolver.Support.Histories

/-!
# Hosts — what a guest reports

The calls of a host to one instance, in any order and with any requests, against what the instance
answers and what its flushes return.

* `answers_from_config`: flushes, telemetry and what was logged before have no part in an answer.
* `exposures_reported`: every exposure is in the events, in order, less what was reported before.
* `replies_counted`: the counts of a flush are those of the replies since the flush before.
* `collection_off_silent`: with exposure collection off there are no events and no tokens.

Each is an invariant of `Run`.  A call of the resolver touches the loggers only through its calls to
the instance as its host, so the step of each invariant is that of one host call.
-/

namespace ConfidenceResolver

/-! ### What is kept of an apply -/

/-- An applied flag of a hash is among these. -/
def HasHash (flags : List FlagToApply) (hash : Word) : Prop :=
  ∃ f ∈ flags, computeDedupHash f.assignedFlag = hash

theorem HasHash.cons {flags : List FlagToApply} {hash : Word} (h : HasHash flags hash)
    (f : FlagToApply) : HasHash (f :: flags) hash := by
  obtain ⟨f', hmem, hf'⟩ := h
  exact ⟨f', List.mem_cons_of_mem f hmem, hf'⟩

namespace ApplyDedup

/-- **A batch**: what is not let through was known, or is let through before; and only what is let
through becomes known. -/
theorem covers_checkAll (nowSeconds : Int64) (flags : List FlagToApply) :
    ∀ d : ApplyDedup,
      (∀ f ∈ flags, HasHash (letThrough flags (d.checkAll nowSeconds (hashesOf flags)).2)
          (computeDedupHash f.assignedFlag) ∨ d.Knows (computeDedupHash f.assignedFlag)) ∧
      ∀ hash, (d.checkAll nowSeconds (hashesOf flags)).1.Knows hash →
        d.Knows hash ∨
          HasHash (letThrough flags (d.checkAll nowSeconds (hashesOf flags)).2) hash := by
  induction flags with
  | nil => exact fun d => ⟨by simp, fun hash h => .inl h⟩
  | cons f flags ih =>
      intro d
      obtain ⟨hdup, hnew⟩ := d.knows_checkHash (computeDedupHash f.assignedFlag) nowSeconds
      obtain ⟨hrest, htable⟩ := ih (d.checkHash (computeDedupHash f.assignedFlag) nowSeconds).1
      simp only [hashesOf, List.map_cons, checkAll] at hrest htable ⊢
      -- the first flag is left out if its hash is in the table, and is let through if not
      cases hfirst : (d.checkHash (computeDedupHash f.assignedFlag) nowSeconds).2 with
      | false =>
          have hthrough : ∀ answers, letThrough (f :: flags) (false :: answers) =
              letThrough flags answers := fun _ => rfl
          have hold : ∀ hash,
              (d.checkHash (computeDedupHash f.assignedFlag) nowSeconds).1.Knows hash →
                d.Knows hash := fun hash h => (hnew hash h).resolve_right (by simp [hfirst])
          refine ⟨fun f' hf' => ?_, fun hash h => ?_⟩
          · rw [hthrough]
            rcases List.mem_cons.mp hf' with rfl | hmem
            · exact .inr (hdup hfirst)
            · exact (hrest f' hmem).imp id (hold _)
          · rw [hthrough]
            exact (htable hash h).imp (hold hash) id
      | true =>
          have hthrough : ∀ answers, letThrough (f :: flags) (true :: answers) =
              f :: letThrough flags answers := fun _ => rfl
          refine ⟨fun f' hf' => ?_, fun hash h => ?_⟩
          · rw [hthrough]
            rcases List.mem_cons.mp hf' with rfl | hmem
            · exact .inl ⟨f', List.mem_cons_self, rfl⟩
            · rcases hrest f' hmem with hlet | hknown
              · exact .inl (hlet.cons f)
              · rcases hnew _ hknown with hbefore | ⟨hsame, -⟩
                · exact .inr hbefore
                · exact .inl ⟨f, List.mem_cons_self, hsame.symm⟩
          · rw [hthrough]
            rcases htable hash h with hknown | hlet
            · exact (hnew hash hknown).imp id fun hsame => ⟨f, List.mem_cons_self, hsame.1.symm⟩
            · exact .inr (hlet.cons f)

/-- A sweep makes nothing known. -/
theorem knows_sweep {d : ApplyDedup} {nowSeconds : Int64} {hash : Word}
    (h : (d.sweep nowSeconds).Knows hash) : d.Knows hash := by
  rw [sweep] at h
  split at h
  · rw [Knows, HashMap.get?_retain] at h
    cases hget : d.seen.get? hash with
    | none => simp [hget] at h
    | some ts => simp [Knows, hget]
  · exact h

end ApplyDedup

/-- What a call of `log_assign` does to the table, and which of its flags are logged. -/
structure KeptOf (d : ApplyDedup) (enabled : Bool) (flags : List FlagToApply)
    (out : ApplyDedup × Option (List FlagToApply)) : Prop where
  sublist : ∀ kept ∈ out.2, kept.Sublist flags
  nonempty : out.2 = none → flags ≠ []
  whole : enabled = false → out.2 = some flags
  covered : ∀ f ∈ flags, HasHash (out.2.getD []) (computeDedupHash f.assignedFlag) ∨
    d.Knows (computeDedupHash f.assignedFlag)
  table : ∀ hash, out.1.Knows hash → d.Knows hash ∨ HasHash (out.2.getD []) hash

theorem KeptOf.all (d : ApplyDedup) (enabled : Bool) (flags : List FlagToApply) :
    KeptOf d enabled flags (d, some flags) where
  sublist kept h := by
    cases h
    exact List.Sublist.refl flags
  nonempty h := by cases h
  whole _ := rfl
  covered f hf := .inl ⟨f, hf, rfl⟩
  table _ h := .inl h

theorem letThrough_sublist {flags : List FlagToApply} {answers : List Bool}
    (hlen : flags.length ≤ answers.length) :
    (ApplyDedup.letThrough flags answers).Sublist flags := by
  have hsub := List.Sublist.map (·.1) (List.filter_sublist (l := flags.zip answers) (p := (·.2)))
  rwa [List.map_fst_zip hlen] at hsub

/-- What lets through nothing keeps nothing. -/
theorem letThrough_none {flags : List FlagToApply} {answers : List Bool}
    (h : answers.count true = 0) : ApplyDedup.letThrough flags answers = [] := by
  have hfalse : ∀ p ∈ flags.zip answers, ¬ p.2 = true := fun p hp htrue =>
    List.count_eq_zero.mp h (htrue ▸ (List.of_mem_zip hp).2)
  rw [ApplyDedup.letThrough, List.filter_eq_nil_iff.mpr hfalse, List.map_nil]

/-- A batch of which those are logged that are let through. -/
theorem KeptOf.batch {d : ApplyDedup} {flags : List FlagToApply} {nowSeconds : Int64}
    {out : ApplyDedup × Option (List FlagToApply)} (hne : flags ≠ [])
    (htable : out.1 = (d.checkAll nowSeconds (ApplyDedup.hashesOf flags)).1)
    (hkept : out.2.getD [] =
      ApplyDedup.letThrough flags (d.checkAll nowSeconds (ApplyDedup.hashesOf flags)).2) :
    KeptOf d true flags out where
  sublist kept h := by
    rw [Option.mem_def.mp h, Option.getD_some] at hkept
    rw [hkept]
    refine letThrough_sublist ?_
    rw [ApplyDedup.length_checkAll, ApplyDedup.hashesOf, List.length_map]
  nonempty _ := hne
  whole h := by cases h
  covered := hkept ▸ (d.covers_checkAll nowSeconds flags).1
  table := hkept ▸ htable ▸ (ApplyDedup.covers_checkAll nowSeconds flags d).2

theorem keptOf_logAssign (d : ApplyDedup) (enabled : Bool) (flags : List FlagToApply) :
    KeptOf d enabled flags (logAssign d enabled flags) := by
  rw [logAssign]
  split
  · exact .all d enabled flags
  · next first hhead =>
      cases enabled with
      | false => exact .all d false flags
      | true =>
          have hne : flags ≠ [] := by
            rintro rfl
            cases hhead
          have hseq := d.sequential flags (Int64.ofInt first.skewAdjustedAppliedTime.seconds)
          have hlen : (d.checkAll (Int64.ofInt first.skewAdjustedAppliedTime.seconds)
              (ApplyDedup.hashesOf flags)).2.length = flags.length := by
            rw [ApplyDedup.length_checkAll, ApplyDedup.hashesOf, List.length_map]
          rw [if_pos rfl]
          dsimp only
          split
          · next hempty =>
              refine .batch hne hseq.table (letThrough_none ?_).symm
              rw [← hseq.count]
              simpa [DedupResult.isEmpty] using hempty
          · split
            · next hall =>
                exact .batch hne hseq.table
                  (ApplyDedup.letThrough_all hlen (hseq.count.symm.trans hall)).symm
            · exact .batch hne hseq.table hseq.collect

namespace WasmGuest

variable {Bytes : Type}

/-! ### Exposures and events -/

/-- Flags that a client was exposed to. -/
structure Exposure where
  resolveId : String
  flags : List FlagToApply
  client : Client
  sdk : Option Sdk

/-- What a call to the host exposes. -/
def exposure? : HostCall → Option Exposure
  | .logAssign resolveId assignedFlags client sdk => some ⟨resolveId, assignedFlags, client, sdk⟩
  | .logResolve _ _ _ _ => none

/-- An exposure, whether duplicates were dropped then, and the flags that are logged if any are. -/
structure Logged where
  deduped : Bool
  exposure : Exposure
  kept : Option (List FlagToApply)

/-- The event of an exposure. -/
def Logged.event? (l : Logged) : Option FlagAssigned :=
  l.kept.map fun flags =>
    buildFlagAssigned l.exposure.resolveId flags l.exposure.client l.exposure.sdk

/-- Exposures in order, each logged with those of its flags that were not logged before. -/
structure Deduped (logged : List Logged) : Prop where
  sublist : ∀ l ∈ logged, ∀ kept ∈ l.kept, kept.Sublist l.exposure.flags
  nonempty : ∀ l ∈ logged, l.kept = none → l.exposure.flags ≠ []
  whole : ∀ l ∈ logged, l.deduped = false → l.kept = some l.exposure.flags
  covered : Throughout (fun pre l => ∀ f ∈ l.exposure.flags,
    ∃ l' ∈ pre ++ [l], HasHash (l'.kept.getD []) (computeDedupHash f.assignedFlag)) logged

namespace Turn

/-- The exposures of a call. -/
def exposures (t : Turn Bytes) : List Exposure := t.hostCalls.filterMap exposure?

/-- The events that a call returns. -/
def events (t : Turn Bytes) : List FlagAssigned :=
  match t.answer with
  | some (.ok (.logs request)) => request.flagAssigned
  | _ => []

/-- Whether a call turns the dropping of duplicates on or off. -/
def setsDedup (t : Turn Bytes) : Option Bool :=
  match t.call, t.answer with
  | .setResolverState request, some (.ok _) => some request.enableApplyDedup
  | _, _ => none

/-- What is known after a call: whether duplicates are dropped, and the exposures, each with whether
they were dropped then. -/
def observe (known : Bool × List (Bool × Exposure)) (t : Turn Bytes) :
    Bool × List (Bool × Exposure) :=
  (t.setsDedup.getD known.1, known.2 ++ t.exposures.map fun e => (known.1, e))

end Turn

/-- The exposures of an instance's calls. -/
def observed (turns : List (Turn Bytes)) : Bool × List (Bool × Exposure) :=
  turns.foldl Turn.observe (false, [])

/-- An instance whose exposures are in its events. -/
structure Reported (g : Statics) (events : List FlagAssigned)
    (known : Bool × List (Bool × Exposure)) (logged : List Logged) : Prop where
  enabled : g.applyDedupEnabled = known.1
  exposures : logged.map (fun l => (l.deduped, l.exposure)) = known.2
  deduped : Deduped logged
  events : events ++ g.assignLogger.held = logged.filterMap Logged.event?
  table : ∀ hash, g.applyDedup.Knows hash → ∃ l ∈ logged, HasHash (l.kept.getD []) hash

theorem reported_new : Reported .new [] (false, []) [] where
  enabled := rfl
  exposures := rfl
  deduped := ⟨by simp, by simp, by simp, by simp⟩
  events := rfl
  table hash h := by simp [ApplyDedup.Knows, Statics.new, ApplyDedup.new] at h

section Steps

variable (lib : Library Bytes) {g g' : Statics} {events : List FlagAssigned}
  {known : Bool × List (Bool × Exposure)} {logged : List Logged}

/-- One more exposure, logged as `log_assign` says. -/
theorem Deduped.append (h : Deduped logged) {d : ApplyDedup} {l : Logged}
    {out : ApplyDedup × Option (List FlagToApply)} (hkept : KeptOf d l.deduped l.exposure.flags out)
    (hout : out.2 = l.kept)
    (hknown : ∀ hash, d.Knows hash → ∃ l ∈ logged, HasHash (l.kept.getD []) hash) :
    Deduped (logged ++ [l]) where
  sublist l' hmem kept hk := by
    rcases List.mem_append.mp hmem with hold | hnew
    · exact h.sublist l' hold kept hk
    · cases List.mem_singleton.mp hnew
      exact hkept.sublist kept (hout ▸ hk)
  nonempty l' hmem hk := by
    rcases List.mem_append.mp hmem with hold | hnew
    · exact h.nonempty l' hold hk
    · cases List.mem_singleton.mp hnew
      exact hkept.nonempty (hout.trans hk)
  whole l' hmem hoff := by
    rcases List.mem_append.mp hmem with hold | hnew
    · exact h.whole l' hold hoff
    · cases List.mem_singleton.mp hnew
      exact hout.symm.trans (hkept.whole hoff)
  covered := by
    refine throughout_concat.mpr ⟨h.covered, fun f hf => ?_⟩
    -- what is not logged with the exposure is in the table
    rcases hkept.covered f hf with hhere | hthere
    · exact ⟨l, by simp, hout ▸ hhere⟩
    · obtain ⟨l', hmem, hl'⟩ := hknown _ hthere
      exact ⟨l', List.mem_append_left _ hmem, hl'⟩

/-- **A call to the host** logs an exposure, or none. -/
theorem Reported.hostCall (h : Reported g events known logged) (pick : Nat) (call : HostCall) :
    ∃ logged', Reported (g.hostCall lib pick call) events
      (known.1, known.2 ++ (exposure? call).toList.map fun e => (known.1, e)) logged' := by
  cases call with
  | logResolve resolveId context values client =>
      refine ⟨logged, h.enabled, ?_, h.deduped, h.events, h.table⟩
      simpa [exposure?] using h.exposures
  | logAssign resolveId assignedFlags client sdk =>
      have hkept := keptOf_logAssign g.applyDedup g.applyDedupEnabled assignedFlags
      let l : Logged := ⟨g.applyDedupEnabled, ⟨resolveId, assignedFlags, client, sdk⟩,
        (logAssign g.applyDedup g.applyDedupEnabled assignedFlags).2⟩
      refine ⟨logged ++ [l], h.enabled, ?_, h.deduped.append (l := l) hkept rfl h.table, ?_, ?_⟩
      · simp [h.exposures, exposure?, l, h.enabled]
      · have hevents := h.events
        simp only [Statics.hostCall, Statics.logAssign, List.filterMap_append, ← hevents, l]
        cases (logAssign g.applyDedup g.applyDedupEnabled assignedFlags).2 with
        | none => simp [Logged.event?]
        | some flags =>
            simp [Logged.event?, AssignLogger.logAssigns, ByteQueue.push, ByteQueue.held]
      · intro hash hnow
        rcases hkept.table hash hnow with hbefore | hhere
        · obtain ⟨l', hmem, hl'⟩ := h.table hash hbefore
          exact ⟨l', List.mem_append_left _ hmem, hl'⟩
        · exact ⟨l, by simp, hhere⟩

theorem Reported.hostCalls (pick : Nat) (calls : List HostCall) :
    ∀ {g known logged}, Reported g events known logged →
      ∃ logged', Reported (calls.foldl (Statics.hostCall lib pick) g) events
        (known.1, known.2 ++ (calls.filterMap exposure?).map fun e => (known.1, e)) logged' := by
  induction calls with
  | nil => exact fun h => ⟨_, by simpa using h⟩
  | cons call calls ih =>
      intro g known logged h
      obtain ⟨logged₁, h₁⟩ := h.hostCall lib pick call
      obtain ⟨logged₂, h₂⟩ := ih h₁
      refine ⟨logged₂, ?_⟩
      cases hcall : exposure? call <;> simpa [hcall] using h₂

/-- Events go from the instance to the host, and the table may lose entries. -/
theorem Reported.move (h : Reported g events known logged) {returned : List FlagAssigned}
    (henabled : g'.applyDedupEnabled = g.applyDedupEnabled)
    (hheld : returned ++ g'.assignLogger.held = g.assignLogger.held)
    (htable : ∀ hash, g'.applyDedup.Knows hash → g.applyDedup.Knows hash) :
    Reported g' (events ++ returned) known logged where
  enabled := henabled.trans h.enabled
  exposures := h.exposures
  deduped := h.deduped
  events := by rw [List.append_assoc, hheld, h.events]
  table hash hnow := h.table hash (htable hash hnow)

/-- A call that leaves the dropping of duplicates as it is. -/
theorem Turn.observe_eq {t : Turn Bytes} (h : t.setsDedup = none) :
    t.observe known = (known.1, known.2 ++ t.exposures.map fun e => (known.1, e)) := by
  simp [Turn.observe, h]

/-- A call that exposes nothing either. -/
theorem Turn.observe_quiet {t : Turn Bytes} (h : t.setsDedup = none) (hcalls : t.hostCalls = []) :
    t.observe known = known := by
  simp [Turn.observe_eq h, Turn.exposures, hcalls]

theorem Turn.setsDedup_failed {call : Call Bytes} {answer : Option (Except String (Reply Bytes))}
    {calls : List HostCall} (h : ∀ reply, answer ≠ some (.ok reply)) :
    (Turn.mk call answer calls).setsDedup = none := by
  rcases answer with _ | (text | reply)
  · simp [Turn.setsDedup]
  · simp [Turn.setsDedup]
  · exact absurd rfl (h reply)

theorem Turn.events_failed {call : Call Bytes} {answer : Option (Except String (Reply Bytes))}
    {calls : List HostCall} (h : ∀ reply, answer ≠ some (.ok reply)) :
    (Turn.mk call answer calls).events = [] := by
  rcases answer with _ | (text | reply)
  · rfl
  · rfl
  · exact absurd rfl (h reply)

/-- **A call** of the host. -/
theorem Reported.turn (h : Reported g events known logged) (call : Call Bytes) :
    ∃ logged', Reported (g.turn lib call).1 (events ++ (g.turn lib call).2.events)
      (Turn.observe known (g.turn lib call).2) logged' := by
  have hturn := turnOf lib g call
  generalize g.turn lib call = out at hturn ⊢
  cases hturn with
  | stored hstate =>
      have hevents := h.events
      refine ⟨logged, rfl, ?_, h.deduped, ?_, h.table⟩
      · simpa [Turn.observe, Turn.exposures] using h.exposures
      · simpa [Turn.events, Statics.setResolverState] using hevents
  | failed hfail =>
      refine ⟨logged, ?_⟩
      rw [Turn.observe_quiet (Turn.setsDedup_failed hfail) rfl, Turn.events_failed hfail,
        List.append_nil]
      exact h
  | resolved hanswer =>
      obtain ⟨logged', h'⟩ := h.hostCalls lib _ _
      refine ⟨logged', ?_⟩
      rw [Turn.observe_eq rfl, Turn.events, List.append_nil]
      exact h'
  | applied hanswer =>
      obtain ⟨logged', h'⟩ := h.hostCalls lib _ _
      refine ⟨logged', ?_⟩
      rw [Turn.observe_eq rfl, Turn.events, List.append_nil]
      exact h'
  | registered reason latencyUs =>
      refine ⟨logged, ?_⟩
      rw [Turn.observe_quiet rfl rfl]
      exact h.move rfl rfl fun _ hknown => hknown
  -- the flushes take from the front of what is held, and a sweep adds no hash to the table
  | flushLogs now =>
      refine ⟨logged, ?_⟩
      rw [Turn.observe_quiet rfl rfl]
      exact h.move rfl (ByteQueue.flush_held _ _ _ _ _ _) fun _ hknown =>
        ApplyDedup.knows_sweep hknown
  | boundedFlushLogs now memory =>
      refine ⟨logged, ?_⟩
      rw [Turn.observe_quiet rfl rfl]
      exact h.move rfl (ByteQueue.flush_held _ _ _ _ _ _) fun _ hknown =>
        ApplyDedup.knows_sweep hknown
  | boundedFlushAssign now =>
      refine ⟨logged, ?_⟩
      rw [Turn.observe_quiet rfl rfl]
      exact h.move rfl (g.toGuest.boundedFlushAssign_held lib.sizes now) fun _ hknown =>
        ApplyDedup.knows_sweep hknown
  | rendered resolverId config memory =>
      refine ⟨logged, ?_⟩
      rw [Turn.observe_quiet rfl rfl, Turn.events, List.append_nil]
      exact h

end Steps

theorem observed_append (turns : List (Turn Bytes)) (t : Turn Bytes) :
    observed (turns ++ [t]) = t.observe (observed turns) := by
  rw [observed, List.foldl_append]
  rfl

/-- **Every exposure is reported.**  Over all calls of a host, the events that the flushes have
returned, with those still held, are the exposures' in their order.  With an exposure are logged its
flags, in their order, but for flags whose hash is in an event already; while duplicates are not
dropped it is logged whole. -/
theorem exposures_reported (lib : Library Bytes) (calls : List (Call Bytes)) :
    ∃ logged : List Logged,
      logged.map (fun l => (l.deduped, l.exposure)) =
          (observed (Run.start.run lib calls).turns).2 ∧
        Deduped logged ∧
        (Run.start.run lib calls).turns.flatMap Turn.events ++
          (Run.start.run lib calls).statics.assignLogger.held = logged.filterMap Logged.event? := by
  have hrun : ∃ logged, Reported (Run.start.run lib calls).statics
      ((Run.start.run lib calls).turns.flatMap Turn.events)
      (observed (Run.start.run lib calls).turns) logged := by
    refine Run.run_induction (P := fun r => ∃ logged, Reported r.statics
      (r.turns.flatMap Turn.events) (observed r.turns) logged) ?_ ⟨[], reported_new⟩ calls
    rintro r call ⟨logged, h⟩
    obtain ⟨logged', h'⟩ := h.turn lib call
    refine ⟨logged', ?_⟩
    rw [Run.step, observed_append, List.flatMap_append, List.flatMap_singleton]
    exact h'
  obtain ⟨logged, h⟩ := hrun
  exact ⟨logged, h.exposures, h.deduped, h.events⟩

/-! ### What the resolver tells its host -/

section Calls

variable {wire : Wire Bytes} {host : Host Bytes} {r : AccountResolver}

/-- The calls to the host of a request that is resolved to `values`. -/
def callsOf (r : AccountResolver) (host : Host Bytes) (apply : Bool) (values : List ResolvedValue) :
    List HostCall :=
  (if r.disableExposureCollection = false ∧ apply = true then
    [.logAssign host.resolveId
      ((values.filter (·.shouldApply)).map fun value => ⟨value.inner, host.currentTime⟩)
      r.client r.state.sdk]
  else []) ++ [.logResolve host.resolveId r.context values r.client]

theorem calls_respond {request : ResolveFlagsRequest} {resolved : List AssignedFlag}
    {response : ResolveFlagsResponse Bytes} {calls : List HostCall}
    (h : r.respond host request resolved = .ok (response, calls)) :
    ∃ values, resolved.mapM r.fromAssigned = .ok values ∧
      values.mapM ResolvedValue.toResolvedFlag = .ok response.resolvedFlags ∧
      calls = callsOf r host request.apply values ∧
      (r.disableExposureCollection = true → response.resolveToken = none) := by
  rw [AccountResolver.respond] at h
  obtain ⟨values, hvalues, h⟩ := bind_eq_ok.mp h
  obtain ⟨flags, hflags, h⟩ := bind_eq_ok.mp h
  refine ⟨values, hvalues, ?_⟩
  split at h
  · next hoff =>
      cases h
      exact ⟨hflags, by simp [callsOf, hoff], fun _ => rfl⟩
  · next hon =>
      split at h
      · next happly =>
          cases h
          exact ⟨hflags, by simp [callsOf, hon, happly], fun _ => rfl⟩
      · next hdeferred =>
          split at h <;> cases h
          exact ⟨hflags, by simp [callsOf, hdeferred], fun hoff => absurd hoff hon⟩

theorem calls_applyFlags {chrono : Chrono} {Plain : Type} {applyHost : ApplyHost Bytes Plain}
    {request : ApplyFlagsRequest Bytes} {calls : List HostCall}
    (h : r.applyFlags chrono applyHost request = .ok calls) :
    calls = [] ∨ (r.disableExposureCollection = false ∧
      ∃ resolveId flags client sdk, calls = [.logAssign resolveId flags client sdk]) := by
  rw [AccountResolver.applyFlags] at h
  split at h
  · cases h
    exact .inl rfl
  · next hon =>
      obtain ⟨sentAt, -, h⟩ := bind_eq_ok.mp h
      obtain ⟨sendTime, -, h⟩ := bind_eq_ok.mp h
      obtain ⟨receiveTime, -, h⟩ := bind_eq_ok.mp h
      obtain ⟨token, -, h⟩ := bind_eq_ok.mp h
      obtain ⟨flags, -, h⟩ := bind_eq_ok.mp h
      cases h
      exact .inr ⟨Bool.not_eq_true _ ▸ hon, _, _, _, _, rfl⟩

/-- A request that is answered: suspended, without a call to the host, or resolved. -/
inductive Told (r : AccountResolver) (host : Host Bytes) :
    ResolveProcessResponse Bytes → List HostCall → Prop where
  | suspended (materializationsToRead : List MaterializationRecord) (state : Bytes) :
    Told r host (.suspended materializationsToRead state) []
  | resolved {response : ResolveFlagsResponse Bytes} {values : List ResolvedValue}
      (materializationsToWrite : List MaterializationRecord) (apply : Bool)
      (hnames : ∀ v ∈ values, v.flag.name = v.inner.flag)
      (hflags : values.mapM ResolvedValue.toResolvedFlag = .ok response.resolvedFlags)
      (htoken : r.disableExposureCollection = true → response.resolveToken = none) :
    Told r host (.resolved response materializationsToWrite) (callsOf r host apply values)

theorem told_resolveFlags {visit : List Flag} {request : ResolveProcessRequest Bytes}
    {response : ResolveProcessResponse Bytes} {calls : List HostCall}
    (h : r.resolveFlags wire host visit request = .ok (response, calls)) :
    Told r host response calls := by
  obtain ⟨st, resolveRequest, assigned, c', -, hend⟩ := r.resolveFlags_inv h
  rcases hend with ⟨-, answer, calls', hrespond, hres⟩ | ⟨-, hres⟩
  · cases hres
    obtain ⟨values, hvalues, hflags, rfl, htoken⟩ := calls_respond hrespond
    refine .resolved _ _ (fun v hv => ?_) hflags htoken
    obtain ⟨hinner, hname⟩ := r.fromAssigned_values hvalues
    rw [← hinner, List.map_map] at hname
    exact List.map_inj_left.mp hname v hv
  · cases hres
    exact .suspended _ _

end Calls

section Answers

variable {lib : Library Bytes} {g : Statics}

theorem getResolver_disabled {state : ResolverState} {clientSecret : String} {context : Struct}
    {r : AccountResolver} (h : lib.getResolver g state clientSecret context = pure r) :
    r.disableExposureCollection = g.disableExposureCollection := by
  obtain ⟨r', -, hr⟩ := Answer.bind_eq_pure.mp h
  cases hr
  rfl

/-- An answer of `resolve_flags` is that of a resolver of the current state. -/
theorem told_answer {readings : Readings} {request : ProcessRequest Bytes}
    {response : ResolveProcessResponse Bytes} {calls : List HostCall}
    (h : lib.resolveFlags g readings request = pure (response, calls)) :
    g.resolverState ≠ none ∧ ∃ r : AccountResolver,
      r.disableExposureCollection = g.disableExposureCollection ∧
        Told r ⟨readings.currentTime, readings.resolveId, lib.encodeToken⟩ response calls := by
  obtain ⟨state, hstate, h⟩ := Answer.bind_eq_pure.mp h
  obtain ⟨resolveRequest, -, h⟩ := Answer.bind_eq_pure.mp h
  obtain ⟨resolver, hresolver, h⟩ := Answer.bind_eq_pure.mp h
  refine ⟨?_, resolver, getResolver_disabled hresolver, told_resolveFlags (lib.finish_eq_pure h)⟩
  intro hnone
  rw [Statics.getResolverState, hnone] at hstate
  cases hstate

/-- What an apply tells its host: nothing with the exposure collection off, else one exposure. -/
theorem told_apply {readings : Readings} {request : ApplyRequest Bytes} {calls : List HostCall}
    (h : lib.applyFlags g readings request = pure calls) :
    g.resolverState ≠ none ∧
      (calls = [] ∨ (g.disableExposureCollection = false ∧
        ∃ resolveId flags client sdk, calls = [.logAssign resolveId flags client sdk])) := by
  obtain ⟨state, hstate, h⟩ := Answer.bind_eq_pure.mp h
  obtain ⟨resolver, hresolver, h⟩ := Answer.bind_eq_pure.mp h
  refine ⟨fun hnone => ?_, ?_⟩
  · rw [Statics.getResolverState, hnone] at hstate
    cases hstate
  · rw [← getResolver_disabled (Answer.adapt_eq_pure.mp hresolver)]
    rw [Answer.of_eq_pure] at h
    rcases hlog : resolver.applyFlags lib.chrono (lib.applyHost readings)
      request.toApplyFlagsRequest with e | calls' <;> rw [hlog] at h <;> cases h
    exact calls_applyFlags hlog

end Answers

/-! ### Answers and the rest -/

/-- Outcomes that fail alike, or give related values. -/
inductive Alike {ε α : Type} (R : α → α → Prop) : Except ε α → Except ε α → Prop where
  | error (e : ε) : Alike R (.error e) (.error e)
  | ok {a b : α} (h : R a b) : Alike R (.ok a) (.ok b)

theorem Alike.map {ε α β : Type} {R : α → α → Prop} {S : β → β → Prop} {x y : Except ε α}
    {f : α → β} (h : Alike R x y) (hf : ∀ a b, R a b → S (f a) (f b)) :
    Alike S (x.map f) (y.map f) := by
  cases h with
  | error e => exact .error e
  | ok h => exact .ok (hf _ _ h)

/-- What is the same so far goes on. -/
theorem Alike.bind {ε α β : Type} {R : β → β → Prop} (x : Except ε α) {f f' : α → Except ε β}
    (h : ∀ a, Alike R (f a) (f' a)) : Alike R (x >>= f) (x >>= f') := by
  cases x with
  | error e => exact .error e
  | ok a => exact h a

/-- Responses that differ in the id that was drawn for each, which its token has too. -/
structure SameButId (encode : ResolveToken → Bytes) (a b : ResolveFlagsResponse Bytes) : Prop where
  flags : a.resolvedFlags = b.resolvedFlags
  token : (a.resolveToken = none ∧ b.resolveToken = none) ∨ ∃ token : ResolveToken,
    a.resolveToken = some (encode { token with resolveId := a.resolveId }) ∧
      b.resolveToken = some (encode { token with resolveId := b.resolveId })

/-- The same for the responses of a request: a suspended one has no id. -/
inductive SameResponse (encode : ResolveToken → Bytes) :
    ResolveProcessResponse Bytes → ResolveProcessResponse Bytes → Prop where
  | suspended (materializationsToRead : List MaterializationRecord) (state : Bytes) :
    SameResponse encode (.suspended materializationsToRead state)
      (.suspended materializationsToRead state)
  | resolved {a b : ResolveFlagsResponse Bytes} (h : SameButId encode a b)
      (materializationsToWrite : List MaterializationRecord) :
    SameResponse encode (.resolved a materializationsToWrite) (.resolved b materializationsToWrite)

/-- The same for any reply. -/
inductive SameReply (encode : ResolveToken → Bytes) : Reply Bytes → Reply Bytes → Prop where
  | same (reply : Reply Bytes) : SameReply encode reply reply
  | resolve {a b : ResolveProcessResponse Bytes} (h : SameResponse encode a b) :
    SameReply encode (.resolve a) (.resolve b)

section Ids

variable {wire : Wire Bytes} (r : AccountResolver) (time : Timestamp) (id id' : String)
  (encode : ResolveToken → Bytes)

/-- The id that is drawn has no part in what is assigned. -/
theorem respond_alike (request : ResolveFlagsRequest) (resolved : List AssignedFlag) :
    Alike (fun out out' => SameButId encode out.1 out'.1)
      (r.respond ⟨time, id, encode⟩ request resolved)
      (r.respond ⟨time, id', encode⟩ request resolved) := by
  rw [AccountResolver.respond, AccountResolver.respond]
  refine .bind _ fun values => .bind _ fun flags => ?_
  split
  · exact .ok ⟨rfl, .inl ⟨rfl, rfl⟩⟩
  · split
    · exact .ok ⟨rfl, .inl ⟨rfl, rfl⟩⟩
    · split
      · exact .ok ⟨rfl, .inr ⟨AccountResolver.resolveToken id values, rfl, rfl⟩⟩
      · exact .error _

theorem resolveFlags_alike (visit : List Flag) (request : ResolveProcessRequest Bytes) :
    Alike (fun out out' => SameResponse encode out.1 out'.1)
      (r.resolveFlags wire ⟨time, id, encode⟩ visit request)
      (r.resolveFlags wire ⟨time, id', encode⟩ visit request) := by
  rw [AccountResolver.resolveFlags, AccountResolver.resolveFlags]
  split
  · exact .error _
  · next state c _ =>
      split
      · exact .error _
      · rw [AccountResolver.resolvePass, AccountResolver.resolvePass]
        dsimp only
        split
        · exact .error _
        · split
          · exact .error _
          · split
            · exact (respond_alike r time id id' encode _ _).map fun _ _ h => .resolved h _
            · exact .ok (.suspended _ _)

end Ids

/-- Answers that trap, fail or reply alike. -/
abbrev SameAnswer {α : Type} (R : α → α → Prop) : Option (Except String α) →
    Option (Except String α) → Prop := Option.Rel (Alike R)

theorem SameAnswer.bind {α β : Type} {R : β → β → Prop} (x : Answer α) {f f' : α → Answer β}
    (h : ∀ a, SameAnswer R (f a) (f' a)) :
    SameAnswer R (x >>= f : Answer β) (x >>= f' : Answer β) := by
  rcases x with _ | (text | a)
  · exact .none
  · exact .some (.error text)
  · exact h a

theorem SameAnswer.finish {α : Type} {R : α → α → Prop} {x y : Except ProcessError α}
    (lib : Library Bytes) (h : Alike R x y) : SameAnswer R (lib.finish x) (lib.finish y) := by
  cases h with
  | error e => rcases e with _ | _ | _ | (_ | _ | _ | _ | _ | _) | _ <;>
      first | exact .none | exact .some (.error _)
  | ok h => exact .some (.ok h)

/-- The calls whose answers an evaluation depends on. -/
def Call.serves : Call Bytes → Bool
  | .setResolverState _ | .resolveFlags _ _ | .applyFlags _ _ => true
  | _ => false

/-- The call with other random draws. -/
def Call.redraw (resolveId : String) (pick : Nat) : Call Bytes → Call Bytes
  | .resolveFlags request r => .resolveFlags request ⟨r.currentTime, resolveId, pick⟩
  | .applyFlags request r => .applyFlags request ⟨r.currentTime, resolveId, pick⟩
  | call => call

/-- An instance with the state of another. -/
def Statics.withConfig (g : Statics) (config : Config) : Statics :=
  { g with
    resolverState := config.resolverState
    disableExposureCollection := config.disableExposureCollection }

section Configs

variable (lib : Library Bytes)

theorem config_hostCalls (pick : Nat) (calls : List HostCall) :
    ∀ g : Statics, (calls.foldl (Statics.hostCall lib pick) g).config = g.config := by
  induction calls with
  | nil => exact fun _ => rfl
  | cons call calls ih =>
      intro g
      rw [List.foldl_cons, ih]
      cases call <;> rfl

theorem config_served (g : Statics) (call : Call Bytes) (pick : Nat)
    (answer : Answer (Reply Bytes × List HostCall)) :
    (g.served lib call pick answer).1.config = g.config := by
  rcases answer with _ | (text | ⟨reply, calls⟩)
  · rfl
  · rfl
  · exact config_hostCalls lib pick calls g

/-- What the caller gets of a call of the resolver. -/
theorem answer_served (g : Statics) (call : Call Bytes) (pick : Nat)
    (answer : Answer (Reply Bytes × List HostCall)) :
    (g.served lib call pick answer).2.answer = (answer.map Prod.fst).run := by
  rcases answer with _ | (text | ⟨reply, calls⟩) <;> rfl

/-- A call that only observes keeps the state. -/
theorem config_observer (g : Statics) {call : Call Bytes} (h : call.serves = false) :
    (g.turn lib call).1.config = g.config := by
  cases call with
  | setResolverState | resolveFlags | applyFlags => cases h
  | _ => rfl

theorem call_served (g : Statics) (call : Call Bytes) (pick : Nat)
    (answer : Answer (Reply Bytes × List HostCall)) :
    (g.served lib call pick answer).2.call = call := by
  rcases answer with _ | (text | ⟨reply, calls⟩) <;> rfl

theorem call_turn (g : Statics) (call : Call Bytes) : (g.turn lib call).2.call = call := by
  cases call with
  | setResolverState request =>
      rw [Statics.turn]
      cases lib.newState request <;> rfl
  | resolveFlags request r => exact call_served lib g _ _ _
  | applyFlags request r => exact call_served lib g _ _ _
  | _ => rfl

section Congruence

variable {g g' : Statics}

theorem getResolver_config (h : g.config = g'.config) :
    g.getResolverState = g'.getResolverState ∧ lib.getResolver g = lib.getResolver g' := by
  have hstate : g.resolverState = g'.resolverState := congrArg Config.resolverState h
  have hoff : g.disableExposureCollection = g'.disableExposureCollection :=
    congrArg Config.disableExposureCollection h
  exact ⟨by rw [Statics.getResolverState, Statics.getResolverState, hstate],
    by funext; rw [Library.getResolver, Library.getResolver, hoff]⟩

theorem resolveFlags_config (h : g.config = g'.config) (r : Readings) (id : String) (pick : Nat)
    (request : ProcessRequest Bytes) :
    SameAnswer (fun out out' => SameResponse lib.encodeToken out.1 out'.1)
      (lib.resolveFlags g r request) (lib.resolveFlags g' ⟨r.currentTime, id, pick⟩ request) := by
  obtain ⟨hstate, hresolver⟩ := getResolver_config lib h
  rw [Library.resolveFlags, Library.resolveFlags, hstate, hresolver]
  exact .bind _ fun state => .bind _ fun resolveRequest => .bind _ fun resolver =>
    .finish lib (resolveFlags_alike resolver _ _ _ _ _ _)

/-- An apply draws nothing. -/
theorem applyFlags_config (h : g.config = g'.config) (r : Readings) (id : String) (pick : Nat)
    (request : ApplyRequest Bytes) :
    lib.applyFlags g r request = lib.applyFlags g' ⟨r.currentTime, id, pick⟩ request := by
  obtain ⟨hstate, hresolver⟩ := getResolver_config lib h
  rw [Library.applyFlags, Library.applyFlags, hstate, hresolver]
  rfl

/-- **A call that serves** is answered alike by two instances with the same state, whatever is drawn
for each. -/
theorem turn_alike (h : g.config = g'.config) {call : Call Bytes}
    (hserves : call.serves = true) (id : String) (pick : Nat) :
    SameAnswer (SameReply lib.encodeToken) (g.turn lib call).2.answer
        (g'.turn lib (call.redraw id pick)).2.answer ∧
      (g.turn lib call).1.config = (g'.turn lib (call.redraw id pick)).1.config := by
  cases call with
  | setResolverState request =>
      simp only [Call.redraw, Statics.turn]
      cases lib.newState request with
      | error text => exact ⟨.some (.error text), h⟩
      | ok newState => exact ⟨.some (.ok (.same _)), rfl⟩
  | resolveFlags request r =>
      rw [Call.redraw, Statics.turn, Statics.turn]
      refine ⟨?_, by rw [config_served, config_served, h]⟩
      rw [answer_served, answer_served]
      have hanswers := resolveFlags_config lib h r id pick request
      generalize lib.resolveFlags g r request = x, lib.resolveFlags g' _ request = y at hanswers ⊢
      cases hanswers with
      | none => exact .none
      | some hout =>
          cases hout with
          | error text => exact .some (.error text)
          | ok hresponse => exact .some (.ok (.resolve hresponse))
  | applyFlags request r =>
      rw [Call.redraw, Statics.turn, Statics.turn, ← applyFlags_config lib h]
      refine ⟨?_, by rw [config_served, config_served, h]⟩
      rw [answer_served, answer_served]
      rcases lib.applyFlags g r request with _ | (text | calls)
      · exact .none
      · exact .some (.error text)
      · exact .some (.ok (.same _))
  | _ => cases hserves

end Congruence

end Configs

/-! ### Replies and counts -/

/-- The variant that an entry of a reply is counted for. -/
def replyVariant (flag : ResolvedFlag) : String :=
  if flag.assignmentOrigin ≠ "" then flag.variant else ""

/-- An entry of a reply says which counter of its flag it adds to. -/
theorem replyVariant_toResolvedFlag {v : ResolvedValue} {flag : ResolvedFlag}
    (h : v.toResolvedFlag = .ok flag) :
    (flag.flag, replyVariant flag) = (v.flag.name, ResolveLogger.variantKey v.inner) := by
  rw [ResolvedValue.toResolvedFlag] at h
  rw [replyVariant, ResolveLogger.variantKey]
  by_cases hrule : v.inner.rule ≠ "" ∨ v.inner.segment ≠ ""
  · rw [if_pos hrule] at h
    by_cases hvariant : v.inner.variant ≠ ""
    · rw [if_pos hvariant] at h
      rcases hfind : v.flag.variants.find? fun w => w.name = v.inner.variant with _ | w <;>
        rw [hfind] at h <;> cases h
      have hname : w.name = v.inner.variant := by simpa using List.find?_some hfind
      rw [hname]
    · rw [if_neg hvariant] at h
      cases h
      simp [not_not.mp hvariant]
  · rw [if_neg hrule] at h
    cases h
    simp [not_not.mp (not_or.mp hrule).1]

/-- The flags of a response; a suspended request has none. -/
def entriesOf : ResolveProcessResponse Bytes → List ResolvedFlag
  | .resolved response _ => response.resolvedFlags
  | .suspended _ _ => []

namespace Turn

/-- The entries of a reply. -/
def entries (t : Turn Bytes) : List ResolvedFlag :=
  match t.answer with
  | some (.ok (.resolve response)) => entriesOf response
  | _ => []

/-- The logs that a call returns with the counts. -/
def counts? (t : Turn Bytes) : Option WriteFlagLogsRequest :=
  match t.call, t.answer with
  | .flushLogs _, some (.ok (.logs request)) => some request
  | .boundedFlushLogs _ _, some (.ok (.logs request)) => some request
  | _, _ => none

/-- The entries since the last counts. -/
def since (entries : List ResolvedFlag) (t : Turn Bytes) : List ResolvedFlag :=
  if t.counts?.isSome then [] else entries ++ t.entries

end Turn

/-- The entries of the replies since the last flush that returned the counts. -/
def sinceFlush (turns : List (Turn Bytes)) : List ResolvedFlag := turns.foldl Turn.since []

/-- How often a flag was resolved to a variant. -/
def timesResolved (flag variant : String) (entries : List ResolvedFlag) : Nat :=
  entries.countP fun entry => entry.flag = flag ∧ replyVariant entry = variant

open ResolveLogger in
/-- The counters are those of the entries. -/
def Counted (g : Statics) (entries : List ResolvedFlag) : Prop :=
  ∃ resolves : List LoggedResolve, g.resolveLogger = logAll resolves ∧
    (resolves.flatMap (·.values)).map (fun v => (v.inner.flag, variantKey v.inner)) =
      entries.map fun entry => (entry.flag, replyVariant entry)

open ResolveLogger in
theorem count_updatesOf (flag variant : String) (values : List ResolvedValue) :
    (updatesOf flag values).count (.variant variant) =
      (values.map fun v => (v.inner.flag, variantKey v.inner)).count (flag, variant) := by
  induction values with
  | nil => rfl
  | cons v values ih =>
      rw [updatesOf_cons, List.count_append, ih, List.map_cons, List.count_cons, Nat.add_comm]
      by_cases hflag : v.inner.flag = flag
      · rw [if_pos hflag, count_flagUpdates, count_hits_variant]
        by_cases hkey : variantKey v.inner = variant <;> simp [hflag, hkey]
      · simp [hflag]

section Counts

variable (lib : Library Bytes) {g : Statics} {entries : List ResolvedFlag}

/-- **What is reported** of the counters of a flag. -/
theorem Counted.report (h : Counted g entries) (flag variant : String) :
    Saturating.total (variantCounts flag variant
        (ResolveLogger.report g.resolveLogger).flagResolveInfo) =
      (timesResolved flag variant entries % 2 ^ 32 : Nat) := by
  obtain ⟨resolves, hlogger, hentries⟩ := h
  have hzero : ({} : ResolveLogger.FlagResolveInfo).counter (.variant variant) = 0 := rfl
  have htimes : timesResolved flag variant entries =
      (entries.map fun entry => (entry.flag, replyVariant entry)).count (flag, variant) := by
    rw [timesResolved, List.count, List.countP_map]
    exact List.countP_congr fun entry _ => by simp
  rw [ResolveLogger.variantCounts_report, hlogger, ResolveLogger.getD_logAll,
    ResolveLogger.counter_foldl, hzero, UInt32.zero_add, UInt32.toNat_ofNat', count_updatesOf,
    hentries, htimes]

open ResolveLogger in
/-- **A request that is resolved** is counted with the entries of its reply. -/
theorem Counted.told (h : Counted g entries) {r : AccountResolver} {host : Host Bytes}
    {response : ResolveProcessResponse Bytes} {calls : List HostCall}
    (htold : Told r host response calls) (pick : Nat) :
    Counted (calls.foldl (Statics.hostCall lib pick) g) (entries ++ entriesOf response) := by
  cases htold with
  | suspended => simpa [entriesOf] using h
  | @resolved response values _ apply hnames hflags _ =>
      obtain ⟨resolves, hlogger, hentries⟩ := h
      have hvalues : values.map (fun v => (v.inner.flag, variantKey v.inner)) =
          response.resolvedFlags.map fun entry => (entry.flag, replyVariant entry) := by
        rw [map_of_mapM (fun _ _ => replyVariant_toResolvedFlag) hflags]
        exact List.map_congr_left fun v hv => by rw [hnames v hv]
      refine ⟨resolves ++ [⟨getSchema lib.checks r.context, r.client.clientCredentialName, values,
        pick⟩], ?_, ?_⟩
      · rw [callsOf, List.foldl_append, logAll, List.foldl_append]
        split <;> simp [Statics.hostCall, Statics.logResolve, Statics.logAssign, hlogger, logAll]
      · simp [hentries, hvalues, entriesOf]

/-- **A call** of the host. -/
theorem Counted.turn (h : Counted g entries) (call : Call Bytes) :
    Counted (g.turn lib call).1 ((g.turn lib call).2.since entries) := by
  have hturn := turnOf lib g call
  generalize g.turn lib call = out at hturn ⊢
  have hsame : ∀ {t : Turn Bytes}, t.counts? = none → t.entries = [] → t.since entries = entries :=
    fun hcounts hnone => by simp [Turn.since, hcounts, hnone]
  cases hturn with
  | stored hstate =>
      rw [hsame rfl rfl]
      exact h
  | @failed call answer hfail =>
      rcases answer with _ | (text | reply)
      · rw [hsame (by simp [Turn.counts?]) rfl]
        exact h
      · rw [hsame (by simp [Turn.counts?]) rfl]
        exact h
      · exact absurd rfl (hfail reply)
  | resolved hanswer =>
      obtain ⟨-, r, -, htold⟩ := told_answer hanswer
      exact h.told lib htold _
  | applied hanswer =>
      rw [hsame rfl rfl]
      obtain ⟨-, rfl | ⟨-, resolveId, flags, client, sdk, rfl⟩⟩ := told_apply hanswer <;> exact h
  | registered reason latencyUs =>
      rw [hsame rfl rfl]
      exact h
  | flushLogs now => exact ⟨[], rfl, rfl⟩
  | boundedFlushLogs now memory => exact ⟨[], rfl, rfl⟩
  | boundedFlushAssign now =>
      rw [hsame rfl rfl]
      exact h
  | rendered resolverId config memory =>
      rw [hsame rfl rfl]
      exact h

/-- The counts that a call returns are those of the resolve logger. -/
theorem counts_turn {call : Call Bytes} {request : WriteFlagLogsRequest}
    (h : (g.turn lib call).2.counts? = some request) :
    request.flagResolveInfo = (ResolveLogger.report g.resolveLogger).flagResolveInfo := by
  have hturn := turnOf lib g call
  generalize g.turn lib call = out at hturn h
  cases hturn with
  | @failed call answer hfail =>
      rcases answer with _ | (text | reply)
      · simp [Turn.counts?] at h
      · simp [Turn.counts?] at h
      · exact absurd rfl (hfail reply)
  | flushLogs now =>
      cases h
      rfl
  | boundedFlushLogs now memory =>
      cases h
      rfl
  | _ => cases h

/-- Each flush of a run returned the counts of the replies since the one before. -/
def CountsReported : List (Turn Bytes) → Prop :=
  Throughout fun pre t => ∀ request ∈ t.counts?, ∀ flag variant,
    Saturating.total (variantCounts flag variant request.flagResolveInfo) =
      (timesResolved flag variant (sinceFlush pre) % 2 ^ 32 : Nat)

end Counts

/-- **The counts of a flush are those of the replies** since the flush before: of each flag and each
variant, how many entries of resolved replies it has, as a `u32`. -/
theorem replies_counted (lib : Library Bytes) (calls : List (Call Bytes)) :
    CountsReported (Run.start.run lib calls).turns := by
  have hstart : CountsReported (Run.start : Run Bytes).turns := throughout_nil
  have hrun : Counted (Run.start.run lib calls).statics
      (sinceFlush (Run.start.run lib calls).turns) ∧
        CountsReported (Run.start.run lib calls).turns := by
    refine Run.run_induction (P := fun r => Counted r.statics (sinceFlush r.turns) ∧
      CountsReported r.turns) ?_ ⟨⟨[], rfl, rfl⟩, hstart⟩ calls
    rintro r call ⟨hcounted, hreported⟩
    refine ⟨?_, throughout_concat.mpr ⟨hreported, fun request hrequest flag variant => ?_⟩⟩
    · rw [Run.step, sinceFlush, List.foldl_append]
      exact hcounted.turn lib call
    · rw [counts_turn lib (Option.mem_def.mp hrequest)]
      exact hcounted.report flag variant
  exact hrun.2

/-! ### Exposure collection -/

/-- Whether a call turns the collection of exposures on or off. -/
def Turn.setsCollection (t : Turn Bytes) : Option Bool :=
  match t.call, t.answer with
  | .setResolverState request, some (.ok _) => some request.disableExposureCollection
  | _, _ => none

/-- Whether the collection of exposures is off after these calls. -/
def collectionOff (turns : List (Turn Bytes)) : Bool :=
  turns.foldl (fun off t => t.setsCollection.getD off) false

/-- A call that exposes nothing and hands out no token to expose anything later. -/
structure Turn.Silent (t : Turn Bytes) : Prop where
  exposures : t.exposures = []
  token : ∀ response writes, t.answer = some (.ok (.resolve (.resolved response writes))) →
    response.resolveToken = none

/-- The calls that are made while the collection is off are silent. -/
def SilentWhileOff : List (Turn Bytes) → Prop :=
  Throughout fun pre t => collectionOff pre = true → t.Silent

section Silence

variable (lib : Library Bytes) {g : Statics}

/-- A resolver with the exposure collection off. -/
theorem told_silent {r : AccountResolver} {host : Host Bytes}
    {response : ResolveProcessResponse Bytes} {calls : List HostCall}
    (h : Told r host response calls) (hoff : r.disableExposureCollection = true) :
    calls.filterMap exposure? = [] ∧ ∀ flags writes, response = .resolved flags writes →
      flags.resolveToken = none := by
  cases h with
  | suspended => exact ⟨rfl, fun _ _ h => by cases h⟩
  | resolved _ apply _ _ htoken =>
      refine ⟨by simp [callsOf, hoff, exposure?], fun flags writes h => ?_⟩
      cases h
      exact htoken hoff

/-- **A call** of the host while the collection is off. -/
theorem silent_turn (hoff : g.disableExposureCollection = true) (call : Call Bytes) :
    (g.turn lib call).2.Silent := by
  have hturn := turnOf lib g call
  generalize g.turn lib call = out at hturn ⊢
  cases hturn with
  | resolved hanswer =>
      obtain ⟨-, r, hr, htold⟩ := told_answer hanswer
      obtain ⟨hexposures, htoken⟩ := told_silent htold (hr.trans hoff)
      refine ⟨hexposures, fun response writes hreply => ?_⟩
      cases hreply
      exact htoken response writes rfl
  | applied hanswer =>
      obtain ⟨-, rfl | ⟨hon, -⟩⟩ := told_apply hanswer
      · exact ⟨rfl, fun _ _ hreply => by cases hreply⟩
      · cases hoff.symm.trans hon
  | failed hfail => exact ⟨rfl, fun _ _ hreply => absurd hreply (hfail _)⟩
  | _ => exact ⟨rfl, fun _ _ hreply => by cases hreply⟩

/-- The setting after a call. -/
theorem collection_turn (g : Statics) (call : Call Bytes) :
    (g.turn lib call).1.disableExposureCollection =
      (g.turn lib call).2.setsCollection.getD g.disableExposureCollection := by
  have hturn := turnOf lib g call
  generalize g.turn lib call = out at hturn ⊢
  cases hturn with
  | @failed call answer hfail =>
      rcases answer with _ | (text | reply)
      · simp [Turn.setsCollection]
      · simp [Turn.setsCollection]
      · exact absurd rfl (hfail reply)
  | resolved | applied =>
      exact congrArg Config.disableExposureCollection (config_hostCalls lib _ _ g)
  | _ => rfl

end Silence

/-- **With exposure collection off** nothing is exposed: between the call that turns it off and one
that turns it on again, no call exposes a flag, and no reply has a token. -/
theorem collection_off_silent (lib : Library Bytes) (calls : List (Call Bytes)) :
    SilentWhileOff (Run.start.run lib calls).turns := by
  have hstart : SilentWhileOff (Run.start : Run Bytes).turns := throughout_nil
  have hrun : (Run.start.run lib calls).statics.disableExposureCollection =
      collectionOff (Run.start.run lib calls).turns ∧
        SilentWhileOff (Run.start.run lib calls).turns := by
    refine Run.run_induction (P := fun r => r.statics.disableExposureCollection =
      collectionOff r.turns ∧ SilentWhileOff r.turns) ?_ ⟨rfl, hstart⟩ calls
    rintro r call ⟨hoff, hsilent⟩
    refine ⟨?_, throughout_concat.mpr ⟨hsilent, fun hpre => silent_turn lib (hoff.trans hpre) call⟩⟩
    rw [Run.step, collectionOff, List.foldl_append, collection_turn, hoff]
    rfl
  exact hrun.2

end WasmGuest

end ConfidenceResolver
