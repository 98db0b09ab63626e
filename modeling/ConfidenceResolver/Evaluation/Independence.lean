import ConfidenceResolver.Apply.Deferred
import ConfidenceResolver.Materialization.SuspendResume

/-!
# Evaluation — flags do not depend on each other

The flags of a request are resolved one after another, against one context.  What a flag gets there
is what it gets in a request of its own.

* `Entry`: what a flag comes to with a set of records, alone.
* `resolved_iff`, `resolved_entries`: when a request resolves, and to what.
* `flags_independent`: a request of many flags and the requests of one flag each.
-/

namespace ConfidenceResolver

/-! ### Outcomes -/

/-- What an outcome says of each flag: its entry in the response, and the value that is logged. -/
def entries {Bytes : Type} : Except ProcessError (ResolveProcessResponse Bytes × List HostCall) →
    Option (List (ResolvedFlag × ResolvedValue))
  | .ok (.resolved response _, calls) => some (response.resolvedFlags.zip (loggedValues calls))
  | _ => none

/-- The writes of an outcome. -/
def writesOf {Bytes : Type} :
    Except ProcessError (ResolveProcessResponse Bytes × List HostCall) → List MaterializationRecord
  | .ok (.resolved _ W, _) => W
  | _ => []

/-- The entries of one flag. -/
def entriesOf (name : String) (es : List (ResolvedFlag × ResolvedValue)) :
    List (ResolvedFlag × ResolvedValue) := es.filter fun e => e.1.flag = name

/-- The request, for one flag. -/
def ResolveFlagsRequest.only (request : ResolveFlagsRequest) (flag : Flag) : ResolveFlagsRequest :=
  { request with flags := [flag.name] }

theorem toResolvedFlag_flag {v : ResolvedValue} {e : ResolvedFlag}
    (h : v.toResolvedFlag = .ok e) : e.flag = v.flag.name := by
  rw [ResolvedValue.toResolvedFlag] at h
  split at h
  · split at h
    · split at h <;> cases h
      rfl
    · cases h
      rfl
  · cases h
    rfl

namespace AccountResolver

variable {Bytes : Type} {r : AccountResolver} {wire : Wire Bytes} {host host' : Host Bytes}
  {visit visit' : List Flag} {request : ResolveFlagsRequest} {R : List MaterializationRecord}

/-! ### One flag -/

/-- What a flag comes to with the records `R`. -/
def Entry (r : AccountResolver) (R : List MaterializationRecord) (flag : Flag)
    (x : ResolvedFlag × ResolvedValue) : Prop :=
  ∃ a, r.flagValue (.complete R) flag = some a ∧ r.fromAssigned a = .ok x.2 ∧
    x.2.toResolvedFlag = .ok x.1

theorem Entry.unique {flag : Flag} {x y : ResolvedFlag × ResolvedValue} (hx : r.Entry R flag x)
    (hy : r.Entry R flag y) : x = y := by
  obtain ⟨a, ha, hax, hx⟩ := hx
  obtain ⟨b, hb, hby, hy⟩ := hy
  cases ha.symm.trans hb
  have hvalue : x.2 = y.2 := Except.ok.inj (hax.symm.trans hby)
  rw [hvalue] at hx
  exact Prod.ext (Except.ok.inj (hx.symm.trans hy)) hvalue

theorem Entry.flag_eq {flag : Flag} (hf : flag.state ≠ .archived)
    (hp : r.Passes (.complete R) flag) {x : ResolvedFlag × ResolvedValue}
    (h : r.Entry R flag x) : x.1.flag = flag.name := by
  obtain ⟨a, ha, hax, hx⟩ := h
  rw [toResolvedFlag_flag hx, ← flagValue_flag (by simp) hf hp ha]
  rw [fromAssigned] at hax
  rcases hget : r.state.flags.get a.flag with _ | flag' <;> rw [hget] at hax
  · exact absurd hax.symm ok_ne_error
  · rw [← Except.ok.inj hax]
    exact (NamedMap.get_some hget).2

/-! ### A request -/

/-- Whether there is a token where one is needed. -/
def TokenOk (r : AccountResolver) (request : ResolveFlagsRequest) : Prop :=
  r.disableExposureCollection = true ∨ request.apply = true ∨ r.canEncrypt = true

theorem flagValues_forall₂ {flags : List Flag} (hf : ∀ flag ∈ flags, flag.state ≠ .archived)
    (hp : ∀ flag ∈ flags, r.Passes (.complete R) flag) :
    List.Forall₂ (fun flag a => r.flagValue (.complete R) flag = some a) flags
      (flags.filterMap (r.flagValue (.complete R))) := by
  induction flags with
  | nil => exact .nil
  | cons flag flags ih =>
      obtain ⟨hflag, hflags⟩ := List.forall_mem_cons.mp hp
      obtain ⟨a, ha⟩ := Option.isSome_iff_exists.mp
        (flag_complete (hf flag List.mem_cons_self) hflag).2
      rw [List.filterMap_cons_some ha]
      exact .cons ha (ih (fun g hg => hf g (List.mem_cons_of_mem _ hg)) hflags)

/-- The entries of a response, one for each flag. -/
theorem entry_forall₂ {flags : List Flag} {as : List AssignedFlag} {values : List ResolvedValue}
    {es : List ResolvedFlag}
    (has : List.Forall₂ (fun flag a => r.flagValue (.complete R) flag = some a) flags as)
    (hvalues : List.Forall₂ (fun a v => r.fromAssigned a = .ok v) as values)
    (hes : List.Forall₂ (fun v e => ResolvedValue.toResolvedFlag v = .ok e) values es) :
    List.Forall₂ (r.Entry R) flags (es.zip values) := by
  induction has generalizing values es with
  | nil =>
      cases hvalues
      cases hes
      exact .nil
  | cons ha _ ih =>
      cases hvalues with
      | cons hv hvalues =>
          cases hes with
          | cons he hes => exact .cons ⟨_, ha, hv, he⟩ (ih hvalues hes)

/-- A request of flags that each have an entry has a response. -/
theorem respond_of_entries {flags : List Flag} (hentry : ∀ flag ∈ flags, ∃ x, r.Entry R flag x) :
    ∃ values es, (flags.filterMap (r.flagValue (.complete R))).mapM r.fromAssigned = .ok values ∧
      values.mapM ResolvedValue.toResolvedFlag = .ok es := by
  induction flags with
  | nil => exact ⟨[], [], rfl, rfl⟩
  | cons flag flags ih =>
      obtain ⟨⟨⟨e, v⟩, a, ha, hv, he⟩, hflags⟩ := List.forall_mem_cons.mp hentry
      obtain ⟨values, es, hvalues, hes⟩ := ih hflags
      rw [List.filterMap_cons_some ha]
      exact ⟨v :: values, e :: es, mapM_cons_ok.mpr ⟨v, values, hv, hvalues, rfl⟩,
        mapM_cons_ok.mpr ⟨e, es, he, hes, rfl⟩⟩

/-- **When a request resolves**: each of its flags passes and has an entry, and no key is written
twice. -/
theorem resolved_iff (hlen : (r.requested visit request).length ≤ maxFlags) :
    (entries (r.resolveFlags wire host visit (.staticMaterializations (some request) R))).isSome ↔
      ((∀ flag ∈ r.requested visit request, r.Passes (.complete R) flag) ∧
        Disjoint ((r.requested visit request).map (r.flagWrites (.complete R)))) ∧
      (∀ flag ∈ r.requested visit request, ∃ x, r.Entry R flag x) ∧ r.TokenOk request := by
  have hactive : ∀ flag ∈ r.requested visit request, flag.state ≠ .archived := fun _ =>
    requested_active
  have hdisjoint : Disjoint ([] :: (r.requested visit request).map (r.flagWrites (.complete R))) ↔
      Disjoint ((r.requested visit request).map (r.flagWrites (.complete R))) :=
    disjoint_cons.trans (and_iff_right fun V _ => noClash_nil_left V)
  have hcases := resolvePass_complete wire host R [] ⟨some request, [], []⟩ flagsToResolve_nil
    hactive hlen
  rw [hdisjoint] at hcases
  rw [static_eq]
  obtain ⟨hp, hd, hres⟩ | ⟨hno, e, hres, -⟩ := hcases
  · rw [hres, and_iff_right ⟨hp, hd⟩]
    simp only [List.nil_append]
    constructor
    · intro hsome
      rcases hrespond : r.respond host request
          ((r.requested visit request).filterMap (r.flagValue (.complete R))) with e | res <;>
        rw [hrespond] at hsome
      · exact absurd hsome Bool.false_ne_true
      · obtain ⟨⟨values, es, hvalues, hes⟩, htoken⟩ := respond_isOk.mp ⟨res, hrespond⟩
        refine ⟨fun flag hflag => ?_, htoken⟩
        obtain ⟨x, -, hx⟩ := exists_of_forall₂ (entry_forall₂ (flagValues_forall₂ hactive hp)
          (mapM_eq_ok.mp hvalues) (mapM_eq_ok.mp hes)) hflag
        exact ⟨x, hx⟩
    · rintro ⟨hentry, htoken⟩
      obtain ⟨⟨response, calls⟩, hrespond⟩ :=
        respond_isOk.mpr ⟨respond_of_entries hentry, htoken⟩
      rw [hrespond]
      rfl
  · rw [hres]
    exact ⟨nofun, fun h => absurd h.1 hno⟩

/-- **What a request resolves to**: the entry of each flag, and the writes of each. -/
theorem resolved_entries (hlen : (r.requested visit request).length ≤ maxFlags)
    {es : List (ResolvedFlag × ResolvedValue)}
    (h : entries (r.resolveFlags wire host visit (.staticMaterializations (some request) R)) =
      some es) :
    List.Forall₂ (r.Entry R) (r.requested visit request) es ∧
      writesOf (r.resolveFlags wire host visit (.staticMaterializations (some request) R)) =
        (r.requested visit request).flatMap (r.flagWrites (.complete R)) := by
  have hactive : ∀ flag ∈ r.requested visit request, flag.state ≠ .archived := fun _ =>
    requested_active
  rw [static_eq] at h ⊢
  obtain ⟨hp, -, hres⟩ | ⟨-, e, hres, -⟩ := resolvePass_complete wire host R []
    ⟨some request, [], []⟩ flagsToResolve_nil hactive hlen
  · rw [hres] at h ⊢
    simp only [List.nil_append] at h ⊢
    rcases hrespond : r.respond host request
        ((r.requested visit request).filterMap (r.flagValue (.complete R))) with
        e | ⟨response, calls⟩ <;>
      rw [hrespond] at h
    · exact nomatch h
    · obtain ⟨values, hvalues, hflags, hlogged⟩ := respond_ok hrespond
      obtain rfl : response.resolvedFlags.zip (loggedValues calls) = es := Option.some.inj h
      rw [hlogged]
      exact ⟨entry_forall₂ (flagValues_forall₂ hactive hp) (mapM_eq_ok.mp hvalues)
        (mapM_eq_ok.mp hflags), rfl⟩
  · rw [hres] at h
    exact nomatch h

/-! ### Requests of one flag -/

/-- The request for one of the flags of a request asks for that flag. -/
theorem requested_only (hv : visit.Perm r.state.flags.values)
    (hv' : visit'.Perm r.state.flags.values) {flag : Flag}
    (hflag : flag ∈ r.requested visit request) :
    r.requested visit' (request.only flag) = [flag] := by
  obtain ⟨hmem, hrequested⟩ := List.mem_filter.mp hflag
  simp only [isRequested, Bool.and_eq_true] at hrequested
  have hvalues := hv.mem_iff.mp hmem
  have hnodup : (visit'.map Flag.name).Nodup :=
    (hv'.map _).nodup_iff.mpr r.state.flags.nodup
  have hone : ∀ g ∈ visit', r.isRequested (request.only flag) g = decide (g.name = flag.name) := by
    intro g hg
    have hname : [flag.name].contains g.name = decide (g.name = flag.name) := by simp
    simp only [isRequested, ResolveFlagsRequest.only, hname, List.isEmpty_cons, Bool.false_or]
    by_cases heq : g.name = flag.name
    · -- the names of the state's flags are distinct
      obtain rfl := NamedMap.eq_of_name (hv'.mem_iff.mp hg) hvalues heq
      rw [hrequested.1.1, hrequested.1.2]
      rfl
    · rw [decide_eq_false heq, Bool.and_false]
  rw [requested, List.filter_congr hone]
  exact HashMap.filter_key_eq hnodup (hv'.mem_iff.mpr hvalues)

theorem requested_nodup (hv : visit.Perm r.state.flags.values) :
    ((r.requested visit request).map Flag.name).Nodup :=
  ((hv.map _).nodup_iff.mpr r.state.flags.nodup).sublist (List.filter_sublist.map _)

/-- The entry of a flag in a list of entries, one for each flag. -/
theorem entriesOf_eq {flags : List Flag} (hnodup : (flags.map Flag.name).Nodup)
    {es : List (ResolvedFlag × ResolvedValue)} (h : List.Forall₂ (r.Entry R) flags es)
    (hname : ∀ flag ∈ flags, ∀ x, r.Entry R flag x → x.1.flag = flag.name)
    {flag : Flag} (hflag : flag ∈ flags) {x : ResolvedFlag × ResolvedValue}
    (hx : r.Entry R flag x) : entriesOf flag.name es = [x] := by
  have hnames : es.map (fun e => e.1.flag) = flags.map Flag.name := by
    clear hnodup hflag
    induction h with
    | nil => rfl
    | @cons g y gs es hy _ ih =>
        rw [List.map_cons, List.map_cons, hname g List.mem_cons_self y hy,
          ih fun f hf => hname f (List.mem_cons_of_mem _ hf)]
  obtain ⟨y, hy, hxy⟩ := exists_of_forall₂ h hflag
  obtain rfl := hx.unique hxy
  rw [entriesOf, ← hname flag hflag x hx]
  have hkeys : (es.map fun e => e.1.flag).Nodup := hnames ▸ hnodup
  exact HashMap.filter_key_eq hkeys hy

/-- What a request for one flag tells of the flag. -/
theorem only_resolved (hv : visit.Perm r.state.flags.values)
    (hv' : visit'.Perm r.state.flags.values) {flag : Flag}
    (hflag : flag ∈ r.requested visit request) {es : List (ResolvedFlag × ResolvedValue)}
    (h : entries (r.resolveFlags wire host visit'
      (.staticMaterializations (some (request.only flag)) R)) = some es) :
    r.Passes (.complete R) flag ∧ (∃ x, es = [x] ∧ r.Entry R flag x) ∧ r.TokenOk request ∧
      writesOf (r.resolveFlags wire host visit'
        (.staticMaterializations (some (request.only flag)) R)) =
          r.flagWrites (.complete R) flag := by
  have honly : r.requested visit' (request.only flag) = [flag] := requested_only hv hv' hflag
  have hlen : (r.requested visit' (request.only flag)).length ≤ maxFlags := by
    rw [honly]
    exact show 1 ≤ maxFlags by decide
  obtain ⟨⟨hp, -⟩, -, htoken⟩ := (resolved_iff (R := R) hlen).mp
    (Option.isSome_iff_exists.mpr ⟨es, h⟩)
  obtain ⟨hentries, hwrites⟩ := resolved_entries hlen h
  rw [honly] at hp hentries hwrites
  rw [List.forall₂_cons_left_iff] at hentries
  obtain ⟨x, rest, hx, hrest, rfl⟩ := hentries
  obtain rfl := List.forall₂_nil_left_iff.mp hrest
  exact ⟨hp flag (List.mem_singleton_self _), ⟨x, rfl, hx⟩, htoken,
    hwrites.trans (List.flatMap_singleton _ _)⟩

/-- **Flags are independent**: a flag that resolves alone has the same entry in every request that
resolves, whatever the other flags and their order; and a request of flags that each resolve alone
resolves, unless two of them write one key. -/
theorem flags_independent (hv : visit.Perm r.state.flags.values)
    (hv' : visit'.Perm r.state.flags.values)
    (hlen : (r.requested visit request).length ≤ maxFlags) {flag : Flag}
    (hflag : flag ∈ r.requested visit request) {x : ResolvedFlag × ResolvedValue}
    (halone : entries (r.resolveFlags wire host' visit'
      (.staticMaterializations (some (request.only flag)) R)) = some [x]) :
    (∀ es, entries (r.resolveFlags wire host visit (.staticMaterializations (some request) R)) =
      some es → entriesOf flag.name es = [x]) ∧
    ((∀ g ∈ r.requested visit request, (entries (r.resolveFlags wire host' visit'
        (.staticMaterializations (some (request.only g)) R))).isSome) →
      ((r.requested visit request).map fun g => writesOf (r.resolveFlags wire host' visit'
        (.staticMaterializations (some (request.only g)) R))).Pairwise NoClash →
      (entries (r.resolveFlags wire host visit
        (.staticMaterializations (some request) R))).isSome) := by
  obtain ⟨-, ⟨y, hy, hentry⟩, htoken, -⟩ := only_resolved hv hv' hflag halone
  obtain rfl := List.singleton_injective hy
  constructor
  · intro es hes
    obtain ⟨⟨hp, -⟩, -⟩ := (resolved_iff (R := R) hlen).mp
      (Option.isSome_iff_exists.mpr ⟨es, hes⟩)
    exact entriesOf_eq (requested_nodup hv) (resolved_entries hlen hes).1
      (fun g hg y hy => hy.flag_eq (requested_active hg) (hp g hg)) hflag hentry
  · intro hall hwrites
    have hone : ∀ g ∈ r.requested visit request, r.Passes (.complete R) g ∧
        (∃ x, r.Entry R g x) ∧ writesOf (r.resolveFlags wire host' visit'
          (.staticMaterializations (some (request.only g)) R)) =
            r.flagWrites (.complete R) g := by
      intro g hg
      obtain ⟨es, hes⟩ := Option.isSome_iff_exists.mp (hall g hg)
      obtain ⟨hp, ⟨x, -, hx⟩, -, hw⟩ := only_resolved hv hv' hg hes
      exact ⟨hp, ⟨x, hx⟩, hw⟩
    rw [List.map_congr_left fun g hg => (hone g hg).2.2] at hwrites
    exact (resolved_iff hlen).mpr
      ⟨⟨fun g hg => (hone g hg).1, hwrites⟩, fun g hg => (hone g hg).2.1, htoken⟩

end AccountResolver

/-! ### Two flags -/

namespace Sample

/-- The outcome of a request to a small account, without any records. -/
def outcome (r : AccountResolver) (request : ResolveFlagsRequest) :
    Except ProcessError (ResolveProcessResponse ResolveProcessState × List HostCall) :=
  r.resolveFlags wire host r.state.flags.values (.staticMaterializations (some request) [])

/-- Two flags whose rules have one name and write to one materialization. -/
def sharedRule : AccountResolver :=
  resolver
    [flag "flags/f" [sticky (rule "shared" (.variant "on"))],
      flag "flags/g" [sticky (rule "shared" (.variant "on"))]]
    [segment] (by decide) segment_nodup

/-- A segment that compares the targeting key with a number. -/
def numericSegment : Segment where
  name := "segments/n"
  targeting := some
    ⟨[("c", some (.attribute ⟨"targeting_key", some (.eqRule (some (some (.numberValue 1))))⟩))],
      some (.ref "c")⟩

/-- A flag for everyone, and one for the units of the numeric segment. -/
def numericNeighbour : AccountResolver :=
  resolver
    [flag "flags/f" [rule "flags/f/rules/1" (.variant "on")],
      flag "flags/g" [{ rule "flags/g/rules/1" (.variant "on") with segment := "segments/n" }]]
    [segment, numericSegment] (by decide) (by decide)

end Sample

theorem flags_independent_sample :
    ∃ x es, entries (Sample.outcome Sample.openAndSettled Sample.request) = some es ∧
      entriesOf "flags/g" es = [x] := by
  obtain ⟨x, hx⟩ : ∃ x, entries (Sample.outcome Sample.openAndSettled ⟨["flags/g"], true⟩) =
      some [x] := ⟨_, rfl⟩
  obtain ⟨es, hes⟩ : ∃ es, entries (Sample.outcome Sample.openAndSettled Sample.request) = some es :=
    ⟨_, rfl⟩
  have hmem : Sample.flag "flags/g" [Sample.rule "flags/g/rules/1" (.variant "on")] ∈
      Sample.openAndSettled.requested Sample.openAndSettled.state.flags.values Sample.request :=
    List.mem_cons_of_mem _ List.mem_cons_self
  have hlen : (Sample.openAndSettled.requested Sample.openAndSettled.state.flags.values
      Sample.request).length ≤ maxFlags := show 2 ≤ maxFlags by decide
  exact ⟨x, es, hes, (AccountResolver.flags_independent (.refl _) (.refl _) hlen hmem hx).1 es hes⟩

/-- **A neighbour fails**: the first flag resolves alone.  With a flag that writes the same key, or
with one whose targeting reads a number where the context has a text, nothing is resolved. -/
theorem neighbour_fails :
    (∃ x, entries (Sample.outcome Sample.sharedRule ⟨["flags/f"], true⟩) = some [x] ∧
      Sample.outcome Sample.sharedRule ⟨["flags/f", "flags/g"], true⟩ =
        .error (.resolve duplicateWrite)) ∧
    ∃ x, entries (Sample.outcome Sample.numericNeighbour ⟨["flags/f"], true⟩) = some [x] ∧
      Sample.outcome Sample.numericNeighbour ⟨["flags/f", "flags/g"], true⟩ =
        .error (.resolve (.internal .parseNumber)) :=
  ⟨⟨_, rfl, rfl⟩, _, rfl, rfl⟩

end ConfidenceResolver
