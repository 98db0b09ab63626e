import ConfidenceResolver.Hosts.MaterializingResolver
import ConfidenceResolver.Materialization.Assigned

/-!
# Hosts — a store under concurrent requests

Requests of any clients and contexts run at the same time on one published state: each calls the
resolver, waits for the store if it is suspended, and is resumed; its writes reach the store later,
in any order.  Two requests may both find no record for a unit and both write one.

* `variants_stay`: still, the variant that the store holds for a unit and a rule never changes.
* `landings_commute`: what the store answers depends on which writes have reached it, not on their
  order.

Both rest on one invariant: whatever is held, started or stored is what the state gives.
-/

namespace ConfidenceResolver

open AccountResolver

/-- A resolver on the published state, and an order in which it visits the flags. -/
structure Visit (base : AccountResolver) where
  resolver : AccountResolver
  same : SameState base resolver
  order : List Flag
  perm : order.Perm resolver.state.flags.values

namespace StoreRun

variable {Bytes : Type} {base : AccountResolver}

/-- One step of one request, or of the store. -/
inductive Event (Bytes : Type) (base : AccountResolver) where
  /-- A request calls the resolver for the first time. -/
  | request (visit : Visit base) (host : Host Bytes) (request : ResolveFlagsRequest)
  /-- The store is read for the request that is suspended at this place. -/
  | read (place : Nat)
  /-- The request at this place calls the resolver with what was read. -/
  | resume (place : Nat) (visit : Visit base) (host : Host Bytes)
  /-- The writes started at this place reach the store. -/
  | land (place : Nat)

/-- The store and what is under way.  Nothing reads `landed`: it keeps the records that reached the
store. -/
structure State (Bytes : Type) where
  store : MemoryStore
  suspended : List (List ReadOp × Bytes)
  answered : List (List ReadResult × Bytes)
  started : List (List WriteOp)
  landed : List MaterializationRecord

/-- The start, with the initial inclusions of the store. -/
def start (initial : HashMap String (HashMap String Bool)) : State Bytes :=
  ⟨.withInclusions initial, [], [], [], []⟩

/-- `storeWrites`, if there are any. -/
def State.write (s : State Bytes) (writes : List WriteOp) : State Bytes :=
  if writes = [] then s else { s with started := s.started ++ [writes] }

/-- What a first call leads to. -/
def State.handle (h : StoreHost) (s : State Bytes) (response : ResolveProcessResponse Bytes) :
    State Bytes :=
  match h.handleResponse response with
  | .returned _ writes => s.write writes
  | .read ops state => { s with suspended := s.suspended ++ [(ops, state)] }

/-- What a second call leads to. -/
def State.handleResume (h : StoreHost) (s : State Bytes)
    (response : ResolveProcessResponse Bytes) : State Bytes :=
  match h.handleResumeResponse response with
  | .ok (_, writes) => s.write writes
  | .error _ => s

/-- A step; one at a place where nothing is under way changes nothing. -/
def State.step (h : StoreHost) (wire : Wire Bytes) (s : State Bytes) :
    Event Bytes base → State Bytes
  | .request visit host request =>
      match visit.resolver.resolveFlags wire host visit.order
        (StoreHost.innerRequest (.withoutMaterializations request)) with
      | .error _ => s
      | .ok (response, _) => s.handle h response
  | .read place =>
      match s.suspended[place]? with
      | none => s
      | some (ops, state) =>
          { s with
            suspended := s.suspended.eraseIdx place
            answered := s.answered ++ [(s.store.read ops, state)] }
  | .resume place visit host =>
      match s.answered[place]? with
      | none => s
      | some (results, state) =>
          let s := { s with answered := s.answered.eraseIdx place }
          match visit.resolver.resolveFlags wire host visit.order
            (h.resumeRequest results state) with
          | .error _ => s
          | .ok (response, _) => s.handleResume h response
  | .land place =>
      match s.started[place]? with
      | none => s
      | some ops =>
          { s with
            store := s.store.write ops
            started := s.started.eraseIdx place
            landed := s.landed ++ ops.map WriteOp.record }

/-- A run. -/
def State.run (h : StoreHost) (wire : Wire Bytes) (s : State Bytes)
    (events : List (Event Bytes base)) : State Bytes := events.foldl (State.step h wire) s

/-! ### The invariant -/

/-- The variant that the store holds for a unit, a materialization and a rule. -/
def variantOf (store : MemoryStore) (u m k : String) : Option String :=
  (store.data u m).bind (·.ruleToVariant.get? k)

/-- All that is under way and all that is stored is what the state gives. -/
structure Inv (base : AccountResolver) (wire : Wire Bytes)
    (initial : HashMap String (HashMap String Bool)) (s : State Bytes) : Prop where
  suspended : ∀ e ∈ s.suspended, base.HoldsGiven wire e.2
  answered : ∀ e ∈ s.answered, base.HoldsGiven wire e.2
  started : ∀ ops ∈ s.started, ∀ op ∈ ops, base.Gives op.record
  landed : ∀ q ∈ s.landed, base.Gives q
  stored : ∀ u m k v, variantOf s.store u m k = some v → base.Gives ⟨u, m, k, v⟩
  holds : s.store.Holds (MemoryStore.inclusionRecords initial ++ s.landed)

variable {h : StoreHost} {wire : Wire Bytes} {initial : HashMap String (HashMap String Bool)}
  {s : State Bytes}

theorem inv_start : Inv base wire initial (start initial : State Bytes) where
  suspended _ he := by simp [start] at he
  answered _ he := by simp [start] at he
  started _ he := by simp [start] at he
  landed _ he := by simp [start] at he
  stored u m k v hv := by
    -- the units that are included at the start have no variants
    rw [variantOf, start, MemoryStore.data_withInclusions] at hv
    cases hinc : MemoryStore.inclusion initial u m <;> simp [hinc] at hv
  holds := by simpa [start] using MemoryStore.Holds.withInclusions initial

/-- What a resolver on the published state holds, the base holds. -/
theorem holdsGiven_congr {r r' : AccountResolver} (hsame : SameState r r') {state : Bytes}
    (hg : r.HoldsGiven wire state) : r'.HoldsGiven wire state := by
  obtain ⟨st, hdec, hgiven⟩ := hg
  exact ⟨st, hdec, fun q hq => (hgiven q hq).congr hsame⟩

theorem sameState_symm {r r' : AccountResolver} (hsame : SameState r r') : SameState r' r :=
  ⟨hsame.1.symm, hsame.2.symm⟩

theorem Inv.write (hi : Inv base wire initial s) {writes : List WriteOp}
    (hw : ∀ op ∈ writes, base.Gives op.record) : Inv base wire initial (s.write writes) := by
  rw [State.write]
  split
  · exact hi
  · refine { hi with started := fun ops hops => ?_ }
    rcases List.mem_append.mp hops with hops | hops
    · exact hi.started ops hops
    · obtain rfl := List.mem_singleton.mp hops
      exact hw

/-- The records of a response are what is written. -/
theorem gives_writes {W : List MaterializationRecord} (hW : ∀ q ∈ W, base.Gives q) :
    ∀ op ∈ W.map toWriteOp, base.Gives op.record := by
  intro op hop
  obtain ⟨q, hq, rfl⟩ := List.mem_map.mp hop
  rw [record_toWriteOp]
  exact hW q hq

/-- A response of a resolver on the published state. -/
theorem given_response (visit : Visit base) {host : Host Bytes}
    {request : ResolveProcessRequest Bytes} {response : ResolveProcessResponse Bytes}
    {calls : List HostCall}
    (hrequest : (∃ req, request = .deferredMaterializations req) ∨
      ∃ R state, request = .resume R state ∧ base.HoldsGiven wire state)
    (hres : visit.resolver.resolveFlags wire host visit.order request = .ok (response, calls)) :
    (∀ flags W, response = .resolved flags W → ∀ q ∈ W, base.Gives q) ∧
      ∀ K state, response = .suspended K state → base.HoldsGiven wire state := by
  have hback := sameState_symm visit.same
  obtain ⟨hwrites, hheld⟩ := resolveFlags_gives visit.perm (hrequest.imp_right
    fun ⟨R, state, hreq, hg⟩ => ⟨R, state, hreq, holdsGiven_congr visit.same hg⟩) hres
  exact ⟨fun flags W h q hq => (hwrites flags W h q hq).congr hback,
    fun K state h => holdsGiven_congr hback (hheld K state h)⟩

/-- What is stored after a write was stored before, or is written. -/
theorem variantOf_put (store : MemoryStore) (op : WriteOp) (u m k : String) :
    variantOf (store.put op) u m k =
      if op.record.key = (u, m, k) then some op.record.variant else variantOf store u m k := by
  obtain ⟨unit, materialization, rule, v⟩ := op
  rw [variantOf, MemoryStore.data_put, variantOf]
  by_cases hkey : unit = u ∧ materialization = m
  · rw [if_pos hkey, Option.bind_some, HashMap.get?_insert]
    by_cases hk : rule = k
    · simp [MaterializationRecord.key, hkey, hk]
    · cases store.data u m <;> simp [MaterializationRecord.key, hkey, hk]
  · have hne : ¬ (unit = u ∧ materialization = m ∧ rule = k) := fun hall =>
      hkey ⟨hall.1, hall.2.1⟩
    simp [MaterializationRecord.key, hkey, hne]

theorem stored_write {store : MemoryStore}
    (hs : ∀ u m k v, variantOf store u m k = some v → base.Gives ⟨u, m, k, v⟩)
    {ops : List WriteOp} (hops : ∀ op ∈ ops, base.Gives op.record) :
    ∀ u m k v, variantOf (store.write ops) u m k = some v → base.Gives ⟨u, m, k, v⟩ := by
  induction ops generalizing store with
  | nil => exact hs
  | cons op ops ih =>
      refine ih (fun u m k v hv => ?_) fun op' hop' => hops op' (List.mem_cons_of_mem op hop')
      rw [variantOf_put] at hv
      split at hv
      · next hkey =>
          obtain ⟨unit, materialization, rule, v'⟩ := op
          simp only [WriteOp.record, MaterializationRecord.key, Prod.mk.injEq] at hkey hv
          obtain ⟨rfl, rfl, rfl⟩ := hkey
          cases hv
          exact hops _ List.mem_cons_self
      · exact hs u m k v hv

/-- **Every step keeps the invariant.** -/
theorem Inv.step (hi : Inv base wire initial s) (event : Event Bytes base) :
    Inv base wire initial (s.step h wire event) := by
  cases event with
  | request visit host request =>
      rw [State.step]
      split
      · exact hi
      · next response calls hres =>
          -- a response schedules its writes, a suspension only keeps them in its continuation
          obtain ⟨hwrites, hheld⟩ := given_response visit (.inl ⟨request, rfl⟩) hres
          rcases response with ⟨flags, W⟩ | ⟨K, state⟩
          · exact hi.write (gives_writes (hwrites flags W rfl))
          · refine { hi with suspended := fun e he => ?_ }
            rcases List.mem_append.mp he with he | he
            · exact hi.suspended e he
            · obtain rfl := List.mem_singleton.mp he
              exact hheld K state rfl
  | read place =>
      rw [State.step]
      split
      · exact hi
      · next ops state hat =>
          refine { hi with
            suspended := fun e he => hi.suspended e (List.mem_of_mem_eraseIdx he)
            answered := fun e he => ?_ }
          rcases List.mem_append.mp he with he | he
          · exact hi.answered e he
          · obtain rfl := List.mem_singleton.mp he
            exact hi.suspended _ (List.mem_of_getElem? hat)
  | resume place visit host =>
      rw [State.step]
      split
      · exact hi
      · next results state hat =>
          -- the entry is taken away whether the resume succeeds or not
          have hrest : Inv base wire initial
              { s with answered := s.answered.eraseIdx place } :=
            { hi with answered := fun e he => hi.answered e (List.mem_of_mem_eraseIdx he) }
          dsimp only
          split
          · exact hrest
          · next response calls hres =>
              obtain ⟨hwrites, -⟩ := given_response visit
                (.inr ⟨_, state, rfl, hi.answered _ (List.mem_of_getElem? hat)⟩) hres
              rcases response with ⟨flags, W⟩ | ⟨K, state'⟩
              · exact hrest.write (gives_writes (hwrites flags W rfl))
              · exact hrest
  | land place =>
      rw [State.step]
      split
      · exact hi
      · next ops hat =>
          have hops := hi.started ops (List.mem_of_getElem? hat)
          refine { hi with
            started := fun ops' he => hi.started ops' (List.mem_of_mem_eraseIdx he)
            landed := fun q hq => ?_
            stored := stored_write hi.stored hops
            holds := ?_ }
          · rcases List.mem_append.mp hq with hq | hq
            · exact hi.landed q hq
            · obtain ⟨op, hop, rfl⟩ := List.mem_map.mp hq
              exact hops op hop
          · simpa [MemoryStore.logStep] using hi.holds.write ops

/-- **Every run keeps the invariant.** -/
theorem Inv.run (hi : Inv base wire initial s) (events : List (Event Bytes base)) :
    Inv base wire initial (s.run h wire events) := by
  induction events generalizing s with
  | nil => exact hi
  | cons event events ih => exact ih (hi.step event)

/-! ### A variant stays -/

theorem variantOf_write {store : MemoryStore} {u m k : String}
    (hs : (variantOf store u m k).isSome) (ops : List WriteOp) :
    (variantOf (store.write ops) u m k).isSome := by
  induction ops generalizing store with
  | nil => exact hs
  | cons op ops ih =>
      refine ih ?_
      rw [variantOf_put]
      split
      · rfl
      · exact hs

theorem variantOf_step {u m k : String} (hs : (variantOf s.store u m k).isSome)
    (event : Event Bytes base) : (variantOf (s.step h wire event).store u m k).isSome := by
  -- a write that is started is not in the store yet
  have hwrite : ∀ (s' : State Bytes) (writes : List WriteOp),
      (s'.write writes).store = s'.store := by
    intro s' writes
    rw [State.write]
    split <;> rfl
  cases event with
  | request visit host request =>
      rw [State.step]
      split
      · exact hs
      · rw [State.handle]
        split
        · rw [hwrite]
          exact hs
        · exact hs
  | read place =>
      rw [State.step]
      split <;> exact hs
  | resume place visit host =>
      rw [State.step]
      split
      · exact hs
      · dsimp only
        split
        · exact hs
        · rw [State.handleResume]
          split
          · rw [hwrite]
            exact hs
          · exact hs
  | land place =>
      rw [State.step]
      split
      · exact hs
      · exact variantOf_write hs _

theorem variantOf_run {u m k : String} (hs : (variantOf s.store u m k).isSome)
    (events : List (Event Bytes base)) :
    (variantOf (s.run h wire events).store u m k).isSome := by
  induction events generalizing s with
  | nil => exact hs
  | cons event events ih => exact ih (variantOf_step hs event)

/-- **A stored variant stays.**  While the published state does not change, the variant that the
store holds for a unit, a materialization and a rule is the same ever after, whatever requests run
and in whatever order their writes reach the store. -/
theorem variants_stay (h : StoreHost) (wire : Wire Bytes) (hnames : NamesApart base.state)
    (initial : HashMap String (HashMap String Bool)) (events more : List (Event Bytes base))
    (u m k v : String)
    (hstored : ((start initial).run h wire events).store.readOne (.variant u m k) =
      .variant u m k (some v)) :
    ((start initial).run h wire (events ++ more)).store.readOne (.variant u m k) =
      .variant u m k (some v) := by
  have hbefore : variantOf ((start initial).run h wire events).store u m k = some v := by
    simpa [MemoryStore.readOne, variantOf] using hstored
  have hi : Inv base wire initial ((start initial).run h wire events) := inv_start.run events
  have hmore : (start initial).run h wire (events ++ more) =
      ((start initial).run h wire events).run h wire more := List.foldl_append
  have hpresent : (variantOf ((start initial).run h wire events).store u m k).isSome := by
    rw [hbefore]
    rfl
  obtain ⟨v', hv'⟩ := Option.isSome_iff_exists.mp (variantOf_run hpresent more)
  -- both are what the state gives for the key
  have hafter : Inv base wire initial (((start initial).run h wire events).run h wire more) :=
    hi.run more
  have hsame := gives_unique hnames (hi.stored u m k v hbefore) (hafter.stored u m k v' hv') rfl
  cases hsame
  rw [hmore, MemoryStore.readOne]
  exact congrArg (ReadResult.variant u m k) hv'

/-! ### The order of the writes -/

/-- The variant written last for a key was written for it. -/
theorem mem_of_lastVariant {written : List MaterializationRecord} {u m k v : String}
    (hlast : lastVariant written ⟨u, m, k, ""⟩ = some v) : ⟨u, m, k, v⟩ ∈ written := by
  obtain ⟨w, hw, rfl⟩ := Option.map_eq_some_iff.mp hlast
  obtain ⟨hmem, hkey⟩ := List.mem_filter.mp (List.mem_of_getLast? hw)
  simp only [decide_eq_true_eq] at hkey
  obtain ⟨rfl, rfl, rfl⟩ := hkey
  exact hmem

/-- A key that was written has a variant written last. -/
theorem lastVariant_of_mem {written : List MaterializationRecord} {u m k v : String}
    (hmem : ⟨u, m, k, v⟩ ∈ written) : (lastVariant written ⟨u, m, k, ""⟩).isSome := by
  rw [lastVariant, Option.isSome_map, List.getLast?_isSome]
  exact List.ne_nil_of_mem (List.mem_filter.mpr ⟨hmem, by simp⟩)

/-- Where all that is written for a key is one record, the order is lost. -/
theorem lastVariant_congr {written written' : List MaterializationRecord} {u m k : String}
    (hsame : ∀ q, q.rule = k → (q ∈ written ↔ q ∈ written'))
    (hunique : ∀ q ∈ written, ∀ q' ∈ written, q.rule = k → q.key = q'.key → q = q') :
    lastVariant written ⟨u, m, k, ""⟩ = lastVariant written' ⟨u, m, k, ""⟩ := by
  cases hlast : lastVariant written ⟨u, m, k, ""⟩ with
  | none =>
      refine (Option.eq_none_iff_forall_ne_some.mpr fun v hv => ?_).symm
      have hmem := (hsame _ rfl).mpr (mem_of_lastVariant hv)
      have hsome := lastVariant_of_mem hmem
      rw [hlast] at hsome
      cases hsome
  | some v =>
      have hmem := mem_of_lastVariant hlast
      obtain ⟨v', hv'⟩ := Option.isSome_iff_exists.mp (lastVariant_of_mem ((hsame _ rfl).mp hmem))
      have hmem' := (hsame _ rfl).mpr (mem_of_lastVariant hv')
      cases hunique _ hmem _ hmem' rfl rfl
      exact hv'.symm

/-- **The order of the writes does not matter.**  Runs of any requests on one published state, after
which the same records have reached the store, leave stores that answer alike. -/
theorem landings_commute (h h' : StoreHost) (wire : Wire Bytes) (hnames : NamesApart base.state)
    (initial : HashMap String (HashMap String Bool)) (events events' : List (Event Bytes base))
    (hlanded : ∀ q, q ∈ ((start initial).run h wire events).landed ↔
      q ∈ ((start initial).run h' wire events').landed) (key : MaterializationRecord) :
    ((start initial).run h wire events).store.readOne (toReadOp key) =
      ((start initial).run h' wire events').store.readOne (toReadOp key) := by
  have hi : Inv base wire initial ((start initial).run h wire events) := inv_start.run events
  have hi' : Inv base wire initial ((start initial).run h' wire events') := inv_start.run events'
  -- the stores have the same records behind the same initial inclusions
  have hlog : ∀ q, q ∈ MemoryStore.inclusionRecords initial ++
      ((start initial).run h wire events).landed ↔ q ∈ MemoryStore.inclusionRecords initial ++
      ((start initial).run h' wire events').landed := fun q => by
    simp only [List.mem_append, hlanded]
  by_cases hrule : key.rule = ""
  · have hincluded : ∀ u m, Included (MemoryStore.inclusionRecords initial ++
        ((start initial).run h wire events).landed) u m ↔
          Included (MemoryStore.inclusionRecords initial ++
            ((start initial).run h' wire events').landed) u m := fun u m => by
      simp only [Included, hlog]
    rw [toReadOp, if_neg (not_not.mpr hrule), MemoryStore.readOne, MemoryStore.readOne,
      hi.holds.included, hi'.holds.included, decide_eq_decide.mpr (hincluded _ _)]
  · -- the records of the initial inclusions name no rule, so the rest is given
    have hgiven : ∀ q ∈ MemoryStore.inclusionRecords initial ++
        ((start initial).run h wire events).landed, q.rule = key.rule → base.Gives q := by
      intro q hq hname
      rcases List.mem_append.mp hq with hq | hq
      · obtain ⟨e, -, hq⟩ := List.mem_flatMap.mp hq
        obtain ⟨e', -, rfl⟩ := List.mem_map.mp hq
        exact absurd hname.symm hrule
      · exact hi.landed q hq
    rw [toReadOp, if_pos hrule, MemoryStore.readOne, MemoryStore.readOne,
      hi.holds.variant _ _ _ hrule, hi'.holds.variant _ _ _ hrule]
    refine congrArg (ReadResult.variant _ _ _) (lastVariant_congr (fun q _ => hlog q) ?_)
    intro q hq q' hq' hname hkey
    have hname' : q'.rule = key.rule :=
      (congrArg (fun key => key.2.2) hkey).symm.trans hname
    exact gives_unique hnames (hgiven q hq hname) (hgiven q' hq' hname') hkey

end StoreRun

/-! ### Two requests at once -/

/-- Visits of the flags in the order of the state. -/
def Sample.visit (base : AccountResolver) : Visit base := ⟨base, ⟨rfl, rfl⟩, _, .refl _⟩

/-- Two requests that are both suspended before the store has a record, and both write one. -/
def Sample.race (last : List Nat) :
    List (StoreRun.Event ResolveProcessState Sample.openAndSettled) :=
  [.request (Sample.visit _) Sample.host Sample.request,
    .request (Sample.visit _) Sample.host Sample.request, .read 0, .read 0,
    .resume 0 (Sample.visit _) Sample.host, .resume 0 (Sample.visit _) Sample.host] ++
    last.map .land

theorem variants_stay_race :
    ((StoreRun.start .empty).run .go Sample.wire
      (Sample.race [0] ++ [.land 0])).store.readOne (.variant "u" "m" "flags/f/rules/1") =
        .variant "u" "m" "flags/f/rules/1" (some "on") :=
  StoreRun.variants_stay .go Sample.wire (by decide) .empty (Sample.race [0]) [.land 0] "u" "m"
    "flags/f/rules/1" "on" rfl

theorem landings_commute_race :
    ((StoreRun.start .empty).run .go Sample.wire
      (Sample.race [0, 0])).store.readOne (.variant "u" "m" "flags/f/rules/1") =
    ((StoreRun.start .empty).run .rust Sample.wire
      (Sample.race [1])).store.readOne (.variant "u" "m" "flags/f/rules/1") := by
  have hlanded : ((StoreRun.start .empty).run .go Sample.wire (Sample.race [0, 0])).landed =
      [⟨"u", "m", "flags/f/rules/1", "on"⟩, ⟨"u", "m", "flags/f/rules/1", "on"⟩] := rfl
  have hlanded' : ((StoreRun.start .empty).run .rust Sample.wire (Sample.race [1])).landed =
      [⟨"u", "m", "flags/f/rules/1", "on"⟩] := rfl
  exact StoreRun.landings_commute .go .rust Sample.wire (by decide) .empty (Sample.race [0, 0])
    (Sample.race [1]) (fun q => by simp [hlanded, hlanded']) ⟨"u", "m", "flags/f/rules/1", ""⟩

end ConfidenceResolver
