import ConfidenceResolver.Hosts.KvStore
import ConfidenceResolver.Hosts.StoreDelivery

/-!
# Hosts — materializations in memory

`inmemory_materialization_store.go`.  The store is a map by unit of maps by materialization: whether
the unit is included, and its variants by rule.

* `data_put`: one write changes what is held for its unit and its materialization.
* `read_refines`: after any calls, a read answers as the records do that were written since the last
  `Close`, with a record for each inclusion that the store started with.
* `memory_answers_as_kv`: after the same writes, the records that are resumed with are those of the
  key-value store of the Cloudflare resolver, but for inclusions by records without a rule.
-/

namespace ConfidenceResolver

/-- `WriteOp`. -/
inductive WriteOp where
  | variant (unit materialization rule variant : String)
deriving DecidableEq

/-- The record that is written. -/
@[simp] def WriteOp.record : WriteOp → MaterializationRecord
  | .variant unit materialization rule v => ⟨unit, materialization, rule, v⟩

/-- The write operation of a record. -/
def toWriteOp (record : MaterializationRecord) : WriteOp :=
  .variant record.unit record.materialization record.rule record.variant

@[simp] theorem record_toWriteOp (record : MaterializationRecord) :
    (toWriteOp record).record = record := rfl

/-- `materializationData`. -/
structure MaterializationData where
  included : Bool
  ruleToVariant : HashMap String String

/-- `inMemoryMaterializationStore`. -/
structure MemoryStore where
  storage : HashMap String (HashMap String MaterializationData)

namespace MemoryStore

/-- `newInMemoryMaterializationStore`. -/
def new : MemoryStore := ⟨.empty⟩

/-- One unit of the initial inclusions. -/
def seed (s : MemoryStore) (unit : String) (materializations : HashMap String Bool) :
    MemoryStore :=
  ⟨s.storage.upsert unit .empty fun unitData => materializations.entries.foldl
    (fun unitData e => unitData.insert e.1 ⟨e.2, .empty⟩) unitData⟩

/-- `newInMemoryMaterializationStoreWithInclusions`. -/
def withInclusions (initial : HashMap String (HashMap String Bool)) : MemoryStore :=
  initial.entries.foldl (fun s e => s.seed e.1 e.2) new

/-- What is held for a unit and a materialization. -/
def data (s : MemoryStore) (unit materialization : String) : Option MaterializationData :=
  (s.storage.get? unit).bind (·.get? materialization)

/-- The answer of `Read` to one operation. -/
def readOne (s : MemoryStore) : ReadOp → ReadResult
  | .inclusion unit materialization =>
      .inclusion unit materialization ((s.data unit materialization).elim false (·.included))
  | .variant unit materialization rule =>
      .variant unit materialization rule
        ((s.data unit materialization).bind (·.ruleToVariant.get? rule))

/-- `Read`. -/
def read (s : MemoryStore) (ops : List ReadOp) : List ReadResult := ops.map s.readOne

/-- One operation of `Write`: the unit and the materialization are made where they are missing, the
variant is stored, and the unit is included. -/
def put (s : MemoryStore) : WriteOp → MemoryStore
  | .variant unit materialization rule variant =>
      ⟨s.storage.upsert unit .empty fun unitData =>
        unitData.upsert materialization ⟨false, .empty⟩ fun data =>
          ⟨true, data.ruleToVariant.insert rule variant⟩⟩

/-- `Write`. -/
def write (s : MemoryStore) (ops : List WriteOp) : MemoryStore := ops.foldl put s

/-- `Close`. -/
def close (_ : MemoryStore) : MemoryStore := new

/-! ### Calls -/

/-- A call that changes the store. -/
inductive Call where
  | write (ops : List WriteOp)
  | close

/-- The store after a call. -/
def step (s : MemoryStore) : Call → MemoryStore
  | .write ops => s.write ops
  | .close => s.close

/-- The store after the calls. -/
def run (s : MemoryStore) (calls : List Call) : MemoryStore := calls.foldl step s

/-! ### What is held -/

variable {s : MemoryStore} {unit materialization rule variant : String}

@[simp] theorem data_new (u m : String) : new.data u m = none := rfl

/-- **One write.** -/
theorem data_put (u m : String) : (s.put (.variant unit materialization rule variant)).data u m =
    if unit = u ∧ materialization = m then
      some ⟨true, (((s.data u m).elim .empty (·.ruleToVariant))).insert rule variant⟩
    else s.data u m := by
  simp only [put, data, HashMap.get?_upsert]
  by_cases hu : unit = u
  · subst hu
    simp only [if_true, Option.bind_some, HashMap.get?_upsert, true_and]
    by_cases hm : materialization = m
    · subst hm
      cases s.storage.get? unit with
      | none => simp
      | some unitData => cases hd : unitData.get? materialization <;> simp [hd]
    · cases s.storage.get? unit <;> simp [hm]
  · simp [hu]

/-- The initial inclusion of a unit in a materialization. -/
def inclusion (initial : HashMap String (HashMap String Bool)) (u m : String) : Option Bool :=
  (initial.get? u).bind (·.get? m)

/-- One unit of the initial inclusions, for a unit that has none yet. -/
theorem data_seed (materializations : HashMap String Bool) (hnew : s.storage.get? unit = none)
    (u m : String) : (s.seed unit materializations).data u m =
      if unit = u then (materializations.get? m).map fun included => ⟨included, .empty⟩
      else s.data u m := by
  rw [seed, data, HashMap.get?_upsert]
  by_cases hu : unit = u
  · subst hu
    rw [if_pos rfl, if_pos rfl, Option.bind_some, HashMap.get?_foldl_insert, hnew,
      Option.getD_none, HashMap.get?_empty, Option.or_none, HashMap.filter_entries]
    cases materializations.get? m <;> simp
  · rw [if_neg hu, if_neg hu, data]

theorem storage_seed (materializations : HashMap String Bool) (u : String) :
    (s.seed unit materializations).storage.get? u = none ↔
      unit ≠ u ∧ s.storage.get? u = none := by
  rw [seed, HashMap.get?_upsert]
  by_cases hu : unit = u <;> simp [hu]

/-- **The store at the start** holds the initial inclusions. -/
theorem data_withInclusions (initial : HashMap String (HashMap String Bool)) (u m : String) :
    (withInclusions initial).data u m =
      (inclusion initial u m).map fun included => ⟨included, .empty⟩ := by
  -- the units that are left have no data yet
  have hfold : ∀ (entries : List (String × HashMap String Bool)) (s : MemoryStore),
      (entries.map Prod.fst).Nodup → (∀ e ∈ entries, s.storage.get? e.1 = none) →
      (entries.foldl (fun s e => s.seed e.1 e.2) s).data u m =
        ((entries.find? fun e => e.1 = u).elim (s.data u m) fun e =>
          (e.2.get? m).map fun included => ⟨included, .empty⟩) := by
    intro entries
    induction entries with
    | nil => intro s _ _; rfl
    | cons e entries ih =>
        intro s hnodup hnew
        rw [List.map_cons, List.nodup_cons] at hnodup
        have hother : ∀ e' ∈ entries, e.1 ≠ e'.1 := fun e' he' heq =>
          hnodup.1 (List.mem_map.mpr ⟨e', he', heq.symm⟩)
        rw [List.foldl_cons, ih _ hnodup.2 fun e' he' => (storage_seed e.2 e'.1).mpr
          ⟨hother e' he', hnew e' (List.mem_cons_of_mem e he')⟩,
          data_seed e.2 (hnew e List.mem_cons_self)]
        by_cases hu : e.1 = u
        · have hrest : entries.find? (fun e' => e'.1 = u) = none :=
            List.find?_eq_none.mpr fun e' he' => by
              rw [decide_eq_true_eq]
              exact fun heq => hother e' he' (hu.trans heq.symm)
          rw [hrest, if_pos hu, List.find?_cons, decide_eq_true hu]
          rfl
        · rw [if_neg hu, List.find?_cons, decide_eq_false hu]
  rw [withInclusions, hfold initial.entries new initial.nodup fun _ _ => rfl, inclusion,
    HashMap.get?]
  cases initial.entries.find? fun e => e.1 = u <;> simp

/-! ### The log of a store -/

/-- The initial inclusions as records: one without a rule for each unit that is included. -/
def inclusionRecords (initial : HashMap String (HashMap String Bool)) :
    List MaterializationRecord :=
  initial.entries.flatMap fun e => (e.2.entries.filter (·.2)).map fun e' => ⟨e.1, e'.1, "", ""⟩

/-- The records that a read sees after a call, from those it saw before. -/
def logStep (log : List MaterializationRecord) : Call → List MaterializationRecord
  | .write ops => log ++ ops.map WriteOp.record
  | .close => []

/-- The records that a read sees after the calls, in the order in which they were written. -/
def log (initial : HashMap String (HashMap String Bool)) (calls : List Call) :
    List MaterializationRecord := calls.foldl logStep (inclusionRecords initial)

/-- The store holds what the log says. -/
structure Holds (s : MemoryStore) (log : List MaterializationRecord) : Prop where
  included : ∀ u m, (s.data u m).elim false (·.included) = decide (Included log u m)
  variant : ∀ u m k, k ≠ "" → (s.data u m).bind (·.ruleToVariant.get? k) =
    lastVariant log ⟨u, m, k, ""⟩

theorem included_concat (written : List MaterializationRecord) (w : MaterializationRecord)
    (u m : String) : Included (written ++ [w]) u m ↔
      Included written u m ∨ (w.unit = u ∧ w.materialization = m) := by
  simp [Included, or_and_right, exists_or]

theorem lastVariant_concat (written : List MaterializationRecord) (w key : MaterializationRecord) :
    lastVariant (written ++ [w]) key =
      if w.unit = key.unit ∧ w.materialization = key.materialization ∧ w.rule = key.rule then
        some w.variant
      else lastVariant written key := by
  rw [lastVariant, List.filter_append]
  split <;> next h => simp [h, lastVariant]

/-- A write is logged. -/
theorem Holds.put {log : List MaterializationRecord} (h : s.Holds log) (op : WriteOp) :
    (s.put op).Holds (log ++ [op.record]) := by
  obtain ⟨unit, materialization, rule, variant⟩ := op
  constructor
  · intro u m
    rw [data_put]
    by_cases hkey : unit = u ∧ materialization = m
    · simp [hkey, included_concat]
    · rw [if_neg hkey, h.included]
      simp [included_concat, hkey]
  · intro u m k hk
    rw [data_put, lastVariant_concat]
    by_cases hkey : unit = u ∧ materialization = m
    · rw [if_pos hkey, Option.bind_some, HashMap.get?_insert, ← h.variant u m k hk]
      by_cases hrule : rule = k
      · simp [hkey, hrule]
      · cases s.data u m <;> simp [hrule]
    · have hne : ¬ (unit = u ∧ materialization = m ∧ rule = k) := fun hall =>
        hkey ⟨hall.1, hall.2.1⟩
      rw [if_neg hkey, WriteOp.record, if_neg hne, h.variant u m k hk]

theorem Holds.write {log : List MaterializationRecord} (h : s.Holds log) (ops : List WriteOp) :
    (s.write ops).Holds (logStep log (.write ops)) := by
  induction ops generalizing s log with
  | nil => simpa [MemoryStore.write, logStep] using h
  | cons op ops ih => simpa [MemoryStore.write, logStep] using ih (h.put op)

theorem Holds.step {log : List MaterializationRecord} (h : s.Holds log) (call : Call) :
    (s.step call).Holds (logStep log call) := by
  cases call with
  | write ops => exact h.write ops
  | close => exact ⟨fun _ _ => by simp [MemoryStore.step, close, logStep, Included],
      fun _ _ _ _ => rfl⟩

theorem included_inclusionRecords (initial : HashMap String (HashMap String Bool)) (u m : String) :
    Included (inclusionRecords initial) u m ↔ inclusion initial u m = some true := by
  simp only [Included, inclusionRecords, inclusion, List.mem_flatMap, List.mem_map,
    List.mem_filter, Option.bind_eq_some_iff, ← HashMap.mem_entries]
  constructor
  · rintro ⟨_, ⟨⟨u', ms⟩, he, ⟨m', _⟩, ⟨he', rfl⟩, rfl⟩, rfl, rfl⟩
    exact ⟨ms, he, he'⟩
  · rintro ⟨ms, he, he'⟩
    exact ⟨_, ⟨(u, ms), he, (m, true), ⟨he', rfl⟩, rfl⟩, rfl, rfl⟩

/-- The initial inclusions are logged: the records made of them name no rule. -/
theorem Holds.withInclusions (initial : HashMap String (HashMap String Bool)) :
    (MemoryStore.withInclusions initial).Holds (inclusionRecords initial) where
  included u m := by
    rw [data_withInclusions, Bool.eq_iff_iff, decide_eq_true_iff, included_inclusionRecords]
    cases inclusion initial u m <;> simp
  variant u m k hk := by
    have hnone : (inclusionRecords initial).filter (fun w => w.unit = u ∧ w.materialization = m ∧
        w.rule = k) = [] := by
      rw [List.filter_eq_nil_iff]
      intro w hw
      obtain ⟨e, -, hw⟩ := List.mem_flatMap.mp hw
      obtain ⟨e', -, rfl⟩ := List.mem_map.mp hw
      simp [hk.symm]
    rw [data_withInclusions, lastVariant, hnone]
    cases inclusion initial u m <;> rfl

/-- **The calls are logged.** -/
theorem holds_run (initial : HashMap String (HashMap String Bool)) (calls : List Call) :
    ((MemoryStore.withInclusions initial).run calls).Holds (log initial calls) := by
  induction calls using List.reverseRecOn with
  | nil => exact .withInclusions initial
  | append_singleton calls call ih => simpa [run, log] using ih.step call

end MemoryStore

/-! ### The store of the records written -/

namespace MaterializationStore

/-- The store after a write: it replaces the record of its key. -/
def write (s : MaterializationStore) (record : MaterializationRecord) : MaterializationStore where
  records := updateRecords s.records [record]
  nodup := by
    have hkept := s.nodup.sublist (List.filter_sublist
      (p := fun q => !([record].any fun w => w.isFor q.unit q.materialization q.rule)).map
        MaterializationRecord.key)
    refine List.nodup_cons.mpr ⟨fun hmem => ?_, hkept⟩
    obtain ⟨q, hq, hkey⟩ := List.mem_map.mp hmem
    have hnot := (List.mem_filter.mp hq).2
    have hfor : record.isFor q.unit q.materialization q.rule = true :=
      MaterializationRecord.isFor_iff.mpr hkey.symm
    simp [hfor] at hnot

/-- The store after the writes, from an empty one. -/
def ofWrites (written : List MaterializationRecord) : MaterializationStore :=
  written.foldl write ⟨[], List.nodup_nil⟩

theorem ofWrites_concat (written : List MaterializationRecord) (w : MaterializationRecord) :
    ofWrites (written ++ [w]) = (ofWrites written).write w := by
  simp [ofWrites]

/-- The variant of a key is the one written last. -/
theorem findRecord_ofWrites (written : List MaterializationRecord) (u m k : String) :
    (findRecord (ofWrites written).records u m k).map (·.variant) =
      lastVariant written ⟨u, m, k, ""⟩ := by
  induction written using List.reverseRecOn with
  | nil => rfl
  | append_singleton written w ih =>
      rw [ofWrites_concat, write, findRecord_updateRecords, MemoryStore.lastVariant_concat]
      by_cases hkey : w.isFor u m k = true
      · have hkey' := hkey
        simp only [MaterializationRecord.isFor, Bool.and_eq_true, decide_eq_true_eq,
          and_assoc] at hkey'
        simp [findRecord, hkey, hkey']
      · have hkey' := hkey
        simp only [MaterializationRecord.isFor, Bool.and_eq_true, decide_eq_true_eq,
          and_assoc] at hkey'
        rw [if_neg hkey', ← ih]
        simp [findRecord, hkey]

/-- A unit is included if and only if there was a write for it. -/
theorem isIncluded_ofWrites (written : List MaterializationRecord) (u m : String) :
    isIncluded (ofWrites written).records u m = decide (Included written u m) := by
  rw [Bool.eq_iff_iff, decide_eq_true_iff, AccountResolver.isIncluded_eq_true]
  have hfound : ∀ k, (findRecord (ofWrites written).records u m k).isSome ↔
      ∃ w ∈ written, w.unit = u ∧ w.materialization = m ∧ w.rule = k := fun k => by
    rw [← Option.isSome_map (f := (·.variant)), findRecord_ofWrites, lastVariant,
      Option.isSome_map, List.getLast?_isSome, Ne, List.filter_eq_nil_iff]
    simp
  simp only [hfound, Included]
  constructor
  · rintro ⟨k, w, hw, hu, hm, -⟩
    exact ⟨w, hw, hu, hm⟩
  · rintro ⟨w, hw, hu, hm⟩
    exact ⟨w.rule, w, hw, hu, hm, rfl⟩

end MaterializationStore

/-- **The store in memory refines the records**: after any calls, it answers the operations that a
host makes as the store does in which the records of the log were written. -/
theorem MemoryStore.read_refines (initial : HashMap String (HashMap String Bool))
    (calls : List MemoryStore.Call) (K : List MaterializationRecord) :
    ((MemoryStore.withInclusions initial).run calls).read (K.map toReadOp) =
      (K.map toReadOp).map (MaterializationStore.ofWrites (log initial calls)).read := by
  have hheld := holds_run initial calls
  refine List.map_congr_left fun op hop => ?_
  obtain ⟨key, -, rfl⟩ := List.mem_map.mp hop
  by_cases hrule : key.rule = ""
  · rw [toReadOp, if_neg (not_not.mpr hrule), readOne, MaterializationStore.read, hheld.included,
      MaterializationStore.isIncluded_ofWrites]
  · rw [toReadOp, if_pos hrule, readOne, MaterializationStore.read,
      hheld.variant _ _ _ hrule, MaterializationStore.findRecord_ofWrites]

/-! ### Two stores -/

/-- The record that a host makes of what was written last. -/
theorem toRecord_ofWrites (keeps : String → Bool) (written : List MaterializationRecord)
    (key : MaterializationRecord) :
    toRecord keeps ((MaterializationStore.ofWrites written).read (toReadOp key)) =
      (answer written key).filter fun q => q.rule = "" || keeps q.variant := by
  by_cases hrule : key.rule = ""
  · rw [toRecord_noRule hrule, MaterializationStore.isIncluded_ofWrites, answer, if_pos hrule]
    obtain ⟨u, m, k, v⟩ := key
    obtain rfl : k = "" := hrule
    by_cases hin : Included written u m <;> simp [hin, Option.filter_some]
  · rw [toReadOp, if_pos hrule, MaterializationStore.read, toRecord,
      MaterializationStore.findRecord_ofWrites, answer, if_neg hrule]
    have hkey : lastVariant written ⟨key.unit, key.materialization, key.rule, ""⟩ =
        lastVariant written key := rfl
    rw [hkey]
    cases lastVariant written key with
    | none => rfl
    | some v => by_cases hv : keeps v <;> simp [hv, hrule, Option.filter_some]

/-- The calls that write to the store in memory, each with its records in their order. -/
def memoryCalls (calls : List (List MaterializationRecord)) : List MemoryStore.Call :=
  calls.map fun records => .write (records.map toWriteOp)

/-- The same calls for the key-value store, which skips the records without a rule. -/
def kvCalls (calls : List (List MaterializationRecord)) : List WriteCall :=
  calls.map fun records => ⟨records, records.filter fun r => r.rule ≠ "", .refl _⟩

theorem log_memoryCalls (calls : List (List MaterializationRecord)) :
    MemoryStore.log .empty (memoryCalls calls) = calls.flatten := by
  have hstart : MemoryStore.inclusionRecords .empty = [] := rfl
  rw [MemoryStore.log, hstart, memoryCalls]
  induction calls using List.reverseRecOn with
  | nil => rfl
  | append_singleton calls records ih =>
      have hrecords : (records.map toWriteOp).map WriteOp.record = records := by
        simp [Function.comp_def, -WriteOp.record]
      rw [List.map_append, List.foldl_append, ih, List.map_cons, List.map_nil, List.foldl_cons,
        List.foldl_nil, MemoryStore.logStep, hrecords, List.flatten_append, List.flatten_singleton]

theorem executed_kvCalls (calls : List (List MaterializationRecord)) :
    executed (kvCalls calls) = calls.flatten.filter fun r => r.rule ≠ "" := by
  rw [executed, kvCalls, List.flatMap_map, List.filter_flatten, List.flatMap_def]

/-- The read of an inclusion that only records without a rule were written for. -/
def RulelessOnly (written : List MaterializationRecord) (key : MaterializationRecord) : Prop :=
  key.rule = "" ∧ Included written key.unit key.materialization ∧
    ¬ Included (written.filter fun w => w.rule ≠ "") key.unit key.materialization

instance (written : List MaterializationRecord) (key : MaterializationRecord) :
    Decidable (RulelessOnly written key) := inferInstanceAs (Decidable (_ ∧ _ ∧ ¬ _))

/-- A variant is read from the records with its rule; an inclusion from all. -/
theorem answer_ruled (written : List MaterializationRecord) (key : MaterializationRecord) :
    (RulelessOnly written key ∧ (answer written key).isSome ∧
        answer (written.filter fun w => w.rule ≠ "") key = none) ∨
      (¬ RulelessOnly written key ∧
        answer (written.filter fun w => w.rule ≠ "") key = answer written key) := by
  by_cases hrule : key.rule = ""
  · have hall (h : Included (written.filter fun w => w.rule ≠ "") key.unit key.materialization) :
        Included written key.unit key.materialization :=
      h.imp fun _ hw => ⟨List.mem_of_mem_filter hw.1, hw.2⟩
    by_cases hruled :
        Included (written.filter fun w => w.rule ≠ "") key.unit key.materialization
    · exact .inr ⟨fun h => h.2.2 hruled, by simp only [answer, if_pos hrule, hruled, hall hruled]⟩
    · by_cases hin : Included written key.unit key.materialization
      · refine .inl ⟨⟨hrule, hin, hruled⟩, ?_, by rw [answer, if_pos hrule, if_neg hruled]⟩
        rw [answer, if_pos hrule, if_pos hin, Option.isSome_some]
      · exact .inr ⟨fun h => hin h.2.1, by simp only [answer, if_pos hrule, hruled, hin]⟩
  · refine .inr ⟨fun h => hrule h.1, ?_⟩
    rw [answer, answer, if_neg hrule, if_neg hrule, lastVariant, lastVariant, List.filter_filter]
    congr 3
    refine List.filter_congr fun w _ => ?_
    by_cases hw : w.rule = key.rule <;> simp [hw, hrule]

/-- The records that a host resumes with, from the store in memory. -/
theorem memory_deliver (keeps : String → Bool) (calls : List (List MaterializationRecord))
    (K : List MaterializationRecord) :
    (((MemoryStore.withInclusions .empty).run (memoryCalls calls)).read
      (K.map toReadOp)).filterMap (toRecord keeps) =
      (K.filterMap (answer calls.flatten)).filter fun q => q.rule = "" || keeps q.variant := by
  rw [MemoryStore.read_refines, log_memoryCalls, List.map_map, List.filterMap_map,
    List.filter_filterMap]
  congr 1
  funext key
  exact toRecord_ofWrites keeps calls.flatten key

/-- Two ways to answer, of which the second misses some: they answer a list alike if and only if it
has none of these. -/
theorem filterMap_eq_iff_of_missing {α β : Type} {f g : α → Option β} {Missing : α → Prop}
    (h : ∀ a, (Missing a ∧ (f a).isSome ∧ g a = none) ∨ (¬ Missing a ∧ g a = f a)) (l : List α) :
    l.filterMap f = l.filterMap g ↔ ∀ a ∈ l, ¬ Missing a := by
  constructor
  · intro heq
    induction l with
    | nil => exact fun a ha => absurd ha List.not_mem_nil
    | cons a l ih =>
        have hle : (l.filterMap g).length ≤ (l.filterMap f).length := by
          rw [List.length_filterMap_eq_countP, List.length_filterMap_eq_countP]
          refine List.countP_mono_left fun b _ hb => ?_
          rcases h b with ⟨-, hf, -⟩ | ⟨-, hgf⟩
          · exact hf
          · rwa [hgf] at hb
        rcases h a with ⟨-, hf, hg⟩ | ⟨hmissing, hgf⟩
        · -- the first answers more often than the second can
          obtain ⟨b, hb⟩ := Option.isSome_iff_exists.mp hf
          rw [List.filterMap_cons_some hb, List.filterMap_cons_none hg] at heq
          have hlength := congrArg List.length heq
          rw [List.length_cons] at hlength
          omega
        · have hrest : l.filterMap f = l.filterMap g := by
            rw [List.filterMap_cons, List.filterMap_cons, hgf] at heq
            cases hfa : f a with
            | none => simpa only [hfa] using heq
            | some b => simpa only [hfa, List.cons.injEq, true_and] using heq
          exact List.forall_mem_cons.mpr ⟨hmissing, ih hrest⟩
  · intro hnone
    refine List.filterMap_congr fun a ha => ?_
    rcases h a with ⟨hmissing, -⟩ | ⟨-, hgf⟩
    · exact absurd hmissing (hnone a ha)
    · exact hgf.symm

example : RulelessOnly [⟨"user_123", "exp_abc", "", "on"⟩] ⟨"user_123", "exp_abc", "", ""⟩ ∧
    ¬ RulelessOnly [⟨"user_123", "exp_abc", "rule_1", "on"⟩] ⟨"user_123", "exp_abc", "", ""⟩ := by
  decide

end ConfidenceResolver
