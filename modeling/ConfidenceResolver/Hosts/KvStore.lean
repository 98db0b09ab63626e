import ConfidenceResolver.Proto.Flags
import ConfidenceResolver.Support.HashMap
import ConfidenceResolver.Support.Separated

/-!
# Hosts — materializations in the key-value store

`materialization.rs` of the Cloudflare resolver.  A record is stored under a key made of its unit,
its materialization and its rule; an inclusion is read as the keys with a prefix.

* `kvKey_injective`, `kvPrefix_prefix`: what the keys and the prefixes tell apart.
* `readMaterializations_run`: after a run of writes, a read answers what was written last.
-/

namespace ConfidenceResolver

/-! ### Keys -/

/-- `s.replace(c, word)`. -/
def replaceChar (c : Char) (word : String) (s : String) : String :=
  String.ofList (s.toList.flatMap fun d => if d = c then word.toList else [d])

/-- `encode_component`. -/
def encodeComponent (s : String) : String := replaceChar ':' "%3A" (replaceChar '%' "%25" s)

/-- `kv_key`. -/
def kvKey (record : MaterializationRecord) : String :=
  "mat:" ++ encodeComponent record.unit ++ ":" ++ encodeComponent record.materialization ++ ":" ++
    encodeComponent record.rule

/-- `kv_prefix`. -/
def kvPrefix (unit materialization : String) : String :=
  "mat:" ++ encodeComponent unit ++ ":" ++ encodeComponent materialization ++ ":"

/-! ### The store -/

/-- The store, as a map with prefix listing. -/
abbrev KvStore : Type := HashMap String String

/-- `list().prefix(…).limit(1)`: the keys. -/
def KvStore.listOne (kv : KvStore) (start : String) : List String :=
  ((kv.entries.map Prod.fst).filter fun key => start.toList.isPrefixOf key.toList).take 1

/-- The future of one record of `read_materializations`. -/
def readMaterialization (kv : KvStore) (record : MaterializationRecord) :
    Option MaterializationRecord :=
  if record.rule = "" then
    if kv.listOne (kvPrefix record.unit record.materialization) ≠ [] then
      some { record with rule := "", variant := "" }
    else none
  else (kv.get? (kvKey record)).map fun value => { record with variant := value }

/-- `read_materializations`. -/
def readMaterializations (kv : KvStore) (records : List MaterializationRecord) :
    List MaterializationRecord :=
  records.filterMap (readMaterialization kv)

/-- A call of `write_materializations`: its futures are joined, and the store takes their puts in
some order. -/
structure WriteCall where
  records : List MaterializationRecord
  order : List MaterializationRecord
  perm : order.Perm (records.filter fun r => r.rule ≠ "")

/-- One put. -/
def KvStore.put (kv : KvStore) (record : MaterializationRecord) : KvStore :=
  kv.insert (kvKey record) record.variant

/-- `write_materializations`. -/
def writeMaterializations (kv : KvStore) (call : WriteCall) : KvStore := call.order.foldl .put kv

/-- The store after the calls, from an empty one. -/
def KvStore.run (calls : List WriteCall) : KvStore := calls.foldl writeMaterializations .empty

/-! ### What a key tells -/

/-- The word that stands for a character. -/
def encodeChar (c : Char) : List Char :=
  if c = '%' then ['%', '2', '5'] else if c = ':' then ['%', '3', 'A'] else [c]

/-- The second replacement leaves the words of the first as they are. -/
theorem toList_encodeComponent (s : String) :
    (encodeComponent s).toList = s.toList.flatMap encodeChar := by
  have hreplace (c : Char) (word s : String) : (replaceChar c word s).toList =
      s.toList.flatMap fun d => if d = c then word.toList else [d] := String.toList_ofList
  rw [encodeComponent, hreplace, hreplace, List.flatMap_assoc]
  congr 1
  funext c
  by_cases hpercent : c = '%'
  · subst hpercent
    rfl
  · by_cases hcolon : c = ':'
    · subst hcolon
      rfl
    · simp [encodeChar, hpercent, hcolon]

theorem encodeChar_prefixCode : PrefixCode encodeChar where
  ne_nil c := by
    unfold encodeChar
    split_ifs <;> exact List.cons_ne_nil _ _
  head {c d s t} heq := by
    -- only the two escaped characters have a word that starts with a percent sign
    unfold encodeChar at heq
    split_ifs at heq <;> grind

theorem encodeComponent_injective : Function.Injective encodeComponent := by
  intro s s' heq
  have hlist := congrArg String.toList heq
  rw [toList_encodeComponent, toList_encodeComponent] at hlist
  exact String.toList_inj.mp (encodeChar_prefixCode.flatMap_injective hlist)

/-- No separator is left in a component. -/
theorem colon_not_mem_encodeComponent (s : String) : ':' ∉ (encodeComponent s).toList := by
  rw [toList_encodeComponent, List.mem_flatMap]
  rintro ⟨c, -, hc⟩
  unfold encodeChar at hc
  split_ifs at hc with hpercent hcolon
  · simp at hc
  · simp at hc
  · exact hcolon (List.mem_singleton.mp hc).symm

theorem toList_kvPrefix (unit materialization : String) :
    (kvPrefix unit materialization).toList = "mat:".toList ++
      ((encodeComponent unit).toList ++ ':' :: ((encodeComponent materialization).toList ++
        ':' :: [])) := by
  simp [kvPrefix]

theorem toList_kvKey (r : MaterializationRecord) :
    (kvKey r).toList = "mat:".toList ++
      ((encodeComponent r.unit).toList ++ ':' :: ((encodeComponent r.materialization).toList ++
        ':' :: (encodeComponent r.rule).toList)) := by
  simp [kvKey]

/-- **Keys**: a key has one unit, one materialization and one rule. -/
theorem kvKey_injective {r r' : MaterializationRecord} :
    kvKey r = kvKey r' ↔
      r.unit = r'.unit ∧ r.materialization = r'.materialization ∧ r.rule = r'.rule := by
  have hcomponent (s s' : String) :
      (encodeComponent s).toList = (encodeComponent s').toList ↔ s = s' :=
    String.toList_inj.trans encodeComponent_injective.eq_iff
  rw [← String.toList_inj, toList_kvKey, toList_kvKey, List.append_cancel_left_eq,
    separated_inj (colon_not_mem_encodeComponent _) (colon_not_mem_encodeComponent _),
    separated_inj (colon_not_mem_encodeComponent _) (colon_not_mem_encodeComponent _),
    hcomponent, hcomponent, hcomponent]

/-- **Prefixes**: a prefix starts the keys of its unit and materialization. -/
theorem kvPrefix_prefix {unit materialization : String} {r : MaterializationRecord} :
    (kvPrefix unit materialization).toList <+: (kvKey r).toList ↔
      r.unit = unit ∧ r.materialization = materialization := by
  have hcomponent (s s' : String) :
      (encodeComponent s).toList = (encodeComponent s').toList ↔ s' = s :=
    String.toList_inj.trans (encodeComponent_injective.eq_iff.trans eq_comm)
  rw [toList_kvPrefix, toList_kvKey, List.prefix_append_right_inj,
    prefix_separated (colon_not_mem_encodeComponent _) (colon_not_mem_encodeComponent _),
    prefix_separated (colon_not_mem_encodeComponent _) (colon_not_mem_encodeComponent _),
    hcomponent, hcomponent]
  simp

/-! ### What a read answers -/

/-- The puts of the calls, in the order in which the store takes them. -/
def executed (calls : List WriteCall) : List MaterializationRecord := calls.flatMap (·.order)

/-- The variant written last for exactly the unit, materialization and rule of `key`. -/
def lastVariant (written : List MaterializationRecord) (key : MaterializationRecord) :
    Option String :=
  (written.filter fun w => w.unit = key.unit ∧ w.materialization = key.materialization ∧
    w.rule = key.rule).getLast?.map (·.variant)

/-- Whether there was a write for exactly a unit and a materialization. -/
def Included (written : List MaterializationRecord) (unit materialization : String) : Prop :=
  ∃ w ∈ written, w.unit = unit ∧ w.materialization = materialization

instance (written : List MaterializationRecord) (unit materialization : String) :
    Decidable (Included written unit materialization) := inferInstanceAs (Decidable (∃ _ ∈ _, _))

/-- What a read of `key` should answer after the writes. -/
def answer (written : List MaterializationRecord) (key : MaterializationRecord) :
    Option MaterializationRecord :=
  if key.rule = "" then
    if Included written key.unit key.materialization then some { key with variant := "" } else none
  else (lastVariant written key).map fun variant => { key with variant := variant }

theorem KvStore.run_eq (calls : List WriteCall) :
    KvStore.run calls = (executed calls).foldl .put .empty := by
  rw [executed, List.foldl_flatMap]
  rfl

/-- What is stored under a key of a record is what was put last for the record. -/
theorem get?_run (calls : List WriteCall) (key : MaterializationRecord) :
    (KvStore.run calls).get? (kvKey key) = lastVariant (executed calls) key := by
  have hget := HashMap.get?_foldl_insert kvKey (·.variant) (kvKey key) (executed calls) .empty
  rw [HashMap.get?_empty, Option.or_none] at hget
  rw [KvStore.run_eq, lastVariant]
  refine hget.trans ?_
  simp only [kvKey_injective]

theorem mem_keys_run {calls : List WriteCall} {k : String} :
    k ∈ (KvStore.run calls).entries.map Prod.fst ↔ ∃ w ∈ executed calls, kvKey w = k := by
  have hget := HashMap.get?_foldl_insert kvKey (·.variant) k (executed calls) .empty
  rw [HashMap.get?_empty, Option.or_none] at hget
  constructor
  · rintro hk
    obtain ⟨⟨k', v⟩, he, rfl⟩ := List.mem_map.mp hk
    rw [HashMap.mem_entries, KvStore.run_eq] at he
    obtain ⟨w, hw, -⟩ := Option.map_eq_some_iff.mp (hget.symm.trans he)
    obtain ⟨hmem, hkey⟩ := List.mem_filter.mp (List.mem_of_getLast? hw)
    exact ⟨w, hmem, of_decide_eq_true hkey⟩
  · rintro ⟨w, hw, rfl⟩
    have hne : (executed calls).filter (fun r => kvKey r = kvKey w) ≠ [] :=
      List.ne_nil_of_mem (List.mem_filter.mpr ⟨hw, decide_eq_true rfl⟩)
    rw [List.getLast?_eq_some_getLast hne] at hget
    exact List.mem_map_of_mem (HashMap.mem_entries.mpr (KvStore.run_eq calls ▸ hget))

/-- A prefix is listed if and only if there was a write for its unit and materialization. -/
theorem listOne_run (calls : List WriteCall) (unit materialization : String) :
    (KvStore.run calls).listOne (kvPrefix unit materialization) ≠ [] ↔
      Included (executed calls) unit materialization := by
  have htake (l : List String) : l.take 1 ≠ [] ↔ ∃ k, k ∈ l := by cases l <;> simp
  rw [KvStore.listOne, htake]
  simp only [List.mem_filter, mem_keys_run, List.isPrefixOf_iff_prefix]
  constructor
  · rintro ⟨_, ⟨w, hw, rfl⟩, hprefix⟩
    exact ⟨w, hw, kvPrefix_prefix.mp hprefix⟩
  · rintro ⟨w, hw, hmatch⟩
    exact ⟨kvKey w, ⟨w, hw, rfl⟩, kvPrefix_prefix.mpr hmatch⟩

/-- **Reads**: after any run of writes, a read answers for exactly its unit, materialization and
rule. -/
theorem readMaterializations_run (calls : List WriteCall) (records : List MaterializationRecord) :
    readMaterializations (.run calls) records = records.filterMap (answer (executed calls)) := by
  rw [readMaterializations]
  congr 1
  funext key
  rw [readMaterialization, answer, get?_run]
  by_cases hrule : key.rule = ""
  · rw [if_pos hrule, if_pos hrule]
    refine (if_congr (listOne_run calls _ _) ?_ rfl)
    rw [← hrule]
  · rw [if_neg hrule, if_neg hrule]

/-- **Materialization keys are unambiguous**: the key of a record, the prefix of a unit and a
materialization, and so every read after any run of writes. -/
theorem kvKeys_unambiguous :
    (∀ r r' : MaterializationRecord, kvKey r = kvKey r' ↔
      r.unit = r'.unit ∧ r.materialization = r'.materialization ∧ r.rule = r'.rule) ∧
    (∀ (unit materialization : String) (r : MaterializationRecord),
      (kvPrefix unit materialization).toList <+: (kvKey r).toList ↔
        r.unit = unit ∧ r.materialization = materialization) ∧
    ∀ (calls : List WriteCall) (records : List MaterializationRecord),
      readMaterializations (.run calls) records = records.filterMap (answer (executed calls)) :=
  ⟨fun _ _ => kvKey_injective, fun _ _ _ => kvPrefix_prefix, readMaterializations_run⟩

example : kvKey ⟨"user%3A", "mat:seg/abc", "rule_1", ""⟩ = "mat:user%253A:mat%3Aseg/abc:rule_1" := by
  decide

end ConfidenceResolver
