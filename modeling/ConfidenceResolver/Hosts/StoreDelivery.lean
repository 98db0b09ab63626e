import ConfidenceResolver.Materialization.Stable

/-!
# Hosts — reads of the materialization store

`materialization.ts` of the JS provider, `materialization.go` and `materialization.rs`.  The reads
that a suspended request reports are made read operations; their results are made records, with
which the request is resumed.  The three ports differ in what they make of a result with an empty
variant.

* `MaterializationStore`: no two records have one key.
* `findRecord_deliver`, `isIncluded_deliver`: the records that a port delivers.
* `delivery_faithful_iff`: when the lookups of the resumed request answer as on the store's own
  records.
-/

namespace ConfidenceResolver

/-! ### Stores -/

/-- A materialization store: a variant, perhaps empty, by unit, materialization and rule. -/
structure MaterializationStore where
  records : List MaterializationRecord
  nodup : (records.map MaterializationRecord.key).Nodup

/-- `ReadOp`. -/
inductive ReadOp where
  | variant (unit materialization rule : String)
  | inclusion (unit materialization : String)
deriving DecidableEq

/-- `ReadResult`. -/
inductive ReadResult where
  | variant (unit materialization rule : String) (variant : Option String)
  | inclusion (unit materialization : String) (included : Bool)
deriving DecidableEq

/-- The answer of a store. -/
def MaterializationStore.read (s : MaterializationStore) : ReadOp → ReadResult
  | .variant unit materialization rule =>
      .variant unit materialization rule
        ((findRecord s.records unit materialization rule).map (·.variant))
  | .inclusion unit materialization =>
      .inclusion unit materialization (isIncluded s.records unit materialization)

/-! ### The ports -/

/-- A record with a rule is a variant read, another one an inclusion read. -/
def toReadOp (record : MaterializationRecord) : ReadOp :=
  if record.rule ≠ "" then .variant record.unit record.materialization record.rule
  else .inclusion record.unit record.materialization

/-- The record of a result, if `keeps` holds of its variant. -/
def toRecord (keeps : String → Bool) : ReadResult → Option MaterializationRecord
  | .variant unit materialization rule variant =>
      (variant.filter keeps).map fun v => ⟨unit, materialization, rule, v⟩
  | .inclusion unit materialization included =>
      if included then some ⟨unit, materialization, "", ""⟩ else none

namespace Js

/-- `materializationRecordsToReadOps`. -/
def materializationRecordsToReadOps (records : List MaterializationRecord) : List ReadOp :=
  records.map toReadOp

/-- `readResultsToMaterializationRecords`: an empty variant counts as none. -/
def readResultsToMaterializationRecords (results : List ReadResult) : List MaterializationRecord :=
  results.filterMap (toRecord (· ≠ ""))

end Js

namespace Go

/-- `materializationRecordsToReadOps`. -/
def materializationRecordsToReadOps (records : List MaterializationRecord) : List ReadOp :=
  records.map toReadOp

/-- `readResultsToMaterializationRecords`: an empty variant counts as none. -/
def readResultsToMaterializationRecords (results : List ReadResult) : List MaterializationRecord :=
  results.filterMap (toRecord (· ≠ ""))

end Go

namespace Rust

/-- `materialization_records_to_read_ops`. -/
def materializationRecordsToReadOps (records : List MaterializationRecord) : List ReadOp :=
  records.map toReadOp

/-- `read_results_to_materialization_records`. -/
def readResultsToMaterializationRecords (results : List ReadResult) : List MaterializationRecord :=
  results.filterMap (toRecord fun _ => true)

end Rust

/-- The two conversions of a host. -/
structure Port where
  toReadOps : List MaterializationRecord → List ReadOp
  toRecords : List ReadResult → List MaterializationRecord

def Port.js : Port := ⟨Js.materializationRecordsToReadOps, Js.readResultsToMaterializationRecords⟩

def Port.go : Port := ⟨Go.materializationRecordsToReadOps, Go.readResultsToMaterializationRecords⟩

def Port.rust : Port :=
  ⟨Rust.materializationRecordsToReadOps, Rust.readResultsToMaterializationRecords⟩

/-- The records with which a host resumes a request that was suspended with the reads `K`. -/
def Port.deliver (port : Port) (s : MaterializationStore) (K : List MaterializationRecord) :
    List MaterializationRecord :=
  port.toRecords ((port.toReadOps K).map s.read)

/-! ### Lookups -/

/-- A lookup of a resumed request. -/
inductive Lookup where
  | isUnitInMaterialization (materialization unit : String)
  | hasRuleMaterialization (materialization unit rule : String)
  | selectAssignment (materialization unit rule : String) (assignments : List Assignment)
      (segmentName : String) (bucketCount : Int)

namespace Lookup

/-- What a lookup answers on a complete set of records. -/
def answer (nat : Natives) (records : List MaterializationRecord) :
    Lookup → Except ResolveError Tribool ⊕ Option Assignment
  | isUnitInMaterialization materialization unit =>
      .inl (MaterializationContext.isUnitInMaterialization materialization unit
        (.complete records)).1
  | hasRuleMaterialization materialization unit rule =>
      .inl (MaterializationContext.hasRuleMaterialization materialization unit rule
        (.complete records)).1
  | selectAssignment materialization unit rule assignments segmentName bucketCount =>
      .inr (ConfidenceResolver.selectAssignment nat (.complete records) materialization unit rule
        assignments segmentName bucketCount)

/-- The lookup is for the key: without a rule for whether the unit is included, with one for the
record of the rule. -/
def For (key : MaterializationRecord) : Lookup → Prop
  | isUnitInMaterialization materialization unit =>
      key.unit = unit ∧ key.materialization = materialization ∧ key.rule = ""
  | hasRuleMaterialization materialization unit rule
  | selectAssignment materialization unit rule _ _ _ =>
      key.isFor unit materialization rule = true ∧ rule ≠ ""

end Lookup

/-- Every lookup for a key of `K` answers as on the store's own records. -/
def AnswersAlike (nat : Natives) (s : MaterializationStore) (K R : List MaterializationRecord) :
    Prop :=
  ∀ (l : Lookup), ∀ key ∈ K, l.For key → l.answer nat R = l.answer nat s.records

/-- No key of `K` with a rule has a record with an empty variant. -/
def NoEmptyVariant (s : MaterializationStore) (K : List MaterializationRecord) : Prop :=
  ∀ key ∈ K, key.rule ≠ "" → ∀ record ∈ s.records, record.key = key.key → record.variant ≠ ""

/-! ### What is delivered -/

section Deliver

variable {s : MaterializationStore} {K : List MaterializationRecord}

/-- The records delivered when variants are kept by `keeps`. -/
def deliver (keeps : String → Bool) (s : MaterializationStore) (K : List MaterializationRecord) :
    List MaterializationRecord :=
  K.filterMap fun key => toRecord keeps (s.read (toReadOp key))

/-- A read operation is made, answered and converted for each key. -/
theorem filterMap_read (keeps : String → Bool) :
    ((K.map toReadOp).map s.read).filterMap (toRecord keeps) = deliver keeps s K := by
  rw [List.map_map, List.filterMap_map]
  rfl

theorem js_deliver : Port.js.deliver s K = deliver (· ≠ "") s K := filterMap_read _

theorem go_deliver : Port.go.deliver s K = deliver (· ≠ "") s K := filterMap_read _

theorem rust_deliver : Port.rust.deliver s K = deliver (fun _ => true) s K := filterMap_read _

theorem isFor_of_findRecord {R : List MaterializationRecord} {u m k : String}
    {record : MaterializationRecord} (h : findRecord R u m k = some record) :
    record.isFor u m k = true := by
  have hfor := List.find?_some h
  exact hfor

/-- A record found has the key it was looked for. -/
theorem eq_of_findRecord {R : List MaterializationRecord} {u m k : String}
    {record : MaterializationRecord} (h : findRecord R u m k = some record) :
    record ∈ R ∧ record = ⟨u, m, k, record.variant⟩ := by
  have hkey := MaterializationRecord.isFor_iff.mp (isFor_of_findRecord h)
  refine ⟨List.mem_of_find?_eq_some h, ?_⟩
  cases record
  simp only [MaterializationRecord.key, Prod.mk.injEq] at hkey
  simp [hkey]

/-- What a key with a rule delivers. -/
theorem toRecord_rule {keeps : String → Bool} {key : MaterializationRecord} (h : key.rule ≠ "") :
    toRecord keeps (s.read (toReadOp key)) =
      (findRecord s.records key.unit key.materialization key.rule).filter (keeps ·.variant) := by
  rw [toReadOp, if_pos h, MaterializationStore.read, toRecord]
  cases hfind : findRecord s.records key.unit key.materialization key.rule with
  | none => rfl
  | some record =>
      have heq := (eq_of_findRecord hfind).2
      rw [Option.map_some, Option.filter_some, Option.filter_some]
      split
      · rw [Option.map_some, ← heq]
      · rfl

/-- What a key without a rule delivers. -/
theorem toRecord_noRule {keeps : String → Bool} {key : MaterializationRecord} (h : key.rule = "") :
    toRecord keeps (s.read (toReadOp key)) =
      if isIncluded s.records key.unit key.materialization then
        some ⟨key.unit, key.materialization, "", ""⟩
      else none := by
  rw [toReadOp, if_neg (not_not.mpr h), MaterializationStore.read, toRecord]

/-- **Records by rule**: the record of a key is delivered if its variant is kept. -/
theorem findRecord_deliver {keeps : String → Bool} {key : MaterializationRecord} (hkey : key ∈ K)
    (hrule : key.rule ≠ "") :
    findRecord (deliver keeps s K) key.unit key.materialization key.rule =
      (findRecord s.records key.unit key.materialization key.rule).filter (keeps ·.variant) := by
  -- all that is delivered for this key is that record
  have honly : ∀ q ∈ deliver keeps s K, q.isFor key.unit key.materialization key.rule = true →
      (findRecord s.records key.unit key.materialization key.rule).filter (keeps ·.variant) =
        some q := by
    intro q hq hfor
    obtain ⟨key', hkey', hq⟩ := List.mem_filterMap.mp hq
    have hq' := MaterializationRecord.isFor_iff.mp hfor
    simp only [MaterializationRecord.key, Prod.mk.injEq] at hq'
    by_cases hrule' : key'.rule = ""
    · rw [toRecord_noRule hrule'] at hq
      split at hq
      · cases hq
        exact absurd hq'.2.2.symm hrule
      · cases hq
    · rw [toRecord_rule hrule'] at hq
      obtain ⟨hfind, _⟩ := Option.filter_eq_some_iff.mp hq
      have heq := (eq_of_findRecord hfind).2
      have hfields : q.unit = key'.unit ∧ q.materialization = key'.materialization ∧
          q.rule = key'.rule := by rw [heq]; exact ⟨rfl, rfl, rfl⟩
      rw [← hq'.1, ← hq'.2.1, ← hq'.2.2, hfields.1, hfields.2.1, hfields.2.2]
      exact hq
  cases hfound : findRecord (deliver keeps s K) key.unit key.materialization key.rule with
  | some q => exact (honly q (List.mem_of_find?_eq_some hfound) (isFor_of_findRecord hfound)).symm
  | none =>
      cases hstored : (findRecord s.records key.unit key.materialization key.rule).filter
          (keeps ·.variant) with
      | none => rfl
      | some q =>
          have hmem : q ∈ deliver keeps s K :=
            List.mem_filterMap.mpr ⟨key, hkey, (toRecord_rule hrule).trans hstored⟩
          have heq := (eq_of_findRecord (Option.filter_eq_some_iff.mp hstored).1).2
          have hfor : q.key = (key.unit, key.materialization, key.rule) := by rw [heq]; rfl
          exact absurd hfor (findRecord_eq_none.mp hfound q hmem)

/-- **Inclusion**: a unit is included in what is delivered exactly when it is in the store. -/
theorem isIncluded_deliver {keeps : String → Bool} {key : MaterializationRecord} (hkey : key ∈ K)
    (hrule : key.rule = "") :
    isIncluded (deliver keeps s K) key.unit key.materialization =
      isIncluded s.records key.unit key.materialization := by
  rw [Bool.eq_iff_iff]
  constructor
  · intro h
    obtain ⟨q, hq, hunit⟩ := List.any_eq_true.mp h
    obtain ⟨key', _, hq⟩ := List.mem_filterMap.mp hq
    by_cases hrule' : key'.rule = ""
    · rw [toRecord_noRule hrule'] at hq
      split at hq
      · next hincluded =>
          cases hq
          simp only [Bool.and_eq_true, decide_eq_true_eq] at hunit
          rwa [hunit.1, hunit.2] at hincluded
      · cases hq
    · rw [toRecord_rule hrule'] at hq
      obtain ⟨hfind, _⟩ := Option.filter_eq_some_iff.mp hq
      exact List.any_eq_true.mpr ⟨q, (eq_of_findRecord hfind).1, hunit⟩
  · intro h
    refine List.any_eq_true.mpr ⟨⟨key.unit, key.materialization, "", ""⟩, ?_, by simp⟩
    exact List.mem_filterMap.mpr ⟨key, hkey, by rw [toRecord_noRule hrule, if_pos h]⟩

/-! ### Answers -/

variable {nat : Natives}

theorem answer_isUnit (R : List MaterializationRecord) (m u : String) :
    (Lookup.isUnitInMaterialization m u).answer nat R = .inl (.ok (some (isIncluded R u m))) :=
  rfl

theorem answer_hasRule (R : List MaterializationRecord) (m u k : String) :
    (Lookup.hasRuleMaterialization m u k).answer nat R =
      .inl (.ok (some (findRecord R u m k).isSome)) :=
  congrArg Sum.inl (hasRuleMaterialization_yields_complete R m u k (.complete R) rfl).1

/-- The lookups for a key see no more than its record, or whether the unit is included. -/
theorem answer_congr {R R' : List MaterializationRecord} {key : MaterializationRecord} {l : Lookup}
    (hl : l.For key)
    (hunit : key.rule = "" → isIncluded R key.unit key.materialization =
      isIncluded R' key.unit key.materialization)
    (hrule : key.rule ≠ "" → findRecord R key.unit key.materialization key.rule =
      findRecord R' key.unit key.materialization key.rule) :
    l.answer nat R = l.answer nat R' := by
  cases l with
  | isUnitInMaterialization m u =>
      obtain ⟨rfl, rfl, hnone⟩ := hl
      rw [answer_isUnit, answer_isUnit, hunit hnone]
  | hasRuleMaterialization m u k =>
      obtain ⟨hfor, hk⟩ := hl
      simp only [MaterializationRecord.isFor_iff, MaterializationRecord.key, Prod.mk.injEq] at hfor
      obtain ⟨rfl, rfl, rfl⟩ := hfor
      rw [answer_hasRule, answer_hasRule, hrule hk]
  | selectAssignment m u k assignments segmentName bucketCount =>
      obtain ⟨hfor, hk⟩ := hl
      simp only [MaterializationRecord.isFor_iff, MaterializationRecord.key, Prod.mk.injEq] at hfor
      obtain ⟨rfl, rfl, rfl⟩ := hfor
      simp only [Lookup.answer, selectAssignment, hrule hk]

/-- A delivery is faithful when the records of its keys are kept. -/
theorem faithful_deliver {keeps : String → Bool}
    (hkeeps : ∀ key ∈ K, key.rule ≠ "" → ∀ record,
      findRecord s.records key.unit key.materialization key.rule = some record →
        keeps record.variant = true) : AnswersAlike nat s K (deliver keeps s K) := by
  intro l key hkey hl
  refine answer_congr hl (isIncluded_deliver hkey) fun hrule => ?_
  rw [findRecord_deliver hkey hrule]
  cases hfind : findRecord s.records key.unit key.materialization key.rule with
  | none => rfl
  | some record => rw [Option.filter_some, if_pos (hkeeps key hkey hrule record hfind)]

/-- A host that drops empty variants is faithful exactly when there are none. -/
theorem faithful_drop_iff :
    AnswersAlike nat s K (deliver (· ≠ "") s K) ↔ NoEmptyVariant s K := by
  constructor
  · intro h key hkey hrule record hrecord hsame hempty
    have hfields := hsame
    simp only [MaterializationRecord.key, Prod.mk.injEq] at hfields
    have hstored := findRecord_of_mem s.nodup hrecord
    rw [hfields.1, hfields.2.1, hfields.2.2] at hstored
    have hasked := h (.hasRuleMaterialization key.materialization key.unit key.rule) key hkey
      ⟨MaterializationRecord.isFor_iff.mpr rfl, hrule⟩
    rw [answer_hasRule, answer_hasRule, findRecord_deliver hkey hrule, hstored] at hasked
    simp [hempty] at hasked
  · intro h
    refine faithful_deliver fun key hkey hrule record hfind => ?_
    obtain ⟨hmem, heq⟩ := eq_of_findRecord hfind
    exact decide_eq_true (h key hkey hrule record hmem (by rw [heq]; rfl))

/-- Without empty variants it makes no difference whether they are dropped. -/
theorem deliver_drop_eq (h : NoEmptyVariant s K) :
    deliver (· ≠ "") s K = deliver (fun _ => true) s K := by
  refine List.filterMap_congr fun key hkey => ?_
  by_cases hrule : key.rule = ""
  · rw [toRecord_noRule hrule, toRecord_noRule hrule]
  · rw [toRecord_rule hrule, toRecord_rule hrule]
    cases hfind : findRecord s.records key.unit key.materialization key.rule with
    | none => rfl
    | some record =>
        obtain ⟨hmem, heq⟩ := eq_of_findRecord hfind
        have hvariant := h key hkey hrule record hmem (by rw [heq]; rfl)
        rw [Option.filter_some, Option.filter_some, if_pos (decide_eq_true hvariant), if_pos rfl]

end Deliver

/-! ### Main results -/

/-- **When the store is delivered faithfully**: by the Rust provider always; by the JS and the Go
provider exactly when no key with a rule has a record with an empty variant.  Then all three resume
with the same records. -/
theorem delivery_faithful_iff (nat : Natives) (s : MaterializationStore)
    (K : List MaterializationRecord) :
    AnswersAlike nat s K (Port.rust.deliver s K) ∧
      (AnswersAlike nat s K (Port.js.deliver s K) ↔ NoEmptyVariant s K) ∧
      (AnswersAlike nat s K (Port.go.deliver s K) ↔ NoEmptyVariant s K) ∧
      (NoEmptyVariant s K → Port.js.deliver s K = Port.rust.deliver s K ∧
        Port.go.deliver s K = Port.rust.deliver s K) := by
  rw [js_deliver, go_deliver, rust_deliver]
  exact ⟨faithful_deliver fun _ _ _ _ _ => rfl, faithful_drop_iff, faithful_drop_iff,
    fun h => ⟨deliver_drop_eq h, deliver_drop_eq h⟩⟩

/-- A rule that matches only units with a record. -/
def Sample.mustMatch : Rule :=
  { Sample.rule "flags/f/rules/1" (.variant "on") with
    materializationSpec := some ⟨"m", "m", some ⟨true, false⟩⟩ }

def Sample.remembered : AccountResolver :=
  Sample.resolver [Sample.flag "flags/f" [Sample.mustMatch]] [Sample.segment] (by decide)
    Sample.segment_nodup

/-- The record of an assignment without a variant. -/
def Sample.emptyVariant : MaterializationStore :=
  ⟨[⟨"u", "m", "flags/f/rules/1", ""⟩], List.nodup_singleton _⟩

/-- The JS and the Go provider drop the record, and the rule no longer matches. -/
theorem delivery_drops_record :
    ∃ K state calls,
      Sample.remembered.resolveFlags Sample.wire Sample.host
        Sample.remembered.state.flags.values (.deferredMaterializations Sample.request) =
          .ok (.suspended K state, calls) ∧
      ¬ AnswersAlike Sample.natives Sample.emptyVariant K (Port.js.deliver Sample.emptyVariant K) ∧
      ¬ AnswersAlike Sample.natives Sample.emptyVariant K (Port.go.deliver Sample.emptyVariant K) ∧
      Sample.reasons (Sample.remembered.resolveFlags Sample.wire Sample.host
        Sample.remembered.state.flags.values
        (.resume (Port.rust.deliver Sample.emptyVariant K) state)) = [.match] ∧
      Sample.reasons (Sample.remembered.resolveFlags Sample.wire Sample.host
        Sample.remembered.state.flags.values
        (.resume (Port.js.deliver Sample.emptyVariant K) state)) = [.noSegmentMatch] := by
  have hempty : ¬ NoEmptyVariant Sample.emptyVariant [⟨"u", "m", "flags/f/rules/1", ""⟩] := by
    intro h
    exact h _ List.mem_cons_self (by decide) _ List.mem_cons_self rfl rfl
  refine ⟨[⟨"u", "m", "flags/f/rules/1", ""⟩], _, _, rfl, ?_, ?_, rfl, rfl⟩
  · rw [js_deliver, faithful_drop_iff]
    exact hempty
  · rw [go_deliver, faithful_drop_iff]
    exact hempty

end ConfidenceResolver
