import ConfidenceResolver.Support.Kleene
import ConfidenceResolver.Resolver.State

/-!
# Resolver — the materialization context

A resolve runs against a `MaterializationContext`: with no records, where every lookup is
recorded in `toRead` (discovery), with a complete set of records, or without support for
materializations.  New assignments are scheduled in `toWrite`.
-/

namespace ConfidenceResolver

/-- `MaterializationRecords`. -/
inductive MaterializationRecords where
  | discovery
  | unsupported
  | complete (records : List MaterializationRecord)
deriving DecidableEq

/-- `MaterializationContext`. -/
structure MaterializationContext where
  toRead : List MaterializationRecord
  toWrite : List MaterializationRecord
  records : MaterializationRecords
deriving DecidableEq

/-- A computation of the resolver on the materialization context. -/
abbrev ResolveM := Eff MaterializationContext ResolveError

/-- `r` is the record of a unit, a materialization and a rule. -/
def MaterializationRecord.isFor (r : MaterializationRecord)
    (unit materialization rule : String) : Bool :=
  r.unit = unit && r.materialization = materialization && r.rule = rule

/-- The unit, materialization and rule of a record. -/
def MaterializationRecord.key (r : MaterializationRecord) : String × String × String :=
  (r.unit, r.materialization, r.rule)

theorem MaterializationRecord.isFor_iff {r : MaterializationRecord} {u m k : String} :
    r.isFor u m k = true ↔ r.key = (u, m, k) := by
  simp [isFor, key, and_assoc]

/-- The first record of a unit, a materialization and a rule. -/
def findRecord (records : List MaterializationRecord) (unit materialization rule : String) :
    Option MaterializationRecord :=
  records.find? fun r => r.isFor unit materialization rule

namespace MaterializationContext

def discovery : MaterializationContext := ⟨[], [], .discovery⟩

def complete (materializations : List MaterializationRecord) : MaterializationContext :=
  ⟨[], [], .complete materializations⟩

def unsupported : MaterializationContext := ⟨[], [], .unsupported⟩

/-- `record_missing`: insert into `toRead` unless the key is there. -/
def recordMissing (c : MaterializationContext) (unit materialization rule : String) :
    MaterializationContext :=
  if c.toRead.any fun r => r.isFor unit materialization rule then c
  else { c with toRead := c.toRead ++ [⟨unit, materialization, rule, ""⟩] }

/-- `is_unit_in_materialization`. -/
def isUnitInMaterialization (materialization unit : String) : ResolveM Tribool := fun c =>
  match c.records with
  | .complete records =>
      (.ok (some (records.any fun r =>
        decide (r.unit = unit) && decide (r.materialization = materialization))), c)
  | .discovery => (.ok none, c.recordMissing unit materialization "")
  | .unsupported => (.error .materializationsUnsupported, c)

/-- `has_rule_materialization`. -/
def hasRuleMaterialization (materialization unit rule : String) : ResolveM Tribool := fun c =>
  match c.records with
  | .complete records =>
      (.ok (some (records.any fun r => r.isFor unit materialization rule)), c)
  | .discovery => (.ok none, c.recordMissing unit materialization rule)
  | .unsupported => (.error .materializationsUnsupported, c)

/-- `add_to_write`: two variants for one key are an error. -/
def addToWrite (unit materialization rule variant : String) : ResolveM Unit := fun c =>
  if c.records = .unsupported then (.error .materializationsUnsupported, c)
  else if c.toWrite.any fun r => r.isFor unit materialization rule then
    (.error (.internal .duplicateWrite), c)
  else (.ok (), { c with toWrite := c.toWrite ++ [⟨unit, materialization, rule, variant⟩] })

end MaterializationContext

/-! ### Buckets -/

/-- `b` lies in one of the assignment's ranges. -/
def Assignment.covers (a : Assignment) (b : Int) : Bool :=
  a.bucketRanges.any fun range => range.lower ≤ b && b < range.upper

/-- The assignment is of the variant `v`. -/
def Assignment.isVariant (a : Assignment) (v : String) : Bool :=
  a.assignment == some (.variant v)

/-- The key a unit is bucketed by: the second part of the segment's name, and the unit. -/
def bucketKey (segmentName unit : String) : Option String :=
  (split '/' segmentName)[1]?.map fun variantSalt => variantSalt ++ "|" ++ unit

/-- `select_assignment`.  Several assignments of the stored variant are told apart by the unit's
bucket. -/
def selectAssignment (nat : Natives) (records : MaterializationRecords)
    (materialization unit rule : String) (assignments : List Assignment) (segmentName : String)
    (bucketCount : Int) : Option Assignment :=
  match records with
  | .complete records => do
      let record ← findRecord records unit materialization rule
      if record.variant = "" then none
      else
        let matching := assignments.filter (·.isVariant record.variant)
        if matching.length ≤ 1 then matching.head?
        else do
          let key ← bucketKey segmentName unit
          let b ← bucket (nat.murmur3 key) (asU64 bucketCount)
          matching.find? (·.covers (asI32 b))
  | _ => none

/-- `has_only_one_full_variant`. -/
def hasOnlyOneFullVariant (spec : AssignmentSpec) : Bool :=
  match spec.assignments with
  | [a] =>
      match a.bucketRanges with
      | [range] => range.lower == 0 && range.upper == spec.bucketCount
      | _ => false
  | _ => false

end ConfidenceResolver
