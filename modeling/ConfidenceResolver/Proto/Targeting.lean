import ConfidenceResolver.Proto.Values

/-!
# Proto — targeting

`confidence.flags.types.v1`: the criteria a segment's targeting is built from, and the Boolean
expression over them.
-/

namespace ConfidenceResolver

/-- `targeting::value::Value`, the `oneof` inside `Targeting.Value`. -/
inductive TargetingKind where
  | boolValue (b : Bool)
  | numberValue (n : Float)
  | stringValue (s : String)
  | timestampValue (t : Timestamp)
  | versionValue (version : String)
  | listValue (values : List (Option TargetingKind))

/-- `Targeting.Value`. -/
abbrev TargetingValue := Option TargetingKind

mutual

/-- The derived `PartialEq`: numbers compare as IEEE doubles, so a NaN is not equal to itself. -/
def TargetingKind.beq : TargetingKind → TargetingKind → Bool
  | .boolValue a, .boolValue b => a == b
  | .numberValue a, .numberValue b => a == b
  | .stringValue a, .stringValue b => a == b
  | .timestampValue a, .timestampValue b => a == b
  | .versionValue a, .versionValue b => a == b
  | .listValue as, .listValue bs => TargetingKind.beqList as bs
  | _, _ => false

def TargetingKind.beqList : List (Option TargetingKind) → List (Option TargetingKind) → Bool
  | [], [] => true
  | a :: as, b :: bs => TargetingKind.beqValue a b && TargetingKind.beqList as bs
  | _, _ => false

def TargetingKind.beqValue : Option TargetingKind → Option TargetingKind → Bool
  | none, none => true
  | some a, some b => TargetingKind.beq a b
  | _, _ => false

end

instance : BEq TargetingKind := ⟨TargetingKind.beq⟩

/-- One end of a `RangeRule`. -/
inductive Bound where
  | inclusive (v : TargetingValue)
  | exclusive (v : TargetingValue)

/-- `RangeRule`. -/
structure RangeRule where
  start : Option Bound
  stop : Option Bound

/-- `inner_rule::Rule`. -/
inductive InnerRule where
  | eqRule (value : Option TargetingValue)
  | setRule (values : List TargetingValue)
  | rangeRule (range : RangeRule)
  | startsWithRule (value : String)
  | endsWithRule (value : String)
  | containsRule (value : String)

/-- `attribute_criterion::Rule`.  The rule of an `AnyRule` or `AllRule` is a message that may be
absent and whose own `oneof` may be unset. -/
inductive AttributeRule where
  | eqRule (value : Option TargetingValue)
  | setRule (values : List TargetingValue)
  | rangeRule (range : RangeRule)
  | anyRule (rule : Option (Option InnerRule))
  | allRule (rule : Option (Option InnerRule))
  | startsWithRule (value : String)
  | endsWithRule (value : String)
  | containsRule (value : String)

/-- `AttributeCriterion`. -/
structure AttributeCriterion where
  attributeName : String
  rule : Option AttributeRule

/-- `criterion::Criterion`. -/
inductive Criterion where
  | attribute (c : AttributeCriterion)
  | segment (segment : String)
  | materializedSegment (materializedSegment : String)

/-- `Expression`, with `unset` for `expression: None`. -/
inductive Expression where
  | unset
  | ref (id : String)
  | not (e : Expression)
  | and (operands : List Expression)
  | or (operands : List Expression)

/-- `Targeting`. -/
structure Targeting where
  criteria : List (String × Option Criterion)
  expression : Option Expression

end ConfidenceResolver
