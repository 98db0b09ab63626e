import Mathlib.Data.Prod.Lex
import Mathlib.Order.RelClasses
import Mathlib.Data.String.Basic
import ConfidenceResolver.Proto.Flags
import ConfidenceResolver.Resolver.Natives

/-!
# Resolver — the attribute rules (`value.rs`)

An attribute of the evaluation context is converted to the type the criterion's rule compares
with, wrapped into a list, and tested.  Both steps can fail: a string that is not a number where
a number is expected, and a rule the resolver does not recognise.
-/

namespace ConfidenceResolver

/-- Where the code fails with an `ErrorCode`, which is derived from the place in the source. -/
inductive Site where
  | parseNumber
  | accountSalt
  | zeroBuckets
  | variantSalt
  | duplicateWrite
  | stickyVariant
  | assignedVariant
  | resolvedVariant
  | unknownFlag
  | emptyRequest
  | staticRequest
  | missingRequest
  | recursionBound
deriving DecidableEq

/-- `ResolveError`, and the panics of the code, which no caller catches. -/
inductive ResolveError where
  | internal (site : Site)
  | message (text : String)
  | missingMaterializations
  | materializationsUnsupported
  | unrecognizedRule
  | panic
deriving DecidableEq

/-- `evaluate_null_equality`. -/
def evaluateNullEquality (c : AttributeCriterion) (v : Value) : Option Bool :=
  match c.rule with
  | some (.eqRule (some none)) =>
      some (match v with
        | .list values => values.any Value.isNull
        | _ => v.isNull)
  | _ => none

/-! ### The type a rule expects -/

/-- `RangeRule::expected_value_type`. -/
def RangeRule.expectedValueType (r : RangeRule) : Option TargetingKind :=
  match r.start, r.stop with
  | some (.inclusive v), _ | some (.exclusive v), _ => v
  | none, some (.inclusive v) | none, some (.exclusive v) => v
  | none, none => none

/-- `SetRule::expected_value_type`: the type of the first value. -/
def setExpectedValueType (values : List TargetingValue) : Option TargetingKind :=
  values.head?.join

/-- `InnerRule::expected_value_type`. -/
def InnerRule.expectedValueType : InnerRule → Option TargetingKind
  | .eqRule value => value.join
  | .setRule values => setExpectedValueType values
  | .rangeRule range => range.expectedValueType
  | .startsWithRule _ | .endsWithRule _ | .containsRule _ => some (.stringValue "")

/-- `AttributeCriterion::expected_value_type`. -/
def AttributeRule.expectedValueType : AttributeRule → Option TargetingKind
  | .eqRule value => value.join
  | .setRule values => setExpectedValueType values
  | .rangeRule range => range.expectedValueType
  | .anyRule rule | .allRule rule => rule.join.bind InnerRule.expectedValueType
  | .startsWithRule _ | .endsWithRule _ | .containsRule _ => some (.stringValue "")

/-- `expected_value_type`. -/
def expectedValueType (c : AttributeCriterion) : Option TargetingKind :=
  c.rule.bind AttributeRule.expectedValueType

/-! ### Conversion of an attribute -/

/-- `number_to_timestamp`.  A magnitude of 10¹² or more is read as milliseconds. -/
def numberToTimestamp (nat : Natives) (value : Float) : Option Timestamp :=
  if value.isFinite then
    let longValue := value.toInt64
    if longValue.abs ≥ 1000000000000 then nat.fromTimestampMillis longValue
    else nat.fromTimestamp longValue
  else none

/-- `str::split(['T', ' ']).nth(1)`. -/
def timePart (s : String) : Option String :=
  ((s.toList.splitOnP fun c => c == 'T' || c == ' ').map String.ofList)[1]?

/-- `value::from_str`. -/
def timestampFromStr (nat : Natives) (s : String) : Option Timestamp :=
  if s.toList.any (fun c => c == 'T' || c == ' ') then
    (timePart s).bind fun time =>
      if time.toList.any (fun c => c == 'Z' || c == '+' || c == '-') then nat.parseRfc3339 s
      else
        nat.parseDateTime s "%Y-%m-%dT%H:%M:%S"
          <|> nat.parseDateTime s "%Y-%m-%dT%H:%M:%S%.f"
          <|> nat.parseDateTime s "%Y-%m-%d %H:%M:%S"
          <|> nat.parseDateTime s "%Y-%m-%d %H:%M:%S%.f"
  else nat.parseDate s

/-- The string a value that cannot be converted is replaced by. -/
def nullText : TargetingKind := .stringValue "null"

/-- `convert_to_targeting_value` at a number. -/
def convertNumber (nat : Natives) (n : Float) : Option TargetingKind → TargetingKind
  | some (.numberValue _) => .numberValue n
  | some (.stringValue _) => .stringValue (nat.numberToString n)
  | some (.timestampValue _) =>
      match numberToTimestamp nat n with
      | some ts => .timestampValue ts
      | none => nullText
  | _ => nullText

/-- `convert_to_targeting_value` at a string; only a number that does not parse is an error. -/
def convertString (nat : Natives) (s : String) :
    Option TargetingKind → Except ResolveError TargetingKind
  | some (.boolValue _) => .ok (.boolValue (s == "true" || s == "TRUE"))
  | some (.numberValue _) =>
      match nat.parseNumber s with
      | some n => .ok (.numberValue n)
      | none => .error (.internal .parseNumber)
  | some (.stringValue _) => .ok (.stringValue s)
  | some (.timestampValue _) =>
      match timestampFromStr nat s with
      | some ts => .ok (.timestampValue ts)
      | none => .ok nullText
  | some (.versionValue _) => .ok (.versionValue s)
  | _ => .ok nullText

mutual

/-- `convert_to_targeting_value`. -/
def convertToTargetingValue (nat : Natives) (expected : Option TargetingKind) :
    Value → Except ResolveError TargetingKind
  | .unset | .null | .struct _ => .ok nullText
  | .number n => .ok (convertNumber nat n expected)
  | .string s => convertString nat s expected
  | .bool b =>
      match expected with
      | some (.boolValue _) => .ok (.boolValue b)
      | _ => .ok nullText
  | .list values => (convertToTargetingValues nat expected values).map .listValue

/-- `convert_to_targeting_value` on the elements of a list, up to the first that fails. -/
def convertToTargetingValues (nat : Natives) (expected : Option TargetingKind) :
    List Value → Except ResolveError (List TargetingValue)
  | [] => .ok []
  | v :: vs => do
      let k ← convertToTargetingValue nat expected v
      let ks ← convertToTargetingValues nat expected vs
      return some k :: ks

end

mutual

/-- `convert_to_strict_string_operator_list_item`. -/
def strictStringItem : Value → TargetingValue
  | .string s => some (.stringValue s)
  | .list values => some (.listValue (strictStringItems values))
  | _ => none

def strictStringItems : List Value → List TargetingValue
  | [] => []
  | v :: vs => strictStringItem v :: strictStringItems vs

end

/-- `convert_to_strict_string_operator_value`. -/
def convertToStrictStringOperatorValue : Value → TargetingKind
  | .string s => .stringValue s
  | .list values => .listValue (strictStringItems values)
  | _ => .listValue [none]

/-- `uses_strict_string_inner_operator`. -/
def InnerRule.usesStrictString : InnerRule → Bool
  | .startsWithRule _ | .endsWithRule _ | .containsRule _ => true
  | _ => false

/-- `uses_strict_string_operator`. -/
def usesStrictStringOperator (c : AttributeCriterion) : Bool :=
  match c.rule with
  | some (.startsWithRule _) | some (.endsWithRule _) | some (.containsRule _) => true
  | some (.anyRule rule) | some (.allRule rule) => rule.join.any InnerRule.usesStrictString
  | _ => false

/-- `convert_to_targeting_value_for_criterion`. -/
def convertForCriterion (nat : Natives) (v : Value) (c : AttributeCriterion) :
    Except ResolveError TargetingKind :=
  if usesStrictStringOperator c then .ok (convertToStrictStringOperatorValue v)
  else convertToTargetingValue nat (expectedValueType c) v

/-! ### Order -/

/-- `parse::<u64>` of a non-empty string of at most ten ASCII digits. -/
def parseDigits (s : String) : Nat :=
  s.toList.foldl (fun n c => 10 * n + (c.toNat - '0'.toNat)) 0

/-- `(major, minor, patch, tag)`, compared lexicographically. -/
abbrev Version := Nat ×ₗ Nat ×ₗ Nat ×ₗ Nat

def version (major minor patch tag : Nat) : Version :=
  toLex (major, toLex (minor, toLex (patch, tag)))

/-- `parse_version`: the part before the first `-`, as two to four groups of at most ten digits.
A third group of more than three digits is a tag. -/
def parseVersion (s : String) : Option Version :=
  let parts := (split '-' s).head?.elim [] (split '.')
  if s.isEmpty || parts.any (fun p => p.isEmpty || !p.toList.all Char.isDigit) then none
  else if parts.any (fun p => p.length > 10) then none
  else match parts with
    | [major, minor] => some (version (parseDigits major) (parseDigits minor) 0 0)
    | [major, minor, third] =>
        if third.length > 3 then
          some (version (parseDigits major) (parseDigits minor) 0 (parseDigits third))
        else some (version (parseDigits major) (parseDigits minor) (parseDigits third) 0)
    | [major, minor, patch, tag] =>
        some (version (parseDigits major) (parseDigits minor) (parseDigits patch)
          (parseDigits tag))
    | _ => none

/-- The version a `SemanticVersion` is compared as; one that does not parse counts as zero. -/
def versionOrZero (s : String) : Version := (parseVersion s).getD (version 0 0 0 0)

/-- `Ord for Timestamp`: `lt`. -/
def Timestamp.lt (a b : Timestamp) : Bool :=
  a.seconds < b.seconds || (a.seconds == b.seconds && a.nanos < b.nanos)

/-- `Ord for Timestamp`: `lte`. -/
def Timestamp.lte (a b : Timestamp) : Bool :=
  a.seconds < b.seconds || (a.seconds == b.seconds && a.nanos ≤ b.nanos)

/-- `Ord for targeting::Value`: `lt`. -/
def TargetingValue.lt : TargetingValue → TargetingValue → Bool
  | some (.numberValue a), some (.numberValue b) => a < b
  | some (.stringValue a), some (.stringValue b) => a < b
  | some (.timestampValue a), some (.timestampValue b) => a.lt b
  | some (.versionValue a), some (.versionValue b) => versionOrZero a < versionOrZero b
  | _, _ => false

/-- `Ord for targeting::Value`: `lte`. -/
def TargetingValue.lte : TargetingValue → TargetingValue → Bool
  | some (.numberValue a), some (.numberValue b) => a ≤ b
  | some (.stringValue a), some (.stringValue b) => !(b < a)
  | some (.timestampValue a), some (.timestampValue b) => a.lte b
  | some (.versionValue a), some (.versionValue b) => versionOrZero a ≤ versionOrZero b
  | _, _ => false

/-! ### The rules -/

/-- `evaluate_range_rule`. -/
def evaluateRangeRule (r : RangeRule) (v : TargetingValue) : Bool :=
  let afterStart := match r.start with
    | some (.inclusive s) => TargetingValue.lte s v
    | some (.exclusive s) => TargetingValue.lt s v
    | none => true
  let beforeEnd := match r.stop with
    | some (.inclusive e) => TargetingValue.lte v e
    | some (.exclusive e) => TargetingValue.lt v e
    | none => true
  if r.start.isNone && r.stop.isNone then false else afterStart && beforeEnd

/-- `starts_with`, `ends_with` and `contains`: `test` on a string value, else `false`. -/
def stringRule (test : List Char → Bool) : TargetingValue → Bool
  | some (.stringValue s) => test s.toList
  | _ => false

def startsWith (pre : String) : TargetingValue → Bool :=
  stringRule fun s => pre.toList.isPrefixOf s

def endsWith (suffix : String) : TargetingValue → Bool :=
  stringRule fun s => suffix.toList.isSuffixOf s

def contains (substring : String) : TargetingValue → Bool :=
  stringRule fun s => s.tails.any substring.toList.isPrefixOf

/-- `evaluate_inner_rule` on a rule that is set. -/
def InnerRule.evaluate (rule : InnerRule) (v : TargetingValue) : Except ResolveError Bool :=
  match rule with
  | .eqRule (some value) => .ok (v == value)
  | .eqRule none => .error .unrecognizedRule
  | .setRule values => .ok (values.contains v)
  | .rangeRule range => .ok (evaluateRangeRule range v)
  | .startsWithRule value => .ok (startsWith value v)
  | .endsWithRule value => .ok (endsWith value v)
  | .containsRule value => .ok (contains value v)

/-- `evaluate_inner_rule`. -/
def evaluateInnerRule (rule : Option InnerRule) (v : TargetingValue) :
    Except ResolveError Bool :=
  match rule with
  | some rule => rule.evaluate v
  | none => .error .unrecognizedRule

/-- The loop of an `AnyRule`: stops at the first value that satisfies the rule. -/
def evaluateAny (rule : Option InnerRule) : List TargetingValue → Except ResolveError Bool
  | [] => .ok false
  | v :: vs => do if ← evaluateInnerRule rule v then return true else evaluateAny rule vs

/-- The loop of an `AllRule`: stops at the first value that does not satisfy the rule. -/
def evaluateAll (rule : Option InnerRule) : List TargetingValue → Except ResolveError Bool
  | [] => .ok true
  | v :: vs => do if ← evaluateInnerRule rule v then evaluateAll rule vs else return false

/-- `evaluate_criterion`. -/
def evaluateCriterion (c : AttributeCriterion) (wrapped : List TargetingValue) :
    Except ResolveError Bool :=
  match c.rule with
  | some (.eqRule (some value)) => .ok (wrapped.contains value)
  | some (.setRule values) => .ok (wrapped.any values.contains)
  | some (.rangeRule range) => .ok (wrapped.any (evaluateRangeRule range))
  | some (.anyRule (some rule)) => evaluateAny rule wrapped
  | some (.allRule (some rule)) => evaluateAll rule wrapped
  | some (.startsWithRule value) => .ok (wrapped.any (startsWith value))
  | some (.endsWithRule value) => .ok (wrapped.any (endsWith value))
  | some (.containsRule value) => .ok (wrapped.any (contains value))
  | some (.eqRule none) | some (.anyRule none) | some (.allRule none) | none =>
      .error .unrecognizedRule

/-- `list_wrapper`. -/
def listWrapper : TargetingKind → List TargetingValue
  | .listValue values => values
  | k => [some k]

/-- An `AnyRule` or an `AllRule`. -/
def AttributeCriterion.isCollectionRule (c : AttributeCriterion) : Bool :=
  match c.rule with
  | some (.anyRule _) | some (.allRule _) => true
  | _ => false

/-- The attribute branch of the criterion evaluator in `targeting_match`: a null or missing
attribute is the empty list for a collection rule. -/
def evaluateAttribute (nat : Natives) (c : AttributeCriterion) (v : Value) :
    Except ResolveError Bool :=
  match evaluateNullEquality c v with
  | some matched => .ok matched
  | none =>
      if c.isCollectionRule && v.isNull then evaluateCriterion c []
      else do
        let converted ← convertForCriterion nat v c
        evaluateCriterion c (listWrapper converted)

end ConfidenceResolver
