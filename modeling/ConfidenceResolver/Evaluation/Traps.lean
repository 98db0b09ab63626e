import ConfidenceResolver.Evaluation.Failures
import ConfidenceResolver.Materialization.SuspendResume
import ConfidenceResolver.Materialization.Writes
import ConfidenceResolver.Resolver.FromProto
import ConfidenceResolver.Resolver.GetResolver

/-!
# Evaluation — traps

The operations of an evaluation that can trap, translated once more with the trap as a result:
a remainder by zero, an overflowing integer operation, an index out of range.

* `Checked.bucket_eq`, `Checked.bitAt_eq`, `parseDigits_fits`: these never trap.
* `Checked.mightContain_cases`: a bloom filter with hash functions and without bits.
* `Checked.convertToTargetingValue_eq`: a number that saturates, where a timestamp is expected.
* `resolveFlags_ne_panic`: a resolve whose criteria are all `Safe` does not panic.
-/

namespace ConfidenceResolver

inductive Trap where
  | remainderByZero
  | overflow
  | outOfRange
deriving DecidableEq

/-- The result of an operation that may trap. -/
abbrev Checked : Type → Type := Except Trap

/-- A filter that has bits, or asks for none. -/
def BloomFilter.Queryable (f : BloomFilter) : Prop := f.numHashFunctions = 0 ∨ f.numBits ≠ 0

namespace Checked

/-! ### The partial operations -/

/-- `%` on a `u64`. -/
def rem (a b : Nat) : Checked Nat := if b = 0 then .error .remainderByZero else .ok (a % b)

/-- `i64::abs`. -/
def absI64 (n : Int64) : Checked Int64 :=
  if n = Int64.minValue then .error .overflow else .ok n.abs

/-- `bits[i]`. -/
def index (bits : List Bool) (i : Nat) : Checked Bool :=
  match bits[i]? with
  | some bit => .ok bit
  | none => .error .outOfRange

/-! ### Buckets and bitsets -/

/-- `bucket`. -/
def bucket (hash : BitVec 128) (buckets : Nat) : Checked (Option Nat) :=
  if buckets = 0 then .ok none else (rem ((hash.setWidth 64).toNat >>> 4) buckets).map some

theorem bucket_eq (hash : BitVec 128) (buckets : Nat) :
    bucket hash buckets = .ok (ConfidenceResolver.bucket hash buckets) := by
  rw [bucket, ConfidenceResolver.bucket]
  split
  · rfl
  · rename_i h
    rw [rem, if_neg h]
    rfl

/-- The bit of a unit in `segment_match_internal`. -/
def bitAt (bitset : List Bool) (unitHash : Nat) : Checked Bool :=
  if bitset.length ≤ unitHash then .ok false else index bitset unitHash

theorem bitAt_eq (bitset : List Bool) (unitHash : Nat) :
    bitAt bitset unitHash = .ok (bitset[unitHash]?.getD false) := by
  rw [bitAt, index]
  split
  · rename_i h
    rw [List.getElem?_eq_none h]
    rfl
  · rename_i h
    rw [List.getElem?_eq_getElem (not_le.mp h)]
    rfl

/-! ### Bloom filters -/

/-- The loop of `might_contain`. -/
def probe (f : BloomFilter) (h2 : BitVec 64) : Nat → BitVec 64 → Checked Bool
  | 0, _ => .ok true
  | k + 1, combined => do
      let bitIndex ← rem (combined.setWidth 63).toNat f.numBits
      if f.bits[bitIndex]? = some true then probe f h2 k (combined + h2) else return false

/-- `might_contain`. -/
def mightContain (f : BloomFilter) (nat : Natives) (key : String) : Checked Bool :=
  let hash128 := nat.murmur3 key
  probe f ((hash128 >>> 64).setWidth 64) f.numHashFunctions (hash128.setWidth 64)

theorem probe_of_numBits {f : BloomFilter} (h : f.numBits ≠ 0) (h2 : BitVec 64) :
    ∀ (k : Nat) (combined : BitVec 64), ∃ b, f.probe h2 k combined = some b ∧
      probe f h2 k combined = .ok b
  | 0, _ => ⟨true, rfl, rfl⟩
  | k + 1, combined => by
      rw [BloomFilter.probe, probe, rem, if_neg h, if_neg h]
      by_cases hbit : f.bits[(combined.setWidth 63).toNat % f.numBits]? = some true
      · obtain ⟨b, hb, hb'⟩ := probe_of_numBits h h2 k (combined + h2)
        exact ⟨b, (if_pos hbit).trans hb, (if_pos hbit).trans hb'⟩
      · exact ⟨false, if_neg hbit, if_neg hbit⟩

/-- What a query does, for every key. -/
theorem mightContain_cases (f : BloomFilter) (nat : Natives) (key : String) :
    (f.Queryable ∧ ∃ b, f.mightContain nat key = some b ∧ mightContain f nat key = .ok b) ∨
    (¬ f.Queryable ∧ f.mightContain nat key = none ∧
      mightContain f nat key = .error .remainderByZero) := by
  rw [BloomFilter.Queryable, BloomFilter.mightContain, mightContain]
  by_cases hbits : f.numBits = 0
  · rcases hk : f.numHashFunctions with _ | k
    · exact .inl ⟨.inl rfl, true, rfl, rfl⟩
    · refine .inr ⟨by simp [hbits], ?_, ?_⟩
      · rw [BloomFilter.probe, if_pos hbits]
      · rw [probe, rem, if_pos hbits]
        rfl
  · exact .inl ⟨.inr hbits, probe_of_numBits hbits _ _ _⟩

end Checked

/-! ### Versions -/

theorem foldl_digits_lt {cs : List Char} (h : cs.all Char.isDigit) : ∀ n,
    cs.foldl (fun n c => 10 * n + (c.toNat - '0'.toNat)) n < (n + 1) * 10 ^ cs.length := by
  induction cs with
  | nil => exact fun n => by simp
  | cons c cs ih =>
      intro n
      obtain ⟨hc, hcs⟩ := Bool.and_eq_true_iff.mp (List.all_cons.symm.trans h)
      have hdigit : c.toNat - '0'.toNat ≤ 9 := by
        have hle : c.toNat ≤ '9'.toNat := (Bool.and_eq_true_iff.mp hc).2 |> of_decide_eq_true
        exact Nat.sub_le_sub_right hle _
      calc (c :: cs).foldl (fun n c => 10 * n + (c.toNat - '0'.toNat)) n
          < (10 * n + (c.toNat - '0'.toNat) + 1) * 10 ^ cs.length := ih hcs _
        _ ≤ (10 * (n + 1)) * 10 ^ cs.length := Nat.mul_le_mul_right _ (by omega)
        _ = (n + 1) * 10 ^ (c :: cs).length := by
          rw [List.length_cons, Nat.pow_succ', Nat.mul_comm 10, Nat.mul_assoc]

/-- A group of a version is at most ten digits, so its `parse::<u64>` succeeds. -/
theorem parseDigits_fits {group : String} (hlen : group.length ≤ 10)
    (hdigits : group.toList.all Char.isDigit) : parseDigits group < 2 ^ 64 := by
  have hlt := foldl_digits_lt hdigits 0
  rw [zero_add, one_mul, String.length_toList] at hlt
  calc parseDigits group < 10 ^ group.length := hlt
    _ ≤ 10 ^ 10 := Nat.pow_le_pow_right (Nat.succ_pos 9) hlen
    _ ≤ 2 ^ 64 := by decide

namespace Checked

/-! ### Timestamps -/

/-- `number_to_timestamp`. -/
def numberToTimestamp (nat : Natives) (value : Float) : Checked (Option Timestamp) :=
  if value.isFinite then do
    let longValue := value.toInt64
    let magnitude ← absI64 longValue
    return if magnitude ≥ 1000000000000 then nat.fromTimestampMillis longValue
      else nat.fromTimestamp longValue
  else .ok none

/-- A finite number that `as i64` takes to `i64::MIN`: one of at most -2⁶³. -/
def saturates (value : Float) : Bool := value.isFinite && value.toInt64 == Int64.minValue

theorem numberToTimestamp_eq (nat : Natives) (value : Float) :
    numberToTimestamp nat value =
      if saturates value then .error .overflow
      else .ok (ConfidenceResolver.numberToTimestamp nat value) := by
  rw [numberToTimestamp, ConfidenceResolver.numberToTimestamp, saturates]
  by_cases hfinite : value.isFinite
  · rw [if_pos hfinite, if_pos hfinite, hfinite, Bool.true_and]
    by_cases hmin : value.toInt64 = Int64.minValue
    · have habs : absI64 value.toInt64 = .error .overflow := if_pos hmin
      rw [if_pos (beq_iff_eq.mpr hmin)]
      dsimp only
      rw [habs]
      rfl
    · have habs : absI64 value.toInt64 = .ok value.toInt64.abs := if_neg hmin
      rw [if_neg (fun h => hmin (beq_iff_eq.mp h))]
      dsimp only
      rw [habs]
      rfl
  · rw [if_neg hfinite, if_neg hfinite, if_neg (fun h => hfinite (Bool.and_eq_true_iff.mp h).1)]

/-- `convert_to_targeting_value` at a number. -/
def convertNumber (nat : Natives) (n : Float) : Option TargetingKind → Checked TargetingKind
  | some (.timestampValue _) =>
      (numberToTimestamp nat n).map fun ts => ts.elim nullText .timestampValue
  | expected => .ok (ConfidenceResolver.convertNumber nat n expected)

mutual

/-- `convert_to_targeting_value`. -/
def convertToTargetingValue (nat : Natives) (expected : Option TargetingKind) :
    Value → Checked (Except ResolveError TargetingKind)
  | .unset | .null | .struct _ => .ok (.ok nullText)
  | .number n => (convertNumber nat n expected).map .ok
  | .string s => .ok (convertString nat s expected)
  | .bool b => .ok (ConfidenceResolver.convertToTargetingValue nat expected (.bool b))
  | .list values =>
      (convertToTargetingValues nat expected values).map fun r => r.map .listValue

/-- `convert_to_targeting_value` on the elements of a list, up to the first that fails. -/
def convertToTargetingValues (nat : Natives) (expected : Option TargetingKind) :
    List Value → Checked (Except ResolveError (List TargetingValue))
  | [] => .ok (.ok [])
  | v :: vs => do
      match ← convertToTargetingValue nat expected v with
      | .error e => return .error e
      | .ok k =>
          let rest ← convertToTargetingValues nat expected vs
          return rest.map (some k :: ·)

end

mutual

/-- A number that saturates, possibly within lists. -/
def hasSaturating : Value → Bool
  | .number n => saturates n
  | .list values => anySaturating values
  | _ => false

def anySaturating : List Value → Bool
  | [] => false
  | v :: vs => hasSaturating v || anySaturating vs

end

/-- A timestamp is expected. -/
def expectsTimestamp : Option TargetingKind → Bool
  | some (.timestampValue _) => true
  | _ => false

theorem convertNumber_eq (nat : Natives) (n : Float) (expected : Option TargetingKind) :
    convertNumber nat n expected =
      if expectsTimestamp expected && saturates n then .error .overflow
      else .ok (ConfidenceResolver.convertNumber nat n expected) := by
  match expected with
  | some (.timestampValue ts) =>
      rw [convertNumber, numberToTimestamp_eq, ConfidenceResolver.convertNumber]
      by_cases h : saturates n
      · simp [h, expectsTimestamp]
        rfl
      · simp only [h, Bool.and_false, Bool.false_eq_true, if_false]
        rcases ConfidenceResolver.numberToTimestamp nat n with _ | ts <;> rfl
  | none | some (.boolValue _) | some (.numberValue _) | some (.stringValue _)
  | some (.versionValue _) | some (.listValue _) => rfl

mutual

/-- Where a timestamp is expected, no conversion fails. -/
theorem convert_timestamp (nat : Natives) (ts : Timestamp) : ∀ v, ∃ k,
    ConfidenceResolver.convertToTargetingValue nat (some (.timestampValue ts)) v = .ok k
  | .unset | .null | .struct _ | .bool _ => ⟨_, rfl⟩
  | .number _ => ⟨_, rfl⟩
  | .string s => by
      rw [ConfidenceResolver.convertToTargetingValue, convertString]
      rcases timestampFromStr nat s with _ | _ <;> exact ⟨_, rfl⟩
  | .list vs => by
      obtain ⟨ks, hks⟩ := convert_timestamps nat ts vs
      rw [ConfidenceResolver.convertToTargetingValue, hks]
      exact ⟨_, rfl⟩

theorem convert_timestamps (nat : Natives) (ts : Timestamp) : ∀ vs, ∃ ks,
    ConfidenceResolver.convertToTargetingValues nat (some (.timestampValue ts)) vs = .ok ks
  | [] => ⟨[], rfl⟩
  | v :: vs => by
      obtain ⟨k, hk⟩ := convert_timestamp nat ts v
      obtain ⟨ks, hks⟩ := convert_timestamps nat ts vs
      rw [ConfidenceResolver.convertToTargetingValues, hk, hks]
      exact ⟨_, rfl⟩

end

theorem expectsTimestamp_iff {expected : Option TargetingKind} :
    expectsTimestamp expected ↔ ∃ ts, expected = some (.timestampValue ts) := by
  match expected with
  | some (.timestampValue ts) => exact iff_of_true rfl ⟨ts, rfl⟩
  | none | some (.boolValue _) | some (.numberValue _) | some (.stringValue _)
  | some (.versionValue _) | some (.listValue _) =>
      exact iff_of_false Bool.false_ne_true (by simp)

mutual

theorem convertToTargetingValue_eq (nat : Natives) (expected : Option TargetingKind) :
    ∀ v, convertToTargetingValue nat expected v =
      if expectsTimestamp expected && hasSaturating v then .error .overflow
      else .ok (ConfidenceResolver.convertToTargetingValue nat expected v)
  | .unset | .null | .struct _ | .string _ => by
      simp only [convertToTargetingValue, hasSaturating, Bool.and_false, Bool.false_eq_true,
        if_false, ConfidenceResolver.convertToTargetingValue]
  | .bool b => by
      rw [convertToTargetingValue, hasSaturating, Bool.and_false, if_neg Bool.false_ne_true]
      all_goals simp
  | .number n => by
      rw [convertToTargetingValue, convertNumber_eq, hasSaturating,
        ConfidenceResolver.convertToTargetingValue]
      split <;> rfl
  | .list values => by
      rw [convertToTargetingValue, convertToTargetingValues_eq, hasSaturating,
        ConfidenceResolver.convertToTargetingValue]
      split <;> rfl

theorem convertToTargetingValues_eq (nat : Natives) (expected : Option TargetingKind) :
    ∀ vs, convertToTargetingValues nat expected vs =
      if expectsTimestamp expected && anySaturating vs then .error .overflow
      else .ok (ConfidenceResolver.convertToTargetingValues nat expected vs)
  | [] => by
      rw [convertToTargetingValues, anySaturating, Bool.and_false, if_neg Bool.false_ne_true,
        ConfidenceResolver.convertToTargetingValues]
  | v :: vs => by
      rw [convertToTargetingValues, convertToTargetingValue_eq nat expected v,
        convertToTargetingValues_eq nat expected vs, anySaturating,
        ConfidenceResolver.convertToTargetingValues]
      by_cases hts : expectsTimestamp expected
      · obtain ⟨k, hk⟩ : ∃ k, ConfidenceResolver.convertToTargetingValue nat expected v = .ok k := by
          obtain ⟨ts, rfl⟩ := expectsTimestamp_iff.mp hts
          exact convert_timestamp nat ts v
        rw [hts, Bool.true_and, Bool.true_and, Bool.true_and, hk]
        by_cases hv : hasSaturating v
        · rw [if_pos hv, if_pos (Bool.or_eq_true_iff.mpr (.inl hv))]
          rfl
        · by_cases hvs : anySaturating vs
          · rw [if_neg hv, if_pos hvs, if_pos (Bool.or_eq_true_iff.mpr (.inr hvs))]
            rfl
          · rw [if_neg hv, if_neg hvs, if_neg (by simp [hv, hvs])]
            rcases ConfidenceResolver.convertToTargetingValues nat expected vs with e | ks <;> rfl
      · simp only [hts, Bool.false_and, Bool.false_eq_true, if_false]
        rcases ConfidenceResolver.convertToTargetingValue nat expected v with e | k
        · rfl
        · rcases ConfidenceResolver.convertToTargetingValues nat expected vs with e | ks <;> rfl

end

/-! ### Criteria -/

/-- The attribute branch of the criterion evaluator. -/
def evaluateAttribute (nat : Natives) (c : AttributeCriterion) (v : Value) :
    Checked (Except ResolveError Bool) :=
  match evaluateNullEquality c v with
  | some matched => .ok (.ok matched)
  | none =>
      if c.isCollectionRule && v.isNull then .ok (evaluateCriterion c [])
      else if usesStrictStringOperator c then
        .ok (evaluateCriterion c (listWrapper (convertToStrictStringOperatorValue v)))
      else (convertToTargetingValue nat (expectedValueType c) v).map fun converted =>
        converted.bind fun k => evaluateCriterion c (listWrapper k)

/-- Only a rule that converts to a timestamp expects one. -/
theorem plain_of_expectsTimestamp {c : AttributeCriterion}
    (h : expectsTimestamp (expectedValueType c)) (v : Value) :
    evaluateNullEquality c v = none ∧ usesStrictStringOperator c = false := by
  obtain ⟨name, rule⟩ := c
  rcases rule with _ | ⟨_ | _ | value⟩ | _ | _ | ⟨_ | _ | rule⟩ | ⟨_ | _ | rule⟩ | _ | _ | _
  all_goals first
    | exact ⟨rfl, rfl⟩
    | exact absurd h Bool.false_ne_true
    | cases rule <;> first | exact ⟨rfl, rfl⟩ | exact absurd h Bool.false_ne_true

theorem isNull_of_hasSaturating {v : Value} (h : hasSaturating v) : v.isNull = false := by
  cases v with
  | unset | null => exact absurd h Bool.false_ne_true
  | _ => rfl

/-- An attribute is read as the model reads it, or overflows. -/
theorem evaluateAttribute_eq (nat : Natives) (c : AttributeCriterion) (v : Value) :
    evaluateAttribute nat c v =
      if expectsTimestamp (expectedValueType c) && hasSaturating v then .error .overflow
      else .ok (ConfidenceResolver.evaluateAttribute nat c v) := by
  by_cases htrap : expectsTimestamp (expectedValueType c) && hasSaturating v
  · obtain ⟨hts, hsat⟩ := Bool.and_eq_true_iff.mp htrap
    obtain ⟨hnull, hstrict⟩ := plain_of_expectsTimestamp hts v
    rw [evaluateAttribute, hnull, isNull_of_hasSaturating hsat, hstrict,
      convertToTargetingValue_eq, if_pos htrap, if_pos htrap, Bool.and_false]
    rfl
  · rw [evaluateAttribute, ConfidenceResolver.evaluateAttribute, if_neg htrap,
      convertToTargetingValue_eq, if_neg htrap, convertForCriterion]
    cases evaluateNullEquality c v with
    | some matched => rfl
    | none =>
        by_cases hempty : c.isCollectionRule && v.isNull
        · simp only [hempty, if_true]
        · by_cases hstrict : usesStrictStringOperator c
          · simp only [hempty, hstrict, Bool.false_eq_true, if_false, if_true]
            rfl
          · simp only [hempty, hstrict, Bool.false_eq_true, if_false]
            rfl

/-- What the evaluator does at one criterion, for a unit.  A referenced segment is evaluated
through its own criteria. -/
def evaluateAt (r : AccountResolver) (unit : Option String) : Criterion → Checked Unit
  | .attribute c =>
      (evaluateAttribute r.natives c (r.getAttributeValue c.attributeName)).map fun _ => ()
  | .segment _ => .ok ()
  | .materializedSegment m =>
      match unit, r.state.bloomFilters.lookup m with
      | some u, some bf => (mightContain bf r.natives u).map fun _ => ()
      | _, _ => .ok ()

end Checked

/-! ### Safe criteria -/

open Checked in
/-- A bloom filter that can be queried; no number that saturates where a timestamp is expected. -/
def AccountResolver.Safe (r : AccountResolver) : Criterion → Prop
  | .attribute c => ¬ (expectsTimestamp (expectedValueType c) ∧
      hasSaturating (r.getAttributeValue c.attributeName))
  | .segment _ => True
  | .materializedSegment m => ∀ bf, r.state.bloomFilters.lookup m = some bf → bf.Queryable

/-- **Safe criteria are those that trap for no unit.** -/
theorem safe_iff {r : AccountResolver} {criterion : Criterion} :
    r.Safe criterion ↔ ∀ unit, Checked.evaluateAt r unit criterion = .ok () := by
  match criterion with
  | .attribute c =>
      simp only [AccountResolver.Safe, Checked.evaluateAt, Checked.evaluateAttribute_eq,
        forall_const, Bool.and_eq_true]
      split
      · rename_i h
        exact iff_of_false (not_not.mpr h) (ok_ne_error ·.symm)
      · rename_i h
        exact iff_of_true h rfl
  | .segment name => exact iff_of_true trivial fun _ => rfl
  | .materializedSegment m =>
      simp only [AccountResolver.Safe, Checked.evaluateAt]
      rcases r.state.bloomFilters.lookup m with _ | bf
      · exact iff_of_true (by simp) fun unit => by cases unit <;> rfl
      · constructor
        · intro h unit
          cases unit with
          | none => rfl
          | some u =>
              rcases Checked.mightContain_cases bf r.natives u with ⟨-, b, -, hb⟩ | ⟨hq, -⟩
              · dsimp only
                rw [hb]
                rfl
              · exact absurd (h bf rfl) hq
        · rintro h bf' heq
          cases heq
          rcases Checked.mightContain_cases bf r.natives "" with ⟨hq, -⟩ | ⟨-, -, htrap⟩
          · exact hq
          · have hrun := h (some "")
            dsimp only at hrun
            rw [htrap] at hrun
            exact absurd hrun.symm ok_ne_error

/-- Every criterion of a segment of the state is safe. -/
def AccountResolver.CriteriaSafe (r : AccountResolver) : Prop :=
  ∀ a ∈ r.state.segments.values, ∀ t, a.targeting = some t →
    ∀ id criterion, t.criteria.lookup id = some (some criterion) → r.Safe criterion

/-! ### A resolve without a trap -/

section Expression

variable {σ ε : Type} {e : ε} {criterionEvaluator : String → Test σ ε}

mutual

theorem evaluateExpression_avoids (h : ∀ id, Eff.Avoids e (criterionEvaluator id)) :
    ∀ ex, Eff.Avoids e (evaluateExpression criterionEvaluator ex)
  | .unset => by rw [evaluateExpression]; exact Test.avoids_const false
  | .ref id => by rw [evaluateExpression]; exact h id
  | .not ex => by rw [evaluateExpression]; exact Test.avoids_not (evaluateExpression_avoids h ex)
  | .and ops => by rw [evaluateExpression]; exact evaluateAndOperands_avoids h ops
  | .or ops => by rw [evaluateExpression]; exact evaluateOrOperands_avoids h ops

theorem evaluateAndOperands_avoids (h : ∀ id, Eff.Avoids e (criterionEvaluator id)) :
    ∀ ops, Eff.Avoids e (evaluateAndOperands criterionEvaluator ops false)
  | [] => by rw [evaluateAndOperands]; exact Test.avoids_const true
  | op :: ops => by
      rw [evaluateAndOperands_cons]
      exact Test.avoids_and (evaluateExpression_avoids h op) (evaluateAndOperands_avoids h ops)

theorem evaluateOrOperands_avoids (h : ∀ id, Eff.Avoids e (criterionEvaluator id)) :
    ∀ ops, Eff.Avoids e (evaluateOrOperands criterionEvaluator ops false)
  | [] => by rw [evaluateOrOperands]; exact Test.avoids_const false
  | op :: ops => by
      rw [evaluateOrOperands_cons]
      exact Test.avoids_or (evaluateExpression_avoids h op) (evaluateOrOperands_avoids h ops)

end

end Expression

namespace AccountResolver

variable {r : AccountResolver} {unit : Option String}

theorem materializedSegmentMatch_avoids {m : String} (h : r.Safe (.materializedSegment m)) :
    Eff.Avoids .panic (r.materializedSegmentMatch unit m) := by
  rw [materializedSegmentMatch.eq_def]
  split
  · exact Test.avoids_const false
  · rename_i u
    split
    · rename_i bf hbf
      rcases Checked.mightContain_cases bf r.natives u with ⟨-, b, hb, -⟩ | ⟨hq, -⟩
      · rw [hb]
        exact Test.avoids_const b
      · exact absurd (h bf hbf) hq
    · exact foreign_panic.isUnitInMaterialization _ _

theorem criterionEvaluator_avoids {t : Targeting}
    (hsafe : ∀ id criterion, t.criteria.lookup id = some (some criterion) → r.Safe criterion)
    {self : Segment → List String → ResolveM Tribool} {visited : List String}
    (hself : ∀ b ∈ r.state.segments.values, Eff.Avoids .panic (self b visited)) (id : String) :
    Eff.Avoids .panic (r.criterionEvaluator unit self t visited id) := by
  rw [criterionEvaluator.eq_def]
  split
  · refine .lift fun hfails => ?_
    rcases hrun : evaluateAttribute r.natives _ _ with e | b <;> rw [hrun] at hfails
    · cases hfails
      rcases evaluateAttribute_fails hrun with h | h <;> cases h
    · exact absurd hfails ok_ne_error
  · split
    · rename_i hb
      exact hself _ (NamedMap.get_some hb).1
    · exact Test.avoids_const false
  · rename_i hm
    exact materializedSegmentMatch_avoids (hsafe _ _ hm)
  · exact Test.avoids_const false

theorem targetingMatch_avoids (hr : r.CriteriaSafe) {a : Segment}
    (ha : a ∈ r.state.segments.values) {self : Segment → List String → ResolveM Tribool}
    {visited : List String}
    (hself : ∀ b ∈ r.state.segments.values, Eff.Avoids .panic (self b visited)) :
    Eff.Avoids .panic (r.targetingMatch unit self a visited) := by
  rw [targetingMatch.eq_def]
  split
  · exact Test.avoids_const true
  · rename_i t ht
    split
    · exact Test.avoids_const true
    · exact evaluateExpression_avoids (criterionEvaluator_avoids (hr a ha t ht) hself) _

theorem bitsetMatch_avoids (a : Segment) : Eff.Avoids .panic (r.bitsetMatch unit a) := by
  rw [bitsetMatch.eq_def]
  split
  · exact Test.avoids_const true
  · split
    · exact Test.avoids_const _
    · split
      · exact .throw (by decide)
      · split
        · exact .throw (by decide)
        · exact Test.avoids_const _

theorem segmentMatchInternal_avoids (hr : r.CriteriaSafe) (n : Nat) : ∀ {a : Segment},
    a ∈ r.state.segments.values → ∀ visited,
      Eff.Avoids .panic (r.segmentMatchInternal unit n a visited) := by
  induction n with
  | zero =>
      intro a ha visited
      rw [segmentMatchInternal]
      split
      · exact Test.avoids_const false
      · exact .throw (by decide)
  | succ n ih =>
      intro a ha visited
      rw [segmentMatchInternal]
      split
      · exact Test.avoids_const false
      · exact Test.avoids_and (targetingMatch_avoids hr ha fun b hb => ih hb _)
          (bitsetMatch_avoids a)

theorem segmentsAvoid_panic (hr : r.CriteriaSafe) : r.SegmentsAvoid .panic := fun _ _ ha =>
  ⟨segmentMatchInternal_avoids hr _ ha _,
    targetingMatch_avoids hr ha fun _ hb => segmentMatchInternal_avoids hr _ hb _⟩

theorem resolveEach_avoids (hr : r.CriteriaSafe) (flags : List Flag) :
    Eff.Avoids .panic (r.resolveEach flags) := by
  induction flags with
  | nil => exact .pure _
  | cons flag flags ih =>
      intro c
      have hflag := resolveFlag_avoids foreign_panic (segmentsAvoid_panic hr) flag c
      rcases hrun : r.resolveFlag flag c with ⟨e | value, c'⟩
      · rw [hrun] at hflag
        by_cases hmissing : e = .missingMaterializations
        · rw [resolveEach_cons_missing (hmissing ▸ hrun)]
          exact ih _
        · rw [resolveEach_cons_fails hmissing hrun]
          exact fun h => hflag (congrArg Except.error (Except.error.inj h))
      · rw [resolveEach_cons_ok hrun]
        exact ih.bind (fun _ => .pure _) _

theorem tooManyFlags_ne_resolve {count : Nat} {e : ResolveError} :
    ProcessError.tooManyFlags count ≠ .resolve e := by
  simp

theorem internal_ne_resolve {site : Site} {e : ResolveError} :
    ProcessError.internal site ≠ .resolve e := by
  simp

theorem resolvePass_ne_panic (hr : r.CriteriaSafe) {Bytes : Type} {wire : Wire Bytes}
    {host : Host Bytes} {visit : List Flag} {request : ResolveFlagsRequest}
    {state : ResolveProcessState} {c : MaterializationContext} :
    r.resolvePass wire host visit request state c ≠ .error (.resolve .panic) := by
  rw [resolvePass]
  dsimp only
  split
  · exact fun h => tooManyFlags_ne_resolve (Except.error.inj h)
  · have heach := resolveEach_avoids hr (r.flagsToResolve visit request state.resolvedFlags) c
    split
    · rename_i hrun
      rw [hrun] at heach
      exact fun h => heach (congrArg Except.error (ProcessError.resolve.inj (Except.error.inj h)))
    · split
      · intro h
        rcases hrespond : r.respond host request _ with e | ⟨response, calls⟩ <;>
          rw [hrespond] at h
        · exact respond_error hrespond _ (Except.error.inj h)
        · exact absurd h ok_ne_error
      · exact ok_ne_error

/-- **A resolve whose criteria are safe does not panic.** -/
theorem resolveFlags_ne_panic (hr : r.CriteriaSafe) {Bytes : Type} (wire : Wire Bytes)
    (host : Host Bytes) (visit : List Flag) (request : ResolveProcessRequest Bytes) :
    r.resolveFlags wire host visit request ≠ .error (.resolve .panic) := by
  rw [resolveFlags]
  split
  · rename_i e hstart
    intro h
    obtain rfl := Except.error.inj h
    rw [start.eq_def] at hstart
    split at hstart
    all_goals first
      | cases hstart
      | split at hstart <;> cases hstart
  · split
    · exact fun h => internal_ne_resolve (Except.error.inj h)
    · exact resolvePass_ne_panic hr

end AccountResolver

/-! ### The secret of a request -/

/-- A character of the text starts after `n` bytes, or the text ends there. -/
def CutAt (n : Nat) (cs : List Char) : Prop :=
  ∃ front, front <+: cs ∧ (front.map Char.utf8Size).sum = n

theorem cutAt_zero (cs : List Char) : CutAt 0 cs := ⟨[], List.nil_prefix, rfl⟩

theorem not_cutAt_nil (n : Nat) : ¬ CutAt (n + 1) [] := by
  rintro ⟨front, hfront, hsum⟩
  rw [List.prefix_nil.mp hfront] at hsum
  exact absurd hsum.symm (Nat.succ_ne_zero n)

theorem cutAt_cons {n : Nat} {c : Char} {cs : List Char} :
    CutAt (n + 1) (c :: cs) ↔ c.utf8Size ≤ n + 1 ∧ CutAt (n + 1 - c.utf8Size) cs := by
  constructor
  · rintro ⟨_ | ⟨d, front⟩, hfront, hsum⟩
    · exact absurd hsum.symm (Nat.succ_ne_zero n)
    · obtain ⟨rfl, hrest⟩ := List.cons_prefix_cons.mp hfront
      rw [List.map_cons, List.sum_cons] at hsum
      exact ⟨Nat.le.intro hsum, front, hrest, Nat.eq_sub_of_add_eq' hsum⟩
  · rintro ⟨hle, front, hfront, hsum⟩
    refine ⟨c :: front, List.cons_prefix_cons.mpr ⟨rfl, hfront⟩, ?_⟩
    rw [List.map_cons, List.sum_cons, hsum, Nat.add_sub_cancel' hle]

theorem takeBytes_isSome {cs : List Char} : ∀ {n : Nat}, (takeBytes n cs).isSome ↔ CutAt n cs := by
  induction cs with
  | nil =>
      rintro (_ | n)
      · exact iff_of_true rfl (cutAt_zero _)
      · exact iff_of_false Bool.false_ne_true (not_cutAt_nil n)
  | cons c cs ih =>
      rintro (_ | n)
      · exact iff_of_true rfl (cutAt_zero _)
      · rw [takeBytes, cutAt_cons, ← ih]
        split
        · rename_i h
          rw [Option.isSome_map, and_iff_right h]
        · rename_i h
          exact iff_of_false Bool.false_ne_true fun hcut => h hcut.1

theorem dropBytes_isSome {cs : List Char} : ∀ {n : Nat}, (dropBytes n cs).isSome ↔ CutAt n cs := by
  induction cs with
  | nil =>
      rintro (_ | n)
      · exact iff_of_true rfl (cutAt_zero _)
      · exact iff_of_false Bool.false_ne_true (not_cutAt_nil n)
  | cons c cs ih =>
      rintro (_ | n)
      · exact iff_of_true rfl (cutAt_zero _)
      · rw [dropBytes, cutAt_cons, ← ih]
        split
        · rename_i h
          rw [and_iff_right h]
        · rename_i h
          exact iff_of_false Bool.false_ne_true fun hcut => h hcut.1

/-- A secret of at most six bytes, or one that can be cut three bytes from either end. -/
def Maskable (s : String) : Prop :=
  s.utf8ByteSize ≤ 6 ∨ CutAt 3 s.toList ∧ CutAt (s.utf8ByteSize - 3) s.toList

theorem maskSecret_isSome {s : String} : (maskSecret s).isSome ↔ Maskable s := by
  rw [maskSecret, Maskable, ← takeBytes_isSome, ← dropBytes_isSome]
  split
  · rename_i h
    exact iff_of_true rfl (.inl h)
  · rename_i h
    rw [or_iff_right h]
    rcases takeBytes 3 s.toList with _ | front
    · exact iff_of_false Bool.false_ne_true fun hcut => Bool.false_ne_true hcut.1
    · rcases dropBytes (s.utf8ByteSize - 3) s.toList with _ | back
      · exact iff_of_false Bool.false_ne_true fun hcut => Bool.false_ne_true hcut.2
      · exact iff_of_true rfl ⟨rfl, rfl⟩

/-- Looking up the client of a secret panics only over the text of its error. -/
theorem getResolver_isSome {state : ResolverState} {natives : Natives} {clientSecret : String}
    {context : Struct} {canEncrypt : Bool} :
    (state.getResolver natives clientSecret context canEncrypt).isSome ↔
      (state.secrets.get? clientSecret).isSome ∨
        Maskable clientSecret ∧ ∀ e ∈ state.secrets.entries, Maskable e.1 := by
  rw [ResolverState.getResolver]
  cases state.secrets.get? clientSecret with
  | some client => exact iff_of_true rfl (.inl rfl)
  | none =>
      have hnone : ¬ (none : Option Client).isSome = true := Bool.false_ne_true
      rw [or_iff_right hnone, ← maskSecret_isSome]
      have hall : (∀ e ∈ state.secrets.entries, Maskable e.1) ↔
          ((state.secrets.entries.map Prod.fst).mapM maskSecret).isSome := by
        rw [option_mapM_isSome, List.forall_mem_map]
        exact forall₂_congr fun e _ => maskSecret_isSome.symm
      rw [hall]
      rcases maskSecret clientSecret with _ | requested
      · exact iff_of_false Bool.false_ne_true fun h => Bool.false_ne_true h.1
      · rcases (state.secrets.entries.map Prod.fst).mapM maskSecret with _ | available
        · exact iff_of_false Bool.false_ne_true fun h => Bool.false_ne_true h.2
        · exact iff_of_true rfl ⟨rfl, rfl⟩

/-! ### What traps -/

/-- **Evaluation traps** at the criteria that are not safe, and over the text of the error for an
unknown secret.  Buckets, bitsets and versions never trap. -/
theorem evaluation_traps_iff (r : AccountResolver) :
    (∀ hash (bucketCount : Int), Checked.bucket hash (asU64 bucketCount) =
      .ok (bucket hash (asU64 bucketCount))) ∧
    (∀ bitset unitHash, Checked.bitAt bitset unitHash = .ok (bitset[unitHash]?.getD false)) ∧
    (∀ group : String, group.length ≤ 10 → group.toList.all Char.isDigit →
      parseDigits group < 2 ^ 64) ∧
    (∀ criterion, (∀ unit, Checked.evaluateAt r unit criterion = .ok ()) ↔ r.Safe criterion) ∧
    (∀ natives clientSecret context canEncrypt,
      (r.state.getResolver natives clientSecret context canEncrypt).isSome ↔
        (r.state.secrets.get? clientSecret).isSome ∨
          Maskable clientSecret ∧ ∀ e ∈ r.state.secrets.entries, Maskable e.1) ∧
    (r.CriteriaSafe → ∀ {Bytes : Type} (wire : Wire Bytes) (host : Host Bytes) (visit : List Flag)
      (request : ResolveProcessRequest Bytes),
      r.resolveFlags wire host visit request ≠ .error (.resolve .panic)) :=
  ⟨fun hash _ => Checked.bucket_eq hash _, Checked.bitAt_eq, fun _ => parseDigits_fits,
    fun _ => safe_iff.symm, fun _ _ _ _ => getResolver_isSome,
    fun hr _ => AccountResolver.resolveFlags_ne_panic hr⟩

namespace Sample

/-- An account whose flag is for the units of a materialized segment, with a filter of no bits. -/
def zeroBits : ResolverStatePb where
  flags := [flag "flags/f" [rule "flags/f/rules/1" (.variant "on")]]
  segmentsNoBitsets :=
    [⟨"segments/s", some ⟨[("c", some (.materializedSegment "m"))], some (.ref "c")⟩⟩]
  bitsets := []
  clients := [⟨"clients/c", []⟩]
  clientCredentials := [⟨"clients/c/clientCredentials/k", some ⟨"s"⟩, []⟩]
  bloomFilters := [⟨"m", [], 1, 0, 1⟩]

end Sample

/-- **A filter of no bits** is accepted, and its first query ends the resolve in a panic. -/
theorem zero_bits_panic :
    ∃ state r, ResolverState.fromProto Sample.gzip Sample.zeroBits "a" none = some state ∧
      state.getResolver Sample.natives "s" [("targeting_key", .string "u")] true = some (.ok r) ∧
      r.resolveFlags Sample.wire Sample.host state.flags.values
        (.withoutMaterializations Sample.request) = .error (.resolve .panic) :=
  ⟨_, _, rfl, rfl, rfl⟩

end ConfidenceResolver
