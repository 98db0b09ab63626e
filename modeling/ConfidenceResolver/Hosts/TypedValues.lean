import Mathlib.Data.List.Rotate
import ConfidenceResolver.Proto.Flags
import ConfidenceResolver.Support.Floats

/-!
# Hosts — typed values in the Rust provider

`provider.rs`: the value of a resolved flag is a struct; a dotted path leads into it, and the value
found is read as a boolean, a number or a string.  A scalar at the end of the path is wrapped into a
struct of one field, and the typed reads take the first field of what they are given.

* `valueAt`: the value at exactly the path.
* `typed_of_scalar`, `typed_of_struct`: what a typed read makes of it.
* `typed_faithful_iff`: when a read returns nothing but the scalar at the path, in whatever order
  the maps are iterated.
-/

namespace ConfidenceResolver

/-- An order in which hash maps are iterated. -/
structure IterOrder where
  order : Struct → Struct
  perm (s : Struct) : (order s).Perm s

/-! ### Paths -/

/-- `flag_key.split_once('.')`, on the characters. -/
def splitOnce : List Char → Option (List Char × List Char)
  | [] => none
  | c :: cs => if c = '.' then some ([], cs) else (splitOnce cs).map fun p => (c :: p.1, p.2)

/-- `parse_flag_path`. -/
def parseFlagPath (flagKey : String) : String × Option String :=
  match splitOnce flagKey.toList with
  | some (name, path) => (String.ofList name, some (String.ofList path))
  | none => (flagKey, none)

/-- The loop of `navigate_path`. -/
def navigateParts : Struct → List String → Option Struct
  | current, [] => some current
  | current, part :: parts =>
      match current.lookup part with
      | none => none
      | some (.struct s) => navigateParts s parts
      | some field => if parts = [] then some [(part, field)] else none

/-- `navigate_path`. -/
def navigatePath (value : Option Struct) (path : String) : Option Struct :=
  value.bind fun s => navigateParts s (split '.' path)

/-! ### The resolved flag -/

/-- The `EvaluationReason`s of the provider. -/
inductive EvaluationReason where
  | targetingMatch
  | default
  | disabled
  | error
  | unknown
deriving DecidableEq

/-- `map_resolve_reason`. -/
def mapResolveReason : ResolveReason → EvaluationReason
  | .match => .targetingMatch
  | .noSegmentMatch => .default
  | .flagArchived => .disabled
  | .targetingKeyError | .error | .unrecognizedTargetingRule => .error
  | _ => .unknown

/-- `ResolveResult`. -/
structure ResolveResult where
  value : Option Struct
  variant : Option String
  reason : EvaluationReason
  resolveReason : ResolveReason

/-- `resolve_flag`, from the flags of the response on. -/
def resolveFlagResult (resolvedFlags : List ResolvedFlag) (flagKey : String) : ResolveResult :=
  match resolvedFlags with
  | [] => ⟨none, none, .error, .flagNotFound⟩
  | resolvedFlag :: _ =>
      if resolvedFlag.variant = "" then
        ⟨none, none, mapResolveReason resolvedFlag.reason, resolvedFlag.reason⟩
      else
        let value := match (parseFlagPath flagKey).2 with
          | some path => navigatePath resolvedFlag.value path
          | none => resolvedFlag.value
        ⟨value, some resolvedFlag.variant, .targetingMatch, resolvedFlag.reason⟩

/-! ### Typed reads -/

/-- `EvaluationErrorCode`, as far as the reads use it. -/
inductive EvaluationErrorCode where
  | general (text : String)
  | typeMismatch
deriving DecidableEq

/-- `EvaluationError`. -/
structure EvaluationError where
  code : EvaluationErrorCode
  message : String
deriving DecidableEq

/-- `ResolutionDetails`. -/
structure ResolutionDetails (α : Type) where
  value : α
  variant : Option String
  reason : EvaluationReason

/-- `null_value_error`. -/
def nullValueError : EvaluationError where
  code := .general "Property value is null"
  message := "Property value is null (unset in flag configuration). The SDK default will be used."

/-- `no_variant_matched_error`. -/
def noVariantMatchedError (reason : EvaluationReason) : EvaluationError :=
  let message := match reason with
    | .default => "No targeting rule matched"
    | .disabled => "Flag is disabled"
    | _ => "No variant assigned"
  ⟨.general message, message⟩

/-- `is_null_value`: of the first field. -/
def isNullValue (iter : IterOrder) : Option Struct → Bool
  | none => true
  | some s =>
      match (iter.order s).head? with
      | none => true
      | some (_, v) => v.isNull

/-- `extract_bool_value`, `extract_number_value` and `extract_string_value`: the first field, when
`scalar` reads it. -/
def extractValue {α : Type} (scalar : Value → Option α) (iter : IterOrder)
    (value : Option Struct) : Option α :=
  value.bind fun s => (iter.order s).head?.bind fun field => scalar field.2

/-- What a typed read returns, with the reason it registers in the telemetry. -/
abbrev TypedRead (α : Type) : Type :=
  ResolveReason × Except EvaluationError (ResolutionDetails α)

/-- The typed read of a `ResolveResult`. -/
def typed {α : Type} (scalar : Value → Option α) (mismatch : String) (iter : IterOrder)
    (result : ResolveResult) : TypedRead α :=
  match result.variant with
  | none => (result.resolveReason, .error (noVariantMatchedError result.reason))
  | some _ =>
      if isNullValue iter result.value then (result.resolveReason, .error nullValueError)
      else match extractValue scalar iter result.value with
        | some value => (result.resolveReason, .ok ⟨value, result.variant, result.reason⟩)
        | none => (.typeMismatch, .error ⟨.typeMismatch, mismatch⟩)

def boolScalar : Value → Option Bool
  | .bool b => some b
  | _ => none

def numberScalar : Value → Option Float
  | .number n => some n
  | _ => none

def stringScalar : Value → Option String
  | .string s => some s
  | _ => none

/-- `v as i64` of a number. -/
def intScalar (v : Value) : Option Int64 := (numberScalar v).map asI64

/-- `resolve_bool_value`. -/
def resolveBoolValue (iter : IterOrder) (resolvedFlags : List ResolvedFlag) (flagKey : String) :
    TypedRead Bool :=
  typed boolScalar "Value is not a boolean" iter (resolveFlagResult resolvedFlags flagKey)

/-- `resolve_int_value`. -/
def resolveIntValue (iter : IterOrder) (resolvedFlags : List ResolvedFlag) (flagKey : String) :
    TypedRead Int64 :=
  typed intScalar "Value is not a number" iter (resolveFlagResult resolvedFlags flagKey)

/-- `resolve_float_value`. -/
def resolveFloatValue (iter : IterOrder) (resolvedFlags : List ResolvedFlag) (flagKey : String) :
    TypedRead Float :=
  typed numberScalar "Value is not a number" iter (resolveFlagResult resolvedFlags flagKey)

/-- `resolve_string_value`. -/
def resolveStringValue (iter : IterOrder) (resolvedFlags : List ResolvedFlag) (flagKey : String) :
    TypedRead String :=
  typed stringScalar "Value is not a string" iter (resolveFlagResult resolvedFlags flagKey)

/-! ### The value at a path -/

def valueIn : Struct → List String → Option Value
  | _, [] => none
  | s, [part] => s.lookup part
  | s, part :: parts =>
      match s.lookup part with
      | some (.struct fields) => valueIn fields parts
      | _ => none

/-- The value at exactly the path of a flag key. -/
def valueAt (value : Option Struct) (flagKey : String) : Option Value :=
  match (parseFlagPath flagKey).2 with
  | some path => value.bind fun s => valueIn s (split '.' path)
  | none => value.map .struct

/-- What `navigate_path` makes of the value it finds. -/
def wrapped (key : String) : Value → Struct
  | .struct fields => fields
  | v => [(key, v)]

theorem navigateParts_eq {parts : List String} (h : parts ≠ []) : ∀ s : Struct, ∃ key,
    navigateParts s parts = (valueIn s parts).map (wrapped key) := by
  induction parts with
  | nil => exact absurd rfl h
  | cons part parts ih =>
      intro s
      rw [navigateParts]
      cases parts with
      | nil =>
          refine ⟨part, ?_⟩
          rw [valueIn]
          rcases s.lookup part with _ | v
          · rfl
          · cases v <;> rfl
      | cons next parts =>
          rw [valueIn]
          · rcases s.lookup part with _ | v
            · exact ⟨part, rfl⟩
            · cases v with
              | struct fields => exact ih (List.cons_ne_nil _ _) fields
              | _ => exact ⟨part, rfl⟩
          · exact List.cons_ne_nil _ _

theorem navigated_eq (value : Option Struct) (flagKey : String) : ∃ key,
    (match (parseFlagPath flagKey).2 with
      | some path => navigatePath value path
      | none => value) = (valueAt value flagKey).map (wrapped key) := by
  rw [valueAt]
  rcases (parseFlagPath flagKey).2 with _ | path
  · refine ⟨"", ?_⟩
    cases value <;> rfl
  · rcases value with _ | s
    · exact ⟨"", rfl⟩
    · exact navigateParts_eq (split_ne_nil '.' path) s

/-! ### What a typed read makes of it -/

section Typed

variable {α : Type} (scalar : Value → Option α) (mismatch : String) (flag : ResolvedFlag)

/-- The read of one value. -/
def readOf (v : Value) : TypedRead α :=
  if v.isNull then (flag.reason, .error nullValueError)
  else match scalar v with
    | some value => (flag.reason, .ok ⟨value, some flag.variant, .targetingMatch⟩)
    | none => (.typeMismatch, .error ⟨.typeMismatch, mismatch⟩)

/-- The read of what `navigate_path` returns. -/
def readIn (iter : IterOrder) (value : Option Struct) : TypedRead α :=
  typed scalar mismatch iter ⟨value, some flag.variant, .targetingMatch, flag.reason⟩

variable {scalar mismatch flag}

/-- The first field decides. -/
theorem readIn_first {iter : IterOrder} {fields : Struct} {field : String × Value}
    (h : (iter.order fields).head? = some field) :
    readIn scalar mismatch flag iter (some fields) = readOf scalar mismatch flag field.2 := by
  rw [readIn, typed, readOf, isNullValue, extractValue, Option.bind_some, h, Option.bind_some]

theorem readIn_empty (iter : IterOrder) :
    readIn scalar mismatch flag iter (some []) = (flag.reason, .error nullValueError) := by
  have hnil : iter.order [] = [] := List.perm_nil.mp (iter.perm [])
  rw [readIn, typed, isNullValue, hnil]
  rfl

theorem readIn_struct (iter : IterOrder) {fields : Struct} (h : fields ≠ []) :
    ∃ field ∈ fields, readIn scalar mismatch flag iter (some fields) =
      readOf scalar mismatch flag field.2 := by
  rcases hfirst : (iter.order fields).head? with _ | field
  · have hperm := iter.perm fields
    rw [List.head?_eq_none_iff.mp hfirst] at hperm
    exact absurd hperm.nil_eq.symm h
  · exact ⟨field, (iter.perm fields).mem_iff.mp (List.mem_of_head? hfirst), readIn_first hfirst⟩

theorem readIn_scalar (iter : IterOrder) (key : String) {v : Value}
    (h : ∀ fields, v ≠ .struct fields) :
    readIn scalar mismatch flag iter (some (wrapped key v)) = readOf scalar mismatch flag v := by
  have hwrapped : wrapped key v = [(key, v)] := by
    cases v with
    | struct fields => exact absurd rfl (h fields)
    | _ => rfl
  have horder : iter.order [(key, v)] = [(key, v)] := List.perm_singleton.mp (iter.perm _)
  rw [hwrapped, @readIn_first _ _ _ _ _ _ (key, v) (by rw [horder]; rfl)]

/-- Any field comes first in some order. -/
theorem exists_first {fields : Struct} {field : String × Value} (h : field ∈ fields) :
    ∃ iter : IterOrder, (iter.order fields).head? = some field := by
  obtain ⟨n, hn, hfield⟩ := List.getElem_of_mem h
  refine ⟨⟨fun s => s.rotate n, fun s => s.rotate_perm n⟩, ?_⟩
  rw [List.head?_rotate hn, List.getElem?_eq_getElem hn, hfield]

theorem exists_read {fields : Struct} {field : String × Value} (h : field ∈ fields) :
    ∃ iter, readIn scalar mismatch flag iter (some fields) =
      readOf scalar mismatch flag field.2 :=
  (exists_first h).imp fun _ hfirst => readIn_first hfirst

end Typed

/-! ### Faithful reads -/

/-- A value that is the boolean `b`. -/
def IsBool (v : Value) (b : Bool) : Prop := v = .bool b

/-- A value that is the number `n`. -/
def IsNumber (v : Value) (n : Float) : Prop := v = .number n

/-- A value that is the integer `i`: a number that is exactly `i`. -/
def IsInteger (v : Value) (i : Int64) : Prop := ∃ n, v = .number n ∧ IsExactly n i.toInt

/-- A value that is the string `s`. -/
def IsString (v : Value) (s : String) : Prop := v = .string s

/-- A read that returns nothing but the scalar that was found, in the same way whatever the order in
which the maps are iterated. -/
structure Faithful {α : Type} (is : Value → α → Prop) (found : Option Value)
    (read : IterOrder → TypedRead α) : Prop where
  sound : ∀ iter details, (read iter).2 = .ok details →
    ∃ v, found = some v ∧ is v details.value
  stable : ∀ iter iter', read iter = read iter'

/-- The value is no struct, or a struct without a field of the type, with only nulls or without
nulls. -/
def Unmixed {α : Type} (scalar : Value → Option α) : Option Value → Prop
  | some (.struct fields) => (∀ field ∈ fields, scalar field.2 = none) ∧
      ((∀ field ∈ fields, field.2.isNull = true) ∨ ∀ field ∈ fields, field.2.isNull = false)
  | _ => True

section Faithful

variable {α : Type} {scalar : Value → Option α} {is : Value → α → Prop} {mismatch : String}
  {flag : ResolvedFlag}

theorem readOf_ok {v : Value} {details : ResolutionDetails α}
    (h : (readOf scalar mismatch flag v).2 = .ok details) : scalar v = some details.value := by
  rw [readOf] at h
  split at h
  · cases h
  · split at h
    · rename_i value hvalue
      cases h
      exact hvalue
    · cases h

theorem readOf_null {v : Value} (h : v.isNull = true) :
    readOf scalar mismatch flag v = (flag.reason, .error nullValueError) := if_pos h

theorem readOf_mismatch {v : Value} (h : v.isNull = false) (hscalar : scalar v = none) :
    readOf scalar mismatch flag v = (.typeMismatch, .error ⟨.typeMismatch, mismatch⟩) := by
  rw [readOf, h, hscalar]
  rfl

theorem readOf_scalar {v : Value} {value : α} (h : v.isNull = false)
    (hscalar : scalar v = some value) :
    readOf scalar mismatch flag v =
      (flag.reason, .ok ⟨value, some flag.variant, .targetingMatch⟩) := by
  rw [readOf, h, hscalar]
  rfl

theorem mismatch_ne_null {reason : ResolveReason} :
    ((.typeMismatch, .error ⟨.typeMismatch, mismatch⟩) : TypedRead α) ≠
      (reason, .error nullValueError) := by
  intro h
  have hcode := congrArg EvaluationError.code (Except.error.inj (congrArg Prod.snd h))
  cases hcode

/-- A faithful read of a struct finds no field of the type. -/
theorem Faithful.scalar_none (hnull : ∀ v, v.isNull = true → scalar v = none)
    (hstruct : ∀ fields a, ¬ is (.struct fields) a) {fields : Struct}
    (h : Faithful is (some (.struct fields))
      fun iter => readIn scalar mismatch flag iter (some fields))
    {field : String × Value} (hfield : field ∈ fields) : scalar field.2 = none := by
  rcases hvalue : scalar field.2 with _ | value
  · rfl
  · have hnonnull : field.2.isNull = false := by
      rw [← Bool.not_eq_true]
      exact fun hn => Option.some_ne_none value (hvalue.symm.trans (hnull _ hn))
    obtain ⟨iter, hiter⟩ := exists_read hfield
    obtain ⟨v, hv, his⟩ := h.sound iter ⟨value, some flag.variant, .targetingMatch⟩
      (by rw [hiter, readOf_scalar hnonnull hvalue])
    rw [← Option.some.inj hv] at his
    exact absurd his (hstruct _ _)

/-- A struct with a null and another field is not read faithfully: the first field decides the
error. -/
theorem Faithful.not_mixed {fields : Struct}
    (h : Faithful is (some (.struct fields))
      fun iter => readIn scalar mismatch flag iter (some fields))
    (hnone : ∀ field ∈ fields, scalar field.2 = none) {field other : String × Value}
    (hfield : field ∈ fields) (hfieldnull : field.2.isNull = true) (hother : other ∈ fields) :
    other.2.isNull = true := by
  rw [← Bool.not_eq_false]
  intro hnonnull
  obtain ⟨iter, hiter⟩ := exists_read hfield
  obtain ⟨iter', hiter'⟩ := exists_read hother
  have hsame := h.stable iter' iter
  rw [hiter, hiter', readOf_null hfieldnull, readOf_mismatch hnonnull (hnone _ hother)] at hsame
  exact mismatch_ne_null hsame

/-- An unmixed struct is read as one error, whichever field comes first. -/
theorem Unmixed.readIn_eq {fields : Struct} (h : Unmixed scalar (some (.struct fields))) :
    ∃ read : TypedRead α,
      (∀ iter, readIn scalar mismatch flag iter (some fields) = read) ∧
        ∀ details, read.2 ≠ .ok details := by
  by_cases hempty : fields = []
  · subst hempty
    exact ⟨_, fun iter => readIn_empty iter, fun _ h => by cases h⟩
  · rcases h.2 with hall | hall
    · refine ⟨(flag.reason, .error nullValueError), fun iter => ?_, fun _ h => by cases h⟩
      obtain ⟨field, hfield, hread⟩ := readIn_struct iter hempty
      rw [hread, readOf_null (hall field hfield)]
    · refine ⟨(.typeMismatch, .error ⟨.typeMismatch, mismatch⟩), fun iter => ?_,
        fun _ h => by cases h⟩
      obtain ⟨field, hfield, hread⟩ := readIn_struct iter hempty
      rw [hread, readOf_mismatch (hall field hfield) (h.1 field hfield)]

/-- A struct at the path is read faithfully if it is unmixed. -/
theorem faithful_struct_iff (hnull : ∀ v, v.isNull = true → scalar v = none)
    (hstruct : ∀ fields a, ¬ is (.struct fields) a) (fields : Struct) :
    Faithful is (some (.struct fields))
        (fun iter => readIn scalar mismatch flag iter (some fields)) ↔
      Unmixed scalar (some (.struct fields)) := by
  constructor
  · intro h
    have hnone : ∀ field ∈ fields, scalar field.2 = none :=
      fun field hfield => h.scalar_none hnull hstruct hfield
    refine ⟨hnone, or_iff_not_imp_right.mpr fun hsome other hother => ?_⟩
    obtain ⟨field, hfield, hfieldnull⟩ : ∃ field ∈ fields, field.2.isNull = true := by
      simpa using hsome
    exact h.not_mixed hnone hfield hfieldnull hother
  · intro h
    obtain ⟨read, hread, hfails⟩ := @Unmixed.readIn_eq _ _ mismatch flag _ h
    exact ⟨fun iter details hok => absurd (hread iter ▸ hok) (hfails details),
      fun iter iter' => (hread iter).trans (hread iter').symm⟩

/-- A value that is no struct is read faithfully if it is what the read makes of it. -/
theorem faithful_scalar_iff (hnull : ∀ v, v.isNull = true → scalar v = none) (key : String)
    {v : Value} (h : ∀ fields, v ≠ .struct fields) :
    Faithful is (some v) (fun iter => readIn scalar mismatch flag iter (some (wrapped key v))) ↔
      ∀ a, scalar v = some a → is v a := by
  have hread : ∀ iter, readIn scalar mismatch flag iter (some (wrapped key v)) =
      readOf scalar mismatch flag v := fun iter => readIn_scalar iter key h
  constructor
  · intro hf a ha
    have hnonnull : v.isNull = false := by
      rw [← Bool.not_eq_true]
      exact fun hn => Option.some_ne_none a (ha.symm.trans (hnull _ hn))
    obtain ⟨v', hv, his⟩ := hf.sound ⟨id, fun _ => .refl _⟩
      ⟨a, some flag.variant, .targetingMatch⟩ (by rw [hread, readOf_scalar hnonnull ha])
    rwa [← Option.some.inj hv] at his
  · intro his
    refine ⟨fun iter details hok => ?_, fun iter iter' => ?_⟩
    · rw [hread] at hok
      exact ⟨v, rfl, his _ (readOf_ok hok)⟩
    · rw [hread, hread]

/-- **A typed read is faithful** if and only if there is no variant, or the value at the path is
unmixed and is what the read makes of it. -/
theorem typed_faithful_iff (hnull : ∀ v, v.isNull = true → scalar v = none)
    (hscalar : ∀ fields, scalar (.struct fields) = none)
    (hstruct : ∀ fields a, ¬ is (.struct fields) a) (mismatch : String) (flag : ResolvedFlag)
    (rest : List ResolvedFlag) (flagKey : String) :
    Faithful is (valueAt flag.value flagKey)
        (fun iter => typed scalar mismatch iter (resolveFlagResult (flag :: rest) flagKey)) ↔
      flag.variant = "" ∨ (Unmixed scalar (valueAt flag.value flagKey) ∧
        ∀ v a, valueAt flag.value flagKey = some v → scalar v = some a → is v a) := by
  by_cases hvariant : flag.variant = ""
  · refine iff_of_true ⟨fun iter details h => ?_, fun iter iter' => ?_⟩ (.inl hvariant)
    · rw [resolveFlagResult, if_pos hvariant] at h
      cases h
    · rw [resolveFlagResult, if_pos hvariant]
      rfl
  · rw [or_iff_right hvariant]
    obtain ⟨key, hnavigated⟩ := navigated_eq flag.value flagKey
    have hread :
        (fun iter => typed scalar mismatch iter (resolveFlagResult (flag :: rest) flagKey)) =
        fun iter => readIn scalar mismatch flag iter
          ((valueAt flag.value flagKey).map (wrapped key)) := by
      funext iter
      rw [resolveFlagResult, if_neg hvariant, ← hnavigated]
      rfl
    rw [hread]
    rcases valueAt flag.value flagKey with _ | v
    · exact iff_of_true ⟨fun iter details h => (by cases h), fun _ _ => rfl⟩ ⟨trivial, nofun⟩
    · -- no struct is a scalar, so that a read of one may only end in an error
      by_cases h : ∃ fields, v = .struct fields
      · obtain ⟨fields, rfl⟩ := h
        refine (faithful_struct_iff hnull hstruct fields).trans (iff_self_and.mpr fun _ => ?_)
        rintro _ a ⟨⟩ ha
        rw [hscalar] at ha
        cases ha
      · have hv : ∀ fields, v ≠ .struct fields := fun fields heq => h ⟨fields, heq⟩
        have hunmixed : Unmixed scalar (some v) := by
          cases v with
          | struct fields => exact absurd rfl (hv fields)
          | _ => trivial
        refine (faithful_scalar_iff hnull key hv).trans ⟨fun his => ⟨hunmixed, ?_⟩, ?_⟩
        · rintro _ a ⟨⟩ ha
          exact his a ha
        · exact fun his a ha => his.2 v a rfl ha

end Faithful

theorem isNull_cases {v : Value} (h : v.isNull = true) : v = .unset ∨ v = .null := by
  cases v with
  | unset => exact .inl rfl
  | null => exact .inr rfl
  | _ => cases h

/-- A read that finds only what the value is, is faithful where the value is unmixed. -/
theorem typed_exact_iff (hnull : ∀ v, v.isNull = true → scalar v = none)
    (hscalar : ∀ fields, scalar (.struct fields) = none)
    (hstruct : ∀ fields a, ¬ is (.struct fields) a) (hexact : ∀ v a, scalar v = some a → is v a)
    (mismatch : String) (flag : ResolvedFlag) (rest : List ResolvedFlag) (flagKey : String) :
    Faithful is (valueAt flag.value flagKey)
        (fun iter => typed scalar mismatch iter (resolveFlagResult (flag :: rest) flagKey)) ↔
      flag.variant = "" ∨ Unmixed scalar (valueAt flag.value flagKey) :=
  (typed_faithful_iff hnull hscalar hstruct mismatch flag rest flagKey).trans
    (or_congr_right (and_iff_left fun v a _ => hexact v a))

/-- An integer read returns the number itself exactly if the number is an `i64`. -/
theorem isInteger_iff {found : Option Value} :
    (∀ v i, found = some v → intScalar v = some i → IsInteger v i) ↔
      ∀ n, found = some (.number n) → ∃ i : Int64, IsExactly n i.toInt := by
  constructor
  · rintro h n rfl
    obtain ⟨n', hn, hi⟩ := h _ (asI64 n) rfl rfl
    cases hn
    exact ⟨_, hi⟩
  · rintro h (_ | _ | n | _ | _ | _ | _) i rfl hi <;> cases hi
    obtain ⟨i, hi⟩ := h n rfl
    exact ⟨n, rfl, by rwa [asI64_of_exactly hi]⟩

/-- **The typed reads of the provider** return nothing but the scalar at the path, in whatever order
the maps are iterated, if and only if the value at the path is not a struct with a field of the
type, nor one with nulls and other fields; and, for an integer read, not a number outside `i64`. -/
theorem typed_values_faithful_iff (flag : ResolvedFlag) (rest : List ResolvedFlag)
    (flagKey : String) :
    (Faithful IsBool (valueAt flag.value flagKey)
        (fun iter => resolveBoolValue iter (flag :: rest) flagKey) ↔
      flag.variant = "" ∨ Unmixed boolScalar (valueAt flag.value flagKey)) ∧
    (Faithful IsInteger (valueAt flag.value flagKey)
        (fun iter => resolveIntValue iter (flag :: rest) flagKey) ↔
      flag.variant = "" ∨ (Unmixed intScalar (valueAt flag.value flagKey) ∧
        ∀ n, valueAt flag.value flagKey = some (.number n) → ∃ i : Int64, IsExactly n i.toInt)) ∧
    (Faithful IsNumber (valueAt flag.value flagKey)
        (fun iter => resolveFloatValue iter (flag :: rest) flagKey) ↔
      flag.variant = "" ∨ Unmixed numberScalar (valueAt flag.value flagKey)) ∧
    (Faithful IsString (valueAt flag.value flagKey)
        (fun iter => resolveStringValue iter (flag :: rest) flagKey) ↔
      flag.variant = "" ∨ Unmixed stringScalar (valueAt flag.value flagKey)) := by
  refine ⟨?_, ?_, ?_, ?_⟩
  · refine typed_exact_iff (fun v h => ?_) (fun _ => rfl) nofun ?_ _ flag rest flagKey
    · rcases isNull_cases h with rfl | rfl <;> rfl
    · rintro (_ | _ | _ | _ | _ | _ | _) a h <;> cases h
      rfl
  · refine (typed_faithful_iff (fun v h => ?_) (fun _ => rfl) ?_ _ flag rest flagKey).trans
      (or_congr_right (and_congr_right fun _ => isInteger_iff))
    · rcases isNull_cases h with rfl | rfl <;> rfl
    · rintro fields i ⟨n, h, -⟩
      cases h
  · refine typed_exact_iff (fun v h => ?_) (fun _ => rfl) nofun ?_ _ flag rest flagKey
    · rcases isNull_cases h with rfl | rfl <;> rfl
    · rintro (_ | _ | _ | _ | _ | _ | _) a h <;> cases h
      rfl
  · refine typed_exact_iff (fun v h => ?_) (fun _ => rfl) nofun ?_ _ flag rest flagKey
    · rcases isNull_cases h with rfl | rfl <;> rfl
    · rintro (_ | _ | _ | _ | _ | _ | _) a h <;> cases h
      rfl

/-- A flag whose value has two boolean fields. -/
def Sample.twoFields : ResolvedFlag where
  flag := "flags/f"
  variant := "on"
  value := some [("enabled", .bool true), ("visible", .bool false)]
  reason := .match
  shouldApply := true
  assignmentOrigin := ""

/-- A flag whose value has the number `1.5` at `size`. -/
def Sample.fraction : ResolvedFlag where
  __ := Sample.twoFields
  value := some [("size", .number 1.5)]

/-- **A field below the path is returned**: the read of the whole flag is the first field's.  And an
integer read returns the integer part of the number at the path. -/
theorem typed_values_unfaithful :
    (∃ iter iter' : IterOrder,
      (resolveBoolValue iter [Sample.twoFields] "f").2 = .ok ⟨true, some "on", .targetingMatch⟩ ∧
      (resolveBoolValue iter' [Sample.twoFields] "f").2 = .ok ⟨false, some "on", .targetingMatch⟩ ∧
      valueAt Sample.twoFields.value "f" =
        some (.struct [("enabled", .bool true), ("visible", .bool false)])) ∧
    (∀ iter, (resolveIntValue iter [Sample.fraction] "f.size").2 =
      .ok ⟨1, some "on", .targetingMatch⟩) ∧
    ¬ ∃ i : Int64, IsExactly 1.5 i.toInt := by
  refine ⟨⟨⟨id, fun _ => .refl _⟩, ⟨List.reverse, List.reverse_perm⟩, rfl, rfl, rfl⟩,
    fun iter => ?_, ?_⟩
  · have hread : resolveIntValue iter [Sample.fraction] "f.size" =
        readIn intScalar "Value is not a number" Sample.fraction iter
          (some (wrapped "size" (.number 1.5))) := rfl
    rw [hread, readIn_scalar iter "size" (fun _ h => by cases h)]
    rfl
  · -- twice the integer would be three
    rintro ⟨i, hi⟩
    have hbits : (3 * 2 ^ 51 : Int) = i.toInt * 2 ^ 52 := hi
    omega

end ConfidenceResolver
