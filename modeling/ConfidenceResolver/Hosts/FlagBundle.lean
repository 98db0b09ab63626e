import ConfidenceResolver.Proto.Values
import ConfidenceResolver.Support.JsValues

/-!
# Hosts — flag bundles in the JavaScript provider

`flag-bundle.ts`: `resolve` takes a flag of a bundle, follows a dotted path into its value and fits
what it finds to a default.  Properties are read as JavaScript reads them: what an object has not of
its own may be inherited, and what is nowhere is `undefined`.

* `Fills`: what the value of a default has to be.
* `assignable`: what the code lets through.  `matchesOwn`: what it should.
* `evaluateAssignment_ok_iff`, `evaluateAssignment_fills`: the code, by these.
* `resolve_lawful_iff`: the resolution is as it has to be if and only if nothing is let through that
  is not there.
-/

namespace ConfidenceResolver

namespace FlagBundle

/-! ### Bundles -/

/-- `ErrorCode`. -/
inductive ErrorCode where
  | providerNotReady
  | providerFatal
  | flagNotFound
  | typeMismatch
  | general
deriving DecidableEq

/-- `ResolutionReason`. -/
inductive ResolutionReason where
  | error
  | flagArchived
  | match
  | noSegmentMatch
  | targetingKeyError
  | noTreatmentMatch
  | materializationNotSupported
  | unspecified
deriving DecidableEq

/-- `ResolutionDetails`, where `none` is `undefined`. -/
structure Details where
  reason : Option ResolutionReason
  value : JsValue
  variant : Option String := none
  errorCode : Option ErrorCode := none
  errorMessage : Option String := none
  shouldApply : Option Bool := none
  assignmentOrigin : Option String := none

/-- The details of a flag, as `create` writes them: without an error. -/
structure FlagDetails where
  reason : ResolutionReason
  value : Json
  variant : Option String := none
  shouldApply : Bool
  assignmentOrigin : Option String := none

def FlagDetails.toDetails (flag : FlagDetails) : Details where
  reason := some flag.reason
  value := flag.value.value
  variant := flag.variant
  shouldApply := some flag.shouldApply
  assignmentOrigin := flag.assignmentOrigin

end FlagBundle

/-- `FlagBundle`, less the id and the token of the resolve. -/
structure FlagBundle where
  flags : List (String × Option FlagBundle.FlagDetails)
  errorCode : Option FlagBundle.ErrorCode := none
  errorMessage : Option String := none

namespace FlagBundle

/-- `bundle.flags[flagName]`.  What a plain object inherits is truthy, and has neither a `reason`
nor a `value`. -/
def flag (bundle : FlagBundle) (flagName : String) : Option Details :=
  match bundle.flags.lookup flagName with
  | some flag => flag.map FlagDetails.toDetails
  | none =>
      if JsValue.objectPrototype.hasKey flagName then some { reason := none, value := .undefined }
      else none

/-! ### Resolving -/

/-- `path.join('.')`. -/
def join (path : List String) : String := ".".intercalate path

/-- The loop over the path, with the names that were walked. -/
def navigate (walked : List String) (value : JsValue) : List String → Except String JsValue
  | [] => .ok value
  | key :: path =>
      if value.isNull ∨ value.typeOf ≠ "object" ∨ value.isArray then
        .error ("resolved value is not an object at " ++ join walked)
      else navigate (walked ++ [key]) (value.get key) path

/-- The text of the type mismatch. -/
def mismatch (resolvedValue defaultValue : JsValue) (path : List String) : String :=
  "resolved value (" ++ resolvedValue.typeOf ++ ") isn't assignable to default type (" ++
    defaultValue.typeOf ++ ") at " ++ join path

mutual

/-- `evaluateAssignment`. -/
def evaluateAssignment (resolvedValue defaultValue : JsValue) (path : List String) :
    Except String JsValue :=
  if defaultValue.isArray then
    .error ("arrays are not supported as flag values at " ++ join path)
  else if defaultValue.isNull then .ok resolvedValue
  else if resolvedValue.isNull then .ok defaultValue
  else if resolvedValue.typeOf ≠ defaultValue.typeOf then
    .error (mismatch resolvedValue defaultValue path)
  else if resolvedValue.typeOf = "object" then
    match defaultValue with
    | .object _ entries => evaluateEntries resolvedValue entries path resolvedValue.spread
    | _ => .ok resolvedValue.spread
  else .ok resolvedValue

/-- The loop over the entries of the default. -/
def evaluateEntries (resolvedValue : JsValue) (entries : List (String × JsValue))
    (path : List String) (result : JsValue) : Except String JsValue :=
  match entries with
  | [] => .ok result
  | (key, value) :: entries =>
      if resolvedValue.hasKey key then
        match evaluateAssignment (resolvedValue.get key) value (path ++ [key]) with
        | .ok v => evaluateEntries resolvedValue entries path (result.set key v)
        | .error e => .error e
      else .error ("resolved value is missing field \"" ++ key ++ "\" at " ++ join path)

end

/-- `resolve`, less its warnings. -/
def resolve (bundle : FlagBundle) (flagKey : String) (defaultValue : Json) : Details :=
  let flagName := (split '.' flagKey).headD ""
  let path := (split '.' flagKey).tail
  match bundle.errorCode with
  | some errorCode =>
      { reason := some .error, errorCode := some errorCode, errorMessage := bundle.errorMessage,
        value := defaultValue.value, shouldApply := some false }
  | none =>
      match bundle.flag flagName with
      | none =>
          { reason := some .error, errorCode := some .flagNotFound, value := defaultValue.value,
            shouldApply := some false }
      | some flag =>
          if flag.reason = some .materializationNotSupported then
            { reason := some .error, errorCode := some .general,
              errorMessage := some ("Flag '" ++ flagName ++
                "' requires materializations. Configure a materialization store."),
              value := defaultValue.value, shouldApply := some false }
          else
            match navigate [flagName] flag.value path with
            | .error message =>
                { reason := some .error, value := defaultValue.value,
                  errorCode := some .typeMismatch, errorMessage := some message,
                  shouldApply := some false }
            | .ok value =>
                match evaluateAssignment value defaultValue.value (flagName :: path) with
                | .ok validated => { flag with value := validated }
                | .error e =>
                    { reason := some .error, value := defaultValue.value,
                      errorCode := some .typeMismatch, errorMessage := some e,
                      shouldApply := some false }

/-! ### What it has to be -/

/-- `value` is the resolved value, with the default where that is `null`.  Where the default is
`null`, any value will do; everywhere else it is of the type of the default, and an object there has
all the properties that the default has. -/
inductive Fills : (resolvedValue defaultValue value : JsValue) → Prop where
  | any (v : JsValue) : Fills v .null v
  | default (d : JsValue) : Fills .null d d
  | primitive {v d : JsValue} (htype : v.typeOf = d.typeOf) (hne : v.typeOf ≠ "object") :
      Fills v d v
  | object {properties entries values : List (String × JsValue)}
      (keys : values.map Prod.fst = properties.map Prod.fst)
      (present : ∀ key d, entries.lookup key = some d → (properties.lookup key).isSome = true)
      (fills : ∀ key v d w, properties.lookup key = some v → entries.lookup key = some d →
        values.lookup key = some w → Fills v d w)
      (others : ∀ key, entries.lookup key = none → values.lookup key = properties.lookup key) :
      Fills (.object .objectPrototype properties) (.object .objectPrototype entries)
        (.object .objectPrototype values)

/-- The value at a path of own properties. -/
def ownAt (value : JsValue) : List String → Option JsValue
  | [] => some value
  | key :: path => (value.getOwn key).bind fun v => ownAt v path

/-- The value of a flag at a path, if both exist. -/
def valueAt (bundle : FlagBundle) (flagKey : String) : Option JsValue :=
  match bundle.flags.lookup ((split '.' flagKey).headD "") with
  | some (some flag) => ownAt flag.value.value (split '.' flagKey).tail
  | _ => none

/-- An error with the default, or what the default has to be for the value at the path, which there
is. -/
def Lawful (bundle : FlagBundle) (flagKey : String) (defaultValue : Json) (details : Details) :
    Prop :=
  (details.reason = some .error ∧ details.errorCode ≠ none ∧ details.value = defaultValue.value) ∨
    ∃ v, valueAt bundle flagKey = some v ∧ Fills v defaultValue.value details.value

/-! ### What is let through -/

/-- What JavaScript reads along a path: of arrays, nothing. -/
def readAt (value : JsValue) : List String → Option JsValue
  | [] => some value
  | key :: path =>
      if value.isNull ∨ value.typeOf ≠ "object" ∨ value.isArray then none
      else readAt (value.get key) path

mutual

/-- The types agree, as JavaScript reads the properties. -/
def assignable (v d : JsValue) : Bool :=
  !d.isArray && (d.isNull || v.isNull || (v.typeOf == d.typeOf && match d with
    | .object _ entries => assignableEntries v entries
    | _ => true))

def assignableEntries (v : JsValue) : List (String × JsValue) → Bool
  | [] => true
  | (key, d) :: entries =>
      v.hasKey key && assignable (v.get key) d && assignableEntries v entries

end

mutual

/-- The types agree, with own properties of objects that are no arrays. -/
def matchesOwn (v d : JsValue) : Bool :=
  !d.isArray && (d.isNull || v.isNull || match d with
    | .object _ entries => matchesEntries v entries
    | _ => v.typeOf == d.typeOf)

def matchesEntries (v : JsValue) : List (String × JsValue) → Bool
  | [] => match v with
    | .object _ _ => true
    | _ => false
  | (key, d) :: entries =>
      match v.getOwn key with
      | some w => matchesOwn w d && matchesEntries v entries
      | none => false

end

/-- The code gets to `v` in a flag, and lets it through. -/
structure LetThrough (bundle : FlagBundle) (flagKey : String) (defaultValue : Json) (flag : Details)
    (v : JsValue) : Prop where
  errorCode : bundle.errorCode = none
  found : bundle.flag ((split '.' flagKey).headD "") = some flag
  reason : flag.reason ≠ some .materializationNotSupported
  read : readAt flag.value (split '.' flagKey).tail = some v
  assignable : assignable v defaultValue.value = true

/-- Nothing is let through that is not there. -/
def NoneMisread (bundle : FlagBundle) (flagKey : String) (defaultValue : Json) : Prop :=
  ∀ flag v, LetThrough bundle flagKey defaultValue flag v →
    valueAt bundle flagKey = some v ∧ matchesOwn v defaultValue.value = true

/-! ### Navigation -/

theorem navigate_ok_iff {value v : JsValue} {walked path : List String} :
    navigate walked value path = .ok v ↔ readAt value path = some v := by
  induction path generalizing walked value with
  | nil => rw [navigate, readAt, Except.ok.injEq, Option.some.injEq]
  | cons key path ih =>
      rw [navigate, readAt]
      split
      · exact iff_of_false nofun nofun
      · exact ih

theorem readAt_of_ownAt {value v : JsValue} {path : List String} (h : ownAt value path = some v) :
    readAt value path = some v := by
  induction path generalizing value with
  | nil => exact h
  | cons key path ih =>
      rw [ownAt, Option.bind_eq_some_iff] at h
      obtain ⟨w, hw, hv⟩ := h
      cases value with
      | object prototype properties =>
          rw [readAt, if_neg, JsValue.get_of_getOwn hw]
          · exact ih hv
          · rintro (hnull | htype | harray)
            · cases hnull
            · exact htype rfl
            · cases harray
      | _ => cases hw

/-! ### What the code lets through -/

/-- A default without entries. -/
theorem evaluateLeaf_ok_iff {v d : JsValue} (h : ∀ prototype entries, d ≠ .object prototype entries)
    (path : List String) :
    (∃ w, evaluateAssignment v d path = .ok w) ↔ assignable v d = true := by
  rw [evaluateAssignment.eq_def, assignable.eq_def]
  by_cases harray : d.isArray = true
  · rw [if_pos harray, harray]
    exact iff_of_false (fun ⟨w, hw⟩ => by cases hw) nofun
  · rw [if_neg harray, Bool.eq_false_iff.mpr harray, Bool.not_false, Bool.true_and]
    by_cases hdnull : d.isNull = true
    · rw [if_pos hdnull, hdnull]
      exact iff_of_true ⟨v, rfl⟩ rfl
    · rw [if_neg hdnull, Bool.eq_false_iff.mpr hdnull, Bool.false_or]
      by_cases hvnull : v.isNull = true
      · rw [if_pos hvnull, hvnull]
        exact iff_of_true ⟨d, rfl⟩ rfl
      · rw [if_neg hvnull, Bool.eq_false_iff.mpr hvnull, Bool.false_or]
        by_cases htype : v.typeOf = d.typeOf
        · rw [if_neg (not_not_intro htype), htype, beq_self_eq_true, Bool.true_and]
          cases d with
          | object prototype entries => exact absurd rfl (h prototype entries)
          | _ =>
              split
              · exact iff_of_true ⟨_, rfl⟩ rfl
              · exact iff_of_true ⟨_, rfl⟩ rfl
        · rw [if_pos htype, beq_false_of_ne htype, Bool.false_and]
          exact iff_of_false (fun ⟨w, hw⟩ => by cases hw) Bool.false_ne_true

mutual

/-- **What the code lets through** is assignable. -/
theorem evaluateAssignment_ok_iff (v : JsValue) : ∀ (d : JsValue) (path : List String),
    (∃ w, evaluateAssignment v d path = .ok w) ↔ assignable v d = true
  | .object prototype entries, path => by
      have hentries := evaluateEntries_ok_iff v entries path v.spread
      rw [evaluateAssignment.eq_def, assignable.eq_def]
      have harray : (JsValue.object prototype entries).isArray = false := rfl
      have hnull : (JsValue.object prototype entries).isNull = false := rfl
      have htypeOf : (JsValue.object prototype entries).typeOf = "object" := rfl
      rw [harray, hnull, htypeOf, if_neg Bool.false_ne_true, if_neg Bool.false_ne_true,
        Bool.not_false, Bool.true_and, Bool.false_or]
      by_cases hvnull : v.isNull = true
      · rw [if_pos hvnull, hvnull]
        exact iff_of_true ⟨_, rfl⟩ rfl
      · rw [if_neg hvnull, Bool.eq_false_iff.mpr hvnull, Bool.false_or]
        by_cases htype : v.typeOf = "object"
        · rw [if_neg (not_not_intro htype), if_pos htype, htype, beq_self_eq_true, Bool.true_and]
          exact hentries
        · rw [if_pos htype, beq_false_of_ne htype, Bool.false_and]
          exact iff_of_false (fun ⟨w, hw⟩ => by cases hw) Bool.false_ne_true
  | .undefined, path | .null, path | .boolean _, path | .number _, path | .string _, path
  | .array _, path | .objectPrototype, path | .arrayPrototype, path | .function _, path =>
      evaluateLeaf_ok_iff (by intro _ _ h; cases h) path

theorem evaluateEntries_ok_iff (v : JsValue) : ∀ (entries : List (String × JsValue))
    (path : List String) (result : JsValue),
    (∃ w, evaluateEntries v entries path result = .ok w) ↔ assignableEntries v entries = true
  | [], path, result => by
      rw [evaluateEntries, assignableEntries]
      exact iff_of_true ⟨result, rfl⟩ rfl
  | (key, d) :: entries, path, result => by
      have hvalue := evaluateAssignment_ok_iff (v.get key) d (path ++ [key])
      have hentries := evaluateEntries_ok_iff v entries path
      rw [evaluateEntries, assignableEntries]
      by_cases hkey : v.hasKey key = true
      · rw [if_pos hkey, hkey, Bool.true_and, Bool.and_eq_true, ← hvalue]
        cases hresult : evaluateAssignment (v.get key) d (path ++ [key]) with
        | ok w =>
            rw [← hentries (result.set key w)]
            exact (and_iff_right ⟨w, rfl⟩).symm
        | error e =>
            refine iff_of_false ?_ ?_
            · rintro ⟨w, hw⟩
              cases hw
            · rintro ⟨⟨w, hw⟩, -⟩
              cases hw
      · rw [if_neg hkey, Bool.eq_false_iff.mpr hkey, Bool.false_and, Bool.false_and]
        exact iff_of_false (fun ⟨w, hw⟩ => by cases hw) Bool.false_ne_true

end

/-! ### What matches -/

theorem object_of_matchesEntries {v : JsValue} {entries : List (String × JsValue)}
    (h : matchesEntries v entries = true) :
    ∃ prototype properties, v = .object prototype properties := by
  cases v with
  | object prototype properties => exact ⟨prototype, properties, rfl⟩
  | _ =>
      cases entries with
      | nil => cases h
      | cons e entries => cases h

/-- One entry, and the others. -/
theorem matchesEntries_cons {v d : JsValue} {key : String} {entries : List (String × JsValue)} :
    matchesEntries v ((key, d) :: entries) = true ↔
      ∃ w, v.getOwn key = some w ∧ matchesOwn w d = true ∧ matchesEntries v entries = true := by
  rw [matchesEntries]
  cases hown : v.getOwn key with
  | none => exact iff_of_false Bool.false_ne_true (fun ⟨w, hw, _⟩ => by cases hw)
  | some w =>
      rw [Bool.and_eq_true]
      constructor
      · intro h
        exact ⟨w, rfl, h⟩
      · rintro ⟨w', hw', h⟩
        cases hw'
        exact h

section Primitive

variable {v d : JsValue} (h : d.typeOf ≠ "object")

include h

theorem isArray_of_primitive : d.isArray = false := by
  cases d with
  | array elements => exact absurd rfl h
  | arrayPrototype => exact absurd rfl h
  | _ => rfl

theorem isNull_of_primitive : d.isNull = false := by
  cases d with
  | null => exact absurd rfl h
  | _ => rfl

theorem matchesOwn_primitive :
    matchesOwn v d = true ↔ v.isNull = true ∨ v.typeOf = d.typeOf := by
  rw [matchesOwn.eq_def, isArray_of_primitive h, isNull_of_primitive h, Bool.not_false,
    Bool.true_and, Bool.false_or, Bool.or_eq_true]
  cases d with
  | object prototype entries => exact absurd rfl h
  | _ => rw [beq_iff_eq]

/-- A default that is a primitive. -/
theorem evaluatePrimitive_fills (path : List String) (hmatches : matchesOwn v d = true) :
    ∃ w, evaluateAssignment v d path = .ok w ∧ Fills v d w := by
  rw [evaluateAssignment.eq_def, isArray_of_primitive h, isNull_of_primitive h,
    if_neg Bool.false_ne_true, if_neg Bool.false_ne_true]
  by_cases hvnull : v.isNull = true
  · rw [if_pos hvnull]
    cases v with
    | null => exact ⟨d, rfl, .default d⟩
    | _ => cases hvnull
  · have htype := ((matchesOwn_primitive h).mp hmatches).resolve_left hvnull
    have hne : v.typeOf ≠ "object" := htype ▸ h
    rw [if_neg hvnull, if_neg (not_not_intro htype), if_neg hne]
    exact ⟨v, rfl, .primitive htype hne⟩

end Primitive

mutual

/-- **Where the types agree with own properties**, the default is filled. -/
theorem evaluateAssignment_fills : ∀ (d : JsValue), d.IsJson → ∀ (v : JsValue), v.IsJson →
    ∀ path : List String, matchesOwn v d = true →
      ∃ w, evaluateAssignment v d path = .ok w ∧ Fills v d w
  | .null, _, v, _, path, _ => ⟨v, rfl, .any v⟩
  | .boolean _, _, v, _, path, h | .number _, _, v, _, path, h | .string _, _, v, _, path, h =>
      evaluatePrimitive_fills (by rw [JsValue.typeOf]; decide) path h
  | .array elements, _, v, _, path, h => by cases h
  | .object prototype entries, hd, v, hv, path, h => by
      obtain ⟨rfl, hnodup, hjson⟩ : prototype = .objectPrototype ∧ (entries.map Prod.fst).Nodup ∧
          ∀ key d, (key, d) ∈ entries → d.IsJson := by
        cases hd with
        | object nodup hjson => exact ⟨rfl, nodup, hjson⟩
      -- a null is filled with the whole default, an object with the parts that it lacks
      by_cases hnull : v = .null
      · subst hnull
        exact ⟨_, rfl, .default _⟩
      · have hentries : matchesEntries v entries = true := by
          rw [matchesOwn.eq_def] at h
          cases v with
          | null => exact absurd rfl hnull
          | _ => exact h
        obtain ⟨prototype', properties, rfl⟩ := object_of_matchesEntries hentries
        cases hv with
        | object _ hproperties =>
            obtain ⟨values, hvalues, hkeys, hfills, hothers⟩ :=
              evaluateEntries_fills hproperties entries hjson hnodup path properties rfl hentries
            refine ⟨.object .objectPrototype values, ?_, .object hkeys ?_ ?_ hothers⟩
            · rw [evaluateAssignment.eq_def]
              exact hvalues
            · intro key d hd
              obtain ⟨v, _, hv, _⟩ := hfills key d hd
              rw [hv]
              rfl
            · intro key v d w hv hd hw
              obtain ⟨v', w', hv', hw', hfills⟩ := hfills key d hd
              rw [hv] at hv'
              rw [hw] at hw'
              cases hv'
              cases hw'
              exact hfills

/-- The loop keeps the keys of the resolved value. -/
theorem evaluateEntries_fills {properties : List (String × JsValue)}
    (hproperties : ∀ key v, (key, v) ∈ properties → v.IsJson) :
    ∀ entries : List (String × JsValue), (∀ key d, (key, d) ∈ entries → d.IsJson) →
      (entries.map Prod.fst).Nodup → ∀ (path : List String) (results : List (String × JsValue)),
      results.map Prod.fst = properties.map Prod.fst →
      matchesEntries (.object .objectPrototype properties) entries = true →
      ∃ values, evaluateEntries (.object .objectPrototype properties) entries path
          (.object .objectPrototype results) = .ok (.object .objectPrototype values) ∧
        values.map Prod.fst = properties.map Prod.fst ∧
        (∀ key d, entries.lookup key = some d → ∃ v w, properties.lookup key = some v ∧
          values.lookup key = some w ∧ Fills v d w) ∧
        ∀ key, entries.lookup key = none → values.lookup key = results.lookup key
  | [], _, _, path, results, hkeys, _ => by
      rw [evaluateEntries]
      exact ⟨results, rfl, hkeys, nofun, fun _ _ => rfl⟩
  | (key, d) :: entries, hjson, hnodup, path, results, hkeys, h => by
      obtain ⟨v, hown, hvalue, hrest⟩ := matchesEntries_cons.mp h
      have hkey : key ∈ results.map Prod.fst := by
        rw [hkeys, ← JsValue.isSome_lookup]
        exact Option.isSome_of_eq_some hown
      rw [List.map_cons, List.nodup_cons] at hnodup
      obtain ⟨w, hw, hfills⟩ := evaluateAssignment_fills d (hjson key d List.mem_cons_self) v
        (hproperties key v (JsValue.mem_of_lookup hown)) (path ++ [key]) hvalue
      obtain ⟨values, hvalues, hkeys', hentries, hothers⟩ := evaluateEntries_fills hproperties
        entries (fun k d hd => hjson k d (List.mem_cons_of_mem _ hd)) hnodup.2 path
        (JsValue.replace results key w) ((JsValue.keys_replace results key w).trans hkeys) hrest
      -- the later entries do not write the key again
      have hnone : entries.lookup key = none := by
        rw [← Option.not_isSome_iff_eq_none, JsValue.isSome_lookup]
        exact hnodup.1
      refine ⟨values, ?_, hkeys', ?_, ?_⟩
      · rw [evaluateEntries, if_pos, JsValue.get_of_getOwn hown, hw]
        · dsimp only
          rw [JsValue.set_own hkey, hvalues]
        · rw [JsValue.hasKey, JsValue.find_of_getOwn hown]
          rfl
      · intro key' d' hd'
        rw [List.lookup_cons] at hd'
        split at hd'
        · next heq =>
            cases hd'
            obtain rfl := eq_of_beq heq
            refine ⟨v, w, hown, ?_, hfills⟩
            rw [hothers key' hnone, JsValue.lookup_replace_self hkey]
        · exact hentries key' d' hd'
      · intro key' hnone'
        rw [List.lookup_cons] at hnone'
        split at hnone'
        · cases hnone'
        · next hne =>
            rw [hothers key' hnone', JsValue.lookup_replace_of_ne (ne_of_beq_false hne)]

end

theorem matchesEntries_iff {prototype : JsValue} {properties entries : List (String × JsValue)} :
    matchesEntries (.object prototype properties) entries = true ↔ ∀ key d, (key, d) ∈ entries →
      ∃ v, properties.lookup key = some v ∧ matchesOwn v d = true := by
  induction entries with
  | nil => exact iff_of_true rfl nofun
  | cons e entries ih =>
      rw [matchesEntries_cons]
      constructor
      · rintro ⟨v, hown, hvalue, hrest⟩ key d hd
        rcases List.mem_cons.mp hd with rfl | hd
        · exact ⟨v, hown, hvalue⟩
        · exact ih.mp hrest key d hd
      · intro h
        obtain ⟨v, hown, hvalue⟩ := h e.1 e.2 List.mem_cons_self
        exact ⟨v, hown, hvalue, ih.mpr fun key d hd => h key d (List.mem_cons_of_mem e hd)⟩

theorem assignableEntries_mem {v : JsValue} {entries : List (String × JsValue)}
    (h : assignableEntries v entries = true) {key : String} {d : JsValue}
    (hd : (key, d) ∈ entries) : assignable (v.get key) d = true := by
  induction entries with
  | nil => cases hd
  | cons e entries ih =>
      rw [assignableEntries, Bool.and_eq_true, Bool.and_eq_true] at h
      rcases List.mem_cons.mp hd with rfl | hd
      · exact h.1.2
      · exact ih h.2 hd

theorem assignable_object {prototype prototype' : JsValue}
    {properties entries : List (String × JsValue)}
    (h : assignable (.object prototype properties) (.object prototype' entries) = true) :
    assignableEntries (.object prototype properties) entries = true := by
  rw [assignable] at h
  exact h

/-- Where the default is filled and the code lets it through, the types agree with own
properties. -/
theorem Fills.matchesOwn {v d w : JsValue} (h : Fills v d w) (hd : d.IsJson)
    (hassignable : assignable v d = true) : matchesOwn v d = true := by
  induction h with
  | any v =>
      rw [matchesOwn.eq_def]
      rfl
  | default d =>
      rw [assignable.eq_def, Bool.and_eq_true] at hassignable
      have hnull : JsValue.null.isNull = true := rfl
      rw [matchesOwn.eq_def, hassignable.1, hnull, Bool.or_true, Bool.true_or]
      rfl
  | primitive htype hne => exact (matchesOwn_primitive (htype ▸ hne)).mpr (.inr htype)
  | object keys present fills others ih =>
      have hentries := assignable_object hassignable
      cases hd with
      | object hnodup hjson =>
          rw [matchesOwn.eq_def]
          refine matchesEntries_iff.mpr ?_
          intro key d hd
          have hlookup := JsValue.lookup_of_mem hnodup hd
          obtain ⟨v, hv⟩ := Option.isSome_iff_exists.mp (present key d hlookup)
          have hkey := present key d hlookup
          rw [JsValue.isSome_lookup, ← keys, ← JsValue.isSome_lookup] at hkey
          obtain ⟨w, hw⟩ := Option.isSome_iff_exists.mp hkey
          have hget := assignableEntries_mem hentries hd
          have hown : (JsValue.object .objectPrototype _).getOwn key = some v := hv
          rw [JsValue.get_of_getOwn hown] at hget
          exact ⟨v, hv, ih key v d w hv hlookup hw (hjson key d hd) hget⟩

/-! ### Main results -/

theorem ownAt_isJson {value v : JsValue} (hvalue : value.IsJson) {path : List String}
    (h : ownAt value path = some v) : v.IsJson := by
  induction path generalizing value with
  | nil =>
      cases h
      exact hvalue
  | cons key path ih =>
      obtain ⟨w, hw, hv⟩ := Option.bind_eq_some_iff.mp h
      exact ih (hvalue.of_getOwn hw) hv

theorem valueAt_eq_some {bundle : FlagBundle} {flagKey : String} {v : JsValue}
    (h : valueAt bundle flagKey = some v) :
    ∃ flag, bundle.flag ((split '.' flagKey).headD "") = some (FlagDetails.toDetails flag) ∧
      ownAt flag.value.value (split '.' flagKey).tail = some v := by
  rw [valueAt] at h
  split at h
  · next flag hflag =>
      refine ⟨flag, ?_, h⟩
      rw [FlagBundle.flag, hflag]
      rfl
  · cases h

/-- A flag has no error of its own. -/
theorem errorCode_flag {bundle : FlagBundle} {flagName : String} {flag : Details}
    (h : bundle.flag flagName = some flag) : flag.errorCode = none := by
  rw [FlagBundle.flag] at h
  split at h
  · obtain ⟨_, -, rfl⟩ := Option.map_eq_some_iff.mp h
    rfl
  · split at h
    · cases h
      rfl
    · cases h

section Resolve

variable {bundle : FlagBundle} {flagKey : String} {defaultValue : Json}

theorem resolve_of_letThrough {flag : Details} {v : JsValue}
    (h : LetThrough bundle flagKey defaultValue flag v) :
    ∃ w, evaluateAssignment v defaultValue.value
        ((split '.' flagKey).headD "" :: (split '.' flagKey).tail) = .ok w ∧
      resolve bundle flagKey defaultValue = { flag with value := w } := by
  obtain ⟨w, hw⟩ := (evaluateAssignment_ok_iff v defaultValue.value
    ((split '.' flagKey).headD "" :: (split '.' flagKey).tail)).mpr h.assignable
  refine ⟨w, hw, ?_⟩
  simp only [resolve, h.errorCode, h.found, if_neg h.reason, navigate_ok_iff.mpr h.read, hw]

theorem resolve_of_not (h : ∀ flag v, ¬ LetThrough bundle flagKey defaultValue flag v) :
    (resolve bundle flagKey defaultValue).reason = some .error ∧
      (resolve bundle flagKey defaultValue).errorCode ≠ none ∧
      (resolve bundle flagKey defaultValue).value = defaultValue.value := by
  rw [resolve]
  split
  · exact ⟨rfl, nofun, rfl⟩
  · next herror =>
      split
      · exact ⟨rfl, nofun, rfl⟩
      · next flag hflag =>
          split
          · exact ⟨rfl, nofun, rfl⟩
          · next hreason =>
              split
              · exact ⟨rfl, nofun, rfl⟩
              · next v hread =>
                  split
                  · next w hw =>
                      have hassignable := (evaluateAssignment_ok_iff v _ _).mp ⟨w, hw⟩
                      exact absurd ⟨herror, hflag, hreason, navigate_ok_iff.mp hread, hassignable⟩
                        (h flag v)
                  · exact ⟨rfl, nofun, rfl⟩

end Resolve

/-- **The resolution is as it has to be** if and only if the code lets nothing through that is not
there. -/
theorem resolve_lawful_iff (bundle : FlagBundle) (flagKey : String) (defaultValue : Json) :
    Lawful bundle flagKey defaultValue (resolve bundle flagKey defaultValue) ↔
      NoneMisread bundle flagKey defaultValue := by
  constructor
  · intro hlawful flag v h
    obtain ⟨w, hw, hresolve⟩ := resolve_of_letThrough h
    rw [hresolve] at hlawful
    rcases hlawful with ⟨-, herror, -⟩ | ⟨v', hv', hfills⟩
    · exact absurd (errorCode_flag h.found) herror
    · -- what is read there is the value that is there
      obtain ⟨flag', hflag', hown⟩ := valueAt_eq_some hv'
      have hread := h.read
      rw [Option.some.inj (h.found.symm.trans hflag')] at hread
      obtain rfl := Option.some.inj (hread.symm.trans (readAt_of_ownAt hown))
      exact ⟨hv', hfills.matchesOwn defaultValue.isJson h.assignable⟩
  · intro h
    by_cases hlet : ∃ flag v, LetThrough bundle flagKey defaultValue flag v
    · obtain ⟨flag, v, hlet⟩ := hlet
      obtain ⟨hv, hmatches⟩ := h flag v hlet
      obtain ⟨flag', -, hown⟩ := valueAt_eq_some hv
      obtain ⟨w, hw, hresolve⟩ := resolve_of_letThrough hlet
      obtain ⟨w', hw', hfills⟩ := evaluateAssignment_fills _ defaultValue.isJson v
        (ownAt_isJson flag'.value.isJson hown) _ hmatches
      rw [hw] at hw'
      cases hw'
      exact .inr ⟨v, hv, hresolve ▸ hfills⟩
    · refine .inl (resolve_of_not ?_)
      intro flag v h
      exact hlet ⟨flag, v, h⟩

/-- A flag whose value is `{ enabled: true }`. -/
def sampleBundle : FlagBundle where
  flags := [("my-flag", some
    { reason := .match, shouldApply := true,
      value := ⟨.object .objectPrototype [("enabled", .boolean true)], by
        refine .object (List.pairwise_singleton _ _) ?_
        intro key v h
        cases List.mem_singleton.mp h
        exact .boolean true⟩ })]

/-- A path that is not there is resolved to `undefined`, without an error. -/
theorem missing_path_resolved :
    valueAt sampleBundle "my-flag.missing" = none ∧
      (resolve sampleBundle "my-flag.missing" ⟨.null, .null⟩).value = .undefined ∧
      ¬ Lawful sampleBundle "my-flag.missing" ⟨.null, .null⟩
        (resolve sampleBundle "my-flag.missing" ⟨.null, .null⟩) := by
  have hsplit : split '.' "my-flag.missing" = ["my-flag", "missing"] := by decide +kernel
  have habsent : valueAt sampleBundle "my-flag.missing" = none := by
    rw [valueAt, hsplit]
    rfl
  have hresolve : resolve sampleBundle "my-flag.missing" ⟨.null, .null⟩ =
      { reason := some .match, value := .undefined, shouldApply := some true } := by
    rw [resolve, hsplit]
    rfl
  refine ⟨habsent, by rw [hresolve], ?_⟩
  rw [hresolve]
  rintro (⟨-, herror, -⟩ | ⟨v, hv, -⟩)
  · exact herror rfl
  · rw [habsent] at hv
    cases hv

end FlagBundle

end ConfidenceResolver
