import ConfidenceResolver.Logs.ResolveInfo
import ConfidenceResolver.Support.SortedMap
import Mathlib.Data.List.Infix
import Mathlib.Data.String.Basic

/-!
# Logs — the schema of an evaluation context

`schema_util.rs`: the schema that is logged for an evaluation context has, by field path, the kinds
of its attributes, and semantic types that are guessed from the texts of some.

* `getSchema`: the recursion, which writes into two maps.
* `leaves`: the attributes, each under the names that lead to it.  `getSchema_eq`: the schema is
  what they contribute.
* `Reorders`: another iteration order.  `exists_last`: each attribute comes last in one.
* `HasKind`: the kind of a value, a list's being that of its elements.  `LedBy`: the kind that the
  first elements of lists lead to.
* `AttributesAgree`: attributes with one field path contribute the same, and first elements lead to
  the kinds that are there.
* `schema_well_defined_iff`: the schema depends on no order, and has each kind under its own path,
  exactly then.
-/

namespace ConfidenceResolver

/-! ### Semantic types -/

/-- What is asked of the standard library, of `chrono` and of `isocountry`. -/
structure TextChecks where
  toLowercase : String → String
  toUppercase : String → String
  /-- The two-letter codes of ISO 3166. -/
  countryCodes : List String
  /-- `NaiveDate::parse_from_str(_, "%Y-%m-%d")` succeeds. -/
  parsesDate : String → Bool
  /-- `DateTime::parse_from_rfc3339` succeeds. -/
  parsesRfc3339 : String → Bool
  /-- `NaiveDateTime::parse_from_str(_, "%Y-%m-%dT%H:%M:%S")` succeeds. -/
  parsesDateTime : String → Bool
  /-- And with `%.f` behind. -/
  parsesFraction : String → Bool

/-- `parse::<u32>` succeeds. -/
def parsesU32 (part : String) : Bool :=
  let digits := match part.toList with
    | '+' :: digits => digits
    | digits => digits
  !digits.isEmpty && digits.all Char.isDigit && decide (Nat.ofDigitChars 10 digits 0 < 4294967296)

def isSemanticVersion (value : String) : Bool :=
  let parts := split '.' value
  parts.length == 3 && parts.all parsesU32

namespace TextChecks

variable (checks : TextChecks)

def isValidCountryCode (value : String) : Bool :=
  checks.countryCodes.contains (checks.toUppercase value)

def isDate (value : String) : Bool := 10 ≤ value.utf8ByteSize && checks.parsesDate value

/-- Whether `parse_instant` is `Some`. -/
def parsesInstant (value : String) : Bool :=
  if value.isEmpty then false
  else if checks.parsesRfc3339 value then true
  else if value.toList.contains 'T' then
    let timePart := value.toList.dropWhile (· != 'T')
    if value.toList.getLast? == some 'Z' || timePart.contains '+' || timePart.contains '-' then
      checks.parsesRfc3339 value
    else checks.parsesDateTime value || checks.parsesFraction value
  else checks.parsesDate value

def isTimestamp (value : String) : Bool :=
  15 ≤ value.utf8ByteSize && checks.parsesInstant value

/-- What `guess_semantic_type` inserts, if anything. -/
def semanticType (value fieldPath : String) : Option ContextFieldSemanticType :=
  if "country".toList <:+: (checks.toLowercase fieldPath).toList then
    if checks.isValidCountryCode value then some (.country 1) else none
  else if checks.isDate value then some .date
  else if checks.isTimestamp value then some .timestamp
  else if isSemanticVersion value then some .version
  else none

end TextChecks

/-! ### The recursion -/

/-- The two maps of a schema, while they are written. -/
structure SchemaMaps where
  flatSchema : SortedMap String SchemaFieldKind
  semanticTypes : SortedMap String ContextFieldSemanticType

def SchemaMaps.insertKind (maps : SchemaMaps) (fieldPath : String) (kind : SchemaFieldKind) :
    SchemaMaps :=
  { maps with flatSchema := maps.flatSchema.insert fieldPath kind }

def guessSemanticType (checks : TextChecks) (maps : SchemaMaps) (value fieldPath : String) :
    SchemaMaps :=
  match checks.semanticType value fieldPath with
  | some t => { maps with semanticTypes := maps.semanticTypes.insert fieldPath t }
  | none => maps

/-- `mem::discriminant`, of a value that has a kind. -/
def Value.discriminant? : Value → Option Nat
  | .unset => none
  | .null => some 0
  | .number _ => some 1
  | .string _ => some 2
  | .bool _ => some 3
  | .struct _ => some 4
  | .list _ => some 5

/-- There is an element with a kind, and all that have one have the same. -/
def allSameKind (values : List Value) : Bool :=
  match values.filterMap Value.discriminant? with
  | [] => false
  | firstKind :: kinds => kinds.all (· == firstKind)

/-- `add_field_schema`.  A list is its first element, if all are of one kind. -/
def addFieldSchema (checks : TextChecks) (maps : SchemaMaps) (fieldPath : String) :
    Value → SchemaMaps
  | .string v => guessSemanticType checks (maps.insertKind fieldPath .string) v fieldPath
  | .bool _ => maps.insertKind fieldPath .bool
  | .number _ => maps.insertKind fieldPath .number
  | .null => maps.insertKind fieldPath .null
  | .list (first :: values) =>
      if allSameKind (first :: values) then addFieldSchema checks maps fieldPath first else maps
  | .list [] | .struct _ | .unset => maps

mutual

/-- `flattened_schema`, over the fields in some order. -/
def flattenedSchema (checks : TextChecks) (maps : SchemaMaps) (fieldPath : String) :
    List (String × Value) → SchemaMaps
  | [] => maps
  | (field, value) :: fields =>
      let maps := flattenedField checks maps (fieldPath ++ field) value
      flattenedSchema checks maps fieldPath fields

/-- One field of `flattened_schema`, with its path. -/
def flattenedField (checks : TextChecks) (maps : SchemaMaps) (path : String) : Value → SchemaMaps
  | .struct nested => flattenedSchema checks maps (path ++ ".") nested
  | .unset => addFieldSchema checks maps path .unset
  | .null => addFieldSchema checks maps path .null
  | .number n => addFieldSchema checks maps path (.number n)
  | .string s => addFieldSchema checks maps path (.string s)
  | .bool b => addFieldSchema checks maps path (.bool b)
  | .list values => addFieldSchema checks maps path (.list values)

end

/-- `SchemaFromEvaluationContext::get_schema`. -/
def getSchema (checks : TextChecks) (evaluationContext : Struct) : DerivedClientSchema :=
  let maps := flattenedSchema checks ⟨.empty, .empty⟩ "" evaluationContext
  ⟨maps.flatSchema.entries, maps.semanticTypes.entries⟩

/-! ### Attributes -/

/-- The kind an attribute contributes. -/
def Value.attributeKind : Value → Option SchemaFieldKind
  | .string _ => some .string
  | .bool _ => some .bool
  | .number _ => some .number
  | .null => some .null
  | .list (first :: values) => if allSameKind (first :: values) then first.attributeKind else none
  | .list [] | .struct _ | .unset => none

/-- The text an attribute's semantic type is guessed from. -/
def Value.attributeText : Value → Option String
  | .string s => some s
  | .list (first :: values) => if allSameKind (first :: values) then first.attributeText else none
  | .list [] | .struct _ | .unset | .bool _ | .number _ | .null => none

/-- An attribute, and the names that lead to it. -/
structure Leaf where
  names : List String
  value : Value

mutual

/-- The attributes of a context: whatever is not a struct. -/
def leaves (names : List String) : List (String × Value) → List Leaf
  | [] => []
  | (field, value) :: fields => leavesOf (names ++ [field]) value ++ leaves names fields

def leavesOf (names : List String) : Value → List Leaf
  | .struct nested => leaves names nested
  | .unset => [⟨names, .unset⟩]
  | .null => [⟨names, .null⟩]
  | .number n => [⟨names, .number n⟩]
  | .string s => [⟨names, .string s⟩]
  | .bool b => [⟨names, .bool b⟩]
  | .list values => [⟨names, .list values⟩]

end

namespace Leaf

/-- The field path: the names, joined by dots. -/
def path (l : Leaf) : String := ".".intercalate l.names

def kind? (l : Leaf) : Option SchemaFieldKind := l.value.attributeKind

def semanticType? (checks : TextChecks) (l : Leaf) : Option ContextFieldSemanticType :=
  l.value.attributeText.bind fun text => checks.semanticType text l.path

end Leaf

/-- The kinds that are contributed, in order. -/
def kindsOf (ls : List Leaf) : List (String × SchemaFieldKind) :=
  ls.filterMap fun l => l.kind?.map fun kind => (l.path, kind)

def semanticTypesOf (checks : TextChecks) (ls : List Leaf) :
    List (String × ContextFieldSemanticType) :=
  ls.filterMap fun l => (l.semanticType? checks).map fun t => (l.path, t)

/-! ### The schema is what the attributes contribute -/

/-- Both maps, with more written into them. -/
def SchemaMaps.write (maps : SchemaMaps) (kinds : List (String × SchemaFieldKind))
    (types : List (String × ContextFieldSemanticType)) : SchemaMaps :=
  ⟨maps.flatSchema.write kinds, maps.semanticTypes.write types⟩

/-- What one leaf contributes. -/
def SchemaMaps.writeLeaf (checks : TextChecks) (maps : SchemaMaps) (l : Leaf) : SchemaMaps :=
  maps.write (kindsOf [l]) (semanticTypesOf checks [l])

section Refinement

variable {checks : TextChecks}

theorem kindsOf_append (ls ls' : List Leaf) : kindsOf (ls ++ ls') = kindsOf ls ++ kindsOf ls' :=
  List.filterMap_append

theorem semanticTypesOf_append (ls ls' : List Leaf) :
    semanticTypesOf checks (ls ++ ls') = semanticTypesOf checks ls ++ semanticTypesOf checks ls' :=
  List.filterMap_append

theorem write_leaves_append (maps : SchemaMaps) (ls ls' : List Leaf) :
    maps.write (kindsOf (ls ++ ls')) (semanticTypesOf checks (ls ++ ls')) =
      (maps.write (kindsOf ls) (semanticTypesOf checks ls)).write (kindsOf ls')
        (semanticTypesOf checks ls') := by
  rw [kindsOf_append, semanticTypesOf_append, SchemaMaps.write, SortedMap.write_append,
    SortedMap.write_append]
  rfl

/-- A list is folded into its first element. -/
theorem writeLeaf_list (maps : SchemaMaps) (names : List String) {first : Value}
    {values : List Value} (h : allSameKind (first :: values) = true) :
    maps.writeLeaf checks ⟨names, .list (first :: values)⟩ =
      maps.writeLeaf checks ⟨names, first⟩ := by
  have hkind : (Value.list (first :: values)).attributeKind = first.attributeKind := by
    rw [Value.attributeKind, if_pos h]
  have htext : (Value.list (first :: values)).attributeText = first.attributeText := by
    rw [Value.attributeText, if_pos h]
  simp only [SchemaMaps.writeLeaf, kindsOf, semanticTypesOf, Leaf.kind?, Leaf.semanticType?,
    Leaf.path, hkind, htext, List.filterMap_cons, List.filterMap_nil]

theorem addFieldSchema_eq (maps : SchemaMaps) (names : List String) : ∀ value : Value,
    addFieldSchema checks maps (".".intercalate names) value = maps.writeLeaf checks ⟨names, value⟩
  | .unset | .null | .bool _ | .number _ | .struct _ | .list [] => rfl
  | .string v => by
      rw [addFieldSchema, guessSemanticType, SchemaMaps.writeLeaf, semanticTypesOf]
      simp only [Leaf.semanticType?, Value.attributeText, Option.bind_some, Leaf.path,
        List.filterMap_cons, List.filterMap_nil]
      cases checks.semanticType v (".".intercalate names) <;> rfl
  | .list (first :: values) => by
      rw [addFieldSchema]
      by_cases hsame : allSameKind (first :: values) = true
      · rw [if_pos hsame, writeLeaf_list maps names hsame]
        exact addFieldSchema_eq maps names first
      · rw [if_neg hsame]
        have hkind : (Value.list (first :: values)).attributeKind = none := by
          rw [Value.attributeKind, if_neg hsame]
        have htext : (Value.list (first :: values)).attributeText = none := by
          rw [Value.attributeText, if_neg hsame]
        simp only [SchemaMaps.writeLeaf, kindsOf, semanticTypesOf, Leaf.kind?, Leaf.semanticType?,
          hkind, htext, Option.map_none, Option.bind_none, List.filterMap_cons, List.filterMap_nil]
        rfl

/-- The field path of a struct: each name with a dot behind. -/
def structPath (names : List String) : String := String.join (names.map (· ++ "."))

theorem structPath_concat (names : List String) (field : String) :
    structPath names ++ field ++ "." = structPath (names ++ [field]) := by
  rw [structPath, structPath, List.map_append, String.join_append, List.map_singleton,
    String.join_cons, String.join_nil, String.append_empty, String.append_assoc]

theorem structPath_append (names : List String) (field : String) :
    structPath names ++ field = ".".intercalate (names ++ [field]) := by
  induction names with
  | nil =>
      rw [List.nil_append, String.intercalate_singleton]
      exact String.empty_append
  | cons name names ih =>
      have hne : names ++ [field] ≠ [] :=
        List.append_ne_nil_of_right_ne_nil _ (List.cons_ne_nil _ _)
      rw [List.cons_append, String.intercalate_cons_of_ne_nil hne, ← ih, structPath, List.map_cons,
        String.join_cons]
      simp only [structPath, String.append_assoc]

mutual

theorem flattenedSchema_eq (names : List String) : ∀ (fields : List (String × Value))
    (maps : SchemaMaps), flattenedSchema checks maps (structPath names) fields =
      maps.write (kindsOf (leaves names fields)) (semanticTypesOf checks (leaves names fields))
  | [], _ => by
      rw [flattenedSchema, leaves]
      rfl
  | (field, value) :: fields, maps => by
      rw [flattenedSchema, leaves, write_leaves_append, flattenedField_eq names field value maps,
        flattenedSchema_eq names fields]

theorem flattenedField_eq (names : List String) (field : String) : ∀ (value : Value)
    (maps : SchemaMaps), flattenedField checks maps (structPath names ++ field) value =
      maps.write (kindsOf (leavesOf (names ++ [field]) value))
        (semanticTypesOf checks (leavesOf (names ++ [field]) value))
  | .struct nested, maps => by
      rw [flattenedField, leavesOf, structPath_concat]
      exact flattenedSchema_eq (names ++ [field]) nested maps
  | .unset, maps | .null, maps | .number _, maps | .string _, maps | .bool _, maps
  | .list _, maps => by
      rw [flattenedField, leavesOf, structPath_append]
      exact addFieldSchema_eq maps (names ++ [field]) _

end

/-- **The schema is what the attributes contribute.** -/
theorem getSchema_eq (evaluationContext : Struct) :
    getSchema checks evaluationContext =
      ⟨(SortedMap.empty.write (kindsOf (leaves [] evaluationContext))).entries,
        (SortedMap.empty.write
          (semanticTypesOf checks (leaves [] evaluationContext))).entries⟩ := by
  have hmaps : flattenedSchema checks ⟨.empty, .empty⟩ "" evaluationContext = _ :=
    flattenedSchema_eq [] evaluationContext ⟨.empty, .empty⟩
  rw [getSchema, hmaps]
  rfl

end Refinement

/-! ### Iteration orders -/

/-- The same fields in another order, at any depth. -/
inductive Reorders : List (String × Value) → List (String × Value) → Prop where
  | perm {fields fields' : List (String × Value)} : fields.Perm fields' → Reorders fields fields'
  | nested {field : String} {inner inner' : List (String × Value)}
      (fields : List (String × Value)) : Reorders inner inner' →
      Reorders ((field, .struct inner) :: fields) ((field, .struct inner') :: fields)
  | trans {fields₁ fields₂ fields₃ : List (String × Value)} : Reorders fields₁ fields₂ →
      Reorders fields₂ fields₃ → Reorders fields₁ fields₃

theorem leaves_append (names : List String) (fields fields' : List (String × Value)) :
    leaves names (fields ++ fields') = leaves names fields ++ leaves names fields' := by
  induction fields with
  | nil => rw [List.nil_append, leaves, List.nil_append]
  | cons e fields ih =>
      obtain ⟨field, value⟩ := e
      rw [List.cons_append, leaves, leaves, ih, List.append_assoc]

theorem leaves_perm {fields fields' : List (String × Value)} (h : fields.Perm fields')
    (names : List String) : (leaves names fields).Perm (leaves names fields') := by
  induction h with
  | nil => exact List.Perm.refl _
  | cons e _ ih =>
      obtain ⟨field, value⟩ := e
      rw [leaves, leaves]
      exact ih.append_left _
  | swap e e' fields =>
      obtain ⟨field, value⟩ := e
      obtain ⟨field', value'⟩ := e'
      rw [leaves, leaves, leaves, leaves, ← List.append_assoc, ← List.append_assoc]
      exact List.perm_append_comm.append_right _
  | trans _ _ ih ih' => exact ih.trans ih'

namespace Reorders

/-- The attributes are the same. -/
theorem leaves_perm {fields fields' : List (String × Value)} (h : Reorders fields fields') :
    ∀ names, (leaves names fields).Perm (leaves names fields') := by
  induction h with
  | perm h => exact ConfidenceResolver.leaves_perm h
  | nested fields _ ih =>
      intro names
      rw [leaves, leaves, leavesOf, leavesOf]
      exact (ih _).append_right _
  | trans _ _ ih ih' =>
      intro names
      exact (ih names).trans (ih' names)

theorem cons {fields fields' : List (String × Value)} (h : Reorders fields fields')
    (e : String × Value) : Reorders (e :: fields) (e :: fields') := by
  induction h with
  | perm h => exact .perm (h.cons e)
  | nested fields h _ =>
      exact .trans (.perm (.swap _ _ _)) (.trans (.nested (e :: fields) h) (.perm (.swap _ _ _)))
  | trans _ _ ih ih' => exact .trans ih ih'

end Reorders

/-- Some order in which an attribute comes last. -/
def ComesLast (l : Leaf) (fields : List (String × Value)) (names : List String) : Prop :=
  ∃ fields' ls, Reorders fields fields' ∧ leaves names fields' = ls ++ [l]

theorem ComesLast.cons {l : Leaf} {fields : List (String × Value)} {names : List String}
    (h : ComesLast l fields names) (e : String × Value) : ComesLast l (e :: fields) names := by
  obtain ⟨fields', ls, hreorders, hls⟩ := h
  refine ⟨e :: fields', leavesOf (names ++ [e.1]) e.2 ++ ls, hreorders.cons e, ?_⟩
  rw [leaves, hls, List.append_assoc]

/-- A field that is an attribute goes last. -/
theorem comesLast_leaf {l : Leaf} {field : String} {value : Value}
    {fields : List (String × Value)} {names : List String}
    (hleaf : leavesOf (names ++ [field]) value = [⟨names ++ [field], value⟩])
    (ih : l ∈ leaves names fields → ComesLast l fields names)
    (h : l ∈ leaves names ((field, value) :: fields)) :
    ComesLast l ((field, value) :: fields) names := by
  rw [leaves, hleaf, List.mem_append, List.mem_singleton] at h
  obtain rfl | h := h
  · refine ⟨fields ++ [(field, value)], leaves names fields,
      .perm (List.perm_append_singleton _ _).symm, ?_⟩
    rw [leaves_append, leaves, hleaf, leaves, List.append_nil]
  · exact (ih h).cons _

/-- **Each attribute comes last in some order.** -/
theorem exists_last (l : Leaf) : ∀ (fields : List (String × Value)) (names : List String),
    l ∈ leaves names fields → ComesLast l fields names
  | [], names, h => by
      rw [leaves] at h
      cases h
  | (field, .struct nested) :: fields, names, h => by
      rw [leaves, leavesOf, List.mem_append] at h
      obtain h | h := h
      · -- the struct goes last, and in it the attribute
        obtain ⟨nested', ls, hreorders, hls⟩ := exists_last l nested (names ++ [field]) h
        refine ⟨fields ++ [(field, .struct nested')], leaves names fields ++ ls, ?_, ?_⟩
        · exact .trans (.nested fields hreorders) (.perm (List.perm_append_singleton _ _).symm)
        · rw [leaves_append, leaves, leavesOf, leaves, hls, List.append_nil, List.append_assoc]
      · exact (exists_last l fields names h).cons _
  | (_, .unset) :: fields, names, h => comesLast_leaf rfl (exists_last l fields names) h
  | (_, .null) :: fields, names, h => comesLast_leaf rfl (exists_last l fields names) h
  | (_, .number _) :: fields, names, h => comesLast_leaf rfl (exists_last l fields names) h
  | (_, .string _) :: fields, names, h => comesLast_leaf rfl (exists_last l fields names) h
  | (_, .bool _) :: fields, names, h => comesLast_leaf rfl (exists_last l fields names) h
  | (_, .list _) :: fields, names, h => comesLast_leaf rfl (exists_last l fields names) h

/-! ### Kinds -/

/-- Two values are set, and to values of one sort. -/
inductive SameSort : Value → Value → Prop where
  | null : SameSort .null .null
  | number (m n : Float) : SameSort (.number m) (.number n)
  | string (s t : String) : SameSort (.string s) (.string t)
  | bool (a b : Bool) : SameSort (.bool a) (.bool b)
  | struct (fields fields' : List (String × Value)) : SameSort (.struct fields) (.struct fields')
  | list (values values' : List Value) : SameSort (.list values) (.list values')

/-- The kind of a value.  That of a list is the kind of its elements: those that are set, of which
there is one, are of one sort and have the kind. -/
inductive HasKind : Value → SchemaFieldKind → Prop where
  | null : HasKind .null .null
  | number (n : Float) : HasKind (.number n) .number
  | string (s : String) : HasKind (.string s) .string
  | bool (b : Bool) : HasKind (.bool b) .bool
  | list {values : List Value} {kind : SchemaFieldKind}
      (inhabited : ∃ v ∈ values, v ≠ .unset)
      (sort : ∀ v ∈ values, ∀ w ∈ values, v ≠ .unset → w ≠ .unset → SameSort v w)
      (kinds : ∀ v ∈ values, v ≠ .unset → HasKind v kind) : HasKind (.list values) kind

/-- The kind that first elements lead to: a list of set elements of one sort leads to what its
first element leads to. -/
inductive LedBy : Value → SchemaFieldKind → Prop where
  | null : LedBy .null .null
  | number (n : Float) : LedBy (.number n) .number
  | string (s : String) : LedBy (.string s) .string
  | bool (b : Bool) : LedBy (.bool b) .bool
  | list {first : Value} {rest : List Value} {kind : SchemaFieldKind}
      (sort : ∀ v ∈ rest, v ≠ .unset → SameSort first v) (led : LedBy first kind) :
      LedBy (.list (first :: rest)) kind

theorem sameSort_iff {v w : Value} :
    SameSort v w ↔ ∃ d, v.discriminant? = some d ∧ w.discriminant? = some d := by
  constructor
  · rintro (_ | _ | _ | _ | _ | _) <;> exact ⟨_, rfl, rfl⟩
  · rintro ⟨d, hv, hw⟩
    cases v <;> cases hv <;> cases w <;> cases hw <;> constructor

theorem discriminant_eq_none {v : Value} : v.discriminant? = none ↔ v = .unset := by
  cases v <;> simp [Value.discriminant?]

/-- The test of the code, for a list whose first element is set. -/
theorem allSameKind_iff {first : Value} {rest : List Value} (hfirst : first ≠ .unset) :
    allSameKind (first :: rest) = true ↔ ∀ v ∈ rest, v ≠ .unset → SameSort first v := by
  obtain ⟨d, hd⟩ := Option.ne_none_iff_exists'.mp (mt discriminant_eq_none.mp hfirst)
  rw [allSameKind, List.filterMap_cons_some hd]
  simp only [List.all_eq_true, List.mem_filterMap, beq_iff_eq]
  constructor
  · intro h v hv hset
    obtain ⟨e, he⟩ := Option.ne_none_iff_exists'.mp (mt discriminant_eq_none.mp hset)
    obtain rfl := h e ⟨v, hv, he⟩
    exact sameSort_iff.mpr ⟨e, hd, he⟩
  · rintro h e ⟨v, hv, he⟩
    have hset : v ≠ .unset := by
      rintro rfl
      cases he
    obtain ⟨d', hd', he'⟩ := sameSort_iff.mp (h v hv hset)
    rw [hd] at hd'
    rw [he] at he'
    cases hd'
    cases he'
    rfl

theorem LedBy.set {v : Value} {kind : SchemaFieldKind} (h : LedBy v kind) : v ≠ .unset := by
  rintro rfl
  cases h

/-- **What an attribute contributes** is the kind that first elements lead to. -/
theorem attributeKind_eq_some {kind : SchemaFieldKind} : ∀ v : Value,
    v.attributeKind = some kind ↔ LedBy v kind
  | .unset | .struct _ | .list [] => ⟨nofun, nofun⟩
  | .null | .number _ | .string _ | .bool _ => by
      constructor <;> rintro ⟨⟩
      · constructor
      · rfl
  | .list (first :: rest) => by
      rw [Value.attributeKind]
      constructor
      · intro h
        split at h
        · next hsame =>
            have hled := (attributeKind_eq_some first).mp h
            exact .list ((allSameKind_iff hled.set).mp hsame) hled
        · cases h
      · rintro (_ | _ | _ | _ | ⟨hsort, hled⟩)
        rw [if_pos ((allSameKind_iff hled.set).mpr hsort)]
        exact (attributeKind_eq_some first).mpr hled

/-! ### Main results -/

/-- Attributes that meet at one field path have one kind there, and the same semantic type is
guessed of them; and at each path, first elements lead to the kinds that attributes have. -/
structure AttributesAgree (checks : TextChecks) (evaluationContext : Struct) : Prop where
  kinds : ∀ l ∈ leaves [] evaluationContext, ∀ l' ∈ leaves [] evaluationContext,
    ∀ kind kind', l.path = l'.path → HasKind l.value kind → HasKind l'.value kind' → kind = kind'
  led : ∀ path kind,
    (∃ l ∈ leaves [] evaluationContext, l.path = path ∧ HasKind l.value kind) ↔
      ∃ l ∈ leaves [] evaluationContext, l.path = path ∧ LedBy l.value kind
  semanticTypes : SortedMap.Consistent (semanticTypesOf checks (leaves [] evaluationContext))

/-- The schema of a context is well defined. -/
structure SchemaWellDefined (checks : TextChecks) (evaluationContext : Struct) : Prop where
  /-- It does not depend on the order in which fields are visited. -/
  order : ∀ reordered, Reorders evaluationContext reordered →
    getSchema checks reordered = getSchema checks evaluationContext
  /-- Each attribute has its kind under its own path, -/
  own : ∀ l ∈ leaves [] evaluationContext, ∀ kind, HasKind l.value kind →
    (l.path, kind) ∈ (getSchema checks evaluationContext).fields
  /-- and no path has another kind. -/
  only : ∀ path kind, (path, kind) ∈ (getSchema checks evaluationContext).fields →
    ∃ l ∈ leaves [] evaluationContext, l.path = path ∧ HasKind l.value kind

/-- Two contexts have the same kinds under the same names. -/
def SameKinds (evaluationContext other : Struct) : Prop :=
  ∀ names kind, (∃ l ∈ leaves [] evaluationContext, l.names = names ∧ HasKind l.value kind) ↔
    ∃ l ∈ leaves [] other, l.names = names ∧ HasKind l.value kind

theorem mem_kindsOf {ls : List Leaf} {path : String} {kind : SchemaFieldKind} :
    (path, kind) ∈ kindsOf ls ↔ ∃ l ∈ ls, l.path = path ∧ LedBy l.value kind := by
  rw [kindsOf, List.mem_filterMap]
  constructor
  · rintro ⟨l, hl, hmap⟩
    rw [Option.map_eq_some_iff] at hmap
    obtain ⟨kind', hkind, heq⟩ := hmap
    cases heq
    exact ⟨l, hl, rfl, (attributeKind_eq_some _).mp hkind⟩
  · rintro ⟨l, hl, rfl, hled⟩
    have hkind : l.kind? = some kind := (attributeKind_eq_some _).mpr hled
    exact ⟨l, hl, by rw [hkind]; rfl⟩

theorem mem_semanticTypesOf {checks : TextChecks} {ls : List Leaf} {path : String}
    {t : ContextFieldSemanticType} :
    (path, t) ∈ semanticTypesOf checks ls ↔
      ∃ l ∈ ls, l.path = path ∧ l.semanticType? checks = some t := by
  rw [semanticTypesOf, List.mem_filterMap]
  constructor
  · rintro ⟨l, hl, hmap⟩
    rw [Option.map_eq_some_iff] at hmap
    obtain ⟨t', ht, heq⟩ := hmap
    cases heq
    exact ⟨l, hl, rfl, ht⟩
  · rintro ⟨l, hl, rfl, ht⟩
    exact ⟨l, hl, by rw [ht]; rfl⟩

/-! #### An order in which everything is found -/

section Orders

variable {checks : TextChecks}

theorem mem_fields_iff {evaluationContext : Struct}
    (h : SortedMap.Consistent (kindsOf (leaves [] evaluationContext))) {path : String}
    {kind : SchemaFieldKind} :
    (path, kind) ∈ (getSchema checks evaluationContext).fields ↔
      ∃ l ∈ leaves [] evaluationContext, l.path = path ∧ LedBy l.value kind := by
  rw [getSchema_eq]
  exact (SortedMap.mem_write_iff h (path, kind)).trans mem_kindsOf

/-- A kind that an attribute leads to is found where the attribute comes last. -/
theorem mem_fields_of_last {reordered : Struct} {ls : List Leaf} {l : Leaf}
    (hls : leaves [] reordered = ls ++ [l]) {kind : SchemaFieldKind} (hled : LedBy l.value kind) :
    (l.path, kind) ∈ (getSchema checks reordered).fields := by
  have hkind : l.kind? = some kind := (attributeKind_eq_some _).mpr hled
  have hlast : kindsOf [l] = [(l.path, kind)] := by
    rw [kindsOf, List.filterMap_cons, List.filterMap_nil, hkind]
    rfl
  rw [getSchema_eq, hls, kindsOf_append, hlast]
  exact SortedMap.mem_write_last SortedMap.empty (kindsOf ls) (l.path, kind)

/-- What an attribute contributes is found where it comes last. -/
theorem mem_semanticTypes_of_last {reordered : Struct} {ls : List Leaf} {l : Leaf}
    (hls : leaves [] reordered = ls ++ [l]) {t : ContextFieldSemanticType}
    (ht : l.semanticType? checks = some t) :
    (l.path, t) ∈ (getSchema checks reordered).semanticTypes := by
  have hlast : semanticTypesOf checks [l] = [(l.path, t)] := by
    rw [semanticTypesOf, List.filterMap_cons, List.filterMap_nil, ht]
    rfl
  rw [getSchema_eq, hls, semanticTypesOf_append, hlast]
  exact SortedMap.mem_write_last SortedMap.empty (semanticTypesOf checks ls) (l.path, t)

/-- So all of it is found, where the order does not matter. -/
theorem mem_fields {evaluationContext : Struct} (h : SchemaWellDefined checks evaluationContext)
    {l : Leaf} (hl : l ∈ leaves [] evaluationContext) {kind : SchemaFieldKind}
    (hled : LedBy l.value kind) :
    (l.path, kind) ∈ (getSchema checks evaluationContext).fields := by
  obtain ⟨reordered, ls, hreorders, hls⟩ := exists_last l evaluationContext [] hl
  rw [← h.order reordered hreorders]
  exact mem_fields_of_last hls hled

theorem mem_semanticTypes {evaluationContext : Struct}
    (h : SchemaWellDefined checks evaluationContext) {l : Leaf}
    (hl : l ∈ leaves [] evaluationContext) {t : ContextFieldSemanticType}
    (ht : l.semanticType? checks = some t) :
    (l.path, t) ∈ (getSchema checks evaluationContext).semanticTypes := by
  obtain ⟨reordered, ls, hreorders, hls⟩ := exists_last l evaluationContext [] hl
  rw [← h.order reordered hreorders]
  exact mem_semanticTypes_of_last hls ht

/-- A schema has one kind at a path, -/
theorem fields_consistent (evaluationContext : Struct) :
    SortedMap.Consistent (getSchema checks evaluationContext).fields := by
  intro path kind kind' hkind hkind'
  have hlookup := SortedMap.mem_entries_iff.mp hkind
  rw [SortedMap.mem_entries_iff.mp hkind'] at hlookup
  exact (Option.some.inj hlookup).symm

/-- and one semantic type. -/
theorem semanticTypes_consistent (evaluationContext : Struct) :
    SortedMap.Consistent (getSchema checks evaluationContext).semanticTypes := by
  intro path t t' ht ht'
  have hlookup := SortedMap.mem_entries_iff.mp ht
  rw [SortedMap.mem_entries_iff.mp ht'] at hlookup
  exact (Option.some.inj hlookup).symm

theorem SchemaWellDefined.attributesAgree {evaluationContext : Struct}
    (h : SchemaWellDefined checks evaluationContext) : AttributesAgree checks evaluationContext where
  kinds := by
    intro l hl l' hl' kind kind' hpath hkind hkind'
    have hown' := h.own l' hl' kind' hkind'
    rw [← hpath] at hown'
    exact fields_consistent evaluationContext _ _ _ (h.own l hl kind hkind) hown'
  led := by
    intro path kind
    constructor
    · rintro ⟨l, hl, rfl, hkind⟩
      have hown := h.own l hl kind hkind
      rw [getSchema_eq] at hown
      exact mem_kindsOf.mp ((SortedMap.mem_of_mem_write hown).resolve_right List.not_mem_nil)
    · rintro ⟨l, hl, rfl, hled⟩
      exact h.only _ _ (mem_fields h hl hled)
  semanticTypes := by
    intro path t t' ht ht'
    obtain ⟨l, hl, rfl, hlt⟩ := mem_semanticTypesOf.mp ht
    obtain ⟨l', hl', hpath, hlt'⟩ := mem_semanticTypesOf.mp ht'
    have hfound := mem_semanticTypes h hl hlt
    have hfound' := mem_semanticTypes h hl' hlt'
    rw [hpath] at hfound'
    exact semanticTypes_consistent evaluationContext _ _ _ hfound hfound'

end Orders

/-- The kinds that are written agree, where the attributes do. -/
theorem AttributesAgree.consistent {checks : TextChecks} {evaluationContext : Struct}
    (h : AttributesAgree checks evaluationContext) :
    SortedMap.Consistent (kindsOf (leaves [] evaluationContext)) := by
  intro path kind kind' hmem hmem'
  obtain ⟨l, hl, hpath, hkind⟩ := (h.led path kind).mpr (mem_kindsOf.mp hmem)
  obtain ⟨l', hl', hpath', hkind'⟩ := (h.led path kind').mpr (mem_kindsOf.mp hmem')
  exact h.kinds l hl l' hl' kind kind' (hpath.trans hpath'.symm) hkind hkind'

theorem AttributesAgree.schemaWellDefined {checks : TextChecks} {evaluationContext : Struct}
    (h : AttributesAgree checks evaluationContext) : SchemaWellDefined checks evaluationContext where
  order reordered hreorders := by
    have hleaves := hreorders.leaves_perm []
    have hkinds := SortedMap.write_congr h.consistent fun _ => (hleaves.filterMap _).mem_iff
    have htypes := SortedMap.write_congr h.semanticTypes fun _ => (hleaves.filterMap _).mem_iff
    rw [getSchema_eq, getSchema_eq]
    exact (congrArg₂ (fun m m' => (⟨SortedMap.entries m, SortedMap.entries m'⟩ :
      DerivedClientSchema)) hkinds htypes).symm
  own l hl kind hkind :=
    (mem_fields_iff h.consistent).mpr ((h.led l.path kind).mp ⟨l, hl, rfl, hkind⟩)
  only path kind hmem := (h.led path kind).mpr ((mem_fields_iff h.consistent).mp hmem)

/-- Contexts with the same kinds under the same names have the same fields: the kinds at a path are
those at the names that make it. -/
theorem AttributesAgree.fields_congr {checks : TextChecks} {evaluationContext other : Struct}
    (h : AttributesAgree checks evaluationContext) (h' : AttributesAgree checks other)
    (hsame : SameKinds evaluationContext other) :
    (getSchema checks evaluationContext).fields = (getSchema checks other).fields := by
  have hpaths : ∀ path kind,
      (∃ l ∈ leaves [] evaluationContext, l.path = path ∧ HasKind l.value kind) ↔
        ∃ l ∈ leaves [] other, l.path = path ∧ HasKind l.value kind := by
    intro path kind
    constructor
    · rintro ⟨l, hl, rfl, hkind⟩
      obtain ⟨l', hl', hnames, hkind'⟩ := (hsame l.names kind).mp ⟨l, hl, rfl, hkind⟩
      exact ⟨l', hl', congrArg (".".intercalate ·) hnames, hkind'⟩
    · rintro ⟨l, hl, rfl, hkind⟩
      obtain ⟨l', hl', hnames, hkind'⟩ := (hsame l.names kind).mpr ⟨l, hl, rfl, hkind⟩
      exact ⟨l', hl', congrArg (".".intercalate ·) hnames, hkind'⟩
  rw [getSchema_eq, getSchema_eq]
  refine congrArg SortedMap.entries (SortedMap.write_congr h.consistent ?_)
  rintro ⟨path, kind⟩
  rw [mem_kindsOf, mem_kindsOf, ← h.led, ← h'.led]
  exact hpaths path kind

/-- **The schema of a context is well defined exactly when its attributes agree.**  Two such
contexts with the same kinds under the same names have the same fields. -/
theorem schema_well_defined_iff (checks : TextChecks) :
    (∀ evaluationContext,
      SchemaWellDefined checks evaluationContext ↔ AttributesAgree checks evaluationContext) ∧
    ∀ evaluationContext other, AttributesAgree checks evaluationContext →
      AttributesAgree checks other → SameKinds evaluationContext other →
      (getSchema checks evaluationContext).fields = (getSchema checks other).fields :=
  ⟨fun _ => ⟨fun h => h.attributesAgree, fun h => h.schemaWellDefined⟩,
    fun _ _ h h' hsame => h.fields_congr h' hsame⟩

/-- A name with a dot, and a name in a struct. -/
def dottedContext : Struct := [("a.b", .string "x"), ("a", .struct [("b", .bool true)])]

theorem dottedContext_fields (checks : TextChecks) :
    (getSchema checks dottedContext).fields = [("a.b", .bool)] ∧
      (getSchema checks dottedContext.reverse).fields = [("a.b", .string)] := by
  rw [getSchema_eq, getSchema_eq]
  exact ⟨rfl, rfl⟩

/-- A list of strings whose first element is not set. -/
def unsetFirstContext : Struct := [("a", .list [.unset, .string "x"])]

theorem unsetFirstContext_fields (checks : TextChecks) :
    (getSchema checks unsetFirstContext).fields = [] := by
  rw [getSchema_eq]
  rfl

theorem unsetFirst_hasKind : HasKind (.list [.unset, .string "x"]) .string := by
  refine .list ⟨.string "x", by simp, nofun⟩ (fun v hv w hw hset hset' => ?_) fun v hv hset => ?_
  · obtain rfl : v = .string "x" := by simpa [hset] using hv
    obtain rfl : w = .string "x" := by simpa [hset'] using hw
    exact .string _ _
  · obtain rfl : v = .string "x" := by simpa [hset] using hv
    exact .string _

/-- A list of a list of strings and a list of booleans. -/
def mixedListsContext : Struct := [("a", .list [.list [.string "x"], .list [.bool true]])]

theorem mixedListsContext_fields (checks : TextChecks) :
    (getSchema checks mixedListsContext).fields = [("a", .string)] := by
  rw [getSchema_eq]
  rfl

theorem mixedLists_not_hasKind :
    ¬ HasKind (.list [.list [.string "x"], .list [.bool true]]) .string := by
  rintro (_ | _ | _ | _ | ⟨-, -, hkinds⟩)
  obtain _ | _ | _ | _ | ⟨-, -, hbools⟩ := hkinds (.list [.bool true]) (by simp) nofun
  cases hbools (.bool true) (by simp) nofun

/-- Which of the two has the path depends on which is visited last.  A list of strings whose first
element is not set has no entry, and a list of unlike lists has that of the first. -/
theorem dottedContext_not_well_defined :
    (¬ ∃ checks, getSchema checks dottedContext = getSchema checks dottedContext.reverse) ∧
      (¬ ∃ checks, SchemaWellDefined checks dottedContext) ∧
      (¬ ∃ checks, SchemaWellDefined checks unsetFirstContext) ∧
      ¬ ∃ checks, SchemaWellDefined checks mixedListsContext := by
  refine ⟨?_, ?_, ?_, ?_⟩
  · rintro ⟨checks, h⟩
    obtain ⟨hfields, hreverse⟩ := dottedContext_fields checks
    rw [h, hreverse] at hfields
    cases hfields
  · rintro ⟨checks, h⟩
    have hown := h.own ⟨["a.b"], .string "x"⟩
      (by simp [dottedContext, leaves, leavesOf]) .string (.string _)
    rw [(dottedContext_fields checks).1] at hown
    cases List.mem_singleton.mp hown
  · rintro ⟨checks, h⟩
    have hown := h.own ⟨["a"], .list [.unset, .string "x"]⟩
      (by simp [unsetFirstContext, leaves, leavesOf]) .string unsetFirst_hasKind
    rw [unsetFirstContext_fields checks] at hown
    cases hown
  · rintro ⟨checks, h⟩
    obtain ⟨l, hl, -, hkind⟩ := h.only "a" .string
      (by rw [mixedListsContext_fields checks]; exact List.mem_singleton_self _)
    obtain rfl : l = ⟨["a"], .list [.list [.string "x"], .list [.bool true]]⟩ := by
      simpa [mixedListsContext, leaves, leavesOf] using hl
    exact mixedLists_not_hasKind hkind

end ConfidenceResolver
