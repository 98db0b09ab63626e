import ConfidenceResolver.Proto.Values
import ConfidenceResolver.Support.GoReflect

/-!
# Hosts — typed values in the Go provider

`unmarshal_proto.go`: a resolved value becomes a Go value of the type of a default, and where it is
null, the default.

* `unmarshalProto`, with the panics of `reflect`.
* `Faithful`: what the Go value has to be.
* `marks`, `problems`: what is wrong with a value and a default, in the order in which the code
  comes to it.
-/

namespace ConfidenceResolver

namespace UnmarshalProto

open Go (elem? field? entries? mapIndex deleteEntry setEntry)

/-! ### Values -/

/-- `structpb.Value`, or a pointer to none; `unset` has no kind, and `nilStruct` a `Struct` of the
kind that is no message.  A number is the rational that it stands for. -/
inductive ProtoValue where
  | nil
  | unset
  | null
  | number (q : ℚ)
  | string (s : String)
  | bool (b : Bool)
  | list (values : List ProtoValue)
  | struct (fields : List (String × ProtoValue))
  | nilStruct

/-- A nil pointer or a null value. -/
def ProtoValue.isNull : ProtoValue → Bool
  | .nil | .null => true
  | _ => false

/-- The fields of a `Struct` are a map: each has a name of its own. -/
inductive ProtoValue.Keyed : ProtoValue → Prop where
  | nil : Keyed .nil
  | unset : Keyed .unset
  | null : Keyed .null
  | number {q} : Keyed (.number q)
  | string {s} : Keyed (.string s)
  | bool {b} : Keyed (.bool b)
  | list {values} (parts : ∀ v ∈ values, Keyed v) : Keyed (.list values)
  | struct {fields} (distinct : (fields.map Prod.fst).Nodup)
      (parts : ∀ name v, (name, v) ∈ fields → Keyed v) : Keyed (.struct fields)
  | nilStruct : Keyed .nilStruct

/-- `protoKindName`. -/
def ProtoValue.kindName : ProtoValue → String
  | .string _ => "string"
  | .number _ => "number"
  | .bool _ => "bool"
  | .struct _ | .nilStruct => "struct"
  | .list _ => "list"
  | .null => "null"
  | .nil | .unset => "<nil>"

variable {Ty : Type}

mutual

/-- `AsInterface`. -/
def asInterface (go : Go Ty) : ProtoValue → Option (GoValue Ty)
  | .nil | .unset | .null => none
  | .number q => some (.float go.float64 q)
  | .string s => some (.string go.string s)
  | .bool b => some (.bool go.bool b)
  | .list values => some (.slice go.sliceAny (asSlice go values))
  | .struct fields => some (.map go.mapStringAny (some (asMap go fields)))
  | .nilStruct => some (.map go.mapStringAny (some []))

/-- `AsSlice`. -/
def asSlice (go : Go Ty) : List ProtoValue → List (GoValue Ty)
  | [] => []
  | v :: values => .interface go.any (asInterface go v) :: asSlice go values

/-- `AsMap`. -/
def asMap (go : Go Ty) : List (String × ProtoValue) → List (String × GoValue Ty)
  | [] => []
  | (name, v) :: fields => (name, .interface go.any (asInterface go v)) :: asMap go fields

end

/-! ### Errors -/

/-- An error that is returned, or a panic. -/
inductive Failure where
  | error (message : String)
  | panic
deriving DecidableEq

/-- `formatError`. -/
def formatError (msg : String) (path : List String) : Failure :=
  if path = [] then .error msg else .error (msg ++ ", at " ++ ".".intercalate path)

/-- `formatMismatchError`. -/
def formatMismatchError (defaultType : String) (v : ProtoValue) (path : List String) : Failure :=
  formatError ("resolved value (" ++ v.kindName ++ ") not assignable to default type (" ++
    defaultType ++ ")") path

/-! ### Names of fields -/

/-- The underscores of `toSnakeCase`: `prev` is the rune before. -/
def snakeRunes (prev : Option Char) : List Char → List Char
  | [] => []
  | r :: runes =>
      let isUpper : Char → Bool := fun c => 'A' ≤ c && c ≤ 'Z'
      let isLower : Char → Bool := fun c => 'a' ≤ c && c ≤ 'z'
      let isDigit : Char → Bool := fun c => '0' ≤ c && c ≤ '9'
      let underscore := match prev with
        | none => false
        | some p => isUpper r && (isLower p || isDigit p ||
            (isUpper p && runes.head?.any isLower))
      if underscore then '_' :: r :: snakeRunes (some r) runes else r :: snakeRunes (some r) runes

/-- `toSnakeCase`. -/
def toSnakeCase (go : Go Ty) (s : String) : String :=
  go.toLower (String.ofList (snakeRunes none s.toList))

/-- `getFieldName`. -/
def getFieldName (go : Go Ty) (field : StructField Ty) : String :=
  let name := (split ',' field.json).headD ""
  if field.json ≠ "" ∧ name ≠ "" ∧ name ≠ "-" then name else toSnakeCase go field.name

/-! ### The code -/

/-! The recursion goes into the value; at a pointer or an interface it stays at the value, and goes
into the default, or into the type. -/

theorem sizeOf_dynamic {d : Option (GoValue Ty)} {v : GoValue Ty} (h : elem? d = some v) :
    sizeOf (some v) < sizeOf d := by
  have hne : d ≠ none := by
    rintro rfl
    cases h
  exact h ▸ Go.sizeOf_elem? hne

theorem lex_elem {go : Go Ty} {d : Option (GoValue Ty)} {t elem : Ty}
    (h : go.shape t = .pointer elem) :
    Prod.Lex (· < ·) (· < ·) (sizeOf (elem? d), go.depth elem) (sizeOf d, go.depth t) := by
  cases d with
  | none => exact .right _ (go.depth_elem t elem h)
  | some v => exact .left _ _ (Go.sizeOf_elem? (Option.some_ne_none v))

theorem sizeOf_lookup {fields : List (String × ProtoValue)} {name : String} {v : ProtoValue}
    (h : fields.lookup name = some v) : sizeOf v < sizeOf fields := by
  obtain ⟨before, after, rfl, -⟩ := List.lookup_eq_some_iff.mp h
  have hmem := List.sizeOf_lt_of_mem
    (List.mem_append_right before (List.mem_cons_self (a := (name, v)) (l := after)))
  have hpair : sizeOf v < sizeOf (name, v) := by
    rw [Prod.mk.sizeOf_spec]
    omega
  omega

/-- The first field and the others are smaller. -/
theorem sizeOf_cons (name : String) (v : ProtoValue) (fields : List (String × ProtoValue)) :
    sizeOf v < sizeOf ((name, v) :: fields) ∧ sizeOf fields < sizeOf ((name, v) :: fields) := by
  rw [List.cons.sizeOf_spec, Prod.mk.sizeOf_spec]
  omega

section Code

variable [DecidableEq Ty] (go : Go Ty)

/-- `Set`, of a location of type `t`. -/
def set (t : Ty) (v : Option (GoValue Ty)) : Except Failure (GoValue Ty) :=
  match go.store t v with
  | some w => .ok w
  | none => .error .panic

/-- `.(T)`, of what `Interface` gives: that panics of the zero `Value`. -/
def assertTo (T : Ty) (v : Option (GoValue Ty)) : Except Failure (GoValue Ty) :=
  match v.bind (go.assert T) with
  | some w => .ok w
  | none => .error .panic

/-- The text of the number that is not whole. -/
def notWhole (q : ℚ) (t : Ty) : String :=
  "resolved value (" ++ go.showNumber q ++ ") is not a whole number, cannot convert to " ++
    go.typeString t

/-- The text of the number that is negative. -/
def negative (q : ℚ) (t : Ty) : String :=
  "resolved value (" ++ go.showNumber q ++ ") is negative, cannot convert to " ++ go.typeString t

mutual

/-- `unmarshalProtoValue`; `none` is the zero `reflect.Value`. -/
def unmarshalProtoValue (v : ProtoValue) (t : Ty) (d : Option (GoValue Ty)) (path : List String) :
    Except Failure (Option (GoValue Ty)) :=
  if v.isNull then .ok (some (d.getD (go.zero t)))
  else match _hshape : go.shape t with
    | .struct fields =>
        match v with
        | .struct protoFields =>
            match unmarshalFields protoFields d path 0 fields with
            | .ok values => .ok (some (.struct t values))
            | .error e => .error e
        | _ => .error (formatMismatchError "struct" v path)
    | .map key elem =>
        match v with
        | .struct protoFields =>
            match go.shape key with
            | .string =>
                match unmarshalEntries key elem d path ((entries? d).getD []) protoFields with
                | .ok entries => .ok (some (.map t (some entries)))
                | .error e => .error e
            | _ => .error (formatError "map keys must be strings" path)
        | _ => .error (formatMismatchError "map" v path)
    | .slice => .error (formatError "slice types are not supported" path)
    | .string =>
        match v with
        | .string s => .ok (some (.string go.string s))
        | _ => .error (formatMismatchError "string" v path)
    | .bool =>
        match v with
        | .bool b => .ok (some (.bool go.bool b))
        | _ => .error (formatMismatchError "bool" v path)
    | .float64 =>
        match v with
        | .number q => .ok (some (.float go.float64 q))
        | _ => .error (formatMismatchError "float64" v path)
    | .float32 =>
        match v with
        | .number q => .ok (some (.float go.float32 (go.round32 q)))
        | _ => .error (formatMismatchError "float32" v path)
    | .int w =>
        match v with
        | .number q =>
            if q.den ≠ 1 then .error (formatError (notWhole go q t) path)
            else .ok (some (.int t (go.convertInt w q.num)))
        | _ => .error (formatMismatchError (go.typeString t) v path)
    | .uint w =>
        match v with
        | .number q =>
            if q < 0 then .error (formatError (negative go q t) path)
            else if q.den ≠ 1 then .error (formatError (notWhole go q t) path)
            else .ok (some (.uint t (go.convertUint w q.num)))
        | _ => .error (formatMismatchError (go.typeString t) v path)
    | .interface =>
        match _hd : elem? d with
        | some dynamic => unmarshalProtoValue v dynamic.typeOf (some dynamic) path
        | none => .ok (asInterface go v)
    | .pointer elem =>
        match unmarshalProtoValue v elem (elem? d) path with
        | .ok elemValue =>
            match set go elem elemValue with
            | .ok w => .ok (some (.pointer (go.pointerTo elem) (some w)))
            | .error e => .error e
        | .error e => .error e
    | .other => .error (formatMismatchError (go.typeString t) v path)
termination_by (sizeOf v, sizeOf d, go.depth t)
decreasing_by
  · exact .left _ _ (by simp)
  · exact .left _ _ (by simp)
  · exact .right _ (.left _ _ (sizeOf_dynamic _hd))
  · exact .right _ (lex_elem _hshape)

/-- `unmarshalStruct`, from field `i` on. -/
def unmarshalFields (protoFields : List (String × ProtoValue)) (d : Option (GoValue Ty))
    (path : List String) (i : Nat) (fields : List (StructField Ty)) :
    Except Failure (List (GoValue Ty)) :=
  match fields with
  | [] => .ok []
  | field :: fields =>
      if field.exported then
        match _h : protoFields.lookup (getFieldName go field) with
        | none =>
            .error (.error ("resolved value is missing field " ++
              ".".intercalate (path ++ [getFieldName go field])))
        | some v =>
            match unmarshalProtoValue v field.type (field? d i)
              (path ++ [getFieldName go field]) with
            | .ok fieldValue =>
                match set go field.type fieldValue with
                | .ok w =>
                    match unmarshalFields protoFields d path (i + 1) fields with
                    | .ok values => .ok (w :: values)
                    | .error e => .error e
                | .error e => .error e
            | .error e => .error e
      else
        match unmarshalFields protoFields d path (i + 1) fields with
        | .ok values => .ok (go.zero field.type :: values)
        | .error e => .error e
termination_by (sizeOf protoFields, fields.length, 0)
decreasing_by
  · exact .left _ _ (sizeOf_lookup _h)
  · exact .right _ (.left _ _ (by simp))
  · exact .right _ (.left _ _ (by simp))

/-- `unmarshalMap`, on the fields in the order in which they come; `entries` is what the result has
by then. -/
def unmarshalEntries (key elem : Ty) (d : Option (GoValue Ty)) (path : List String)
    (entries : List (String × GoValue Ty)) (protoFields : List (String × ProtoValue)) :
    Except Failure (List (String × GoValue Ty)) :=
  match protoFields with
  | [] => .ok entries
  | (name, v) :: protoFields =>
      if (entries? d).isSome ∧ key ≠ go.string then .error .panic
      else
        match unmarshalProtoValue v elem (mapIndex d name) (path ++ [name]) with
        | .ok elemValue =>
            if key ≠ go.string then .error .panic
            else if elemValue.isNone then
              unmarshalEntries key elem d path (deleteEntry entries name) protoFields
            else
              match set go elem elemValue with
              | .ok w => unmarshalEntries key elem d path (setEntry entries name w) protoFields
              | .error e => .error e
        | .error e => .error e
termination_by (sizeOf protoFields, 0, 0)
decreasing_by
  · exact .left _ _ (sizeOf_cons _ _ _).1
  · exact .left _ _ (sizeOf_cons _ _ _).2
  · exact .left _ _ (sizeOf_cons _ _ _).2

end

/-- `unmarshalProto`, up to the value or the error. -/
def unmarshalTo (T : Ty) (v : ProtoValue) (defaultValue : GoValue Ty) (path : List String) :
    Except Failure (GoValue Ty) :=
  match v with
  | .nil => .ok defaultValue
  | v =>
      -- `reflect.ValueOf(defaultValue)`
      match if go.isInterface T then elem? (some defaultValue) else some defaultValue with
      | none =>
          match asInterface go v with
          | none => .ok defaultValue
          | some result => assertTo go T (some result)
      | some rv =>
          match go.shape rv.typeOf with
          | .pointer elem =>
              match unmarshalProtoValue go v elem (elem? (some rv)) path with
              | .ok result =>
                  match set go elem result with
                  | .ok w => assertTo go T (some (.pointer (go.pointerTo elem) (some w)))
                  | .error e => .error e
              | .error e => .error e
          | _ =>
              match unmarshalProtoValue go v rv.typeOf (some rv) path with
              | .ok result => assertTo go T result
              | .error e => .error e

/-- `unmarshalProto`: the value, and the error if there is one; `none` is a panic. -/
def unmarshalProto (T : Ty) (v : ProtoValue) (defaultValue : GoValue Ty) (path : List String) :
    Option (GoValue Ty × Option String) :=
  match unmarshalTo go T v defaultValue path with
  | .ok value => some (value, none)
  | .error (.error message) => some (defaultValue, some message)
  | .error .panic => none

end Code

/-! ### What the value has to be -/

/-- `w` is the value of type `t` that the proto value is, with the default where that is null:
leaves are equal, a struct has all the fields that are exported, and a map the entries of the
default that are not there.  An interface has a value of the type that is in the default, or one of
the types of `AsInterface`. -/
inductive Faithful (go : Go Ty) : ProtoValue → Ty → Option (GoValue Ty) → GoValue Ty → Prop where
  | default {v t d} (null : v.isNull = true) : Faithful go v t (some d) d
  | zero {v t} (null : v.isNull = true) : Faithful go v t none (go.zero t)
  | int {q t w n d} (shape : go.shape t = .int w) (range : w.Signed n) (eq : (n : ℚ) = q) :
      Faithful go (.number q) t d (.int t n)
  | uint {q t w n d} (shape : go.shape t = .uint w) (range : w.Unsigned n) (eq : (n : ℚ) = q) :
      Faithful go (.number q) t d (.uint t n)
  | float64 {q t d} (shape : go.shape t = .float64) : Faithful go (.number q) t d (.float t q)
  | float32 {q t d} (shape : go.shape t = .float32) :
      Faithful go (.number q) t d (.float t (go.round32 q))
  | string {s t d} (shape : go.shape t = .string) : Faithful go (.string s) t d (.string t s)
  | bool {b t d} (shape : go.shape t = .bool) : Faithful go (.bool b) t d (.bool t b)
  | struct {protoFields t fields d values} (shape : go.shape t = .struct fields)
      (length : values.length = fields.length)
      (present : ∀ (i : Nat) (f : StructField Ty), fields[i]? = some f → f.exported = true →
        (protoFields.lookup (getFieldName go f)).isSome = true)
      (parts : ∀ (i : Nat) (f : StructField Ty) v w, fields[i]? = some f → f.exported = true →
        protoFields.lookup (getFieldName go f) = some v → values[i]? = some w →
        Faithful go v f.type (field? d i) w)
      (hidden : ∀ (i : Nat) (f : StructField Ty), fields[i]? = some f → f.exported = false →
        values[i]? = some (go.zero f.type)) :
      Faithful go (.struct protoFields) t d (.struct t values)
  | map {protoFields t key elem d entries} (shape : go.shape t = .map key elem)
      (present : ∀ name, (protoFields.lookup name).isSome = true →
        (entries.lookup name).isSome = true)
      (parts : ∀ name v w, protoFields.lookup name = some v → entries.lookup name = some w →
        Faithful go v elem (mapIndex d name) w)
      (others : ∀ name, protoFields.lookup name = none → entries.lookup name = mapIndex d name) :
      Faithful go (.struct protoFields) t d (.map t (some entries))
  | pointer {v t elem d w} (notNull : v.isNull = false) (shape : go.shape t = .pointer elem)
      (part : Faithful go v elem (elem? d) w) : Faithful go v t d (.pointer t (some w))
  | guided {v t d dynamic w} (notNull : v.isNull = false) (shape : go.shape t = .interface)
      (found : elem? d = some dynamic) (part : Faithful go v dynamic.typeOf (some dynamic) w) :
      Faithful go v t d (.interface t (some w))
  | natural {v t d} (notNull : v.isNull = false) (shape : go.shape t = .interface)
      (absent : elem? d = none) : Faithful go v t d (.interface t (asInterface go v))

/-! ### What is wrong -/

/-- What the code can come to: an error, a panic, or a value that is another. -/
inductive Mark where
  | mismatch
  | hazard
  | lossy
deriving DecidableEq

section Marks

variable [DecidableEq Ty] (go : Go Ty)

/-- A value of type `u` for a type `t`, at a location of type `s`. -/
def typeMark (s u t : Ty) : List Mark :=
  if u = t then []
  else if go.isInterface s ∧ go.implements u s then [.lossy]
  else [.hazard]

/-- A new pointer for a type `t` of pointers, at a location of type `s`: one of the type `t` makes
it a pointer of its own. -/
def pointerMark (s elem t : Ty) : List Mark :=
  if s = t then [] else typeMark go s (go.pointerTo elem) t

mutual

/-- What is wrong with a value for a type and a default, at a location of type `s`: the type itself,
or the interface around it. -/
def marks (v : ProtoValue) (s t : Ty) (d : Option (GoValue Ty)) : List Mark :=
  if v.isNull then []
  else match _hshape : go.shape t with
    | .struct fields =>
        match v with
        | .struct protoFields => fieldMarks protoFields d 0 fields
        | _ => [.mismatch]
    | .map key elem =>
        match v with
        | .struct protoFields =>
            match go.shape key with
            | .string => entryMarks key elem d protoFields
            | _ => [.mismatch]
        | _ => [.mismatch]
    | .string =>
        match v with
        | .string _ => typeMark go s go.string t
        | _ => [.mismatch]
    | .bool =>
        match v with
        | .bool _ => typeMark go s go.bool t
        | _ => [.mismatch]
    | .float64 =>
        match v with
        | .number _ => typeMark go s go.float64 t
        | _ => [.mismatch]
    | .float32 =>
        match v with
        | .number _ => typeMark go s go.float32 t
        | _ => [.mismatch]
    | .int w =>
        match v with
        | .number q =>
            if q.den ≠ 1 then [.mismatch] else if w.Signed q.num then [] else [.lossy]
        | _ => [.mismatch]
    | .uint w =>
        match v with
        | .number q =>
            if q < 0 ∨ q.den ≠ 1 then [.mismatch] else if w.Unsigned q.num then [] else [.lossy]
        | _ => [.mismatch]
    | .interface =>
        match _hd : elem? d with
        | some dynamic => marks v t dynamic.typeOf (some dynamic)
        | none =>
            match asInterface go v with
            | some w => if go.implements w.typeOf t then [] else [.hazard]
            | none => [.hazard]
    | .pointer elem => marks v elem elem (elem? d) ++ pointerMark go s elem t
    | .slice | .other => [.mismatch]
termination_by (sizeOf v, sizeOf d, go.depth t)
decreasing_by
  · exact .left _ _ (by simp)
  · exact .left _ _ (by simp)
  · exact .right _ (.left _ _ (sizeOf_dynamic _hd))
  · exact .right _ (lex_elem _hshape)

def fieldMarks (protoFields : List (String × ProtoValue)) (d : Option (GoValue Ty)) (i : Nat)
    (fields : List (StructField Ty)) : List Mark :=
  match fields with
  | [] => []
  | field :: fields =>
      if field.exported then
        match _h : protoFields.lookup (getFieldName go field) with
        | none => [.mismatch]
        | some v =>
            marks v field.type field.type (field? d i) ++ fieldMarks protoFields d (i + 1) fields
      else fieldMarks protoFields d (i + 1) fields
termination_by (sizeOf protoFields, fields.length, 0)
decreasing_by
  · exact .left _ _ (sizeOf_lookup _h)
  · exact .right _ (.left _ _ (by simp))
  · exact .right _ (.left _ _ (by simp))

/-- A key of a named type makes the code panic, before the entry if there is a default to look in.
An entry of an interface without a value is deleted. -/
def entryMarks (key elem : Ty) (d : Option (GoValue Ty))
    (protoFields : List (String × ProtoValue)) : List Mark :=
  match protoFields with
  | [] => []
  | (name, v) :: protoFields =>
      (if (entries? d).isSome ∧ key ≠ go.string then [.hazard] else []) ++
      (if go.isInterface elem ∧ elem? (mapIndex d name) = none ∧ v.isNull = false ∧
          asInterface go v = none then [.lossy]
        else marks v elem elem (mapIndex d name)) ++
      (if key ≠ go.string then [.hazard] else []) ++
      entryMarks key elem d protoFields
termination_by (sizeOf protoFields, 0, 0)
decreasing_by
  · exact .left _ _ (sizeOf_cons _ _ _).1
  · exact .left _ _ (sizeOf_cons _ _ _).2

end

/-- What is wrong with a value and a default of type `T`.  At the top, a new pointer has to have the
type itself, and there is one for a null value too, in the place of a nil pointer that is the
default. -/
def problems (T : Ty) (v : ProtoValue) (defaultValue : GoValue Ty) : List Mark :=
  match v with
  | .nil => []
  | v =>
      match if go.isInterface T then elem? (some defaultValue) else some defaultValue with
      | none =>
          match asInterface go v with
          | some w => if go.implements w.typeOf T then [] else [.hazard]
          | none => []
      | some rv =>
          match go.shape rv.typeOf with
          | .pointer elem =>
              (if v.isNull ∧ elem? (some rv) = none then [.lossy]
                else marks go v elem elem (elem? (some rv))) ++
              typeMark go T (go.pointerTo elem) rv.typeOf
          | _ => marks go v T rv.typeOf (some rv)

/-- The first of what is wrong that the code does not pass over. -/
def firstStop (problems : List Mark) : Option Mark := problems.find? (· ≠ .lossy)

end Marks

end UnmarshalProto

end ConfidenceResolver
