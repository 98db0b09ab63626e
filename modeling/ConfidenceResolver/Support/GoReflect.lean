import Mathlib.Algebra.Order.Ring.Int
import Mathlib.Data.List.Basic
import Mathlib.Data.Rat.Cast.Defs

/-!
# Support — Go types and values

Types and values of Go as the package `reflect` sees them.  A type is a handle, of which its shape
is known, as with `reflect.Type`: two types are one only if their handles are, so that a named type
is told from the predeclared one, and types may be recursive.

* `Shape`, `Go`: types.
* `GoValue`, `GoValue.typeOf`: values.  `Go.zero`: the zero value of a type.
* `Go.WellTyped`: the values that there are.
* `Go.assert`: a type assertion.  `Go.store`: assignment to a location of a type, as `reflect`
  allows it.
-/

namespace ConfidenceResolver

/-! ### Types -/

/-- The widths of integers. -/
inductive Width where
  | w8
  | w16
  | w32
  | w64
deriving DecidableEq

def Width.bits : Width → Nat
  | .w8 => 8
  | .w16 => 16
  | .w32 => 32
  | .w64 => 64

/-- The signed integers of a width. -/
def Width.Signed (w : Width) (n : Int) : Prop := -2 ^ (w.bits - 1) ≤ n ∧ n < 2 ^ (w.bits - 1)

/-- The unsigned integers of a width. -/
def Width.Unsigned (w : Width) (n : Int) : Prop := 0 ≤ n ∧ n < 2 ^ w.bits

instance (w : Width) (n : Int) : Decidable (w.Signed n) := inferInstanceAs (Decidable (_ ∧ _))

instance (w : Width) (n : Int) : Decidable (w.Unsigned n) := inferInstanceAs (Decidable (_ ∧ _))

/-- `reflect.StructField`, with the `json` key of its tag. -/
structure StructField (Ty : Type) where
  name : String
  json : String
  exported : Bool
  type : Ty

/-- What is behind a type. -/
inductive Shape (Ty : Type) where
  | int (width : Width)
  | uint (width : Width)
  | float64
  | float32
  | string
  | bool
  | struct (fields : List (StructField Ty))
  | map (key elem : Ty)
  | pointer (elem : Ty)
  | interface
  | slice
  | other

/-- The types of a program, and what the platform leaves open.  Neither pointers nor structs go on
for ever. -/
structure Go (Ty : Type) where
  shape : Ty → Shape Ty
  typeString : Ty → String
  string : Ty
  bool : Ty
  float64 : Ty
  float32 : Ty
  any : Ty
  mapStringAny : Ty
  sliceAny : Ty
  shape_string : shape string = .string
  shape_bool : shape bool = .bool
  shape_float64 : shape float64 = .float64
  shape_float32 : shape float32 = .float32
  shape_any : shape any = .interface
  shape_mapStringAny : shape mapStringAny = .map string any
  shape_sliceAny : shape sliceAny = .slice
  pointerTo : Ty → Ty
  shape_pointerTo : ∀ elem, shape (pointerTo elem) = .pointer elem
  /-- Whether a type has the methods of an interface. -/
  implements : Ty → Ty → Bool
  implements_any : ∀ t, implements t any = true
  depth : Ty → Nat
  depth_elem : ∀ t elem, shape t = .pointer elem → depth elem < depth t
  size : Ty → Nat
  size_field : ∀ t fields, shape t = .struct fields → ∀ f ∈ fields, size f.type < size t
  /-- What a float beyond the range of `int64` or `uint64` is converted to. -/
  wideInt : Int → Int
  wideUint : Int → Int
  round32 : ℚ → ℚ
  showNumber : ℚ → String
  toLower : String → String

/-! ### Values -/

/-- A value with its type; `none` is `nil`. -/
inductive GoValue (Ty : Type) where
  | int (t : Ty) (n : Int)
  | uint (t : Ty) (n : Int)
  | float (t : Ty) (q : ℚ)
  | string (t : Ty) (s : String)
  | bool (t : Ty) (b : Bool)
  | struct (t : Ty) (fields : List (GoValue Ty))
  | map (t : Ty) (entries : Option (List (String × GoValue Ty)))
  | pointer (t : Ty) (target : Option (GoValue Ty))
  | interface (t : Ty) (dynamic : Option (GoValue Ty))
  | slice (t : Ty) (elements : List (GoValue Ty))
  | other (t : Ty)

/-- `Type`. -/
def GoValue.typeOf {Ty : Type} : GoValue Ty → Ty
  | .int t _ | .uint t _ | .float t _ | .string t _ | .bool t _ | .struct t _ | .map t _
  | .pointer t _ | .interface t _ | .slice t _ | .other t => t

namespace Go

variable {Ty : Type}

/-- The zero value of a type. -/
def zero (go : Go Ty) (t : Ty) : GoValue Ty :=
  match _h : go.shape t with
  | .int _ => .int t 0
  | .uint _ => .uint t 0
  | .float64 | .float32 => .float t 0
  | .string => .string t ""
  | .bool => .bool t false
  | .struct fields => .struct t (fields.attach.map fun f => go.zero f.1.type)
  | .map _ _ => .map t none
  | .pointer _ => .pointer t none
  | .interface => .interface t none
  | .slice => .slice t []
  | .other => .other t
termination_by go.size t
decreasing_by exact go.size_field t fields _h f.1 f.2

theorem typeOf_zero (go : Go Ty) (t : Ty) : (go.zero t).typeOf = t := by
  rw [zero]
  split <;> rfl

/-! ### Integers -/

/-- `Convert` of a whole float to a signed type: to `int64`, and of that the low bits. -/
def convertInt (go : Go Ty) (w : Width) (n : Int) : Int :=
  Int.bmod (if Width.w64.Signed n then n else go.wideInt n) (2 ^ w.bits)

/-- `Convert` of a whole float to an unsigned type. -/
def convertUint (go : Go Ty) (w : Width) (n : Int) : Int :=
  (if Width.w64.Unsigned n then n else go.wideUint n) % 2 ^ w.bits

theorem signed_convertInt (go : Go Ty) (w : Width) (n : Int) : w.Signed (go.convertInt w n) := by
  rw [convertInt, Width.Signed, Int.bmod]
  cases w <;> simp only [Width.bits] <;> omega

theorem unsigned_convertUint (go : Go Ty) (w : Width) (n : Int) :
    w.Unsigned (go.convertUint w n) := by
  rw [convertUint, Width.Unsigned]
  cases w <;> simp only [Width.bits] <;> omega

/-- A float is converted to itself exactly where the type has it. -/
theorem convertInt_eq_iff (go : Go Ty) (w : Width) (n : Int) :
    go.convertInt w n = n ↔ w.Signed n := by
  constructor
  · intro h
    rw [← h]
    exact go.signed_convertInt w n
  · intro h
    have hwide : Width.w64.Signed n := by
      rw [Width.Signed] at h ⊢
      cases w <;> simp only [Width.bits] at h ⊢ <;> omega
    rw [convertInt, if_pos hwide, Int.bmod]
    rw [Width.Signed] at h
    cases w <;> simp only [Width.bits] at h ⊢ <;> omega

theorem convertUint_eq_iff (go : Go Ty) (w : Width) (n : Int) :
    go.convertUint w n = n ↔ w.Unsigned n := by
  constructor
  · intro h
    rw [← h]
    exact go.unsigned_convertUint w n
  · intro h
    have hwide : Width.w64.Unsigned n := by
      rw [Width.Unsigned] at h ⊢
      cases w <;> simp only [Width.bits] at h ⊢ <;> omega
    rw [convertUint, if_pos hwide]
    exact Int.emod_eq_of_lt h.1 h.2

/-! ### Values of a type -/

/-- The values that there are: of its type is every part of one. -/
inductive WellTyped (go : Go Ty) : GoValue Ty → Prop where
  | int {t w n} (shape : go.shape t = .int w) (range : w.Signed n) : WellTyped go (.int t n)
  | uint {t w n} (shape : go.shape t = .uint w) (range : w.Unsigned n) : WellTyped go (.uint t n)
  | float64 {t q} (shape : go.shape t = .float64) : WellTyped go (.float t q)
  | float32 {t q} (shape : go.shape t = .float32) : WellTyped go (.float t q)
  | string {t s} (shape : go.shape t = .string) : WellTyped go (.string t s)
  | bool {t b} (shape : go.shape t = .bool) : WellTyped go (.bool t b)
  | struct {t fields values} (shape : go.shape t = .struct fields)
      (types : values.map GoValue.typeOf = fields.map StructField.type)
      (parts : ∀ v ∈ values, WellTyped go v) : WellTyped go (.struct t values)
  | nilMap {t key elem} (shape : go.shape t = .map key elem) : WellTyped go (.map t none)
  | map {t key elem entries} (shape : go.shape t = .map key elem)
      (types : ∀ name v, (name, v) ∈ entries → v.typeOf = elem)
      (parts : ∀ name v, (name, v) ∈ entries → WellTyped go v) :
      WellTyped go (.map t (some entries))
  | nilPointer {t elem} (shape : go.shape t = .pointer elem) : WellTyped go (.pointer t none)
  | pointer {t v} (shape : go.shape t = .pointer v.typeOf) (part : WellTyped go v) :
      WellTyped go (.pointer t (some v))
  | nilInterface {t} (shape : go.shape t = .interface) : WellTyped go (.interface t none)
  | interface {t v} (shape : go.shape t = .interface) (concrete : go.shape v.typeOf ≠ .interface)
      (implements : go.implements v.typeOf t = true) (part : WellTyped go v) :
      WellTyped go (.interface t (some v))
  | slice {t elements} (shape : go.shape t = .slice) : WellTyped go (.slice t elements)
  | other {t} (shape : go.shape t = .other) : WellTyped go (.other t)

/-- A default for a type, if there is one. -/
def HasType (go : Go Ty) (t : Ty) (d : Option (GoValue Ty)) : Prop :=
  ∀ v, d = some v → v.typeOf = t ∧ go.WellTyped v

/-- A value of a type. -/
structure Of (go : Go Ty) (t : Ty) where
  value : GoValue Ty
  typeOf : value.typeOf = t
  wellTyped : go.WellTyped value

/-! ### Parts -/

/-- `Elem`, of an interface or a pointer that is not `nil`. -/
def elem? : Option (GoValue Ty) → Option (GoValue Ty)
  | some (.interface _ (some v)) | some (.pointer _ (some v)) => some v
  | _ => none

/-- `Field(i)`. -/
def field? (d : Option (GoValue Ty)) (i : Nat) : Option (GoValue Ty) :=
  match d with
  | some (.struct _ values) => values[i]?
  | _ => none

/-- The entries of a map that is not `nil`. -/
def entries? : Option (GoValue Ty) → Option (List (String × GoValue Ty))
  | some (.map _ entries) => entries
  | _ => none

/-- `MapIndex(key)`. -/
def mapIndex (d : Option (GoValue Ty)) (key : String) : Option (GoValue Ty) :=
  (entries? d).bind (List.lookup key)

theorem sizeOf_elem? {d : Option (GoValue Ty)} (h : d ≠ none) : sizeOf (elem? d) < sizeOf d := by
  match d with
  | none => exact absurd rfl h
  | some v =>
      rw [elem?.eq_def]
      split
      · next heq =>
          cases heq
          simp
          omega
      · next heq =>
          cases heq
          simp
          omega
      · cases v <;> simp +arith

/-! ### Parts of typed values -/

section Parts

variable {go : Go Ty} {t : Ty} {d : Option (GoValue Ty)}

theorem Of.hasType (default : go.Of t) : go.HasType t (some default.value) := by
  intro v hv
  cases hv
  exact ⟨default.typeOf, default.wellTyped⟩

theorem HasType.pointer {elem : Ty} (h : go.HasType t d) (hshape : go.shape t = .pointer elem) :
    go.HasType elem (elem? d) := by
  intro v hv
  match d, hv with
  | some (.pointer t' (some v')), hv =>
      cases hv
      obtain ⟨rfl, htyped⟩ := h _ rfl
      cases htyped with
      | pointer hshape' part =>
          cases hshape.symm.trans hshape'
          exact ⟨rfl, part⟩
  | some (.interface t' (some v')), hv =>
      obtain ⟨rfl, htyped⟩ := h _ rfl
      cases htyped with
      | interface hshape' => cases hshape.symm.trans hshape'

theorem HasType.pointer_value {elem : Ty} {v : GoValue Ty} (h : go.HasType t d)
    (hshape : go.shape t = .pointer elem) (hv : elem? d = some v) :
    d = some (.pointer t (some v)) := by
  match d, hv with
  | some (.pointer t' (some v')), hv =>
      cases hv
      obtain ⟨rfl, -⟩ := h _ rfl
      rfl
  | some (.interface t' (some v')), hv =>
      obtain ⟨rfl, htyped⟩ := h _ rfl
      cases htyped with
      | interface hshape' => cases hshape.symm.trans hshape'

/-- The dynamic value of an interface: it has a type of its own, which is no interface. -/
theorem HasType.interface {v : GoValue Ty} (h : go.HasType t d)
    (hshape : go.shape t = .interface) (hv : elem? d = some v) :
    d = some (.interface t (some v)) ∧ go.WellTyped v ∧ go.shape v.typeOf ≠ .interface ∧
      go.implements v.typeOf t = true := by
  match d, hv with
  | some (.pointer t' (some v')), hv =>
      obtain ⟨rfl, htyped⟩ := h _ rfl
      cases htyped with
      | pointer hshape' => cases hshape.symm.trans hshape'
  | some (.interface t' (some v')), hv =>
      cases hv
      obtain ⟨rfl, htyped⟩ := h _ rfl
      cases htyped with
      | interface _ hconcrete himplements part => exact ⟨rfl, part, hconcrete, himplements⟩

theorem HasType.nil_interface {v : GoValue Ty} (h : go.HasType t (some v))
    (hshape : go.shape t = .interface) (hnone : elem? (some v) = none) : v = .interface t none := by
  obtain ⟨rfl, htyped⟩ := h v rfl
  cases htyped with
  | nilInterface => rfl
  | interface => cases hnone
  | _ shape => cases hshape.symm.trans shape

theorem HasType.field {fields : List (StructField Ty)} (h : go.HasType t d)
    (hshape : go.shape t = .struct fields) {i : Nat} {f : StructField Ty}
    (hf : fields[i]? = some f) : go.HasType f.type (field? d i) := by
  intro v hv
  match d, hv with
  | some (.struct t' values), hv =>
      obtain ⟨rfl, htyped⟩ := h _ rfl
      cases htyped with
      | struct hshape' types parts =>
          cases hshape.symm.trans hshape'
          have hv' : values[i]? = some v := hv
          refine ⟨?_, parts v (List.mem_of_getElem? hv')⟩
          have htypes := congrArg (fun l => l[i]?) types
          simpa [hv', hf] using htypes

theorem HasType.mapIndex {key elem : Ty} (h : go.HasType t d)
    (hshape : go.shape t = .map key elem) (name : String) :
    go.HasType elem (mapIndex d name) := by
  intro v hv
  match d, hv with
  | some (.map t' (some entries)), hv =>
      obtain ⟨rfl, htyped⟩ := h _ rfl
      cases htyped with
      | map hshape' types parts =>
          cases hshape.symm.trans hshape'
          obtain ⟨before, after, heq, -⟩ := List.lookup_eq_some_iff.mp hv
          have hmem : (name, v) ∈ entries := heq ▸ List.mem_append_right _ List.mem_cons_self
          exact ⟨types name v hmem, parts name v hmem⟩
  | some (.map t' none), hv => cases hv

end Parts

/-! ### Assignment -/

def isInterface (go : Go Ty) (t : Ty) : Bool :=
  match go.shape t with
  | .interface => true
  | _ => false

theorem isInterface_iff {go : Go Ty} {t : Ty} :
    go.isInterface t = true ↔ go.shape t = .interface := by
  rw [isInterface]
  split
  · next heq => exact iff_of_true rfl heq
  · next hne => exact iff_of_false Bool.false_ne_true hne

section Assignment

variable [DecidableEq Ty]

/-- `x.(t)`: `none` where it panics. -/
def assert (go : Go Ty) (t : Ty) (v : GoValue Ty) : Option (GoValue Ty) :=
  if v.typeOf = t then some v
  else if go.isInterface t ∧ go.implements v.typeOf t then some (.interface t (some v))
  else none

/-- Whether pointers of type `u` are assignable to the pointer type `t`: the elements are one type,
and one of the two has no name. -/
def assignablePointer (go : Go Ty) (t u : Ty) : Bool :=
  match go.shape t, go.shape u with
  | .pointer elem, .pointer elem' =>
      elem = elem' && (t = go.pointerTo elem || u = go.pointerTo elem)
  | _, _ => false

/-- `Set` of a location of type `t`, with what it has then: `none` where it panics, as of the zero
`Value`.  A pointer gets the type of the location.  (So would a map or a slice of a type without a
name; what the code puts at a location of another type is a pointer, or has a type with a name, or
goes into an interface.) -/
def store (go : Go Ty) (t : Ty) : Option (GoValue Ty) → Option (GoValue Ty)
  | none => none
  | some (.pointer u target) =>
      if go.assignablePointer t u then some (.pointer t target) else go.assert t (.pointer u target)
  | some v => go.assert t v

variable {go : Go Ty} {t : Ty} {v : GoValue Ty}

theorem assert_self (go : Go Ty) (v : GoValue Ty) : go.assert v.typeOf v = some v := if_pos rfl

theorem assert_interface (hshape : go.shape t = .interface)
    (hconcrete : go.shape v.typeOf ≠ .interface) : go.assert t v =
      if go.implements v.typeOf t then some (.interface t (some v)) else none := by
  have hne : v.typeOf ≠ t := by
    rintro rfl
    exact hconcrete hshape
  rw [assert, if_neg hne]
  exact if_congr (and_iff_right (isInterface_iff.mpr hshape)) rfl rfl

/-- Types that are no interfaces take values of their own only. -/
theorem assert_concrete (hshape : go.shape t ≠ .interface) (hne : v.typeOf ≠ t) :
    go.assert t v = none := by
  rw [assert, if_neg hne]
  exact if_neg fun h => hshape (isInterface_iff.mp h.1)

/-- Values of one type go to the same types, and stay apart there. -/
theorem assert_of_typeOf {v' w : GoValue Ty} (htype : v'.typeOf = v.typeOf)
    (h : go.assert t v = some w) : ∃ w', go.assert t v' = some w' ∧ (w' = w → v' = v) := by
  rw [assert] at h ⊢
  rw [htype]
  split at h
  · next heq =>
      cases h
      exact ⟨v', if_pos heq, id⟩
  · next hne =>
      split at h
      · next himplements =>
          cases h
          refine ⟨.interface t (some v'), ?_, fun hw => ?_⟩
          · rw [if_neg hne, if_pos himplements]
          · cases hw
            rfl
      · cases h

/-- A value of another type goes to the same type only if that is an interface. -/
theorem assert_of_typeOf_ne {v' w : GoValue Ty} (htype : v'.typeOf ≠ v.typeOf)
    (hv : go.shape v.typeOf ≠ .interface) (hv' : go.shape v'.typeOf ≠ .interface)
    (h : go.assert t v = some w) : if go.isInterface t ∧ go.implements v'.typeOf t then
      go.assert t v' = some (.interface t (some v')) ∧ w = .interface t (some v)
    else go.assert t v' = none := by
  by_cases hshape : go.shape t = .interface
  · rw [assert_interface hshape hv] at h
    rw [assert_interface hshape hv', if_congr (and_iff_right (isInterface_iff.mpr hshape)) rfl rfl]
    split at h
    · cases h
      split
      · exact ⟨rfl, rfl⟩
      · rfl
    · cases h
  · have hnot : ¬ (go.isInterface t = true ∧ go.implements v'.typeOf t = true) :=
      fun hand => hshape (isInterface_iff.mp hand.1)
    rw [if_neg hnot]
    refine assert_concrete hshape ?_
    rintro rfl
    rw [assert_concrete hshape htype.symm] at h
    cases h

theorem assignablePointer_eq_true {u : Ty} (h : go.assignablePointer t u = true) :
    ∃ elem, go.shape t = .pointer elem ∧ go.shape u = .pointer elem := by
  rw [assignablePointer] at h
  split at h
  · next elem elem' ht hu =>
      rw [Bool.and_eq_true, decide_eq_true_iff] at h
      obtain ⟨rfl, -⟩ := h
      exact ⟨elem, ht, hu⟩
  · cases h

/-- At a location that has not the type of a pointer, `Set` is the type assertion. -/
theorem store_of_location (hshape : ∀ elem, go.shape t ≠ .pointer elem) :
    go.store t (some v) = go.assert t v := by
  cases v with
  | pointer u target =>
      refine if_neg fun h => ?_
      obtain ⟨elem, ht, -⟩ := assignablePointer_eq_true h
      exact hshape elem ht
  | _ => rfl

/-- So it is of a value that is no pointer. -/
theorem store_of_value (hshape : ∀ elem, go.shape v.typeOf ≠ .pointer elem) :
    go.store t (some v) = go.assert t v := by
  cases v with
  | pointer u target =>
      refine if_neg fun h => ?_
      obtain ⟨elem, -, hu⟩ := assignablePointer_eq_true h
      exact hshape elem hu
  | _ => rfl

theorem store_self (go : Go Ty) (v : GoValue Ty) : go.store v.typeOf (some v) = some v := by
  cases v with
  | pointer u target =>
      rw [GoValue.typeOf, store]
      split
      · rfl
      · exact assert_self go (.pointer u target)
  | _ => exact assert_self go _

theorem store_interface (hshape : go.shape t = .interface)
    (hconcrete : go.shape v.typeOf ≠ .interface) : go.store t (some v) =
      if go.implements v.typeOf t then some (.interface t (some v)) else none := by
  rw [store_of_location fun elem => ne_of_eq_of_ne hshape (by simp)]
  exact assert_interface hshape hconcrete

/-- A new pointer goes to every location of a type of pointers to its element. -/
theorem store_pointerTo {elem : Ty} (hshape : go.shape t = .pointer elem)
    (target : Option (GoValue Ty)) :
    go.store t (some (.pointer (go.pointerTo elem) target)) = some (.pointer t target) := by
  refine if_pos ?_
  rw [assignablePointer, hshape, go.shape_pointerTo]
  simp

end Assignment

/-! ### Entries of maps -/

section Entries

variable {entries : List (String × GoValue Ty)} {name key : String} {v : GoValue Ty}

/-- The entries less that of a key. -/
def deleteEntry (entries : List (String × GoValue Ty)) (name : String) :
    List (String × GoValue Ty) :=
  entries.filter fun e => e.1 ≠ name

def setEntry (entries : List (String × GoValue Ty)) (name : String) (v : GoValue Ty) :
    List (String × GoValue Ty) :=
  (name, v) :: deleteEntry entries name

theorem lookup_deleteEntry_self : (deleteEntry entries name).lookup name = none := by
  rw [List.lookup_eq_none_iff]
  intro e he
  rw [bne_iff_ne]
  exact (of_decide_eq_true (List.mem_filter.mp he).2).symm

theorem lookup_deleteEntry_of_ne (h : key ≠ name) :
    (deleteEntry entries name).lookup key = entries.lookup key := by
  induction entries with
  | nil => rfl
  | cons e entries ih =>
      rw [deleteEntry] at ih ⊢
      by_cases he : e.1 = name
      · have hne : (key == e.1) = false := beq_false_of_ne (he ▸ h)
        rw [List.filter_cons_of_neg (by simpa using he), ih, List.lookup_cons, hne]
      · rw [List.filter_cons_of_pos (by simpa using he), List.lookup_cons, List.lookup_cons, ih]

theorem lookup_setEntry_self : (setEntry entries name v).lookup name = some v := by
  rw [setEntry, List.lookup_cons, beq_self_eq_true]

theorem lookup_setEntry_of_ne (h : key ≠ name) :
    (setEntry entries name v).lookup key = entries.lookup key := by
  rw [setEntry, List.lookup_cons, beq_false_of_ne h]
  exact lookup_deleteEntry_of_ne h

end Entries

end Go

end ConfidenceResolver
