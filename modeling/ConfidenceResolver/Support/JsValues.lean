import Mathlib.Data.List.Basic

/-!
# Support — JavaScript values

The values that can be read from a JSON value in JavaScript.  A property that an object has not of
its own is looked for in its prototype; so what is read from a JSON value may be none itself.

* `JsValue`, `JsValue.typeOf`, `JsValue.isArray`.
* `JsValue.find`: a property, with those that are inherited.  `JsValue.getOwn`: without them.
* `JsValue.set`, `JsValue.spread`: what assignment and the spread syntax do to plain objects.
* `JsValue.IsJson`: the values of JSON.
-/

namespace ConfidenceResolver

/-- A value.  An object has its prototype and its own properties, in their order.  Of what comes
with the language there are the functions and prototypes that names lead to. -/
inductive JsValue where
  | undefined
  | null
  | boolean (b : Bool)
  | number (n : Float)
  | string (s : String)
  | array (elements : List JsValue)
  | object (prototype : JsValue) (properties : List (String × JsValue))
  | objectPrototype
  | arrayPrototype
  | function (name : String)

namespace JsValue

/-! ### Kinds -/

/-- `typeof`. -/
def typeOf : JsValue → String
  | .undefined => "undefined"
  | .boolean _ => "boolean"
  | .number _ => "number"
  | .string _ => "string"
  | .function _ => "function"
  | .null | .array _ | .object _ _ | .objectPrototype | .arrayPrototype => "object"

/-- `Array.isArray`.  `Array.prototype` is an array as well. -/
def isArray : JsValue → Bool
  | .array _ | .arrayPrototype => true
  | _ => false

/-- `=== null`. -/
def isNull : JsValue → Bool
  | .null => true
  | _ => false

/-- `[[Prototype]]`. -/
def prototype : JsValue → JsValue
  | .object prototype _ => prototype
  | .array _ => .arrayPrototype
  | .arrayPrototype => .objectPrototype
  | _ => .null

/-! ### Properties -/

/-- The properties of `Object.prototype` that are functions. -/
def objectMethods : List String :=
  ["constructor", "__defineGetter__", "__defineSetter__", "hasOwnProperty", "__lookupGetter__",
    "__lookupSetter__", "isPrototypeOf", "propertyIsEnumerable", "toString", "valueOf",
    "toLocaleString"]

/-- The properties of `Array.prototype` that are functions. -/
def arrayMethods : List String :=
  ["constructor", "at", "concat", "copyWithin", "fill", "find", "findIndex", "findLast",
    "findLastIndex", "lastIndexOf", "pop", "push", "reverse", "shift", "unshift", "slice", "sort",
    "splice", "includes", "indexOf", "join", "keys", "entries", "values", "forEach", "filter",
    "flat", "flatMap", "map", "every", "some", "reduce", "reduceRight", "toReversed", "toSorted",
    "toSpliced", "toLocaleString", "toString", "with"]

/-- The elements of an array under their indices. -/
def indexed (elements : List JsValue) : List (String × JsValue) :=
  elements.zipIdx.map fun e => (toString e.2, e.1)

/-- A property of `Object.prototype`; `__proto__` is an accessor, and reads the prototype of the
object it is read from. -/
def findObject (receiver : JsValue) (key : String) : Option JsValue :=
  if key = "__proto__" then some receiver.prototype
  else if key ∈ objectMethods then some (.function key)
  else none

/-- A property of `Array.prototype`. -/
def findArray (receiver : JsValue) (key : String) : Option JsValue :=
  if key = "length" then some (.number 0)
  else if key ∈ arrayMethods then some (.function key)
  else findObject receiver key

/-- The property as it is found along the prototypes. -/
def findFrom (receiver : JsValue) (key : String) : JsValue → Option JsValue
  | .object prototype properties => (properties.lookup key).or (findFrom receiver key prototype)
  | .array elements =>
      if key = "length" then some (.number (Float.ofNat elements.length))
      else ((indexed elements).lookup key).or (findArray receiver key)
  | .arrayPrototype => findArray receiver key
  | .objectPrototype => findObject receiver key
  | _ => none

def find (v : JsValue) (key : String) : Option JsValue := findFrom v key v

/-- `key in v`. -/
def hasKey (v : JsValue) (key : String) : Bool := (v.find key).isSome

/-- `v[key]`. -/
def get (v : JsValue) (key : String) : JsValue := (v.find key).getD .undefined

/-- An own property of an object that is no array. -/
def getOwn : JsValue → String → Option JsValue
  | .object _ properties, key => properties.lookup key
  | _, _ => none

/-- What an object literal copies from a value that is spread in it. -/
def enumerable : JsValue → List (String × JsValue)
  | .object _ properties => properties
  | .array elements => indexed elements
  | _ => []

/-- `{ ...v }`. -/
def spread (v : JsValue) : JsValue := .object .objectPrototype v.enumerable

/-- `properties` with another value of `key`, which is one of theirs. -/
def replace (properties : List (String × JsValue)) (key : String) (value : JsValue) :
    List (String × JsValue) :=
  properties.map fun e => if e.1 = key then (key, value) else e

/-- `v[key] = value`, for an object whose prototypes have no setter but that of `__proto__`.  That
takes objects and `null`, and makes them the prototype. -/
def set (v : JsValue) (key : String) (value : JsValue) : JsValue :=
  match v with
  | .object prototype properties =>
      if (properties.lookup key).isSome then .object prototype (replace properties key value)
      else if key = "__proto__" then
        if value.typeOf = "object" ∨ value.typeOf = "function" then .object value properties
        else v
      else .object prototype (properties ++ [(key, value)])
  | _ => v

/-! ### JSON -/

/-- A value of JSON: objects are plain, and no two properties have one name. -/
inductive IsJson : JsValue → Prop where
  | null : IsJson .null
  | boolean (b : Bool) : IsJson (.boolean b)
  | number (n : Float) : IsJson (.number n)
  | string (s : String) : IsJson (.string s)
  | array {elements : List JsValue} (h : ∀ v ∈ elements, IsJson v) : IsJson (.array elements)
  | object {properties : List (String × JsValue)} (nodup : (properties.map Prod.fst).Nodup)
      (h : ∀ key v, (key, v) ∈ properties → IsJson v) :
      IsJson (.object .objectPrototype properties)

end JsValue

/-- A value of JSON. -/
structure Json where
  value : JsValue
  isJson : value.IsJson

namespace JsValue

/-! ### Own properties -/

section Properties

variable {properties : List (String × JsValue)} {key key' : String} {v : JsValue}

theorem isSome_lookup : (properties.lookup key).isSome = true ↔ key ∈ properties.map Prod.fst := by
  rw [List.lookup_isSome_iff, List.mem_map]
  constructor
  · rintro ⟨e, he, heq⟩
    exact ⟨e, he, (eq_of_beq heq).symm⟩
  · rintro ⟨e, he, rfl⟩
    exact ⟨e, he, beq_self_eq_true _⟩

theorem mem_of_lookup (h : properties.lookup key = some v) : (key, v) ∈ properties := by
  obtain ⟨before, after, rfl, -⟩ := List.lookup_eq_some_iff.mp h
  exact List.mem_append_right _ List.mem_cons_self

theorem lookup_of_mem (hnodup : (properties.map Prod.fst).Nodup) (h : (key, v) ∈ properties) :
    properties.lookup key = some v := by
  obtain ⟨before, after, rfl⟩ := List.append_of_mem h
  refine List.lookup_eq_some_iff.mpr ⟨before, after, rfl, ?_⟩
  intro e he
  rw [List.map_append, List.nodup_append] at hnodup
  rw [bne_iff_ne]
  exact (hnodup.2.2 e.1 (List.mem_map_of_mem he) key (List.mem_map_of_mem List.mem_cons_self)).symm

theorem keys_replace (properties : List (String × JsValue)) (key : String) (v : JsValue) :
    (replace properties key v).map Prod.fst = properties.map Prod.fst := by
  rw [replace, List.map_map]
  apply List.map_congr_left
  intro e _
  rw [Function.comp_apply]
  split
  · next h => exact h.symm
  · rfl

theorem lookup_replace_self (h : key ∈ properties.map Prod.fst) :
    (replace properties key v).lookup key = some v := by
  induction properties with
  | nil => cases h
  | cons e properties ih =>
      rw [replace, List.map_cons, List.lookup_cons]
      by_cases he : e.1 = key
      · rw [if_pos he, beq_self_eq_true]
      · have hne : (key == e.1) = false := beq_false_of_ne (Ne.symm he)
        rw [if_neg he, hne]
        refine ih ?_
        rcases List.mem_cons.mp h with heq | hmem
        · exact absurd heq.symm he
        · exact hmem

theorem lookup_replace_of_ne (h : key' ≠ key) :
    (replace properties key v).lookup key' = properties.lookup key' := by
  induction properties with
  | nil => rfl
  | cons e properties ih =>
      rw [replace, List.map_cons, List.lookup_cons, List.lookup_cons]
      by_cases he : e.1 = key
      · have hne : (key' == e.1) = false := beq_false_of_ne (he ▸ h)
        rw [if_pos he, hne, beq_false_of_ne h]
        exact ih
      · rw [if_neg he]
        split
        · rfl
        · exact ih

end Properties

/-- An own property is found. -/
theorem find_of_getOwn {v w : JsValue} {key : String} (h : v.getOwn key = some w) :
    v.find key = some w := by
  cases v with
  | object prototype properties =>
      rw [getOwn] at h
      rw [find, findFrom, h, Option.some_or]
  | _ => cases h

theorem get_of_getOwn {v w : JsValue} {key : String} (h : v.getOwn key = some w) :
    v.get key = w := by
  rw [get, find_of_getOwn h, Option.getD_some]

theorem IsJson.of_getOwn {v w : JsValue} {key : String} (hv : v.IsJson)
    (h : v.getOwn key = some w) : w.IsJson := by
  cases hv with
  | object nodup hvalues => exact hvalues key w (mem_of_lookup h)
  | _ => cases h

/-- Assignment to an own property. -/
theorem set_own {prototype : JsValue} {properties : List (String × JsValue)} {key : String}
    (h : key ∈ properties.map Prod.fst) (value : JsValue) :
    (object prototype properties).set key value =
      .object prototype (replace properties key value) :=
  if_pos (isSome_lookup.mpr h)

end JsValue

end ConfidenceResolver
