import Mathlib.Data.List.Basic

/-!
# Proto — the dynamic values

`google.protobuf.Value` and `Struct`, timestamps, and the schema of a flag's value.  A message
field that prost generates as an `Option` stays an `Option`; a `oneof` is an inductive type, and
the message around it is that type with the constructor `unset` for the absent case.

A map field is a list of pairs, read by `List.lookup`.
-/

namespace ConfidenceResolver

/-- `google.protobuf.Timestamp`. -/
structure Timestamp where
  seconds : Int
  nanos : Int
deriving DecidableEq

/-- `google.protobuf.Value`, with `unset` for `kind: None`. -/
inductive Value where
  | unset
  | null
  | number (n : Float)
  | string (s : String)
  | bool (b : Bool)
  | list (values : List Value)
  | struct (fields : List (String × Value))

instance : Inhabited Value := ⟨.unset⟩

/-- `google.protobuf.Struct`: its `fields`. -/
abbrev Struct := List (String × Value)

/-- `None` or a `NullValue`. -/
def Value.isNull : Value → Bool
  | .unset | .null => true
  | _ => false

/-- `FlagSchema`, with `unset` for `schema_type: None`. -/
inductive FlagSchema where
  | unset
  | structSchema (schema : List (String × FlagSchema))
  | listSchema (element : Option FlagSchema)
  | intSchema
  | doubleSchema
  | stringSchema
  | boolSchema

/-- `StructFlagSchema`: its `schema` map. -/
abbrev StructFlagSchema := List (String × FlagSchema)

/-- `Sdk.sdk`: the identifier of a Confidence SDK, or a custom name. -/
inductive SdkName where
  | id (n : Int)
  | customId (s : String)
deriving DecidableEq

/-- `Sdk`. -/
structure Sdk where
  sdk : Option SdkName
  version : String
deriving DecidableEq

/-- `str::split(c)`: the pieces between the occurrences of `c`, never an empty list. -/
def split (c : Char) (s : String) : List String :=
  (s.toList.splitOn c).map String.ofList

theorem split_ne_nil (c : Char) (s : String) : split c s ≠ [] :=
  fun h => List.splitOn_ne_nil c s.toList (List.map_eq_nil_iff.mp h)

example : split '/' "segments/a" = ["segments", "a"] := by decide

end ConfidenceResolver
