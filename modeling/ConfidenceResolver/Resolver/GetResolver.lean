import Mathlib.Data.String.Basic
import ConfidenceResolver.Support.SortedMap
import ConfidenceResolver.Resolver.Resolve

/-!
# Resolver — from a client secret to an account resolver

`get_resolver` finds the client of a secret and merges the client's managed context, a map from
dotted paths, into the context of the request.

* `unflatten` writes the managed paths, in their order, into one nested struct.
* `mergeStructs` lays that struct over the request's.
* `maskSecret` cuts a secret at byte offsets: `none` where the cut falls inside a character.
-/

namespace ConfidenceResolver

/-! ### The managed context -/

/-- `set_nested`, along the remaining parts of the path. -/
def setNested (current : Struct) : List String → Value → Struct
  | [], _ => current
  | [key], val => Struct.insert current key val
  | key :: next :: parts, val =>
      let nested := match current.lookup key with
        | some (.struct fields) => fields
        | _ => []
      Struct.insert current key (.struct (setNested nested (next :: parts) val))

/-- `unflatten`. -/
def unflatten (flat : SortedMap String Value) : Struct :=
  flat.entries.foldl (fun root e => setNested root (split '.' e.1) e.2) []

mutual

/-- `merge_structs`: the loop over the managed fields, with `result` the request's fields as
changed so far. -/
def mergeStructs : Struct → Struct → Struct
  | [], result => result
  | (key, managedVal) :: managed, result =>
      mergeStructs managed (Struct.insert result key (mergeValue managedVal (result.lookup key)))

/-- The value `merge_structs` inserts for one managed field. -/
def mergeValue : Value → Option Value → Value
  | .struct ms, some (.struct rs) => .struct (mergeStructs ms rs)
  | managedVal, _ => managedVal

end

/-- `managed_context::merge`. -/
def merge (managed : SortedMap String Value) (requestContext : Struct) : Struct :=
  if managed.entries.isEmpty then requestContext
  else mergeStructs (unflatten managed) requestContext

/-! ### The client of a secret -/

/-- `&s[..n]`: `none` where byte `n` is not the start of a character. -/
def takeBytes : Nat → List Char → Option (List Char)
  | 0, _ => some []
  | _ + 1, [] => none
  | n + 1, c :: cs =>
      if c.utf8Size ≤ n + 1 then (takeBytes (n + 1 - c.utf8Size) cs).map (c :: ·) else none

/-- `&s[n..]`. -/
def dropBytes : Nat → List Char → Option (List Char)
  | 0, cs => some cs
  | _ + 1, [] => none
  | n + 1, c :: cs => if c.utf8Size ≤ n + 1 then dropBytes (n + 1 - c.utf8Size) cs else none

/-- `mask_secret`. -/
def maskSecret (s : String) : Option String :=
  let len := s.utf8ByteSize
  if len ≤ 6 then some "***"
  else do
    let head ← takeBytes 3 s.toList
    let tail ← dropBytes (len - 3) s.toList
    return String.ofList head ++ "..." ++ String.ofList tail

/-- `get_resolver`.  The outer `none` is the panic of a `mask_secret` in the error's text. -/
def ResolverState.getResolver (state : ResolverState) (natives : Natives) (clientSecret : String)
    (evaluationContext : Struct) (canEncrypt : Bool) : Option (Except String AccountResolver) :=
  match state.secrets.get? clientSecret with
  | none => do
      let requested ← maskSecret clientSecret
      let available ← (state.secrets.entries.map Prod.fst).mapM maskSecret
      return .error ("client secret not found: requested=" ++ requested ++ ", available=[" ++
        ", ".intercalate available ++ "]")
  | some client =>
      some (.ok
        { natives, client, state
          context := merge (SortedMap.ofPairs client.managedContext) evaluationContext
          disableExposureCollection := false
          canEncrypt })

end ConfidenceResolver
