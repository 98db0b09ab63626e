import Mathlib.Data.List.AList
import ConfidenceResolver.Support.HashMap
import ConfidenceResolver.Support.NamedMap
import ConfidenceResolver.Resolver.Value

/-!
# Resolver — state, client and evaluation context

What an `AccountResolver` holds, and the reads that need nothing but it: attributes of the
evaluation context, the randomization unit, the salted hash of a unit, and the bloom filter of a
materialized segment.
-/

namespace ConfidenceResolver

/-- `BloomFilter`: `numHashFunctions` is a `u32`, `numBits` a `u64`. -/
structure BloomFilter where
  bits : List Bool
  numHashFunctions : Nat
  numBits : Nat

/-- The loop of `might_contain`, with a `usize` as wide as the bit index.  `None` is the panic of a
remainder by zero. -/
def BloomFilter.probe (f : BloomFilter) (h2 : BitVec 64) : Nat → BitVec 64 → Option Bool
  | 0, _ => some true
  | k + 1, combined =>
      if f.numBits = 0 then none
      else if f.bits[(combined.setWidth 63).toNat % f.numBits]? = some true then
        f.probe h2 k (combined + h2)
      else some false

/-- `BloomFilter::might_contain`. -/
def BloomFilter.mightContain (f : BloomFilter) (nat : Natives) (key : String) : Option Bool :=
  let hash128 := nat.murmur3 key
  f.probe ((hash128 >>> 64).setWidth 64) f.numHashFunctions (hash128.setWidth 64)

/-- `Account`. -/
structure Account where
  name : String

/-- `Account::salt`: needs a name of the form `accounts/<id>`. -/
def Account.salt (a : Account) : Option String :=
  (split '/' a.name)[1]?.map ("MegaSalt-" ++ ·)

/-- `Account::salt_unit`. -/
def Account.saltUnit (a : Account) (unit : String) : Option String :=
  a.salt.map fun salt => salt ++ "|" ++ unit

/-- `Client`. -/
structure Client where
  account : Account
  clientName : String
  clientCredentialName : String
  environments : List String
  managedContext : List (String × Value)

/-- `ResolverState`. -/
structure ResolverState where
  secrets : HashMap String Client
  flags : NamedMap Flag Flag.name
  segments : NamedMap Segment Segment.name
  bitsets : AList fun _ : String => List Bool
  bloomFilters : AList fun _ : String => BloomFilter
  sdk : Option Sdk

/-- `AccountResolver`: `context` is the evaluation context after the managed context was merged
in.  Of the encryption key the model keeps whether `encrypt_resolve_token` accepts it: without
`std` only a key of zeros is accepted. -/
structure AccountResolver where
  natives : Natives
  client : Client
  state : ResolverState
  context : Struct
  disableExposureCollection : Bool
  canEncrypt : Bool

/-- `get_attribute_value` along the parts of a path. -/
def getPath : Struct → List String → Value
  | _, [] => .unset
  | s, [field] => (s.lookup field).getD .unset
  | s, field :: path =>
      match s.lookup field with
      | some (.struct fields) => getPath fields path
      | _ => .unset

namespace AccountResolver

variable (r : AccountResolver)

/-- `get_attribute_value`. -/
def getAttributeValue (fieldPath : String) : Value := getPath r.context (split '.' fieldPath)

/-- A targeting key of at most 100 bytes. -/
def checkedUnit (unit : String) : Except String (Option String) :=
  if unit.utf8ByteSize > 100 then .error "Targeting key is too long, max 100 characters."
  else .ok (some unit)

/-- `get_targeting_key`.  A number must be finite and whole. -/
def getTargetingKey (targetingKey : String) : Except String (Option String) :=
  match r.getAttributeValue targetingKey with
  | .unset | .null => .ok none
  | .string s => checkedUnit s
  | .number n =>
      if n.isFinite && n.floor == n then checkedUnit (r.natives.numberToWhole n)
      else .error "TargetingKeyError"
  | _ => .error "TargetingKeyError"

/-- `enabled_for_environment`. -/
def enabledForEnvironment (rule : Rule) : Bool :=
  rule.environments.isEmpty || rule.environments.any r.client.environments.contains

end AccountResolver

end ConfidenceResolver
