import Mathlib.Data.Prod.Lex
import Mathlib.Data.String.Basic
import Mathlib.Data.List.Lex
import Mathlib.Data.UInt
import ConfidenceResolver.Proto.Values
import ConfidenceResolver.Support.Labelled

/-!
# Proto — telemetry data

`TelemetryData` and its parts: what a resolver or a host reports since its last report.
-/

namespace ConfidenceResolver

/-- A `BTreeMap<String, String>`: its entries in the order of their keys. -/
structure Labels where
  entries : List (String ×ₗ String)
  sorted : entries.Pairwise fun a b => (ofLex a).1 < (ofLex b).1

namespace Labels

theorem entries_injective : Function.Injective Labels.entries := by
  rintro ⟨l, hl⟩ ⟨l', hl'⟩ rfl
  rfl

/-- Maps are compared entry by entry. -/
instance : LinearOrder Labels := LinearOrder.lift' Labels.entries entries_injective

def empty : Labels := ⟨[], List.Pairwise.nil⟩

end Labels

/-- `BucketSpan`: a dense region of buckets. -/
structure BucketSpan where
  offset : Int32
  counts : List UInt32
deriving DecidableEq

/-- `ResolveLatency`. -/
structure ResolveLatency where
  sum : UInt32
  count : UInt32
  buckets : List BucketSpan
  lnRatio : Float

/-- `ResolveRate`, with the reason as the open enumeration it is on the wire. -/
structure ResolveRate where
  count : UInt32
  reason : Int32
deriving DecidableEq

/-- `StateAge`. -/
structure StateAge where
  lastStateUpdate : UInt64
deriving DecidableEq

/-- `ProviderInitRate`. -/
abbrev ProviderInitRate := Labelled Labels UInt32

/-- `ApplyDedupTelemetry`. -/
structure ApplyDedupTelemetry where
  appliesTotal : UInt32
  appliesDeduped : UInt32
  applyDedupOverflow : UInt32
  sweeps : UInt32
  mapSize : UInt32
  mapCapacity : UInt32
deriving DecidableEq

/-- `FlushTelemetry`. -/
structure FlushTelemetry where
  succeeded : UInt32
  failed : UInt32
deriving DecidableEq

/-- `EventsTelemetry`. -/
structure EventsTelemetry where
  published : UInt32
  batchesSucceeded : UInt32
  batchesFailed : UInt32
  eventsRejected : UInt32
deriving DecidableEq

/-- `TelemetryData`, with prost's defaults. -/
structure TelemetryData where
  sdk : Option Sdk := none
  resolveLatency : Option ResolveLatency := none
  resolveRate : List ResolveRate := []
  stateAge : Option StateAge := none
  memoryBytes : UInt64 := 0
  resolverVersion : String := ""
  providerInitRate : List ProviderInitRate := []
  applyDedup : Option ApplyDedupTelemetry := none
  flush : Option FlushTelemetry := none
  events : Option EventsTelemetry := none

end ConfidenceResolver
