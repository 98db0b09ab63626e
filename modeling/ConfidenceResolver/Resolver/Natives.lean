import Mathlib.Algebra.Ring.Nat
import Mathlib.Algebra.Ring.Int.Defs
import ConfidenceResolver.Proto.Values

/-!
# Resolver — what the code takes from elsewhere

The hash of `fastmurmur3`, the parsers of `chrono` and the text form of an `f64`.  Every
definition and theorem is stated for an arbitrary `Natives`.
-/

namespace ConfidenceResolver

/-- The functions the resolver calls outside its own sources. -/
structure Natives where
  /-- `murmur3_x64_128(key, 0)` -/
  murmur3 : String → BitVec 128
  /-- `f64::to_string` -/
  numberToString : Float → String
  /-- `format!("{:.0}", n)` -/
  numberToWhole : Float → String
  /-- `str::parse::<f64>` -/
  parseNumber : String → Option Float
  /-- `DateTime::from_timestamp(secs, 0)` -/
  fromTimestamp : Int64 → Option Timestamp
  /-- `DateTime::from_timestamp_millis` -/
  fromTimestampMillis : Int64 → Option Timestamp
  /-- `DateTime::parse_from_rfc3339`, in UTC -/
  parseRfc3339 : String → Option Timestamp
  /-- `NaiveDateTime::parse_from_str(s, format)`, read as UTC -/
  parseDateTime : String → String → Option Timestamp
  /-- `NaiveDate::parse_from_str(s, "%Y-%m-%d")` at midnight UTC -/
  parseDate : String → Option Timestamp

/-- `n as u64` for a signed `n`. -/
def asU64 (n : Int) : Nat := (n % 2 ^ 64).toNat

/-- `n as i32` for an unsigned `n`. -/
def asI32 (n : Nat) : Int := Int.bmod n (2 ^ 32)

/-- `from_le_bytes`. -/
def fromLeBytes (bytes : List UInt8) : Nat := bytes.foldr (fun b n => b.toNat + 256 * n) 0

/-- `bucket`: `None` for the error on zero buckets.  Only the low half of the hash is used. -/
def bucket (hash : BitVec 128) (buckets : Nat) : Option Nat :=
  if buckets = 0 then none else some (((hash.setWidth 64).toNat >>> 4) % buckets)

end ConfidenceResolver
