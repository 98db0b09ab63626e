import Mathlib.Algebra.Order.Ring.Nat
import Mathlib.Data.List.Basic
import Mathlib.Tactic.NormNum

/-!
# Support — the protobuf wire format

A message on the wire is a list of fields, each a key and a value.  The key is a number: the
field's number and how its value is written.

* `encodeVarint`, `decodeVarint`: numbers, seven bits a byte.
* `encodeFields`, `decodeFields`: messages.
* `decodeVarint_encodeVarint`, `decodeFields_encodeFields`: what is written is read back.
-/

namespace ConfidenceResolver

abbrev Bytes := List UInt8

namespace Wire

/-! ### Numbers -/

/-- The groups of seven bits of `n`, lowest first, in at most `fuel` bytes.  Every byte but the
last has its top bit set. -/
def encodeVarintIn : Nat → Nat → Bytes
  | 0, _ => []
  | fuel + 1, n =>
      if n < 128 then [UInt8.ofNat n]
      else UInt8.ofNat (n % 128 + 128) :: encodeVarintIn fuel (n / 128)

def encodeVarint (n : Nat) : Bytes := encodeVarintIn 10 n

/-- A number and what follows it.  `fuel` is how many bytes it may still take; of the last one
only the lowest bit is left in a word. -/
def decodeVarintIn : Nat → Bytes → Option (Nat × Bytes)
  | 0, _ => none
  | _ + 1, [] => none
  | fuel + 1, b :: bs =>
      if b.toNat < 128 then
        if fuel = 0 ∧ 1 < b.toNat then none else some (b.toNat, bs)
      else (decodeVarintIn fuel bs).map fun read => (b.toNat % 128 + 128 * read.1, read.2)

def decodeVarint (bs : Bytes) : Option (Nat × Bytes) := decodeVarintIn 10 bs

theorem toNat_ofNat_byte {n : Nat} (h : n < 256) : (UInt8.ofNat n).toNat = n := by
  rw [UInt8.toNat_ofNat']
  exact Nat.mod_eq_of_lt h

theorem decodeVarintIn_encodeVarintIn (fuel n : Nat) (rest : Bytes) (h : n < 2 * 128 ^ fuel) :
    decodeVarintIn (fuel + 1) (encodeVarintIn (fuel + 1) n ++ rest) = some (n, rest) := by
  induction fuel generalizing n with
  | zero =>
      have hsmall : n < 2 := by simpa using h
      have hbyte := toNat_ofNat_byte (show n < 256 by omega)
      have hlow : ¬ 1 < n := by omega
      simp [encodeVarintIn, decodeVarintIn, show n < 128 by omega, hbyte, hlow]
  | succ fuel ih =>
      by_cases hlast : n < 128
      · have hbyte := toNat_ofNat_byte (show n < 256 by omega)
        simp [encodeVarintIn, decodeVarintIn, hlast, hbyte]
      · -- The top bit says that the groups above follow.
        have hbyte := toNat_ofNat_byte (show n % 128 + 128 < 256 by omega)
        have hup : n / 128 < 2 * 128 ^ fuel := by
          rw [Nat.div_lt_iff_lt_mul (by decide)]
          calc n < 2 * 128 ^ (fuel + 1) := h
            _ = 2 * 128 ^ fuel * 128 := by rw [Nat.pow_succ, Nat.mul_assoc]
        rw [encodeVarintIn, if_neg hlast, List.cons_append, decodeVarintIn, hbyte,
          if_neg (by omega), ih (n / 128) hup, Option.map_some, Nat.add_mod_right, Nat.mod_mod,
          Nat.mod_add_div]

/-- A 64-bit number is read back, whatever follows it. -/
theorem decodeVarint_encodeVarint {n : Nat} (h : n < 2 ^ 64) (rest : Bytes) :
    decodeVarint (encodeVarint n ++ rest) = some (n, rest) :=
  decodeVarintIn_encodeVarintIn 9 n rest (by simpa using h)

theorem encodeVarintIn_ne_nil (fuel n : Nat) : encodeVarintIn (fuel + 1) n ≠ [] := by
  rw [encodeVarintIn]
  split <;> simp

theorem length_encodeVarintIn_le (fuel n : Nat) : (encodeVarintIn fuel n).length ≤ fuel := by
  induction fuel generalizing n with
  | zero => simp [encodeVarintIn]
  | succ fuel ih =>
      rw [encodeVarintIn]
      split
      · simp
      · simpa using ih (n / 128)

/-! ### Fields -/

/-- The value of a field, by how it is written. -/
inductive Value where
  | varint (n : Nat)
  | fixed64 (bs : Bytes)
  | len (bs : Bytes)
  | fixed32 (bs : Bytes)
  deriving DecidableEq, Repr

/-- The number of a field and its value. -/
abbrev Field := Nat × Value

namespace Value

def wireType : Value → Nat
  | varint _ => 0
  | fixed64 _ => 1
  | len _ => 2
  | fixed32 _ => 5

def encode : Value → Bytes
  | varint n => encodeVarint n
  | fixed64 bs => bs
  | len bs => encodeVarint bs.length ++ bs
  | fixed32 bs => bs

/-- The value has the width its wire type says. -/
def Fits : Value → Prop
  | varint n => n < 2 ^ 64
  | fixed64 bs => bs.length = 8
  | len bs => bs.length < 2 ^ 64
  | fixed32 bs => bs.length = 4

end Value

/-- The next `n` bytes and what follows them. -/
def takeBytes (n : Nat) (bs : Bytes) : Option (Bytes × Bytes) :=
  if bs.length < n then none else some (bs.take n, bs.drop n)

theorem takeBytes_append (bs rest : Bytes) :
    takeBytes bs.length (bs ++ rest) = some (bs, rest) := by
  simp [takeBytes]

/-- A value written as `wireType` says.  Groups are not read. -/
def decodeValue (wireType : Nat) (bs : Bytes) : Option (Value × Bytes) :=
  match wireType with
  | 0 => (decodeVarint bs).map fun read => (.varint read.1, read.2)
  | 1 => (takeBytes 8 bs).map fun read => (.fixed64 read.1, read.2)
  | 2 => (decodeVarint bs).bind fun read =>
      (takeBytes read.1 read.2).map fun taken => (.len taken.1, taken.2)
  | 5 => (takeBytes 4 bs).map fun read => (.fixed32 read.1, read.2)
  | _ => none

theorem decodeValue_encode {v : Value} (h : v.Fits) (rest : Bytes) :
    decodeValue v.wireType (v.encode ++ rest) = some (v, rest) := by
  cases v with
  | varint n => simp [decodeValue, Value.wireType, Value.encode, decodeVarint_encodeVarint h]
  | fixed64 bs =>
      have hbytes := takeBytes_append bs rest
      rw [show bs.length = 8 from h] at hbytes
      simp [decodeValue, Value.wireType, Value.encode, hbytes]
  | len bs =>
      simp [decodeValue, Value.wireType, Value.encode, decodeVarint_encodeVarint h,
        takeBytes_append]
  | fixed32 bs =>
      have hbytes := takeBytes_append bs rest
      rw [show bs.length = 4 from h] at hbytes
      simp [decodeValue, Value.wireType, Value.encode, hbytes]

def encodeField (f : Field) : Bytes := encodeVarint (8 * f.1 + f.2.wireType) ++ f.2.encode

/-- A key is a 32-bit number, and no field has the number 0. -/
def decodeField (bs : Bytes) : Option (Field × Bytes) :=
  (decodeVarint bs).bind fun read =>
    if read.1 < 2 ^ 32 ∧ read.1 / 8 ≠ 0 then
      (decodeValue (read.1 % 8) read.2).map fun value => ((read.1 / 8, value.1), value.2)
    else none

/-- The number of the field can be written in a key, and the value fits. -/
def FieldFits (f : Field) : Prop := 0 < f.1 ∧ f.1 < 2 ^ 29 ∧ f.2.Fits

theorem Value.wireType_lt (v : Value) : v.wireType < 8 := by
  cases v <;> simp [Value.wireType]

theorem decodeField_encodeField {f : Field} (h : FieldFits f) (rest : Bytes) :
    decodeField (encodeField f ++ rest) = some (f, rest) := by
  obtain ⟨number, value⟩ := f
  obtain ⟨hpos, hnumber, hvalue⟩ : 0 < number ∧ number < 2 ^ 29 ∧ value.Fits := h
  have hwire := value.wireType_lt
  have hkey : (8 * number + value.wireType) / 8 = number := by omega
  have hlow : (8 * number + value.wireType) % 8 = value.wireType := by omega
  have hwide : 8 * number + value.wireType < 2 ^ 32 := by omega
  rw [decodeField, encodeField, List.append_assoc,
    decodeVarint_encodeVarint (Nat.lt_trans hwide (by norm_num)), Option.bind_some]
  simp only [hkey, hlow, decodeValue_encode hvalue, Option.map_some]
  rw [if_pos ⟨hwide, by omega⟩]

theorem encodeField_ne_nil (f : Field) : encodeField f ≠ [] := by
  simp [encodeField, encodeVarint, encodeVarintIn_ne_nil]

/-- A field of bytes takes its bytes and two numbers. -/
theorem length_encodeField_len (n : Nat) (bs : Bytes) :
    bs.length ≤ (encodeField (n, .len bs)).length ∧
      (encodeField (n, .len bs)).length ≤ bs.length + 20 := by
  have hkey := length_encodeVarintIn_le 10 (8 * n + 2)
  have hlen := length_encodeVarintIn_le 10 bs.length
  simp only [encodeField, Value.wireType, Value.encode, encodeVarint, List.length_append]
  omega

/-! ### Messages -/

def encodeFields (fs : List Field) : Bytes := fs.flatMap encodeField

/-- The fields, in the order written.  Each takes a byte, so the length is fuel enough. -/
def decodeFieldsIn : Nat → Bytes → Option (List Field)
  | _, [] => some []
  | 0, _ :: _ => none
  | fuel + 1, b :: bs =>
      (decodeField (b :: bs)).bind fun read =>
        (decodeFieldsIn fuel read.2).map (read.1 :: ·)

def decodeFields (bs : Bytes) : Option (List Field) := decodeFieldsIn bs.length bs

theorem decodeFieldsIn_encodeFields (fs : List Field) (h : ∀ f ∈ fs, FieldFits f) (fuel : Nat)
    (hfuel : fs.length ≤ fuel) : decodeFieldsIn fuel (encodeFields fs) = some fs := by
  induction fs generalizing fuel with
  | nil => cases fuel <;> rfl
  | cons f fs ih =>
      obtain ⟨fuel, rfl⟩ : ∃ n, fuel = n + 1 := Nat.exists_eq_add_one.mpr (by
        simp only [List.length_cons] at hfuel
        omega)
      have hfield := decodeField_encodeField (h f List.mem_cons_self) (encodeFields fs)
      have hrest := ih (fun g hg => h g (List.mem_cons_of_mem _ hg)) fuel
        (Nat.le_of_succ_le_succ hfuel)
      rw [encodeFields, List.flatMap_cons, ← encodeFields]
      rcases hbytes : encodeField f ++ encodeFields fs with _ | ⟨b, bs⟩
      · exact absurd (List.append_eq_nil_iff.mp hbytes).1 (encodeField_ne_nil f)
      · rw [hbytes] at hfield
        simp [decodeFieldsIn, hfield, hrest]

theorem length_le_encodeFields (fs : List Field) : fs.length ≤ (encodeFields fs).length := by
  induction fs with
  | nil => exact Nat.zero_le _
  | cons f fs ih =>
      have hpos := List.length_pos_iff.mpr (encodeField_ne_nil f)
      rw [encodeFields, List.flatMap_cons, ← encodeFields, List.length_append, List.length_cons]
      omega

/-- A message whose fields fit is read back field by field. -/
theorem decodeFields_encodeFields {fs : List Field} (h : ∀ f ∈ fs, FieldFits f) :
    decodeFields (encodeFields fs) = some fs :=
  decodeFieldsIn_encodeFields fs h _ (length_le_encodeFields fs)

end Wire

end ConfidenceResolver
