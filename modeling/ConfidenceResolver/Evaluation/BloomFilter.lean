import ConfidenceResolver.Materialization.SuspendResume
import ConfidenceResolver.Resolver.FromProto
import ConfidenceResolver.Support.PackedBits

/-!
# Evaluation — bloom filters

A filter is a table of bits that is built elsewhere: for each key the bits are set whose indices its
hash gives, in words whose highest byte comes first.  `from_proto` turns the words around, and
`might_contain` looks at the bits of a key.

* `mightContain_iff`: a key is found when all its bits are set, whatever the table.
* `fromProto_bit`: the bit that `might_contain` looks at is the one that was set.
* `bloom_filter_keys`: every key of a built filter is found, and any other one only when each of its
  bits is one of a key.
-/

namespace ConfidenceResolver

/-! ### The bits of a key -/

/-- The index of the bit for a combined hash: without its sign, modulo the number of bits. -/
def indexOf (numBits : Nat) (combined : BitVec 64) : Nat := (combined.setWidth 63).toNat % numBits

/-- The `i`th combined hash of a key is `h1 + i * h2`. -/
def combinedHash (natives : Natives) (key : String) (i : Nat) : BitVec 64 :=
  let hash128 := natives.murmur3 key
  hash128.setWidth 64 + BitVec.ofNat 64 i * (hash128 >>> 64).setWidth 64

/-- The indices of a key's bits. -/
def keyBits (natives : Natives) (numHashFunctions numBits : Nat) (key : String) : List Nat :=
  (List.range numHashFunctions).map fun i => indexOf numBits (combinedHash natives key i)

/-- The loop over the hash functions adds `h2` each time. -/
def probes (numBits : Nat) (h2 : BitVec 64) : Nat → BitVec 64 → List Nat
  | 0, _ => []
  | k + 1, combined => indexOf numBits combined :: probes numBits h2 k (combined + h2)

theorem probes_eq (numBits : Nat) (h2 : BitVec 64) (k : Nat) (combined : BitVec 64) :
    probes numBits h2 k combined =
      (List.range k).map fun i => indexOf numBits (combined + BitVec.ofNat 64 i * h2) := by
  induction k generalizing combined with
  | zero => rfl
  | succ k ih =>
      rw [probes, ih, List.range_succ_eq_map, List.map_cons, List.map_map]
      congr 1
      · simp
      · congr 1
        funext i
        have hnext : BitVec.ofNat 64 (i + 1) * h2 = h2 + BitVec.ofNat 64 i * h2 := by
          rw [BitVec.ofNat_add, BitVec.add_mul, BitVec.one_mul, BitVec.add_comm]
        rw [Function.comp_apply, hnext, BitVec.add_assoc]

/-- `probe` asks for the bits of `probes`, up to the first one that is not set. -/
theorem probe_eq {f : BloomFilter} (h : f.numBits ≠ 0) (h2 : BitVec 64) (k : Nat)
    (combined : BitVec 64) :
    f.probe h2 k combined =
      some ((probes f.numBits h2 k combined).all fun j => f.bits[j]? == some true) := by
  induction k generalizing combined with
  | zero => rfl
  | succ k ih =>
      rw [BloomFilter.probe, if_neg h, probes, List.all_cons, indexOf]
      split
      · rename_i hset
        rw [ih, hset, beq_self_eq_true, Bool.true_and]
      · rename_i hset
        rw [beq_eq_false_iff_ne.mpr hset, Bool.false_and]

/-- **A key is found** when each of its bits is set. -/
theorem mightContain_iff {f : BloomFilter} (h : f.numBits ≠ 0) (natives : Natives) (key : String) :
    ∃ found, f.mightContain natives key = some found ∧
      (found = true ↔ ∀ j ∈ keyBits natives f.numHashFunctions f.numBits key,
        f.bits[j]? = some true) := by
  refine ⟨_, probe_eq h _ _ _, ?_⟩
  rw [probes_eq, List.all_eq_true]
  simp only [beq_iff_eq]
  rfl

/-! ### The layout -/

theorem bitsOf_getElem? (data : List UInt8) (j : Nat) :
    (bitsOf data)[j]? = data[j / 8]?.map fun b => b.toNat.testBit (j % 8) := by
  induction data generalizing j with
  | nil => rfl
  | cons b data ih =>
      have hbyte : ((List.range 8).map b.toNat.testBit).length = 8 := rfl
      have hcons : bitsOf (b :: data) = (List.range 8).map b.toNat.testBit ++ bitsOf data := rfl
      rw [hcons]
      by_cases hj : j < 8
      · rw [List.getElem?_append_left (by rwa [hbyte]), Nat.div_eq_of_lt hj, Nat.mod_eq_of_lt hj,
          List.getElem?_map, List.getElem?_range hj]
        rfl
      · have hge := Nat.not_lt.mp hj
        have hdiv : j / 8 = (j - 8) / 8 + 1 := by omega
        have hmod : j % 8 = (j - 8) % 8 := by omega
        rw [List.getElem?_append_right (by rwa [hbyte]), hbyte, ih, hdiv, List.getElem?_cons_succ,
          hmod]

/-- In a whole number of words, byte `m` comes from the same word, counted from its end. -/
theorem reverseChunks_getElem? {data : List UInt8} {words m : Nat} (hdata : data.length = 8 * words)
    (hm : m < 8 * words) :
    (reverseChunks data)[m]? = data[8 * (m / 8) + (7 - m % 8)]? := by
  have hwords : data.length / 8 = words := by omega
  have hrest : data.drop (8 * words) = [] := List.drop_eq_nil_of_le (Nat.le_of_eq hdata)
  have hchunk : ∀ i < words, ((data.drop (8 * i)).take 8).reverse.length = 8 := by
    intro i hi
    rw [List.length_reverse, List.length_take, List.length_drop]
    omega
  have hlast : m % 8 < 8 := Nat.mod_lt _ (by decide)
  rw [reverseChunks, hwords, hrest, List.append_nil, getElem?_blocks _ hchunk hm]
  have hlength := hchunk (m / 8) (Nat.div_lt_of_lt_mul hm)
  rw [List.length_reverse] at hlength
  rw [List.getElem?_reverse (by rwa [hlength]), hlength, List.getElem?_take_of_lt (by omega),
    List.getElem?_drop]

/-- **The bit that is looked at** is the one at its place in the words that were sent. -/
theorem fromProto_bit {data : List UInt8} {words j : Nat} (hdata : data.length = 8 * words)
    (hj : j < 64 * words) :
    (bitsOf (reverseChunks data))[j]? = some (getBit .bigEndianWords data j) := by
  have hbyte : 8 * (j / 8 / 8) + (7 - j / 8 % 8) = Layout.bigEndianWords.byteOf j := by
    change _ = j / 64 * 8 + (7 - j % 64 / 8)
    omega
  have hlt : Layout.bigEndianWords.byteOf j < data.length := by
    rw [hdata]
    exact Layout.bigEndianWords_lt hj
  rw [bitsOf_getElem?, reverseChunks_getElem? hdata (by omega), hbyte, getBit,
    List.getElem?_eq_getElem hlt]
  rfl

/-! ### A filter that was built -/

/-- `insert_into_bloom_be`. -/
def insertIntoBloomBe (natives : Natives) (numHashFunctions numBits : Nat) (bits : List UInt8)
    (key : String) : List UInt8 :=
  let hash128 := natives.murmur3 key
  (probes numBits ((hash128 >>> 64).setWidth 64) numHashFunctions (hash128.setWidth 64)).foldl
    (setBit .bigEndianWords) bits

/-- The words of a filter of these keys. -/
def buildBloom (natives : Natives) (numHashFunctions numBits words : Nat) (keys : List String) :
    List UInt8 :=
  keys.foldl (insertIntoBloomBe natives numHashFunctions numBits) (List.replicate (8 * words) 0)

section Built

variable {natives : Natives} {numHashFunctions numBits words : Nat}

theorem insertIntoBloomBe_eq (bits : List UInt8) (key : String) :
    insertIntoBloomBe natives numHashFunctions numBits bits key =
      (keyBits natives numHashFunctions numBits key).foldl (setBit .bigEndianWords) bits := by
  rw [insertIntoBloomBe, probes_eq]
  rfl

theorem buildBloom_eq (keys : List String) :
    buildBloom natives numHashFunctions numBits words keys =
      (keys.flatMap (keyBits natives numHashFunctions numBits)).foldl (setBit .bigEndianWords)
        (List.replicate (8 * words) 0) := by
  rw [buildBloom, List.foldl_flatMap]
  congr 1
  funext bits key
  exact insertIntoBloomBe_eq bits key

theorem length_buildBloom (keys : List String) :
    (buildBloom natives numHashFunctions numBits words keys).length = 8 * words := by
  rw [buildBloom_eq, length_setBits, List.length_replicate]

theorem keyBits_lt (hbits : 0 < numBits) (hcovered : numBits ≤ 64 * words) {key : String} {j : Nat}
    (hj : j ∈ keyBits natives numHashFunctions numBits key) : j < 64 * words := by
  obtain ⟨i, -, rfl⟩ := List.mem_map.mp hj
  exact (Nat.mod_lt _ hbits).trans_le hcovered

/-- The bits of a built filter are those of its keys. -/
theorem getBit_buildBloom (hbits : 0 < numBits) (hcovered : numBits ≤ 64 * words)
    (keys : List String) (j : Nat) :
    getBit .bigEndianWords (buildBloom natives numHashFunctions numBits words keys) j = true ↔
      ∃ key ∈ keys, j ∈ keyBits natives numHashFunctions numBits key := by
  have hinside : ∀ i ∈ keys.flatMap (keyBits natives numHashFunctions numBits),
      Layout.bigEndianWords.byteOf i < (List.replicate (8 * words) (0 : UInt8)).length := by
    intro i hi
    obtain ⟨key, -, hkey⟩ := List.mem_flatMap.mp hi
    rw [List.length_replicate]
    exact Layout.bigEndianWords_lt (keyBits_lt hbits hcovered hkey)
  rw [buildBloom_eq, getBit_setBits _ _ hinside, getBit_zeros, Bool.false_or, decide_eq_true_eq,
    List.mem_flatMap]

/-- The filter that `from_proto` makes of those words. -/
def builtFilter (natives : Natives) (numHashFunctions numBits words : Nat) (keys : List String) :
    BloomFilter where
  bits := bitsOf (reverseChunks (buildBloom natives numHashFunctions numBits words keys))
  numHashFunctions := numHashFunctions
  numBits := numBits

theorem builtFilter_mightContain (hbits : 0 < numBits) (hcovered : numBits ≤ 64 * words)
    (keys : List String) (key : String) :
    ∃ found,
      (builtFilter natives numHashFunctions numBits words keys).mightContain natives key =
          some found ∧
        (found = true ↔ ∀ j ∈ keyBits natives numHashFunctions numBits key,
          ∃ inserted ∈ keys, j ∈ keyBits natives numHashFunctions numBits inserted) := by
  obtain ⟨found, hquery, hiff⟩ := mightContain_iff
    (f := builtFilter natives numHashFunctions numBits words keys) (Nat.ne_of_gt hbits) natives key
  refine ⟨found, hquery, hiff.trans (forall₂_congr fun j hj => ?_)⟩
  rw [builtFilter, fromProto_bit (length_buildBloom keys) (keyBits_lt hbits hcovered hj),
    Option.some.injEq, getBit_buildBloom hbits hcovered]

end Built

/-- **No false negatives**: a filter that was built from some keys is accepted and finds every one
of them, and it finds any other key only when each of its bits is a bit of one of them. -/
theorem bloom_filter_keys (natives : Natives) (materializedSegment : String) (keys : List String)
    (numHashFunctions numBits words : Nat) (hfunctions : numHashFunctions < 2 ^ 31)
    (hbits : 0 < numBits) (hcovered : numBits ≤ 64 * words) (hint64 : numBits < 2 ^ 63) :
    ∃ filter,
      BloomFilter.fromProto
          { materializedSegment
            data := buildBloom natives numHashFunctions numBits words keys
            hashFunctionCount := numHashFunctions
            bitCount := numBits
            strategy := 1 } = some filter ∧
        (∀ key ∈ keys, filter.mightContain natives key = some true) ∧
        ∀ key, ∃ found, filter.mightContain natives key = some found ∧
          (found = true ↔ ∀ j ∈ keyBits natives numHashFunctions numBits key,
            ∃ inserted ∈ keys, j ∈ keyBits natives numHashFunctions numBits inserted) := by
  have hfunctionsKept : ((numHashFunctions : Int) % 2 ^ 32).toNat = numHashFunctions := by omega
  have hbitsKept : ((numBits : Int) % 2 ^ 64).toNat = numBits := by omega
  refine ⟨builtFilter natives numHashFunctions numBits words keys, ?_, ?_,
    builtFilter_mightContain hbits hcovered keys⟩
  · rw [BloomFilter.fromProto, if_pos rfl, hfunctionsKept, hbitsKept, builtFilter]
  · intro key hkey
    obtain ⟨found, hquery, hiff⟩ := builtFilter_mightContain hbits hcovered keys key
    rw [hquery, hiff.mpr fun j hj => ⟨key, hkey, hj⟩]

namespace Sample

/-- Two hashes: of the key `"u"` the combined ones wrap around. -/
def wrapping : Natives :=
  { natives with
    murmur3 := fun key =>
      if key = "u" then 0x7FFFFFFFFFFFFFFF_FFFFFFFFFFFFFFC1#128 else 0x3_0000000000000005#128 }

end Sample

theorem bloom_filter_keys_sample :
    ∃ filter,
      BloomFilter.fromProto ⟨"m", buildBloom Sample.wrapping 3 100 2 ["u"], 3, 100, 1⟩ = some filter ∧
        filter.mightContain Sample.wrapping "u" = some true := by
  obtain ⟨filter, haccepted, hkeys, -⟩ := bloom_filter_keys Sample.wrapping "m" ["u"] 3 100 2
    (by decide) (by decide) (by decide) (by decide)
  exact ⟨filter, haccepted, hkeys "u" (List.mem_singleton.mpr rfl)⟩

end ConfidenceResolver
