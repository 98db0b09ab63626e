import ConfidenceResolver.Apply.DedupKey
import ConfidenceResolver.Support.Codes

/-!
# Apply — the encoding of the dedup key

The hash of an applied flag takes in one list of words (`hash_keyWords`): each field as its length
and its chunks of eight bytes, the last one padded with zeros, and the fallthrough assignments
after their number.  A length keeps the padding of a field from being taken for its content, and
the end of a field from being taken for the start of the next.

* `fieldWords_delimits`: a field can be read off the front of the words.
* `fallthroughs_delimit`: and so can the fallthrough assignments.
* `keyWords_determine`: the words determine the applied flag.
-/

namespace ConfidenceResolver

open DedupHasher

/-! ### The words -/

namespace DedupHasher

/-- The words that `write` mixes. -/
def fieldWords (bytes : List UInt8) : List Word :=
  BitVec.ofNat 64 bytes.length :: chunkWords bytes

def strWords (s : String) : List Word := fieldWords s.toUTF8.data.toList

theorem write_eq (h : Word) (bytes : List UInt8) : write h bytes = (fieldWords bytes).foldl mix h :=
  rfl

theorem foldl_writeStr (h : Word) (fields : List String) :
    fields.foldl writeStr h = (fields.flatMap strWords).foldl mix h := by
  rw [List.foldl_flatMap]
  congr 1

end DedupHasher

def FallthroughAssignment.strings (ft : FallthroughAssignment) : List String :=
  [ft.rule, ft.assignmentId, ft.targetingKey, ft.targetingKeySelector]

def AppliedFlagRef.strings (applied : AppliedFlagRef) : List String :=
  [applied.flag, applied.targetingKey, applied.targetingKeySelector, applied.assignmentId,
    applied.variant, applied.segment, applied.rule]

def fallthroughWords (fallthroughAssignments : List FallthroughAssignment) : List Word :=
  BitVec.ofNat 64 fallthroughAssignments.length ::
    fallthroughAssignments.flatMap fun ft => ft.strings.flatMap strWords

/-- The words that `compute_applied_flag_dedup_hash` mixes. -/
def keyWords (applied : AppliedFlagRef) : List Word :=
  applied.strings.flatMap strWords ++
    (fieldWords (toLeBytes applied.reason) ++ fallthroughWords applied.fallthroughAssignments)

theorem writeFallthroughs_eq (h : Word) (fallthroughAssignments : List FallthroughAssignment) :
    writeFallthroughs h fallthroughAssignments =
      (fallthroughWords fallthroughAssignments).foldl mix h := by
  have hone : (fun (h : Word) (ft : FallthroughAssignment) =>
      [ft.rule, ft.assignmentId, ft.targetingKey, ft.targetingKeySelector].foldl writeStr h) =
      fun h ft => (ft.strings.flatMap strWords).foldl mix h := by
    funext h ft
    exact foldl_writeStr h ft.strings
  rw [fallthroughWords, List.foldl_cons, List.foldl_flatMap, writeFallthroughs, hone]

theorem hash_keyWords (applied : AppliedFlagRef) :
    computeAppliedFlagDedupHash applied = finish ((keyWords applied).foldl mix hashInit) := by
  rw [computeAppliedFlagDedupHash, writeFallthroughs_eq, write_eq, keyWords, List.foldl_append,
    List.foldl_append, ← foldl_writeStr, writeFields, AppliedFlagRef.strings]

/-! ### One field -/

/-- A number of bytes below the machine word is read back from its word. -/
theorem ofNat_word_injective {m n : Nat} (hm : m < 2 ^ 64) (hn : n < 2 ^ 64)
    (h : BitVec.ofNat 64 m = BitVec.ofNat 64 n) : m = n := by
  have hvalue := congrArg BitVec.toNat h
  rwa [BitVec.toNat_ofNat, BitVec.toNat_ofNat, Nat.mod_eq_of_lt hm, Nat.mod_eq_of_lt hn] at hvalue

theorem fromLeBytes_cons (b : UInt8) (bytes : List UInt8) :
    fromLeBytes (b :: bytes) = b.toNat + 256 * fromLeBytes bytes := rfl

theorem fromLeBytes_lt (bytes : List UInt8) : fromLeBytes bytes < 256 ^ bytes.length := by
  induction bytes with
  | nil => exact Nat.one_pos
  | cons b bytes ih =>
      have hb := b.toNat_lt
      rw [fromLeBytes_cons, List.length_cons, Nat.pow_succ]
      omega

/-- Equally many bytes are read back from their number: without their count, zeros at the end are
lost. -/
theorem fromLeBytes_injective {bytes bytes' : List UInt8} (hlength : bytes.length = bytes'.length)
    (h : fromLeBytes bytes = fromLeBytes bytes') : bytes = bytes' := by
  induction bytes generalizing bytes' with
  | nil => exact (List.length_eq_zero_iff.mp hlength.symm).symm
  | cons b bytes ih =>
      obtain ⟨b', bytes', rfl⟩ := List.exists_cons_of_length_eq_add_one hlength.symm
      rw [fromLeBytes_cons, fromLeBytes_cons] at h
      have hb := b.toNat_lt
      have hb' := b'.toNat_lt
      have hhead : b = b' := UInt8.toNat_inj.mp (by omega)
      have htail : bytes = bytes' := ih (Nat.succ_inj.mp hlength) (by omega)
      rw [hhead, htail]

/-- A field is the concatenation of its chunks. -/
theorem eq_of_chunks {bytes bytes' : List UInt8}
    (h : ∀ i, (bytes.drop (8 * i)).take 8 = (bytes'.drop (8 * i)).take 8) : bytes = bytes' := by
  apply List.ext_getElem?
  intro j
  have hchunk := congrArg (fun chunk => chunk[j % 8]?) (h (j / 8))
  have hmod : j % 8 < 8 := Nat.mod_lt _ (by decide)
  simpa [List.getElem?_take, hmod, Nat.div_add_mod] using hchunk

theorem chunkWords_injective {bytes bytes' : List UInt8} (hlength : bytes.length = bytes'.length)
    (h : chunkWords bytes = chunkWords bytes') : bytes = bytes' := by
  apply eq_of_chunks
  intro i
  have hchunks : ((bytes.drop (8 * i)).take 8).length = ((bytes'.drop (8 * i)).take 8).length := by
    simp [hlength]
  by_cases hi : i < (bytes.length + 7) / 8
  · have hlt (b : List UInt8) : fromLeBytes ((b.drop (8 * i)).take 8) < 2 ^ 64 := by
      calc fromLeBytes ((b.drop (8 * i)).take 8)
          < 256 ^ ((b.drop (8 * i)).take 8).length := fromLeBytes_lt _
        _ ≤ 256 ^ 8 := Nat.pow_le_pow_right (by decide) (List.length_take_le _ _)
        _ = 2 ^ 64 := by decide
    have hword := congrArg (fun words => words[i]?) h
    simp only [chunkWords, ← hlength, List.getElem?_map, List.getElem?_range hi,
      Option.map_some, Option.some.injEq] at hword
    exact fromLeBytes_injective hchunks (ofNat_word_injective (hlt bytes) (hlt bytes') hword)
  · -- past the last chunk there is nothing on either side
    have hend : bytes.length ≤ 8 * i := by omega
    rw [List.drop_eq_nil_of_le hend, List.drop_eq_nil_of_le (hlength ▸ hend)]

/-- **A field can be read off**: its length says how many chunks there are, and how much of the last
one is padding. -/
theorem fieldWords_delimits :
    Delimits (fun bytes : List UInt8 => bytes.length < 2 ^ 64) fieldWords := by
  intro bytes bytes' r s hbytes hbytes' heq
  obtain ⟨hhead, htail⟩ := List.cons.inj heq
  have hlength := ofNat_word_injective hbytes hbytes' hhead
  obtain ⟨hchunks, hrest⟩ := List.append_inj htail (by simp [chunkWords, hlength])
  exact ⟨chunkWords_injective hlength hchunks, hrest⟩

/-- The bytes of a string. -/
theorem utf8_injective : Function.Injective fun s : String => s.toUTF8.data.toList := by
  intro s t h
  have hdata : s.toUTF8.data = t.toUTF8.data := Array.toList_inj.mp h
  exact String.toByteArray_inj.mp (ByteArray.ext hdata)

/-- The length of a string is a `usize`. -/
def InMemory (s : String) : Prop := s.toUTF8.data.toList.length < 2 ^ 64

theorem strWords_delimits : Delimits InMemory strWords :=
  fieldWords_delimits.comap utf8_injective

/-! ### The key -/

theorem FallthroughAssignment.strings_injective :
    Function.Injective FallthroughAssignment.strings := by
  rintro ⟨rule, assignmentId, targetingKey, targetingKeySelector⟩ ft h
  simp only [strings, List.cons.injEq, and_true] at h
  obtain ⟨rfl, rfl, rfl, rfl⟩ := h
  rfl

/-- **The fallthrough assignments can be read off**: there are as many as their number says, and
each has four fields. -/
theorem fallthroughs_delimit :
    Delimits
      (fun fts : List FallthroughAssignment =>
        fts.length < 2 ^ 64 ∧ ∀ ft ∈ fts, ∀ s ∈ ft.strings, InMemory s)
      fallthroughWords :=
  (strWords_delimits.fields FallthroughAssignment.strings_injective fun _ _ => rfl).counted
    fun _ _ => ofNat_word_injective

theorem toLeBytes_injective : Function.Injective toLeBytes := by
  intro m n h
  have hvalue := congrArg fromLeBytes h
  rw [fromLeBytes_toLeBytes, fromLeBytes_toLeBytes] at hvalue
  exact Int32.toBitVec_inj.mp (congrArg UInt32.toBitVec (UInt32.toNat_inj.mp hvalue))

theorem reason_delimits :
    Delimits (fun _ : Int32 => True) fun reason => fieldWords (toLeBytes reason) := by
  have hlength (n : Int32) : (toLeBytes n).length < 2 ^ 64 := by simp [toLeBytes]
  intro m n r s _ _ heq
  exact fieldWords_delimits.comap toLeBytes_injective (hlength m) (hlength n) heq

/-- An applied flag that the machine can hold: every string and the list have a `usize` for their
length. -/
structure AppliedFlagRef.Held (applied : AppliedFlagRef) : Prop where
  strings : ∀ s ∈ applied.strings, InMemory s
  count : applied.fallthroughAssignments.length < 2 ^ 64
  fallthroughs : ∀ ft ∈ applied.fallthroughAssignments, ∀ s ∈ ft.strings, InMemory s

/-- **The key is unambiguous**: the hash is a function of one list of words, and applied flags that
differ in any field have different ones. -/
theorem keyWords_determine (applied applied' : AppliedFlagRef) (h : applied.Held)
    (h' : applied'.Held) :
    computeAppliedFlagDedupHash applied = finish ((keyWords applied).foldl mix hashInit) ∧
      (applied ≠ applied' → keyWords applied ≠ keyWords applied') := by
  refine ⟨hash_keyWords applied, fun hne heq => hne ?_⟩
  obtain ⟨hstrings, hrest⟩ := strWords_delimits.flatMap h.strings h'.strings rfl heq
  obtain ⟨hreason, hfallthroughs⟩ := reason_delimits trivial trivial hrest
  have hlist := fallthroughs_delimit.injective ⟨h.count, h.fallthroughs⟩
    ⟨h'.count, h'.fallthroughs⟩ hfallthroughs
  obtain ⟨flag, targetingKey, selector, assignmentId, rule, variant, segment, reason, fts⟩ := applied
  simp only [AppliedFlagRef.strings, List.cons.injEq, and_true] at hstrings
  obtain ⟨rfl, rfl, rfl, rfl, rfl, rfl, rfl⟩ := hstrings
  cases hreason
  cases hlist
  rfl

namespace Sample

/-- Two users' keys: a byte has moved from the one field to the next. -/
def keyOf (targetingKey selector : String) : AppliedFlagRef where
  flag := "flags/f"
  targetingKey := targetingKey
  targetingKeySelector := selector
  assignmentId := ""
  rule := "flags/f/rules/1"
  variant := ""
  segment := ""
  reason := ResolveReason.noSegmentMatch.toInt32
  fallthroughAssignments := []

end Sample

theorem keyWords_determine_sample :
    keyWords (Sample.keyOf "ab" "c") ≠ keyWords (Sample.keyOf "a" "bc") := by
  have hheld (key selector : String) (h : ∀ s ∈ (Sample.keyOf key selector).strings, InMemory s) :
      (Sample.keyOf key selector).Held :=
    ⟨h, Nat.pow_pos (by decide), fun ft hft => absurd hft List.not_mem_nil⟩
  have hne : Sample.keyOf "ab" "c" ≠ Sample.keyOf "a" "bc" := by simp [Sample.keyOf]
  refine (keyWords_determine _ _ (hheld "ab" "c" ?_) (hheld "a" "bc" ?_)).2 hne
  · simp only [AppliedFlagRef.strings, Sample.keyOf, InMemory]
    decide
  · simp only [AppliedFlagRef.strings, Sample.keyOf, InMemory]
    decide

end ConfidenceResolver
