import ConfidenceResolver.Logs.AssignLogger
import ConfidenceResolver.Materialization.SuspendResume
import ConfidenceResolver.Resolver.Outcome
import ConfidenceResolver.Support.Words

/-!
# Apply — the dedup key

The hash by which `apply_dedup.rs` recognises an apply that was seen before.  It is computed from
an assigned flag, before it is logged, or from the applied flag of an event.

* `ofAppliedFlag_eq`: when both have the same fields.
* `hash_ne_of_reason`: two reasons, and all else the same, never have one hash.
* `dedup_hash_agrees`: both hashes agree on a resolved flag that has a variant, or that no rule has
  matched.
* `client_default_hashes_differ`: a flag that is matched with the client's default.
-/

namespace ConfidenceResolver

/-! ### The hasher -/

abbrev Word := BitVec 64

def hashInit : Word := 0xCBF29CE484222325#64

def hashPrime : Word := 0x1000000001B3#64

def mixC1 : Word := 0xFF51AFD7ED558CCD#64

def mixC2 : Word := 0xC4CEB9FE1A85EC53#64

namespace DedupHasher

open Words

/-- `mix`. -/
def mix (h word : Word) : Word :=
  (h ^^^ xorShift 33 (word * mixC1) * mixC2).rotateLeft 27 * hashPrime

/-- The words of a field: its chunks of eight bytes, the last one padded with zeros. -/
def chunkWords (bytes : List UInt8) : List Word :=
  (List.range ((bytes.length + 7) / 8)).map fun i =>
    BitVec.ofNat 64 (fromLeBytes ((bytes.drop (8 * i)).take 8))

/-- `write`. -/
def write (h : Word) (bytes : List UInt8) : Word :=
  (chunkWords bytes).foldl mix (mix h (BitVec.ofNat 64 bytes.length))

/-- `finish`. -/
def finish (h : Word) : Word := xorShift 33 (xorShift 33 h * mixC1)

/-- `as_bytes`, written. -/
def writeStr (h : Word) (s : String) : Word := write h s.toUTF8.data.toList

end DedupHasher

open DedupHasher

/-! ### The key -/

/-- The numbers of the reasons. -/
def ResolveReason.toInt32 : ResolveReason → Int32
  | .unspecified => 0
  | .match => 1
  | .noSegmentMatch => 2
  | .noTreatmentMatch => 3
  | .flagArchived => 4
  | .targetingKeyError => 5
  | .error => 6
  | .unrecognizedTargetingRule => 7
  | .materializationNotSupported => 8
  | .typeMismatch => 9
  | .flagNotFound => 10

/-- `AppliedFlagRef`. -/
structure AppliedFlagRef where
  flag : String
  targetingKey : String
  targetingKeySelector : String
  assignmentId : String
  rule : String
  variant : String
  segment : String
  reason : Int32
  fallthroughAssignments : List FallthroughAssignment

/-- `From<&AssignedFlag>`. -/
def AppliedFlagRef.ofAssignedFlag (a : AssignedFlag) : AppliedFlagRef where
  flag := a.flag
  targetingKey := a.targetingKey
  targetingKeySelector := a.targetingKeySelector
  assignmentId := a.assignmentId
  rule := a.rule
  variant := a.variant
  segment := a.segment
  reason := a.reason.toInt32
  fallthroughAssignments := a.fallthroughAssignments

/-- `default_assignment_reason_to_resolve_reason`. -/
def defaultAssignmentReasonToResolveReason (dar : Int32) : Int32 :=
  if dar = DefaultAssignmentReason.noSegmentMatch.toInt32 then
    ResolveReason.noSegmentMatch.toInt32
  else if dar = DefaultAssignmentReason.noTreatmentMatch.toInt32 then
    ResolveReason.noTreatmentMatch.toInt32
  else if dar = DefaultAssignmentReason.flagArchived.toInt32 then ResolveReason.flagArchived.toInt32
  else ResolveReason.unspecified.toInt32

/-- The variant, segment and reason of an event's assignment. -/
def assignmentFields : Option AppliedAssignment → String × String × Int32
  | some (.assignmentInfo segment variant) => (variant, segment, ResolveReason.match.toInt32)
  | some (.defaultAssignment reason) => ("", "", defaultAssignmentReasonToResolveReason reason)
  | none => ("", "", ResolveReason.unspecified.toInt32)

/-- `From<&EventAppliedFlag>`. -/
def AppliedFlagRef.ofAppliedFlag (a : AppliedFlag) : AppliedFlagRef where
  flag := a.flag
  targetingKey := a.targetingKey
  targetingKeySelector := a.targetingKeySelector
  assignmentId := a.assignmentId
  rule := a.rule
  variant := (assignmentFields a.assignment).1
  segment := (assignmentFields a.assignment).2.1
  reason := (assignmentFields a.assignment).2.2
  fallthroughAssignments := a.fallthroughAssignments

/-- `i32::to_le_bytes`. -/
def toLeBytes (n : Int32) : List UInt8 :=
  (List.range 4).map fun i => (n.toUInt32 >>> UInt32.ofNat (8 * i)).toUInt8

/-- The fields before the reason. -/
def writeFields (applied : AppliedFlagRef) : Word :=
  [applied.flag, applied.targetingKey, applied.targetingKeySelector, applied.assignmentId,
    applied.variant, applied.segment, applied.rule].foldl writeStr hashInit

/-- The fallthrough assignments, after their number. -/
def writeFallthroughs (h : Word) (fallthroughAssignments : List FallthroughAssignment) : Word :=
  fallthroughAssignments.foldl
    (fun h ft =>
      [ft.rule, ft.assignmentId, ft.targetingKey, ft.targetingKeySelector].foldl writeStr h)
    (mix h (BitVec.ofNat 64 fallthroughAssignments.length))

/-- `compute_applied_flag_dedup_hash`. -/
def computeAppliedFlagDedupHash (applied : AppliedFlagRef) : Word :=
  finish (writeFallthroughs (write (writeFields applied) (toLeBytes applied.reason))
    applied.fallthroughAssignments)

/-- `compute_dedup_hash`. -/
def computeDedupHash (assigned : AssignedFlag) : Word :=
  computeAppliedFlagDedupHash (.ofAssignedFlag assigned)

/-! ### Nothing is lost -/

namespace DedupHasher

open Words

theorem mix_injective_state (word : Word) : Function.Injective fun h => mix h word :=
  (mul_injective 0xB46DD957AFF6957B#64 (by decide)).comp
    ((rotateLeft_injective (by decide)).comp (xor_right_injective _))

theorem mix_injective_word (h : Word) : Function.Injective (mix h) :=
  (mul_injective 0xB46DD957AFF6957B#64 (by decide)).comp
    ((rotateLeft_injective (by decide)).comp
      ((xor_left_injective h).comp
        ((mul_injective 0x9CB4B2F8129337DB#64 (by decide)).comp
          ((xorShift_injective (by decide)).comp
            (mul_injective 0x4F74430C22A54005#64 (by decide))))))

theorem finish_injective : Function.Injective finish :=
  (xorShift_injective (by decide)).comp
    ((mul_injective 0x4F74430C22A54005#64 (by decide)).comp (xorShift_injective (by decide)))

theorem write_injective (bytes : List UInt8) : Function.Injective fun h => write h bytes :=
  (foldl_injective mix_injective_state _).comp (mix_injective_state _)

end DedupHasher

theorem fromLeBytes_toLeBytes (n : Int32) : fromLeBytes (toLeBytes n) = n.toUInt32.toNat := by
  have hbytes : toLeBytes n = [n.toUInt32.toUInt8, (n.toUInt32 >>> 8).toUInt8,
      (n.toUInt32 >>> 16).toUInt8, (n.toUInt32 >>> 24).toUInt8] := by
    simp [toLeBytes, List.range_succ]
  rw [hbytes]
  have hlt := n.toUInt32.toNat_lt
  simp only [fromLeBytes, List.foldr_cons, List.foldr_nil, UInt32.toNat_toUInt8,
    UInt32.toNat_shiftRight, UInt32.reduceToNat, Nat.shiftRight_eq_div_pow, Nat.reduceMod,
    Nat.reducePow]
  omega

theorem write_reason (h : Word) (n : Int32) :
    write h (toLeBytes n) = mix (mix h 4#64) (BitVec.ofNat 64 n.toUInt32.toNat) := by
  have hlength : (toLeBytes n).length = 4 := by simp [toLeBytes]
  have hchunk : chunkWords (toLeBytes n) = [BitVec.ofNat 64 (fromLeBytes (toLeBytes n))] := by
    simp [chunkWords, hlength, List.take_of_length_le]
  rw [write, hchunk, hlength, fromLeBytes_toLeBytes]
  rfl

theorem writeFallthroughs_injective (fallthroughAssignments : List FallthroughAssignment) :
    Function.Injective fun h => writeFallthroughs h fallthroughAssignments := by
  have hstr (s : String) : Function.Injective fun h => writeStr h s := write_injective _
  have hone (ft : FallthroughAssignment) : Function.Injective fun h =>
      [ft.rule, ft.assignmentId, ft.targetingKey, ft.targetingKeySelector].foldl writeStr h :=
    Words.foldl_injective hstr _
  exact (Words.foldl_injective hone _).comp (mix_injective_state _)

/-- **A key with another reason** has another hash. -/
theorem hash_ne_of_reason (applied : AppliedFlagRef) {reason : Int32} (h : applied.reason ≠ reason) :
    computeAppliedFlagDedupHash applied ≠
      computeAppliedFlagDedupHash { applied with reason := reason } := by
  intro heq
  have hwrite := writeFallthroughs_injective _ (finish_injective heq)
  simp only [write_reason] at hwrite
  have hword := congrArg BitVec.toNat (mix_injective_word _ hwrite)
  have hlt (n : Int32) : n.toUInt32.toNat % 2 ^ 64 = n.toUInt32.toNat :=
    Nat.mod_eq_of_lt (n.toUInt32.toNat_lt.trans (by decide))
  rw [BitVec.toNat_ofNat, BitVec.toNat_ofNat, hlt, hlt] at hword
  exact h (Int32.toBitVec_inj.mp (congrArg UInt32.toBitVec (UInt32.toNat_inj.mp hword)))

/-! ### The key of the event -/

/-- The assignment of the event keeps what the key is made of. -/
def KeyKept (a : AssignedFlag) : Prop := a.variant ≠ "" ∨ a.reason = .noSegmentMatch

/-- With a variant the event has the segment, and the reason of a match. -/
theorem ofAppliedFlag_variant {a : AssignedFlag} (h : a.variant ≠ "") (time : Timestamp) :
    AppliedFlagRef.ofAppliedFlag (appliedFlag ⟨a, time⟩) =
      { AppliedFlagRef.ofAssignedFlag a with reason := ResolveReason.match.toInt32 } := by
  simp [AppliedFlagRef.ofAppliedFlag, AppliedFlagRef.ofAssignedFlag, appliedFlag, assignmentFields, h]

/-- Without a variant the event has no segment, and a default reason. -/
theorem ofAppliedFlag_default {a : AssignedFlag} (h : a.variant = "") (time : Timestamp) :
    AppliedFlagRef.ofAppliedFlag (appliedFlag ⟨a, time⟩) =
      { AppliedFlagRef.ofAssignedFlag a with
        segment := ""
        reason := defaultAssignmentReasonToResolveReason (defaultReason a.reason).toInt32 } := by
  simp [AppliedFlagRef.ofAppliedFlag, AppliedFlagRef.ofAssignedFlag, appliedFlag, assignmentFields, h]

/-- What a resolved flag looks like that should be applied: it is a match, or it has neither variant
nor segment and a reason that is known. -/
theorem Outcome.reason_cases {flag : Flag} {value : ResolvedValue} (h : Outcome flag value)
    (happly : value.shouldApply = true) :
    value.inner.reason = .match ∨ value.inner.variant = "" ∧ value.inner.segment = "" ∧
      (value.inner.reason = .noSegmentMatch ∨ value.inner.reason = .targetingKeyError) := by
  cases h with
  | unmatched falls => exact .inr ⟨rfl, rfl, .inl rfl⟩
  | keyError falls => exact .inr ⟨rfl, rfl, .inr rfl⟩
  | clientDefault => exact .inl rfl
  | variant => exact .inl rfl
  | failed reason hreason =>
      -- a flag that fails as a whole has no fallthrough assignments, and is not applied
      have hmatch : reason ≠ .match := by
        rintro rfl
        simp at hreason
      simp [ResolvedValue.shouldApply, ResolvedValue.error, ResolvedValue.new, hmatch] at happly

/-- **The key is kept** of a flag that has a variant or that no rule has matched. -/
theorem ofAppliedFlag_eq {flag : Flag} {value : ResolvedValue} (h : Outcome flag value)
    (happly : value.shouldApply = true) (hkept : KeyKept value.inner) (time : Timestamp) :
    AppliedFlagRef.ofAppliedFlag (appliedFlag ⟨value.inner, time⟩) =
      .ofAssignedFlag value.inner := by
  rcases h.reason_cases happly with hreason | ⟨hvariant, hsegment, hreason | hreason⟩
  · have hvariant : value.inner.variant ≠ "" := by
      rcases hkept with hvariant | hother
      · exact hvariant
      · rw [hreason] at hother
        cases hother
    rw [ofAppliedFlag_variant hvariant, ← hreason]
    rfl
  · rw [ofAppliedFlag_default hvariant, hreason, ← hsegment]
    have hmapped : defaultAssignmentReasonToResolveReason
        (defaultReason .noSegmentMatch).toInt32 = value.inner.reason.toInt32 := by
      rw [hreason]
      rfl
    rw [hmapped]
    rfl
  · rcases hkept with hkept | hkept
    · exact absurd hvariant hkept
    · rw [hreason] at hkept
      cases hkept

/-- **The reason is lost** of another one. -/
theorem ofAppliedFlag_lost {flag : Flag} {value : ResolvedValue} (h : Outcome flag value)
    (happly : value.shouldApply = true) (hlost : ¬ KeyKept value.inner) (time : Timestamp) :
    AppliedFlagRef.ofAppliedFlag (appliedFlag ⟨value.inner, time⟩) =
        { AppliedFlagRef.ofAssignedFlag value.inner with
          segment := "", reason := ResolveReason.unspecified.toInt32 } ∧
      value.inner.reason.toInt32 ≠ ResolveReason.unspecified.toInt32 := by
  rw [KeyKept, not_or, not_not] at hlost
  obtain ⟨hvariant, hother⟩ := hlost
  rw [ofAppliedFlag_default hvariant]
  rcases h.reason_cases happly with hreason | ⟨-, -, hreason | hreason⟩
  · rw [hreason]
    exact ⟨rfl, by decide⟩
  · exact absurd hreason hother
  · rw [hreason]
    exact ⟨rfl, by decide⟩

/-- **One assignment, one hash**: of a resolved flag that should be applied, the hash of the event
is that of the flag when its key is kept.  When it is not, the keys differ, and where the flag has
no segment so do the hashes. -/
theorem dedup_hash_agrees {r : AccountResolver} {flag : Flag} {c c' : MaterializationContext}
    {value : ResolvedValue} (h : r.resolveFlag flag c = (.ok value, c'))
    (happly : value.shouldApply = true) (resolveId : String) (time : Timestamp) (client : Client)
    (sdk : Option Sdk) :
    ∃ applied, (buildFlagAssigned resolveId [⟨value.inner, time⟩] client sdk).flags = [applied] ∧
      (KeyKept value.inner →
        computeDedupHash value.inner = computeAppliedFlagDedupHash (.ofAppliedFlag applied)) ∧
      (¬ KeyKept value.inner →
        AppliedFlagRef.ofAssignedFlag value.inner ≠ .ofAppliedFlag applied) ∧
      (¬ KeyKept value.inner → value.inner.segment = "" →
        computeDedupHash value.inner ≠ computeAppliedFlagDedupHash (.ofAppliedFlag applied)) := by
  have houtcome := r.resolveFlag_outcome flag c value c' h
  refine ⟨appliedFlag ⟨value.inner, time⟩, rfl, fun hkept => ?_, fun hlost heq => ?_,
    fun hlost hsegment => ?_⟩
  · rw [ofAppliedFlag_eq houtcome happly hkept]
    rfl
  · obtain ⟨hevent, hreason⟩ := ofAppliedFlag_lost houtcome happly hlost time
    rw [hevent] at heq
    exact hreason (congrArg AppliedFlagRef.reason heq)
  · obtain ⟨hevent, hreason⟩ := ofAppliedFlag_lost houtcome happly hlost time
    rw [hevent, ← hsegment]
    exact hash_ne_of_reason (.ofAssignedFlag value.inner) hreason

namespace Sample

/-- A flag with the client's default for everyone. -/
def clientDefault : Flag := flag "flags/f" [rule "flags/f/rules/1" .clientDefault]

def variantForAll : Flag := flag "flags/f" [rule "flags/f/rules/1" (.variant "on")]

def resolverOf (f : Flag) : AccountResolver :=
  resolver [f] [segment] (List.nodup_singleton _) segment_nodup

end Sample

theorem dedup_hash_agrees_sample :
    ∃ value c', (Sample.resolverOf Sample.variantForAll).resolveFlag Sample.variantForAll
        .unsupported = (.ok value, c') ∧ value.inner.variant = "on" ∧
      ∃ applied, (buildFlagAssigned "r" [⟨value.inner, ⟨0, 0⟩⟩]
          (Sample.resolverOf Sample.variantForAll).client none).flags = [applied] ∧
        computeDedupHash value.inner = computeAppliedFlagDedupHash (.ofAppliedFlag applied) := by
  refine ⟨_, _, rfl, rfl, ?_⟩
  obtain ⟨applied, hbuilt, hkept, -⟩ := dedup_hash_agrees
    (show (Sample.resolverOf Sample.variantForAll).resolveFlag Sample.variantForAll
      .unsupported = (.ok _, _) from rfl) rfl "r" ⟨0, 0⟩
    (Sample.resolverOf Sample.variantForAll).client none
  exact ⟨applied, hbuilt, hkept (.inl (by decide))⟩

/-- **A flag that is matched with the client's default** has two hashes. -/
theorem client_default_hashes_differ :
    ∃ value c', (Sample.resolverOf Sample.clientDefault).resolveFlag Sample.clientDefault
        .unsupported = (.ok value, c') ∧ value.shouldApply = true ∧
      ∃ applied, (buildFlagAssigned "r" [⟨value.inner, ⟨0, 0⟩⟩]
          (Sample.resolverOf Sample.clientDefault).client none).flags = [applied] ∧
        computeDedupHash value.inner ≠ computeAppliedFlagDedupHash (.ofAppliedFlag applied) :=
  ⟨_, _, rfl, rfl, _, rfl, by decide +kernel⟩

end ConfidenceResolver
