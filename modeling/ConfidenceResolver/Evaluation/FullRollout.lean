import ConfidenceResolver.Materialization.Sticky

/-!
# Evaluation — full rollouts

A unit is assigned by its bucket.  A rule with one assignment for all buckets is recognised by the
shape of its ranges (`hasOnlyOneFullVariant`) and assigned without a bucket.

* `unitBucket_lt`: a bucket is a number below the bucket count.
* `AssignmentSpec.Partitions.unique`: where the ranges partition the buckets, each is in exactly one
  assignment.  The ranges that the shortcut accepts are such a partition, so that the hashed path
  takes the same assignment for every unit.
* `full_rollout_shortcut`: the shortcut against the hashed path; what is left to ask for a targeting
  key is the selector of the rule.
-/

namespace ConfidenceResolver

/-! ### Partitions -/

/-- A range contains a bucket. -/
def BucketRange.Contains (range : BucketRange) (b : Int) : Prop :=
  range.lower ≤ b ∧ b < range.upper

/-- Every bucket is in a range of the assignments, and none is in two. -/
structure AssignmentSpec.Partitions (spec : AssignmentSpec) : Prop where
  cover (b : Int) : 0 ≤ b → b < spec.bucketCount →
    ∃ a ∈ spec.assignments, ∃ range ∈ a.bucketRanges, range.Contains b
  disjoint : (spec.assignments.flatMap Assignment.bucketRanges).Pairwise
    fun range range' => ∀ b, ¬(range.Contains b ∧ range'.Contains b)

variable {spec : AssignmentSpec}

theorem Assignment.covers_iff (a : Assignment) (b : Int) :
    a.covers b = true ↔ ∃ range ∈ a.bucketRanges, range.Contains b := by
  simp only [covers, List.any_eq_true, Bool.and_eq_true, decide_eq_true_eq, BucketRange.Contains]

/-- Where at most one element satisfies a test and one does, it is what is left by a filter. -/
theorem filter_eq_singleton {A : Type} {p : A → Bool} {l : List A}
    (hone : l.Pairwise fun a b => ¬(p a ∧ p b)) (hsome : ∃ a ∈ l, p a) :
    ∃ a, p a ∧ l.filter p = [a] := by
  induction l with
  | nil => exact absurd hsome (by simp)
  | cons a l ih =>
      obtain ⟨hhead, htail⟩ := List.pairwise_cons.mp hone
      by_cases ha : p a
      · have hrest : l.filter p = [] :=
          List.filter_eq_nil_iff.mpr fun b hb hpb => hhead b hb ⟨ha, hpb⟩
        exact ⟨a, ha, by rw [List.filter_cons_of_pos ha, hrest]⟩
      · obtain ⟨b, hb, hpb⟩ := hsome
        have hmem : b ∈ l := (List.mem_cons.mp hb).resolve_left fun h => ha (h ▸ hpb)
        rw [List.filter_cons_of_neg ha]
        exact ih htail ⟨b, hmem, hpb⟩

/-- A bucket is in exactly one assignment, by its place in the list. -/
theorem AssignmentSpec.Partitions.unique (h : spec.Partitions) {b : Int} (hlow : 0 ≤ b)
    (hhigh : b < spec.bucketCount) :
    ∃ a, a.covers b = true ∧ spec.assignments.filter (·.covers b) = [a] := by
  refine filter_eq_singleton ?_ ?_
  · refine (List.pairwise_flatMap.mp h.disjoint).2.imp ?_
    rintro a a' hdisjoint ⟨ha, ha'⟩
    obtain ⟨range, hrange, hb⟩ := (a.covers_iff b).mp ha
    obtain ⟨range', hrange', hb'⟩ := (a'.covers_iff b).mp ha'
    exact hdisjoint range hrange range' hrange' b ⟨hb, hb'⟩
  · obtain ⟨a, ha, hcovers⟩ := h.cover b hlow hhigh
    exact ⟨a, ha, (a.covers_iff b).mpr hcovers⟩

/-- The shape that the shortcut asks for. -/
theorem hasOnlyOneFullVariant_iff (spec : AssignmentSpec) :
    hasOnlyOneFullVariant spec = true ↔
      ∃ a range, spec.assignments = [a] ∧ a.bucketRanges = [range] ∧ range.lower = 0 ∧
        range.upper = spec.bucketCount := by
  constructor
  · intro h
    rw [hasOnlyOneFullVariant] at h
    split at h
    · split at h
      · rename_i _ a ha _ range hrange
        rw [Bool.and_eq_true, beq_iff_eq, beq_iff_eq] at h
        exact ⟨a, range, ha, hrange, h⟩
      · cases h
    · cases h
  · rintro ⟨a, range, ha, hrange, hlow, hhigh⟩
    rw [hasOnlyOneFullVariant, ha]
    simp only
    rw [hrange]
    simp [hlow, hhigh]

/-- One range for all buckets is a partition. -/
theorem partitions_of_full (h : hasOnlyOneFullVariant spec = true) : spec.Partitions := by
  obtain ⟨a, range, ha, hrange, hlow, hhigh⟩ := (hasOnlyOneFullVariant_iff spec).mp h
  constructor
  · intro b hpos hlt
    refine ⟨a, ?_, range, ?_, ?_⟩
    · rw [ha]
      exact List.mem_singleton_self a
    · rw [hrange]
      exact List.mem_singleton_self range
    · rw [BucketRange.Contains, hlow, hhigh]
      exact ⟨hpos, hlt⟩
  · rw [ha, List.flatMap_singleton, hrange]
    exact List.pairwise_singleton _ _

/-! ### Buckets -/

theorem bucket_lt {hash : BitVec 128} {buckets b : Nat} (h : bucket hash buckets = some b) :
    b < buckets := by
  rw [bucket] at h
  split at h
  · cases h
  · rename_i hbuckets
    rw [← Option.some.inj h]
    exact Nat.mod_lt _ (Nat.pos_of_ne_zero hbuckets)

theorem bucket_some (hash : BitVec 128) {buckets : Nat} (h : 0 < buckets) :
    ∃ b, bucket hash buckets = some b := ⟨_, if_neg h.ne'⟩

/-- A number that an `i64` holds is not changed by `as u64`. -/
theorem asU64_of_nonneg {n : Int} (hpos : 0 ≤ n) (hword : n < 2 ^ 31) : asU64 n = n.toNat := by
  have hmod : n % 2 ^ 64 = n := Int.emod_eq_of_lt hpos (by omega)
  rw [asU64, hmod]

theorem bmod_of_lt {n m : Nat} (h : n + n < m) : Int.bmod n m = n := by
  have hmod : (n : Int) % m = n := Int.emod_eq_of_lt (Int.natCast_nonneg n) (by omega)
  rw [Int.bmod_eq_emod_of_lt (by rw [hmod]; omega), hmod]

/-- A number below `2 ^ 31` is not changed by `as i32`. -/
theorem asI32_of_lt {n : Nat} (h : n < 2 ^ 31) : asI32 n = n := bmod_of_lt (by omega)

/-- The name of a segment has a second part. -/
theorem bucketKey_of_segment (rest unit : String) :
    ∃ key, bucketKey ("segments/" ++ rest) unit = some key := by
  have hsplit : split '/' ("segments/" ++ rest) =
      "segments" :: (rest.toList.splitOn '/').map String.ofList := by
    have hname : ("segments/" ++ rest).toList = "segments".toList ++ '/' :: rest.toList := by
      rw [String.toList_append]
      rfl
    rw [split, hname, List.splitOn_append_cons_self_of_not_mem (by decide)]
    rfl
  obtain ⟨part, parts, hparts⟩ := List.exists_cons_of_ne_nil (List.splitOn_ne_nil '/' rest.toList)
  rw [bucketKey, hsplit, hparts]
  exact ⟨_, rfl⟩

namespace AccountResolver

variable (r : AccountResolver)

/-- The bucket of a unit is a number below the bucket count. -/
theorem unitBucket_lt {rule : Rule} {rest : String} (hsegment : rule.segment = "segments/" ++ rest)
    (hpos : 0 < spec.bucketCount) (hword : spec.bucketCount < 2 ^ 31) (u : String) :
    ∃ b, r.unitBucket rule spec u = some b ∧ 0 ≤ b ∧ b < spec.bucketCount := by
  obtain ⟨key, hkey⟩ := bucketKey_of_segment rest u
  have hcount : asU64 spec.bucketCount = spec.bucketCount.toNat := asU64_of_nonneg hpos.le hword
  -- neither of the casts changes a number below `2 ^ 31`
  obtain ⟨b, hb⟩ :=
    bucket_some (r.natives.murmur3 key) (show 0 < spec.bucketCount.toNat by omega)
  have hlt := bucket_lt hb
  have hsigned : asI32 b = b := asI32_of_lt (by omega)
  refine ⟨b, ?_, by omega, by omega⟩
  rw [unitBucket, hsegment, hkey, Option.bind_some, hcount, hb, Option.map_some, hsigned]

/-- The hashed path: the assignment of a matched rule by the bucket of the unit. -/
def hashedAssignment (rule : Rule) (spec : AssignmentSpec) (u : String) :
    Except ResolveError (Option Assignment) :=
  match bucketKey rule.segment u with
  | none => .error (.internal .variantSalt)
  | some key =>
      match bucket (r.natives.murmur3 key) (asU64 spec.bucketCount) with
      | none => .error (.internal .zeroBuckets)
      | some b => .ok (spec.assignments.find? (·.covers (asI32 b)))

/-- The shortcut, and the hashed path behind it. -/
theorem matchedAssignment_some (rule : Rule) (spec : AssignmentSpec) (u : String) :
    r.matchedAssignment rule spec (some u) =
      if hasOnlyOneFullVariant spec then .ok spec.assignments.head?
      else r.hashedAssignment rule spec u := rfl

theorem hashedAssignment_eq {rule : Rule} {u : String} {b : Int}
    (h : r.unitBucket rule spec u = some b) :
    r.hashedAssignment rule spec u = .ok (spec.assignments.find? (·.covers b)) := by
  rw [unitBucket, Option.bind_eq_some_iff] at h
  obtain ⟨key, hkey, h⟩ := h
  obtain ⟨b', hb', rfl⟩ := Option.map_eq_some_iff.mp h
  rw [hashedAssignment, hkey]
  simp only
  rw [hb']

/-- **The assignment of a partition**: the one assignment that contains the unit's bucket. -/
theorem hashedAssignment_of_partitions (h : spec.Partitions) {rule : Rule} {u : String} {b : Int}
    (hb : r.unitBucket rule spec u = some b) (hlow : 0 ≤ b) (hhigh : b < spec.bucketCount) :
    ∃ a, spec.assignments.filter (·.covers b) = [a] ∧
      r.hashedAssignment rule spec u = .ok (some a) := by
  obtain ⟨a, -, hfilter⟩ := h.unique hlow hhigh
  refine ⟨a, hfilter, ?_⟩
  rw [r.hashedAssignment_eq hb, ← List.head?_filter, hfilter, List.head?_singleton]

/-- What the shortcut accepts is assigned without a unit as it is with any. -/
theorem matchedAssignment_of_full (h : hasOnlyOneFullVariant spec = true) {rule : Rule}
    {rest : String} (hsegment : rule.segment = "segments/" ++ rest) (hpos : 0 < spec.bucketCount)
    (hword : spec.bucketCount < 2 ^ 31) (unit : Option String) (u : String) :
    r.matchedAssignment rule spec unit = r.hashedAssignment rule spec u := by
  obtain ⟨b, hb, hlow, hhigh⟩ := r.unitBucket_lt hsegment hpos hword u
  obtain ⟨a, hfilter, hhashed⟩ :=
    r.hashedAssignment_of_partitions (partitions_of_full h) hb hlow hhigh
  obtain ⟨only, -, honly, -⟩ := (hasOnlyOneFullVariant_iff spec).mp h
  -- the list has one element, which is then the one that the bucket is in
  have ha : a = only := by
    have hmem : a ∈ spec.assignments :=
      List.mem_of_mem_filter (hfilter ▸ List.mem_singleton_self a)
    rw [honly] at hmem
    exact List.mem_singleton.mp hmem
  have hshort : r.matchedAssignment rule spec unit = .ok spec.assignments.head? := if_pos h
  rw [hhashed, hshort, honly, ha, List.head?_singleton]

/-- A full rollout without a selector goes on, whatever the targeting key. -/
theorem unitGuard_of_full {rule : Rule} (hspec : rule.assignmentSpec = some spec)
    (h : hasOnlyOneFullVariant spec = true) (hblank : rule.targetingKeySelector = "") :
    ∃ unit, r.unitGuard rule = .ok (some unit) := by
  rw [unitGuard, hspec]
  simp only [hblank, if_true, Option.elim_some, h, decide_true, Bool.and_self]
  split
  · exact ⟨_, rfl⟩
  · exact ⟨none, rfl⟩
  · exact ⟨none, rfl⟩

/-- A rule with a selector goes on with the key of its selector only. -/
theorem unitGuard_of_selector {rule : Rule} (hselector : rule.targetingKeySelector ≠ "")
    (unit : Option String) :
    r.unitGuard rule = .ok (some unit) ↔
      ∃ u, unit = some u ∧ r.getTargetingKey rule.targetingKeySelector = .ok (some u) := by
  rw [unitGuard]
  simp only [hselector, if_false, decide_false, Bool.false_and, Bool.false_eq_true]
  cases hkey : r.getTargetingKey rule.targetingKeySelector with
  | error e => simp
  | ok key =>
      cases key with
      | none => simp
      | some u =>
          simp only [Except.ok.injEq, Option.some.injEq, exists_eq_right']
          exact eq_comm

/-- **The shortcut for full rollouts agrees with the hashed path.** -/
theorem full_rollout_shortcut (rule : Rule) (spec : AssignmentSpec) (rest : String)
    (hsegment : rule.segment = "segments/" ++ rest) (hspec : rule.assignmentSpec = some spec)
    (hpos : 0 < spec.bucketCount) (hword : spec.bucketCount < 2 ^ 31) :
    (∀ u, ∃ b, r.unitBucket rule spec u = some b ∧ 0 ≤ b ∧ b < spec.bucketCount ∧
      (spec.Partitions → ∃ a, spec.assignments.filter (·.covers b) = [a] ∧
        r.matchedAssignment rule spec (some u) = .ok (some a))) ∧
    (hasOnlyOneFullVariant spec = true →
      (∀ unit u, r.matchedAssignment rule spec unit = r.hashedAssignment rule spec u) ∧
      (rule.targetingKeySelector = "" → ∃ unit, r.unitGuard rule = .ok (some unit)) ∧
      (rule.targetingKeySelector ≠ "" → ∀ unit, r.unitGuard rule = .ok (some unit) ↔
        ∃ u, unit = some u ∧ r.getTargetingKey rule.targetingKeySelector = .ok (some u))) := by
  constructor
  · intro u
    obtain ⟨b, hb, hlow, hhigh⟩ := r.unitBucket_lt hsegment hpos hword u
    refine ⟨b, hb, hlow, hhigh, fun hpartitions => ?_⟩
    obtain ⟨a, hfilter, hhashed⟩ := r.hashedAssignment_of_partitions hpartitions hb hlow hhigh
    refine ⟨a, hfilter, ?_⟩
    -- a partition may be one that the shortcut accepts
    by_cases hfull : hasOnlyOneFullVariant spec = true
    · rw [r.matchedAssignment_of_full hfull hsegment hpos hword (some u) u, hhashed]
    · rw [matchedAssignment_some, if_neg hfull, hhashed]
  · intro hfull
    refine ⟨fun unit u => r.matchedAssignment_of_full hfull hsegment hpos hword unit u,
      fun hblank => r.unitGuard_of_full hspec hfull hblank,
      fun hselector unit => r.unitGuard_of_selector hselector unit⟩

end AccountResolver

/-! ### A selector -/

namespace Sample

def selectorFlag : Flag :=
  flag "flags/f" [{ rule "flags/f/rules/1" (.variant "on") with targetingKeySelector := "user_id" }]

/-- The account, with any context. -/
def keyed (context : Struct) : AccountResolver where
  __ := resolver [selectorFlag] [segment] (by decide) segment_nodup
  context := context

/-- The reason that the flag is resolved with. -/
def keyedReason (context : Struct) : Except ResolveError ResolveReason :=
  ((keyed context).resolveFlagInternal selectorFlag (⟨[], [], .complete []⟩)).1.map (·.inner.reason)

end Sample

/-- Thirty of a hundred buckets, in two ranges, and the other seventy. -/
def Sample.split : AssignmentSpec :=
  ⟨100, [⟨"a", some (.variant "on"), [⟨0, 10⟩, ⟨80, 100⟩]⟩, ⟨"b", some .clientDefault, [⟨10, 80⟩]⟩]⟩

theorem Sample.split_partitions : split.Partitions where
  cover b hlow hhigh := by
    simp only [split] at hhigh
    by_cases hinner : 10 ≤ b ∧ b < 80
    · exact ⟨_, List.mem_cons_of_mem _ List.mem_cons_self, _, List.mem_cons_self, hinner⟩
    · refine ⟨_, List.mem_cons_self, ?_⟩
      by_cases hfirst : b < 10
      · exact ⟨_, List.mem_cons_self, hlow, hfirst⟩
      · exact ⟨⟨80, 100⟩, by simp, show 80 ≤ b by omega, hhigh⟩
  disjoint := by
    have hapart (range range' : BucketRange) (h : range.upper ≤ range'.lower ∨
        range'.upper ≤ range.lower) (b : Int) : ¬(range.Contains b ∧ range'.Contains b) := by
      simp only [BucketRange.Contains]
      omega
    refine .cons ?_ (.cons ?_ (.cons ?_ .nil))
    · exact List.forall_mem_cons.mpr ⟨hapart _ _ (.inl (by decide)),
        List.forall_mem_singleton.mpr (hapart _ _ (.inl (by decide)))⟩
    · exact List.forall_mem_singleton.mpr (hapart _ _ (.inr (by decide)))
    · exact fun _ h => absurd h List.not_mem_nil

/-- A rule of two assignments takes that of the unit's bucket, and one for all hundred buckets the
one that it has. -/
theorem full_rollout_shortcut_sample :
    let r := Sample.keyed []
    let full : AssignmentSpec := ⟨100, [⟨"a", some (.variant "on"), [⟨0, 100⟩]⟩]⟩
    let rule (spec : AssignmentSpec) : Rule :=
      { Sample.rule "flags/f/rules/1" (.variant "on") with assignmentSpec := some spec }
    (∃ b a, r.unitBucket (rule Sample.split) Sample.split "u" = some b ∧
      Sample.split.assignments.filter (·.covers b) = [a] ∧
      r.matchedAssignment (rule Sample.split) Sample.split (some "u") = .ok (some a)) ∧
    r.matchedAssignment (rule full) full none = r.hashedAssignment (rule full) full "u" := by
  intro r full rule
  have hsplit := r.full_rollout_shortcut (rule Sample.split) Sample.split "s" rfl rfl (by decide)
    (by decide)
  have hfull := r.full_rollout_shortcut (rule full) full "s" rfl rfl (by decide) (by decide)
  obtain ⟨b, hb, -, -, hone⟩ := hsplit.1 "u"
  obtain ⟨a, hcovers, hmatched⟩ := hone Sample.split_partitions
  exact ⟨⟨b, a, hb, hcovers, hmatched⟩, (hfull.2 rfl).1 none "u"⟩

/-- **A selector asks for its key**: the full rollout is passed by without it. -/
theorem selector_needs_key :
    hasOnlyOneFullVariant (Sample.fullRollout (.variant "on")) = true ∧
      Sample.keyedReason [("user_id", .string "u")] = .ok .match ∧
      Sample.keyedReason [("targeting_key", .string "u")] = .ok .noSegmentMatch :=
  ⟨rfl, rfl, rfl⟩

end ConfidenceResolver
