import Mathlib.Order.Interval.Set.OrdConnected
import Mathlib.Order.UpperLower.Basic
import ConfidenceResolver.Evaluation.Traps

/-!
# Evaluation — range rules over versions and timestamps

Versions are compared as four numbers, timestamps as two, each lexicographically.  A range is an
interval of that order.

* `parseVersion_cases`: the shapes a version is parsed from, and the numbers it is parsed to.
* `parseVersion_padded`: components of zero at the end make no difference, except after a third one
  of more than three digits, which is the fourth.
* `Compared`: values that are compared by a key in a linear order; then `lte` is a total preorder,
  `lt` its strict part (`Compared.ordered`), and a range is convex (`Compared.convex`).
* `range_rules_ordered`: both hold of versions and of timestamps.
-/

namespace ConfidenceResolver

/-! ### Versions -/

/-- The components: the part before the first `-`, between the dots. -/
def versionParts (s : String) : List String := (split '-' s).head?.elim [] (split '.')

/-- A component is at most ten digits. -/
def Component (p : String) : Prop := p.length ≤ 10 ∧ p.toList.all Char.isDigit = true

/-- The version of some components: a third one of more than three digits is the tag. -/
def versionOf : List String → Option Version
  | [major, minor] => some (version (parseDigits major) (parseDigits minor) 0 0)
  | [major, minor, third] =>
      if third.length > 3 then
        some (version (parseDigits major) (parseDigits minor) 0 (parseDigits third))
      else some (version (parseDigits major) (parseDigits minor) (parseDigits third) 0)
  | [major, minor, patch, tag] =>
      some (version (parseDigits major) (parseDigits minor) (parseDigits patch) (parseDigits tag))
  | _ => none

/-- **What is parsed**: components of at most ten digits each, to the version of them. -/
theorem parseVersion_cases {s : String} {v : Version} (h : parseVersion s = some v) :
    (∀ p ∈ versionParts s, Component p) ∧ versionOf (versionParts s) = some v := by
  have hunfold : parseVersion s =
      if s.isEmpty || (versionParts s).any (fun p => p.isEmpty || !p.toList.all Char.isDigit) then
        none
      else if (versionParts s).any (fun p => p.length > 10) then none
      else versionOf (versionParts s) := rfl
  rw [hunfold] at h
  split at h
  · cases h
  · rename_i hdigits
    split at h
    · cases h
    · rename_i hlong
      refine ⟨fun p hp => ⟨?_, ?_⟩, h⟩
      · by_contra hlength
        refine hlong (List.any_eq_true.mpr ⟨p, hp, ?_⟩)
        exact decide_eq_true (Nat.not_le.mp hlength)
      · by_contra hdigit
        refine hdigits (Bool.or_eq_true_iff.mpr (.inr (List.any_eq_true.mpr ⟨p, hp, ?_⟩)))
        rw [Bool.not_eq_true] at hdigit
        rw [hdigit, Bool.not_false, Bool.or_true]

/-- The numbers of a version that is parsed are those of its components, or zero. -/
theorem parseVersion_fits {s : String} {v : Version} (h : parseVersion s = some v) :
    ∃ major minor patch tag, v = version major minor patch tag ∧
      major < 2 ^ 64 ∧ minor < 2 ^ 64 ∧ patch < 2 ^ 64 ∧ tag < 2 ^ 64 := by
  obtain ⟨hparts, hversion⟩ := parseVersion_cases h
  have hfits : ∀ p ∈ versionParts s, parseDigits p < 2 ^ 64 :=
    fun p hp => parseDigits_fits (hparts p hp).1 (hparts p hp).2
  have hzero : 0 < 2 ^ 64 := Nat.two_pow_pos 64
  generalize versionParts s = parts at hversion hfits
  match parts, hversion, hfits with
  | [major, minor], hversion, hfits =>
      cases hversion
      exact ⟨_, _, _, _, rfl, hfits major (by simp), hfits minor (by simp), hzero, hzero⟩
  | [major, minor, third], hversion, hfits =>
      rw [versionOf] at hversion
      split at hversion
      · cases hversion
        exact ⟨_, _, _, _, rfl, hfits major (by simp), hfits minor (by simp), hzero,
          hfits third (by simp)⟩
      · cases hversion
        exact ⟨_, _, _, _, rfl, hfits major (by simp), hfits minor (by simp),
          hfits third (by simp), hzero⟩
  | [major, minor, patch, tag], hversion, hfits =>
      cases hversion
      exact ⟨_, _, _, _, rfl, hfits major (by simp), hfits minor (by simp), hfits patch (by simp),
        hfits tag (by simp)⟩

/-- A third component of more than three digits. -/
def LongThird (parts : List String) : Prop :=
  ∃ major minor third, parts = [major, minor, third] ∧ third.length > 3

/-- **Missing components compare as zero**, when the third one is not the tag. -/
theorem parseVersion_padded {s s' : String} {v v' : Version} (h : parseVersion s = some v)
    (h' : parseVersion s' = some v') {zeros : List String}
    (hparts : versionParts s' = versionParts s ++ zeros) (hzeros : ∀ z ∈ zeros, parseDigits z = 0)
    (hthird : ¬ LongThird (versionParts s)) : v = v' := by
  obtain ⟨-, hv⟩ := parseVersion_cases h
  obtain ⟨-, hv'⟩ := parseVersion_cases h'
  rw [hparts] at hv'
  generalize versionParts s = parts at hv hv' hthird
  -- a version has two to four parts, so zeros can follow two or three of them
  match parts, hv, hv', hthird with
  | [major, minor], hv, hv', _ =>
      cases hv
      match zeros, hv', hzeros with
      | [], hv', _ => exact Option.some.inj hv'
      | [z], hv', hzeros =>
          have hz := hzeros z (by simp)
          change (if z.length > 3 then _ else _) = _ at hv'
          rw [hz, ite_self] at hv'
          exact Option.some.inj hv'
      | [z, z'], hv', hzeros =>
          have hz := hzeros z (by simp)
          have hz' := hzeros z' (by simp)
          change some (version _ _ (parseDigits z) (parseDigits z')) = _ at hv'
          rw [hz, hz'] at hv'
          exact Option.some.inj hv'
  | [major, minor, third], hv, hv', hthird =>
      have hshort : ¬ third.length > 3 := fun hlong => hthird ⟨major, minor, third, rfl, hlong⟩
      rw [versionOf, if_neg hshort] at hv
      match zeros, hv', hzeros with
      | [], hv', _ =>
          change (if third.length > 3 then _ else _) = _ at hv'
          rw [if_neg hshort] at hv'
          exact Option.some.inj (hv.symm.trans hv')
      | [z], hv', hzeros =>
          have hz := hzeros z (by simp)
          change some (version _ _ (parseDigits third) (parseDigits z)) = _ at hv'
          rw [hz] at hv'
          exact Option.some.inj (hv.symm.trans hv')
  | [major, minor, patch, tag], hv, hv', _ =>
      match zeros, hv' with
      | [], hv' => exact Option.some.inj (hv.symm.trans hv')

/-- A third component that is the tag leaves the third number zero. -/
theorem parseVersion_longThird {s : String} {v : Version} (h : parseVersion s = some v)
    {major minor third : String} (hparts : versionParts s = [major, minor, third])
    (hlong : third.length > 3) :
    v = version (parseDigits major) (parseDigits minor) 0 (parseDigits third) := by
  obtain ⟨-, hv⟩ := parseVersion_cases h
  rw [hparts, versionOf, if_pos hlong] at hv
  exact (Option.some.inj hv).symm

/-! ### Values in order -/

/-- `lte` is a total preorder on the values of one kind, and `lt` its strict part. -/
structure Ordered {α : Type} (value : α → TargetingValue) : Prop where
  refl : ∀ a, (value a).lte (value a) = true
  trans : ∀ {a b c}, (value a).lte (value b) = true → (value b).lte (value c) = true →
    (value a).lte (value c) = true
  total : ∀ a b, (value a).lte (value b) = true ∨ (value b).lte (value a) = true
  strict : ∀ a b, (value a).lt (value b) = true ↔
    (value a).lte (value b) = true ∧ ¬ (value b).lte (value a) = true

/-- A range holds, with two of these values, all that are between them. -/
def Convex {α : Type} (value : α → TargetingValue) (r : RangeRule) : Prop :=
  ∀ a b c, evaluateRangeRule r (value a) = true → evaluateRangeRule r (value c) = true →
    (value a).lte (value b) = true → (value b).lte (value c) = true →
    evaluateRangeRule r (value b) = true

/-- Values that are compared by a key, and with values of their own kind only. -/
structure Compared {α κ : Type} [LinearOrder κ] (value : α → TargetingValue) (key : α → κ) :
    Prop where
  lte_iff : ∀ a b, (value a).lte (value b) = true ↔ key a ≤ key b
  lt_iff : ∀ a b, (value a).lt (value b) = true ↔ key a < key b
  kind : ∀ x a, x.lte (value a) = true ∨ x.lt (value a) = true ∨ (value a).lte x = true ∨
    (value a).lt x = true → ∃ b, x = value b

/-- The two ends of a range. -/
def afterStart : Option Bound → TargetingValue → Bool
  | some (.inclusive start), v => start.lte v
  | some (.exclusive start), v => start.lt v
  | none, _ => true

def beforeEnd : Option Bound → TargetingValue → Bool
  | some (.inclusive stop), v => v.lte stop
  | some (.exclusive stop), v => v.lt stop
  | none, _ => true

theorem evaluateRangeRule_eq (r : RangeRule) (v : TargetingValue) :
    evaluateRangeRule r v =
      (!(r.start.isNone && r.stop.isNone) && (afterStart r.start v && beforeEnd r.stop v)) := by
  obtain ⟨start, stop⟩ := r
  rcases start with _ | (a | a) <;> rcases stop with _ | (b | b) <;> rfl

namespace Compared

variable {α κ : Type} [LinearOrder κ] {value : α → TargetingValue} {key : α → κ}

theorem ordered (h : Compared value key) : Ordered value where
  refl a := (h.lte_iff a a).mpr (le_refl (key a))
  trans hab hbc := (h.lte_iff _ _).mpr (((h.lte_iff _ _).mp hab).trans ((h.lte_iff _ _).mp hbc))
  total a b := by
    rw [h.lte_iff, h.lte_iff]
    exact le_total (key a) (key b)
  strict a b := by
    rw [h.lt_iff, h.lte_iff, h.lte_iff]
    exact lt_iff_le_not_ge

/-- The start of a range admits an up-set of keys. -/
theorem afterStart_upper (h : Compared value key) (start : Option Bound) :
    ∃ s : Set κ, IsUpperSet s ∧ ∀ a, afterStart start (value a) = true ↔ key a ∈ s := by
  rcases start with _ | (x | x)
  · exact ⟨Set.univ, isUpperSet_univ, fun a => iff_of_true rfl (Set.mem_univ _)⟩
  · by_cases hx : ∃ b, x = value b
    · obtain ⟨b, rfl⟩ := hx
      exact ⟨Set.Ici (key b), isUpperSet_Ici _, fun a => h.lte_iff b a⟩
    · refine ⟨∅, isUpperSet_empty, fun a => iff_of_false ?_ (Set.notMem_empty _)⟩
      exact fun hle => hx (h.kind x a (.inl hle))
  · by_cases hx : ∃ b, x = value b
    · obtain ⟨b, rfl⟩ := hx
      exact ⟨Set.Ioi (key b), isUpperSet_Ioi _, fun a => h.lt_iff b a⟩
    · refine ⟨∅, isUpperSet_empty, fun a => iff_of_false ?_ (Set.notMem_empty _)⟩
      exact fun hlt => hx (h.kind x a (.inr (.inl hlt)))

/-- Its end admits a down-set. -/
theorem beforeEnd_lower (h : Compared value key) (stop : Option Bound) :
    ∃ s : Set κ, IsLowerSet s ∧ ∀ a, beforeEnd stop (value a) = true ↔ key a ∈ s := by
  rcases stop with _ | (x | x)
  · exact ⟨Set.univ, isLowerSet_univ, fun a => iff_of_true rfl (Set.mem_univ _)⟩
  · by_cases hx : ∃ b, x = value b
    · obtain ⟨b, rfl⟩ := hx
      exact ⟨Set.Iic (key b), isLowerSet_Iic _, fun a => h.lte_iff a b⟩
    · refine ⟨∅, isLowerSet_empty, fun a => iff_of_false ?_ (Set.notMem_empty _)⟩
      exact fun hle => hx (h.kind x a (.inr (.inr (.inl hle))))
  · by_cases hx : ∃ b, x = value b
    · obtain ⟨b, rfl⟩ := hx
      exact ⟨Set.Iio (key b), isLowerSet_Iio _, fun a => h.lt_iff a b⟩
    · refine ⟨∅, isLowerSet_empty, fun a => iff_of_false ?_ (Set.notMem_empty _)⟩
      exact fun hlt => hx (h.kind x a (.inr (.inr (.inr hlt))))

/-- **A range is an interval** of the keys: an up-set and a down-set. -/
theorem range_ordConnected (h : Compared value key) (r : RangeRule) :
    ∃ s : Set κ, s.OrdConnected ∧ ∀ a, evaluateRangeRule r (value a) = true ↔ key a ∈ s := by
  obtain ⟨up, hup, hstart⟩ := h.afterStart_upper r.start
  obtain ⟨down, hdown, hstop⟩ := h.beforeEnd_lower r.stop
  by_cases hopen : (r.start.isNone && r.stop.isNone) = true
  · refine ⟨∅, Set.ordConnected_empty, fun a => iff_of_false ?_ (Set.notMem_empty _)⟩
    rw [evaluateRangeRule_eq, hopen, Bool.not_true, Bool.false_and]
    exact Bool.false_ne_true
  · refine ⟨up ∩ down, hup.ordConnected.inter hdown.ordConnected, fun a => ?_⟩
    rw [Bool.not_eq_true] at hopen
    rw [evaluateRangeRule_eq, hopen, Bool.not_false, Bool.true_and, Bool.and_eq_true, hstart, hstop,
      Set.mem_inter_iff]

theorem convex (h : Compared value key) (r : RangeRule) : Convex value r := by
  intro a b c ha hc hab hbc
  obtain ⟨s, hs, hrange⟩ := h.range_ordConnected r
  rw [hrange] at ha hc ⊢
  exact hs.out ha hc ⟨(h.lte_iff _ _).mp hab, (h.lte_iff _ _).mp hbc⟩

end Compared

/-! ### Versions and timestamps in order -/

/-- The value of a version; one that does not parse counts as zero. -/
def versionValue (s : String) : TargetingValue := some (.versionValue s)

def timestampValue (t : Timestamp) : TargetingValue := some (.timestampValue t)

/-- `(seconds, nanos)`, compared lexicographically. -/
def Timestamp.key (t : Timestamp) : Int ×ₗ Int := toLex (t.seconds, t.nanos)

theorem Timestamp.lte_iff (a b : Timestamp) : a.lte b = true ↔ a.key ≤ b.key := by
  rw [Timestamp.lte, Timestamp.key, Timestamp.key, Prod.Lex.toLex_le_toLex]
  simp

theorem Timestamp.lt_iff (a b : Timestamp) : a.lt b = true ↔ a.key < b.key := by
  rw [Timestamp.lt, Timestamp.key, Timestamp.key, Prod.Lex.toLex_lt_toLex]
  simp

theorem versions_compared : Compared versionValue versionOrZero where
  lte_iff a b := decide_eq_true_iff
  lt_iff a b := decide_eq_true_iff
  kind x a h := by
    rcases x with _ | k
    · simp [versionValue, TargetingValue.lte, TargetingValue.lt] at h
    · cases k with
      | versionValue s => exact ⟨s, rfl⟩
      | _ => simp [versionValue, TargetingValue.lte, TargetingValue.lt] at h

theorem timestamps_compared : Compared timestampValue Timestamp.key where
  lte_iff := Timestamp.lte_iff
  lt_iff := Timestamp.lt_iff
  kind x a h := by
    rcases x with _ | k
    · simp [timestampValue, TargetingValue.lte, TargetingValue.lt] at h
    · cases k with
      | timestampValue t => exact ⟨t, rfl⟩
      | _ => simp [timestampValue, TargetingValue.lte, TargetingValue.lt] at h

/-- **Versions and timestamps are in order**: what parses fits, `lte` is a total preorder with `lt`
its strict part, ranges are convex, and missing components compare as zero unless the third one is
the tag, which it is with more than three digits. -/
theorem range_rules_ordered :
    (∀ s, parseVersion s = none ∨ ∃ major minor patch tag,
      parseVersion s = some (version major minor patch tag) ∧
        major < 2 ^ 64 ∧ minor < 2 ^ 64 ∧ patch < 2 ^ 64 ∧ tag < 2 ^ 64) ∧
    Ordered versionValue ∧ Ordered timestampValue ∧
    (∀ r, Convex versionValue r) ∧ (∀ r, Convex timestampValue r) ∧
    (∀ s s' v v' zeros, parseVersion s = some v → parseVersion s' = some v' →
      versionParts s' = versionParts s ++ zeros → (∀ z ∈ zeros, parseDigits z = 0) →
      ¬ LongThird (versionParts s) → v = v') ∧
    (∀ s v major minor third, parseVersion s = some v → versionParts s = [major, minor, third] →
      third.length > 3 →
      v = version (parseDigits major) (parseDigits minor) 0 (parseDigits third)) := by
  refine ⟨fun s => ?_, versions_compared.ordered, timestamps_compared.ordered,
    versions_compared.convex, timestamps_compared.convex,
    fun s s' v v' zeros h h' hparts hzeros hthird => parseVersion_padded h h' hparts hzeros hthird,
    fun s v major minor third h hparts hlong => parseVersion_longThird h hparts hlong⟩
  rcases h : parseVersion s with _ | v
  · exact .inl rfl
  · obtain ⟨major, minor, patch, tag, rfl, hfits⟩ := parseVersion_fits h
    exact .inr ⟨major, minor, patch, tag, rfl, hfits⟩

/-- **A fourth component of zero** makes a difference to `1.0.1000`. -/
theorem tag_before_patch :
    parseVersion "1.0.1000" = some (version 1 0 0 1000) ∧
      parseVersion "1.0.1000.0" = some (version 1 0 1000 0) ∧
      versionParts "1.0.1000.0" = versionParts "1.0.1000" ++ ["0"] ∧
      (versionValue "1.0.1000.0").lte (versionValue "1.0.1000") = false := by
  decide

end ConfidenceResolver
