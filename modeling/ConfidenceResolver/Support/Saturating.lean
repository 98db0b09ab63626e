import Mathlib.Algebra.BigOperators.Group.List.Basic
import Mathlib.Algebra.Ring.Int.Defs
import Mathlib.Algebra.Order.Group.Int
import Mathlib.Data.List.Induction

/-!
# Support — sums of saturating counts

Running sums of `i64` counts whose additions saturate, against the sums of the integers.

* `saturatingSum`: the running sum.  `saturatingSum_eq`, `unsaturated_of_eq`: it is the sum when
  the partial sums fit, and for counts only then.
* `carriedSum`: the running sum over groups in which a group replaces what was known: only its last
  count is added, and an empty group forgets.
* `carriedSum_eq`, `carried_of_eq`: when that is the sum of all counts.
* `unsaturated_summaries`, `carried_summaries`: both conditions pass to the sums of parts.
-/

namespace ConfidenceResolver

/-- `i64::saturating_add`. -/
def saturatingAdd (a b : Int64) : Int64 := Int64.ofIntClamp (a.toInt + b.toInt)

/-- `i64::saturating_sub`. -/
def saturatingSub (a b : Int64) : Int64 := Int64.ofIntClamp (a.toInt - b.toInt)

namespace Saturating

def InRange (x : Int) : Prop := Int64.minValue.toInt ≤ x ∧ x ≤ Int64.maxValue.toInt

/-- The sum of the integers. -/
def total (cs : List Int64) : Int := (cs.map (·.toInt)).sum

def saturatingSum (cs : List Int64) : Int64 := cs.foldl saturatingAdd 0

/-- Every partial sum fits. -/
def Unsaturated (cs : List Int64) : Prop := ∀ n, InRange (total (cs.take n))

def NonNegative (cs : List Int64) : Prop := ∀ c ∈ cs, 0 ≤ c.toInt

@[simp] theorem total_nil : total [] = 0 := rfl

@[simp] theorem total_cons (c : Int64) (cs : List Int64) : total (c :: cs) = c.toInt + total cs := rfl

@[simp] theorem total_append (cs cs' : List Int64) : total (cs ++ cs') = total cs + total cs' := by
  simp [total]

theorem total_flatMap {A : Type*} (f : A → List Int64) (l : List A) :
    total (l.flatMap f) = (l.map fun a => total (f a)).sum := by
  induction l with
  | nil => rfl
  | cons a l ih => simp [ih]

theorem total_eq_zero {cs : List Int64} (h : ∀ c ∈ cs, c = 0) : total cs = 0 := by
  induction cs with
  | nil => rfl
  | cons c cs ih =>
      obtain ⟨rfl, hcs⟩ := List.forall_mem_cons.mp h
      simp [ih hcs]

theorem total_nonneg {cs : List Int64} (h : NonNegative cs) : 0 ≤ total cs := by
  induction cs with
  | nil => simp
  | cons c cs ih =>
      have hc := h c List.mem_cons_self
      have hcs := ih fun x hx => h x (List.mem_cons_of_mem c hx)
      simp only [total_cons]
      omega

theorem eq_zero_of_total {cs : List Int64} (h : NonNegative cs) (htotal : total cs = 0) :
    ∀ c ∈ cs, c = 0 := by
  induction cs with
  | nil => simp
  | cons c cs ih =>
      have hc := h c List.mem_cons_self
      have hnonneg : NonNegative cs := fun x hx => h x (List.mem_cons_of_mem c hx)
      have hcs := total_nonneg hnonneg
      rw [total_cons] at htotal
      have hzero : c.toInt = (0 : Int64).toInt := by
        rw [Int64.toInt_zero]
        omega
      exact List.forall_mem_cons.mpr ⟨Int64.toInt_inj.mp hzero, ih hnonneg (by omega)⟩

theorem flatten_flatMap {A B : Type*} (f : A → List (List B)) (l : List A) :
    (l.flatMap f).flatten = l.flatMap fun a => (f a).flatten := by
  induction l with
  | nil => rfl
  | cons a l ih => simp [ih]

/-! ### One addition -/

theorem saturatingAdd_eq {a b : Int64} (h : InRange (a.toInt + b.toInt)) :
    (saturatingAdd a b).toInt = a.toInt + b.toInt :=
  Int64.toInt_ofIntClamp h.1 h.2

/-- Saturation takes away from a sum of counts, and only where it does not fit. -/
theorem saturatingAdd_le {a b : Int64} (ha : 0 ≤ a.toInt) (hb : 0 ≤ b.toInt) :
    0 ≤ (saturatingAdd a b).toInt ∧ (saturatingAdd a b).toInt ≤ a.toInt + b.toInt ∧
      ((saturatingAdd a b).toInt = a.toInt + b.toInt → InRange (a.toInt + b.toInt)) := by
  have hmin : Int64.minValue.toInt ≤ a.toInt + b.toInt := by
    have : Int64.minValue.toInt ≤ 0 := by decide
    omega
  by_cases hmax : a.toInt + b.toInt ≤ Int64.maxValue.toInt
  · have heq := saturatingAdd_eq ⟨hmin, hmax⟩
    exact ⟨by omega, by omega, fun _ => ⟨hmin, hmax⟩⟩
  · have heq : saturatingAdd a b = Int64.maxValue := by
      rw [saturatingAdd, Int64.ofIntClamp, dif_pos hmin, dif_neg hmax]
    have hpos : (0 : Int) ≤ Int64.maxValue.toInt := by decide
    rw [heq]
    exact ⟨hpos, by omega, fun h => absurd (le_of_eq h.symm) hmax⟩

/-- A difference below a bound is below it without saturation too. -/
theorem sub_lt_of_saturatingSub_lt {a b c : Int64} (h : saturatingSub a b < c) :
    a.toInt - b.toInt < c.toInt := by
  have hlt := Int64.lt_iff_toInt_lt.mp h
  have hc := c.minValue_le_toInt
  have hc' := c.toInt_le
  by_cases hmin : Int64.minValue.toInt ≤ a.toInt - b.toInt
  · by_cases hmax : a.toInt - b.toInt ≤ Int64.maxValue.toInt
    · rwa [saturatingSub, Int64.toInt_ofIntClamp hmin hmax] at hlt
    · rw [saturatingSub, Int64.ofIntClamp, dif_pos hmin, dif_neg hmax] at hlt
      exact absurd hlt (Int.not_lt.mpr hc')
  · exact Int.lt_of_lt_of_le (Int.lt_of_not_ge hmin) hc

/-! ### Running sums -/

theorem saturatingSum_append (cs : List Int64) (c : Int64) :
    saturatingSum (cs ++ [c]) = saturatingAdd (saturatingSum cs) c := by
  simp [saturatingSum]

theorem unsaturated_append {cs : List Int64} {c : Int64} :
    Unsaturated (cs ++ [c]) ↔ Unsaturated cs ∧ InRange (total cs + c.toInt) := by
  constructor
  · intro h
    refine ⟨fun n => ?_, ?_⟩
    · by_cases hn : n ≤ cs.length
      · have := h n
        rwa [List.take_append_of_le_length hn] at this
      · have := h cs.length
        rw [List.take_append_of_le_length (le_refl _)] at this
        rwa [List.take_of_length_le (by omega), ← List.take_length (l := cs)]
    · have := h (cs.length + 1)
      rw [List.take_of_length_le (by simp)] at this
      simpa using this
  · rintro ⟨h, hc⟩ n
    by_cases hn : n ≤ cs.length
    · rw [List.take_append_of_le_length hn]
      exact h n
    · rw [List.take_of_length_le (by simp; omega)]
      simpa using hc

theorem unsaturated_nil : Unsaturated [] := by
  intro n
  rw [List.take_nil]
  exact ⟨by decide, by decide⟩

/-- **While the partial sums fit** the running sum is the sum. -/
theorem saturatingSum_eq {cs : List Int64} (h : Unsaturated cs) :
    (saturatingSum cs).toInt = total cs := by
  induction cs using List.reverseRecOn with
  | nil => rfl
  | append_singleton cs c ih =>
      obtain ⟨hcs, hc⟩ := unsaturated_append.mp h
      rw [saturatingSum_append, saturatingAdd_eq (by rwa [ih hcs]), ih hcs]
      simp

theorem nonNegative_append {cs cs' : List Int64} :
    NonNegative (cs ++ cs') ↔ NonNegative cs ∧ NonNegative cs' :=
  List.forall_mem_append

/-- The running sum of counts is at most their sum, and the sum only if the partial sums fit. -/
theorem saturatingSum_le {cs : List Int64} (h : NonNegative cs) :
    0 ≤ (saturatingSum cs).toInt ∧ (saturatingSum cs).toInt ≤ total cs ∧
      ((saturatingSum cs).toInt = total cs → Unsaturated cs) := by
  induction cs using List.reverseRecOn with
  | nil => exact ⟨le_refl _, le_refl _, fun _ => unsaturated_nil⟩
  | append_singleton cs c ih =>
      obtain ⟨hcs, hc⟩ := nonNegative_append.mp h
      obtain ⟨hpos, hle, heq⟩ := ih hcs
      obtain ⟨hpos', hle', heq'⟩ := saturatingAdd_le hpos (hc c List.mem_cons_self)
      have htotal : total (cs ++ [c]) = total cs + c.toInt := by simp
      rw [saturatingSum_append, htotal]
      refine ⟨hpos', by omega, fun hsum => ?_⟩
      have hsame : (saturatingSum cs).toInt = total cs := by omega
      refine unsaturated_append.mpr ⟨heq hsame, ?_⟩
      rw [← hsame]
      exact heq' (by omega)

theorem unsaturated_of_eq {cs : List Int64} (h : NonNegative cs)
    (heq : (saturatingSum cs).toInt = total cs) : Unsaturated cs :=
  (saturatingSum_le h).2.2 heq

/-- Counts that fit together fit one after the other. -/
theorem unsaturated_of_le {cs : List Int64} (h : NonNegative cs)
    (hmax : total cs ≤ Int64.maxValue.toInt) : Unsaturated cs := by
  intro n
  have hsplit : total (cs.take n) + total (cs.drop n) = total cs := by
    rw [← total_append, List.take_append_drop]
  have htake : 0 ≤ total (cs.take n) := total_nonneg fun c hc => h c (List.mem_of_mem_take hc)
  have hdrop : 0 ≤ total (cs.drop n) := total_nonneg fun c hc => h c (List.mem_of_mem_drop hc)
  have hmin : Int64.minValue.toInt ≤ 0 := by decide
  exact ⟨by omega, by omega⟩

/-! ### Groups that replace what was known -/

/-- The last count of a group added to what was known; nothing for an empty group. -/
def carry (known : Int64) (cs : List Int64) : Int64 :=
  (cs.getLast?.map (saturatingAdd known)).getD 0

def carriedSum (groups : List (List Int64)) : Int64 := groups.foldl carry 0

/-- In each group only the last count is not zero, and a group is empty only before any count
that is not zero. -/
structure Carried (groups : List (List Int64)) : Prop where
  repeated : ∀ cs ∈ groups, ∀ c ∈ cs.dropLast, c = 0
  kept : ∀ pre post, groups = pre ++ [] :: post → ∀ c ∈ pre.flatten, c = 0

theorem carriedSum_append (groups : List (List Int64)) (cs : List Int64) :
    carriedSum (groups ++ [cs]) = carry (carriedSum groups) cs := by
  simp [carriedSum]

theorem Carried.left {groups groups' : List (List Int64)} (h : Carried (groups ++ groups')) :
    Carried groups := by
  refine ⟨fun x hx => h.repeated x (List.mem_append_left _ hx), fun pre post hpre => ?_⟩
  exact h.kept pre (post ++ groups') (by rw [hpre, List.append_assoc, List.cons_append])

theorem carried_append {groups : List (List Int64)} {cs : List Int64} (h : Carried groups)
    (hrepeated : ∀ c ∈ cs.dropLast, c = 0) (hkept : cs = [] → ∀ c ∈ groups.flatten, c = 0) :
    Carried (groups ++ [cs]) := by
  refine ⟨fun x hx => ?_, fun pre post hpre => ?_⟩
  · rcases List.mem_append.mp hx with hx | hx
    · exact h.repeated x hx
    · rw [List.mem_singleton.mp hx]
      exact hrepeated
  · rcases List.eq_nil_or_concat' post with rfl | ⟨post', x, rfl⟩
    · obtain ⟨rfl, hcs⟩ := List.append_inj' hpre rfl
      exact hkept (List.cons.inj hcs).1
    · have hpre' : groups ++ [cs] = (pre ++ [] :: post') ++ [x] := by simpa using hpre
      exact h.kept pre post' (List.append_inj' hpre' rfl).1

/-- The last count of a group that is not empty, and what stands before it. -/
theorem carry_concat (known : Int64) (cs : List Int64) (c : Int64) :
    carry known (cs ++ [c]) = saturatingAdd known c := by
  simp [carry]

theorem Unsaturated.left {cs cs' : List Int64} (h : Unsaturated (cs ++ cs')) : Unsaturated cs := by
  intro n
  by_cases hn : n ≤ cs.length
  · have := h n
    rwa [List.take_append_of_le_length hn] at this
  · have := h cs.length
    rw [List.take_append_of_le_length (le_refl _)] at this
    rwa [List.take_of_length_le (by omega), ← List.take_length (l := cs)]

/-- **Where nothing is replaced** the running sum over groups is the sum of all counts. -/
theorem carriedSum_eq {groups : List (List Int64)} (h : Carried groups)
    (hfits : Unsaturated groups.flatten) : (carriedSum groups).toInt = total groups.flatten := by
  induction groups using List.reverseRecOn with
  | nil => rfl
  | append_singleton groups cs ih =>
      rw [List.flatten_append, List.flatten_singleton] at hfits ⊢
      have hsum := ih h.left (Unsaturated.left hfits)
      rw [carriedSum_append, total_append]
      rcases List.eq_nil_or_concat' cs with rfl | ⟨rest, c, rfl⟩
      · rw [total_eq_zero (h.kept groups [] rfl)]
        rfl
      · have hlast := h.repeated _ (List.mem_append_right _ (List.mem_singleton_self _))
        have hrest : total rest = 0 := total_eq_zero (by simpa using hlast)
        rw [← List.append_assoc] at hfits
        have hrange := (unsaturated_append.mp hfits).2
        rw [total_append, hrest, add_zero, ← hsum] at hrange
        rw [carry_concat, saturatingAdd_eq hrange, hsum, total_append, hrest]
        simp

/-- The running sum of groups of counts is at most the sum of all counts, and the sum only where
nothing is replaced and the partial sums fit. -/
theorem carriedSum_le {groups : List (List Int64)} (h : NonNegative groups.flatten) :
    0 ≤ (carriedSum groups).toInt ∧ (carriedSum groups).toInt ≤ total groups.flatten ∧
      ((carriedSum groups).toInt = total groups.flatten →
        Carried groups ∧ Unsaturated groups.flatten) := by
  induction groups using List.reverseRecOn with
  | nil =>
      refine ⟨le_refl _, le_refl _, fun _ => ⟨⟨by simp, fun pre post hpre => ?_⟩, unsaturated_nil⟩⟩
      simp at hpre
  | append_singleton groups cs ih =>
      rw [List.flatten_append, List.flatten_singleton] at h ⊢
      obtain ⟨hgroups, hcs⟩ := nonNegative_append.mp h
      obtain ⟨hpos, hle, heq⟩ := ih hgroups
      rw [carriedSum_append, total_append]
      rcases List.eq_nil_or_concat' cs with rfl | ⟨rest, c, rfl⟩
      · have hcarry : carry (carriedSum groups) [] = 0 := rfl
        have htotal := total_nonneg hgroups
        rw [hcarry, total_nil, Int64.toInt_zero, List.append_nil]
        refine ⟨le_refl _, by omega, fun hzero => ?_⟩
        have hzero' : (carriedSum groups).toInt = total groups.flatten := by omega
        obtain ⟨hcarried, hfits⟩ := heq hzero'
        exact ⟨carried_append hcarried (by simp) fun _ => eq_zero_of_total hgroups (by omega), hfits⟩
      · obtain ⟨hrest, hc⟩ := nonNegative_append.mp hcs
        obtain ⟨hpos', hle', heq'⟩ := saturatingAdd_le hpos (hc c List.mem_cons_self)
        have htotal := total_nonneg hrest
        have hlast : total (rest ++ [c]) = total rest + c.toInt := by simp
        rw [carry_concat, hlast]
        refine ⟨hpos', by omega, fun hsum => ?_⟩
        obtain ⟨hcarried, hfits⟩ := heq (by omega)
        have hzero := eq_zero_of_total hrest (by omega)
        refine ⟨carried_append hcarried (by simpa using hzero) (by simp), ?_⟩
        have hrange := heq' (by omega)
        rw [← List.append_assoc]
        have hmid : Unsaturated (groups.flatten ++ rest) := by
          -- the counts before the last one are zero, so their partial sums are those before them
          intro n
          by_cases hn : n ≤ groups.flatten.length
          · rw [List.take_append_of_le_length hn]
            exact hfits n
          · obtain ⟨k, rfl⟩ := Nat.exists_eq_add_of_le (Nat.le_of_not_le hn)
            have htake : (groups.flatten ++ rest).take (groups.flatten.length + k) =
                groups.flatten ++ rest.take k := List.take_length_add_append k
            rw [htake, total_append, total_eq_zero fun x hx => hzero x (List.mem_of_mem_take hx),
              add_zero, ← List.take_length (l := groups.flatten)]
            exact hfits _
        refine unsaturated_append.mpr ⟨hmid, ?_⟩
        rw [total_append, total_eq_zero hzero, add_zero]
        have hsame : (carriedSum groups).toInt = total groups.flatten := by omega
        rwa [hsame] at hrange

theorem carried_of_eq {groups : List (List Int64)} (h : NonNegative groups.flatten)
    (heq : (carriedSum groups).toInt = total groups.flatten) :
    Carried groups ∧ Unsaturated groups.flatten :=
  (carriedSum_le h).2.2 heq

/-! ### Sums of parts -/

theorem Unsaturated.inRange {cs : List Int64} (h : Unsaturated cs) : InRange (total cs) := by
  have := h cs.length
  rwa [List.take_length] at this

/-- **One sum for each part**, or none for a sum of zero: the partial sums are those of the whole
at the ends of parts. -/
theorem unsaturated_summaries {P : Type*} {whole : P → List Int64} {summary : P → Option Int64}
    (parts : List P) (hsum : ∀ p ∈ parts, total (summary p).toList = total (whole p))
    (h : Unsaturated (parts.flatMap whole)) :
    Unsaturated (parts.flatMap fun p => (summary p).toList) := by
  induction parts using List.reverseRecOn with
  | nil => exact unsaturated_nil
  | append_singleton parts p ih =>
      have htotal : total ((parts ++ [p]).flatMap fun p => (summary p).toList) =
          total ((parts ++ [p]).flatMap whole) := by
        rw [total_flatMap, total_flatMap, List.map_congr_left hsum]
      have hrange := h.inRange
      rw [← htotal] at hrange
      rw [List.flatMap_append, List.flatMap_singleton] at h hrange ⊢
      have hparts := ih (List.forall_mem_append.mp hsum).1 (Unsaturated.left h)
      cases hs : summary p with
      | none => simpa using hparts
      | some c =>
          refine unsaturated_append.mpr ⟨hparts, ?_⟩
          simpa [hs] using hrange

/-- One group for each part, with the sum of its counts or empty: then the part ends with an empty
group. -/
theorem carried_summaries {P : Type*} {whole : P → List (List Int64)}
    {summary : P → Option (Option Int64)} (parts : List P)
    (hsum : ∀ p ∈ parts, ∀ c, summary p = some (some c) → c.toInt = total (whole p).flatten)
    (hempty : ∀ p ∈ parts, summary p = some none → ∃ pre, whole p = pre ++ [[]])
    (h : Carried (parts.flatMap whole)) :
    Carried (parts.flatMap fun p => (summary p).toList.map Option.toList) := by
  induction parts using List.reverseRecOn with
  | nil => exact ⟨by simp, fun pre post hpre => by simp at hpre⟩
  | append_singleton parts p ih =>
      rw [List.flatMap_append, List.flatMap_singleton] at h ⊢
      obtain ⟨hsum', -⟩ := List.forall_mem_append.mp hsum
      obtain ⟨hempty', -⟩ := List.forall_mem_append.mp hempty
      have hparts := ih hsum' hempty' h.left
      cases hs : summary p with
      | none => simpa using hparts
      | some o =>
          refine carried_append hparts (by cases o <;> simp) fun ho => ?_
          -- an empty group at the end of the part: every count before it is zero
          have hnone : summary p = some none := by rw [hs, Option.toList_eq_nil_iff.mp ho]
          obtain ⟨pre, hpre⟩ := hempty p (by simp) hnone
          have hzero : ∀ c ∈ (parts.flatMap whole ++ pre).flatten, c = 0 := by
            refine h.kept (parts.flatMap whole ++ pre) [] ?_
            rw [hpre, List.append_assoc]
          intro c hc
          simp only [List.mem_flatten, List.mem_flatMap, List.mem_map, Option.mem_toList] at hc
          obtain ⟨_, ⟨q, hq, o', ho', rfl⟩, hc⟩ := hc
          obtain rfl : o' = some c := Option.mem_toList.mp hc
          have hwhole : total (whole q).flatten = 0 := by
            refine total_eq_zero fun x hx => hzero x ?_
            rw [List.flatten_append, flatten_flatMap]
            exact List.mem_append_left _ (List.mem_flatMap.mpr ⟨q, hq, hx⟩)
          have htotal := hsum' q hq c ho'
          rw [hwhole] at htotal
          exact Int64.toInt_inj.mp htotal

end Saturating

end ConfidenceResolver
