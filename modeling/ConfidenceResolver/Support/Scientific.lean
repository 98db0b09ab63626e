import Mathlib.Algebra.Order.Field.Power
import Mathlib.Algebra.Order.Field.Rat
import Mathlib.Data.Int.Log
import Mathlib.Data.Rat.Floor
import Mathlib.Tactic.Linarith
import Mathlib.Tactic.Positivity

/-!
# Support — scientific notation

A positive number rounded to a number of digits, the even one of two that are as near, and its text
`d.ddde±x`.

* `abs_roundEven_sub`: the integer is at most one half away.
* `Scientific.abs_value_sub`: and the number, relative to itself, half of the last digit.
* `Scientific.value_lt`: numbers that are further apart than that are still in order.
* `Scientific.text_inj`: a text is of one number.
-/

namespace ConfidenceResolver

/-- The integer next to a number, the even one of two. -/
def roundEven (q : ℚ) : ℤ :=
  let r := q - ⌊q⌋
  if r < 1 / 2 then ⌊q⌋
  else if 1 / 2 < r then ⌊q⌋ + 1
  else if ⌊q⌋ % 2 = 0 then ⌊q⌋ else ⌊q⌋ + 1

theorem abs_roundEven_sub (q : ℚ) : |(roundEven q : ℚ) - q| ≤ 1 / 2 := by
  have hlow : (⌊q⌋ : ℚ) ≤ q := Int.floor_le q
  have hhigh : q < ⌊q⌋ + 1 := Int.lt_floor_add_one q
  rw [roundEven]
  split
  · next hr =>
      rw [abs_le]
      constructor <;> linarith
  · next hr =>
      have habove : |((⌊q⌋ + 1 : ℤ) : ℚ) - q| ≤ 1 / 2 := by
        push_cast
        rw [abs_le]
        constructor <;> linarith
      split
      · exact habove
      · next htie =>
          -- the number lies in the middle: either neighbour will do
          split
          · rw [abs_le]
            constructor <;> linarith
          · exact habove

theorem roundEven_le {q : ℚ} {n : ℤ} (h : q ≤ n) : roundEven q ≤ n := by
  have habs := abs_roundEven_sub q
  rw [abs_le] at habs
  have hlt : (roundEven q : ℚ) < n + 1 := by linarith
  exact_mod_cast Int.lt_add_one_iff.mp (by exact_mod_cast hlt)

theorem le_roundEven {q : ℚ} {n : ℤ} (h : n ≤ q) : n ≤ roundEven q := by
  have habs := abs_roundEven_sub q
  rw [abs_le] at habs
  have hlt : (n : ℚ) < roundEven q + 1 := by linarith
  exact Int.lt_add_one_iff.mp (by exact_mod_cast hlt)

/-- A number in scientific notation: its digits, without the point, and its exponent. -/
structure Scientific where
  mantissa : Nat
  exponent : ℤ
deriving DecidableEq

namespace Scientific

/-- The number, `digits` of its digits standing behind the point. -/
def value (digits : Nat) (s : Scientific) : ℚ := s.mantissa * 10 ^ (s.exponent - digits)

/-- A positive number, with `digits` digits behind the point. -/
def ofRat (digits : Nat) (q : ℚ) : Scientific :=
  let exponent := Int.log 10 q
  let mantissa := (roundEven (q * 10 ^ (digits - exponent))).toNat
  if mantissa < 10 ^ (digits + 1) then ⟨mantissa, exponent⟩ else ⟨10 ^ digits, exponent + 1⟩

/-- Half of the last digit, relative to a number whose digits are a one and zeros. -/
def precision (digits : Nat) : ℚ := 1 / 2 / 10 ^ digits

variable {digits : Nat} {q : ℚ}

theorem one_le_scaled (hq : 0 < q) :
    (10 : ℚ) ^ digits ≤ q * 10 ^ ((digits : ℤ) - Int.log 10 q) := by
  have hlog : (10 : ℚ) ^ Int.log 10 q ≤ q := by
    exact_mod_cast Int.zpow_log_le_self (b := 10) (by norm_num) hq
  calc (10 : ℚ) ^ digits
      = 10 ^ Int.log 10 q * 10 ^ ((digits : ℤ) - Int.log 10 q) := by
        rw [← zpow_add₀ (by norm_num), add_sub_cancel, zpow_natCast]
    _ ≤ q * 10 ^ ((digits : ℤ) - Int.log 10 q) := by gcongr

theorem scaled_lt (q : ℚ) :
    q * 10 ^ ((digits : ℤ) - Int.log 10 q) < (10 : ℚ) ^ (digits + 1) := by
  have hlog : q < (10 : ℚ) ^ (Int.log 10 q + 1) := by
    exact_mod_cast Int.lt_zpow_succ_log_self (b := 10) (by norm_num) q
  calc q * 10 ^ ((digits : ℤ) - Int.log 10 q)
      < 10 ^ (Int.log 10 q + 1) * 10 ^ ((digits : ℤ) - Int.log 10 q) := by gcongr
    _ = (10 : ℚ) ^ (digits + 1) := by
        rw [← zpow_add₀ (by norm_num), ← zpow_natCast]
        congr 1
        push_cast
        ring

/-- The rounded digits, whether they are one more or not, stand for the number. -/
theorem value_ofRat (hq : 0 < q) :
    (ofRat digits q).value digits =
      roundEven (q * 10 ^ ((digits : ℤ) - Int.log 10 q)) * 10 ^ (Int.log 10 q - digits) := by
  have hle : roundEven (q * 10 ^ ((digits : ℤ) - Int.log 10 q)) ≤ 10 ^ (digits + 1) :=
    roundEven_le (by exact_mod_cast (scaled_lt q).le)
  have hnonneg : 0 ≤ roundEven (q * 10 ^ ((digits : ℤ) - Int.log 10 q)) :=
    le_roundEven (by
      have hpow : (0 : ℚ) ≤ 10 ^ digits := by positivity
      exact_mod_cast hpow.trans (one_le_scaled hq))
  rw [ofRat]
  generalize roundEven (q * 10 ^ ((digits : ℤ) - Int.log 10 q)) = m at hle hnonneg ⊢
  obtain ⟨m, rfl⟩ := Int.eq_ofNat_of_zero_le hnonneg
  simp only [Int.toNat_natCast]
  split
  · rfl
  · next hge =>
      -- all nines: the digits grow by one
      have hm : m = 10 ^ (digits + 1) := le_antisymm (by exact_mod_cast hle) (not_lt.mp hge)
      rw [value, hm]
      push_cast
      rw [pow_succ, mul_assoc, ← zpow_one_add₀ (by norm_num)]
      congr 2
      ring

/-- **The number is off by half of its last digit at most.** -/
theorem abs_value_sub (hq : 0 < q) :
    |(ofRat digits q).value digits - q| ≤ q * precision digits := by
  have hround := abs_roundEven_sub (q * 10 ^ ((digits : ℤ) - Int.log 10 q))
  have hlog : (10 : ℚ) ^ Int.log 10 q ≤ q := by
    exact_mod_cast Int.zpow_log_le_self (b := 10) (by norm_num) hq
  have hpow : (0 : ℚ) < 10 ^ (Int.log 10 q - digits) := by positivity
  have hback : q * 10 ^ ((digits : ℤ) - Int.log 10 q) * 10 ^ (Int.log 10 q - digits) = q := by
    rw [mul_assoc, ← zpow_add₀ (by norm_num), sub_add_sub_cancel, sub_self, zpow_zero, mul_one]
  rw [value_ofRat hq]
  generalize (roundEven (q * 10 ^ ((digits : ℤ) - Int.log 10 q)) : ℚ) = m at hround
  calc |m * 10 ^ (Int.log 10 q - digits) - q|
      = |m - q * 10 ^ ((digits : ℤ) - Int.log 10 q)| * 10 ^ (Int.log 10 q - digits) := by
        rw [← abs_of_pos hpow, ← abs_mul, sub_mul, abs_of_pos hpow, hback]
    _ ≤ 1 / 2 * 10 ^ (Int.log 10 q - digits) := by gcongr
    _ = 10 ^ Int.log 10 q * precision digits := by
        rw [precision, zpow_sub₀ (by norm_num), zpow_natCast]
        ring
    _ ≤ q * precision digits := by
        have hprecision : 0 ≤ precision digits := by
          rw [precision]
          positivity
        gcongr

/-- **Numbers that are further apart are still in order.** -/
theorem value_lt {a b : ℚ} (ha : 0 < a)
    (h : a * (1 + precision digits) < b * (1 - precision digits)) (hb : 0 < b) :
    (ofRat digits a).value digits < (ofRat digits b).value digits := by
  have hlow : |(ofRat digits a).value digits - a| ≤ a * precision digits := abs_value_sub ha
  have hhigh : |(ofRat digits b).value digits - b| ≤ b * precision digits := abs_value_sub hb
  rw [abs_le] at hlow hhigh
  linarith

/-! ### Texts -/

def exponentChars : ℤ → List Char
  | .ofNat n => Nat.toDigits 10 n
  | .negSucc n => '-' :: Nat.toDigits 10 (n + 1)

/-- The characters of the text: a digit, the point, the other digits, and the exponent. -/
def chars (s : Scientific) : List Char :=
  let digits := Nat.toDigits 10 s.mantissa
  digits.take 1 ++ '.' :: digits.drop 1 ++ 'e' :: exponentChars s.exponent

def text (s : Scientific) : String := String.ofList s.chars

theorem toDigits_inj {m n : Nat} (h : Nat.toDigits 10 m = Nat.toDigits 10 n) : m = n := by
  rw [← Nat.ofDigitChars_ten_toDigits (n := m), h, Nat.ofDigitChars_ten_toDigits]

theorem not_mem_toDigits {c : Char} (hc : c.isDigit = false) (n : Nat) :
    c ∉ Nat.toDigits 10 n := by
  intro hmem
  rw [Nat.isDigit_of_mem_toDigits (by norm_num) (by norm_num) hmem] at hc
  cases hc

theorem exponentChars_inj {m n : ℤ} (h : exponentChars m = exponentChars n) : m = n := by
  have hminus : ∀ k j, Nat.toDigits 10 k ≠ '-' :: Nat.toDigits 10 j := by
    intro k j heq
    exact not_mem_toDigits (c := '-') rfl k (heq ▸ List.mem_cons_self)
  cases m with
  | ofNat m =>
      cases n with
      | ofNat n => rw [toDigits_inj h]
      | negSucc n => exact absurd h (hminus m (n + 1))
  | negSucc m =>
      cases n with
      | ofNat n => exact absurd h.symm (hminus n (m + 1))
      | negSucc n =>
          rw [exponentChars, exponentChars, List.cons_inj_right] at h
          rw [Nat.succ.inj (toDigits_inj h)]

/-- The characters that a text is made of. -/
theorem mem_chars {s : Scientific} {c : Char} (h : c ∈ s.chars) :
    c.isDigit = true ∨ c = '.' ∨ c = 'e' ∨ c = '-' := by
  have hdigit : ∀ n, c ∈ Nat.toDigits 10 n → c.isDigit = true := fun n hmem =>
    Nat.isDigit_of_mem_toDigits (by norm_num) (by norm_num) hmem
  rw [chars, List.mem_append, List.mem_append, List.mem_cons, List.mem_cons] at h
  obtain (h | rfl | h) | rfl | h := h
  · exact .inl (hdigit _ (List.mem_of_mem_take h))
  · exact .inr (.inl rfl)
  · exact .inl (hdigit _ (List.mem_of_mem_drop h))
  · exact .inr (.inr (.inl rfl))
  · cases hexponent : s.exponent with
    | ofNat n =>
        rw [hexponent] at h
        exact .inl (hdigit n h)
    | negSucc n =>
        rw [hexponent, exponentChars, List.mem_cons] at h
        exact h.elim (fun hminus => .inr (.inr (.inr hminus))) fun hmem => .inl (hdigit _ hmem)

/-- Two lists cut at the first occurrence of a character. -/
theorem cut_inj {c : Char} {l₁ l₂ r₁ r₂ : List Char} (h₁ : c ∉ l₁) (h₂ : c ∉ l₂)
    (h : l₁ ++ c :: r₁ = l₂ ++ c :: r₂) : l₁ = l₂ ∧ r₁ = r₂ := by
  induction l₁ generalizing l₂ with
  | nil =>
      cases l₂ with
      | nil =>
          rw [List.nil_append, List.nil_append, List.cons_inj_right] at h
          exact ⟨rfl, h⟩
      | cons b l₂ =>
          rw [List.nil_append, List.cons_append, List.cons_eq_cons] at h
          exact absurd (h.1 ▸ List.mem_cons_self) h₂
  | cons a l₁ ih =>
      cases l₂ with
      | nil =>
          rw [List.nil_append, List.cons_append, List.cons_eq_cons] at h
          exact absurd (h.1 ▸ List.mem_cons_self) h₁
      | cons b l₂ =>
          rw [List.cons_append, List.cons_append, List.cons_eq_cons] at h
          rw [List.mem_cons, not_or] at h₁ h₂
          obtain ⟨rfl, rfl⟩ := ih h₁.2 h₂.2 h.2
          exact ⟨by rw [h.1], rfl⟩

/-- **A text is of one number.** -/
theorem text_inj {s t : Scientific} (h : s.text = t.text) : s = t := by
  have hchars : s.chars = t.chars := by
    rw [text, text, String.ofList_inj] at h
    exact h
  rw [chars, chars] at hchars
  have hcut : ∀ u : Scientific, 'e' ∉ (Nat.toDigits 10 u.mantissa).take 1 ++
      '.' :: (Nat.toDigits 10 u.mantissa).drop 1 := by
    intro u hmem
    have hdigits := not_mem_toDigits (c := 'e') rfl u.mantissa
    rw [List.mem_append, List.mem_cons] at hmem
    obtain hmem | hmem | hmem := hmem
    · exact hdigits (List.mem_of_mem_take hmem)
    · cases hmem
    · exact hdigits (List.mem_of_mem_drop hmem)
  have hpoint : ∀ u : Scientific, '.' ∉ (Nat.toDigits 10 u.mantissa).take 1 := by
    intro u hmem
    exact not_mem_toDigits (c := '.') rfl u.mantissa (List.mem_of_mem_take hmem)
  obtain ⟨hdigits, hexponent⟩ := cut_inj (hcut s) (hcut t) hchars
  obtain ⟨htake, hdrop⟩ := cut_inj (hpoint s) (hpoint t) hdigits
  have hmantissa : s.mantissa = t.mantissa := by
    apply toDigits_inj
    rw [← List.take_append_drop 1 (Nat.toDigits 10 s.mantissa), htake, hdrop,
      List.take_append_drop]
  cases s
  cases t
  rw [mk.injEq]
  exact ⟨hmantissa, exponentChars_inj hexponent⟩

end Scientific

end ConfidenceResolver
