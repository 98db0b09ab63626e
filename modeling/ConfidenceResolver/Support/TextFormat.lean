import Mathlib.Data.List.Nodup
import Mathlib.Data.String.Basic

/-!
# Support — sample lines of the Prometheus text format

A sample line is a metric name, labels in braces and a number.  The value of a label stands between
quotes; a backslash, a quote and a line feed are escaped in it.

* `readValue`: the value of a label, and what stands behind its quote.
* `readLabels`, `parseSample`: the labels, and the line.  No two labels have one name.
* `readValue_plain`: a value without characters to escape is read as it is written.
* `plain_of_readValue`: and no other value is.
* `parseSample_line`: a line that is put together from its parts is read as those.
-/

namespace ConfidenceResolver

namespace TextFormat

/-! ### The grammar -/

/-- The character an escape stands for. -/
def unescape : Char → Option Char
  | '\\' => some '\\'
  | '"' => some '"'
  | 'n' => some '\n'
  | _ => none

/-- Up to the closing quote. -/
def readValue : List Char → Option (List Char × List Char)
  | [] => none
  | '\\' :: c :: rest => (unescape c).bind fun d => (readValue rest).map fun r => (d :: r.1, r.2)
  | c :: rest =>
      if c = '"' then some ([], rest)
      else if c = '\\' ∨ c = '\n' then none
      else (readValue rest).map fun r => (c :: r.1, r.2)

def isNameChar (c : Char) : Bool := c.isAlphanum || c == '_'

/-- A name of these characters does not start with a digit. -/
def isName (allowed : Char → Bool) : List Char → Bool
  | [] => false
  | c :: cs => !c.isDigit && (c :: cs).all allowed

/-- `name="value"`, and what stands behind. -/
def readLabel (cs : List Char) : Option ((List Char × List Char) × List Char) :=
  match cs.dropWhile isNameChar with
  | '=' :: '"' :: rest =>
      if isName isNameChar (cs.takeWhile isNameChar) then
        (readValue rest).map fun r => ((cs.takeWhile isNameChar, r.1), r.2)
      else none
  | _ => none

/-- Labels up to the closing brace; `fuel` bounds their number. -/
def readLabels : Nat → List Char → Option (List (List Char × List Char) × List Char)
  | 0, _ => none
  | fuel + 1, cs =>
      match readLabel cs with
      | some (label, '}' :: rest) => some ([label], rest)
      | some (label, ',' :: rest) => (readLabels fuel rest).map fun r => (label :: r.1, r.2)
      | _ => none

/-- In the name of a metric there may be colons. -/
def isMetricChar (c : Char) : Bool := isNameChar c || c == ':'

/-- Digits, and digits behind a point. -/
def isNumber (cs : List Char) : Bool :=
  !(cs.takeWhile Char.isDigit).isEmpty &&
    match cs.dropWhile Char.isDigit with
    | [] => true
    | '.' :: fraction => !fraction.isEmpty && fraction.all Char.isDigit
    | _ => false

/-- A sample line as it is read. -/
structure Parsed where
  name : List Char
  labels : List (List Char × List Char)
  value : List Char
deriving DecidableEq

def parseSample (cs : List Char) : Option Parsed :=
  match cs.dropWhile isMetricChar with
  | '{' :: rest =>
      match readLabels rest.length rest with
      | some (labels, ' ' :: value) =>
          if isName isMetricChar (cs.takeWhile isMetricChar) ∧ (labels.map Prod.fst).Nodup ∧
              isNumber value then
            some ⟨cs.takeWhile isMetricChar, labels, value⟩
          else none
      | _ => none
  | _ => none

/-! ### Values -/

/-- A character that is not escaped. -/
def Plain (c : Char) : Prop := c ≠ '\\' ∧ c ≠ '"' ∧ c ≠ '\n'

instance (c : Char) : Decidable (Plain c) := inferInstanceAs (Decidable (_ ∧ _))

def AllPlain (value : List Char) : Prop := ∀ c ∈ value, Plain c

instance (value : List Char) : Decidable (AllPlain value) := List.decidableBAll Plain value

theorem readValue_quote (rest : List Char) : readValue ('"' :: rest) = some ([], rest) := by
  rw [readValue]
  · rfl
  · rintro c rest' ⟨⟩

theorem readValue_cons {c : Char} (hc : Plain c) (rest : List Char) :
    readValue (c :: rest) = (readValue rest).map fun r => (c :: r.1, r.2) := by
  rw [readValue]
  · rw [if_neg hc.2.1, if_neg (not_or.mpr ⟨hc.1, hc.2.2⟩)]
  · rintro d rest' rfl
    exact absurd rfl hc.1

theorem readValue_feed (rest : List Char) : readValue ('\n' :: rest) = none := by
  rw [readValue]
  · rfl
  · rintro c rest' ⟨⟩

/-- **A value without characters to escape is read as it is written.** -/
theorem readValue_plain {value : List Char} (h : AllPlain value) (rest : List Char) :
    readValue (value ++ '"' :: rest) = some (value, rest) := by
  induction value with
  | nil => exact readValue_quote rest
  | cons c value ih =>
      rw [List.cons_append, readValue_cons (h c List.mem_cons_self),
        ih fun d hd => h d (List.mem_cons_of_mem c hd)]
      rfl

/-- An escape stands for itself only in front of a backslash. -/
theorem unescape_eq_backslash {c : Char} (h : unescape c = some '\\') : c = '\\' := by
  unfold unescape at h
  split at h
  · rfl
  · cases h
  · cases h
  · cases h

/-- Where a value starts with a backslash, two of them are written. -/
theorem readValue_eq_backslash {cs value rest : List Char}
    (h : readValue cs = some ('\\' :: value, rest)) :
    ∃ cs', cs = '\\' :: '\\' :: cs' ∧ readValue cs' = some (value, rest) := by
  rw [readValue.eq_def] at h
  split at h
  · cases h
  · next c cs' =>
      rw [Option.bind_eq_some_iff] at h
      obtain ⟨d, hd, hmap⟩ := h
      rw [Option.map_eq_some_iff] at hmap
      obtain ⟨r, hr, heq⟩ := hmap
      rw [Prod.mk.injEq, List.cons_eq_cons] at heq
      obtain ⟨⟨rfl, hvalue⟩, hrest⟩ := heq
      refine ⟨cs', ?_, ?_⟩
      · rw [unescape_eq_backslash hd]
      · rw [hr, ← hvalue, ← hrest]
  · next c cs' _ =>
      split at h
      · cases h
      · split at h
        · cases h
        · next hc =>
            rw [Option.map_eq_some_iff] at h
            obtain ⟨r, _, heq⟩ := h
            rw [Prod.mk.injEq, List.cons_eq_cons] at heq
            exact absurd (.inl heq.1.1) hc

/-- Text that ends in a quote is not read with backslashes in front of it. -/
theorem readValue_ne_shifted (t u : List Char) :
    ∀ (k n : Nat) (cs : List Char), cs.length ≤ k →
      readValue (cs ++ '"' :: t) ≠ some ('\\' :: (List.replicate n '\\' ++ cs), u) := by
  intro k
  induction k with
  | zero =>
      intro n cs hk h
      rw [List.length_eq_zero_iff.mp (Nat.le_zero.mp hk), List.nil_append, readValue_quote] at h
      cases h
  | succ k ih =>
      intro n cs hk h
      obtain ⟨cs', hcs, htail⟩ := readValue_eq_backslash h
      match cs, hcs with
      | [], hcs => cases hcs
      | [c], hcs => cases hcs
      | c :: d :: cs, hcs =>
          rw [List.cons_append, List.cons_append, List.cons_eq_cons, List.cons_eq_cons] at hcs
          obtain ⟨rfl, rfl, rfl⟩ := hcs
          -- two backslashes are read as one, so one more stands in front
          have hone : List.replicate n '\\' ++ '\\' :: '\\' :: cs =
              '\\' :: (List.replicate (n + 1) '\\' ++ cs) := by
            rw [← List.singleton_append (l := '\\' :: cs), ← List.append_assoc,
              ← List.replicate_succ', List.replicate_succ, List.cons_append,
              ← List.singleton_append (l := cs), ← List.append_assoc, ← List.replicate_succ']
            rfl
          rw [hone] at htail
          rw [List.length_cons, List.length_cons] at hk
          exact ih (n + 1) cs (by omega) htail

/-- **No other value is read as it is written.** -/
theorem plain_of_readValue {value t u : List Char}
    (h : readValue (value ++ '"' :: t) = some (value, u)) : AllPlain value := by
  induction value with
  | nil =>
      intro c hc
      cases hc
  | cons c value ih =>
      rw [List.cons_append] at h
      by_cases hc : Plain c
      · rw [readValue_cons hc, Option.map_eq_some_iff] at h
        obtain ⟨⟨value', u'⟩, htail, heq⟩ := h
        rw [Prod.mk.injEq, List.cons_eq_cons] at heq
        obtain ⟨⟨_, rfl⟩, rfl⟩ := heq
        exact List.forall_mem_cons.mpr ⟨hc, ih htail⟩
      · exfalso
        by_cases hquote : c = '"'
        · rw [hquote, readValue_quote] at h
          cases h
        · by_cases hfeed : c = '\n'
          · rw [hfeed, readValue_feed] at h
            cases h
          · have hslash : c = '\\' := by
              by_contra hne
              exact hc ⟨hne, hquote, hfeed⟩
            subst hslash
            obtain ⟨cs', hcs, htail⟩ := readValue_eq_backslash h
            cases value with
            | nil => cases hcs
            | cons d value =>
                rw [List.cons_append, List.cons_eq_cons, List.cons_eq_cons] at hcs
                obtain ⟨_, rfl, rfl⟩ := hcs
                exact readValue_ne_shifted t u value.length 0 value (le_refl _) htail

/-! ### Lines -/

/-- A label as it is written: what stands between its quotes is read as its value. -/
structure Written where
  name : List Char
  text : List Char
  value : List Char
  isName : isName isNameChar name = true
  reads : ∀ rest, readValue (text ++ '"' :: rest) = some (value, rest)

def labelChars (name text : List Char) : List Char := name ++ '=' :: '"' :: (text ++ ['"'])

def Written.chars (w : Written) : List Char := labelChars w.name w.text

def lineChars (name : List Char) (labels : List (List Char)) (value : List Char) : List Char :=
  name ++ '{' :: ([','].intercalate labels ++ '}' :: ' ' :: value)

theorem all_of_isName {allowed : Char → Bool} {name : List Char} (h : isName allowed name = true) :
    ∀ c ∈ name, allowed c = true := by
  cases name with
  | nil => cases h
  | cons c cs =>
      rw [isName, Bool.and_eq_true, List.all_eq_true] at h
      exact h.2

/-- A name ends in front of a character that is none of its own. -/
theorem takeWhile_name {allowed : Char → Bool} {name : List Char} (h : ∀ c ∈ name, allowed c = true)
    {c : Char} (hc : allowed c = false) (rest : List Char) :
    (name ++ c :: rest).takeWhile allowed = name ∧
      (name ++ c :: rest).dropWhile allowed = c :: rest := by
  have hnot : ¬ allowed c = true := by
    rw [hc]
    exact Bool.false_ne_true
  rw [List.takeWhile_append_of_pos h, List.dropWhile_append_of_pos h,
    List.takeWhile_cons_of_neg hnot, List.dropWhile_cons_of_neg hnot, List.append_nil]
  exact ⟨rfl, rfl⟩

theorem readLabel_name {name : List Char} (hname : isName isNameChar name = true)
    (cs : List Char) :
    readLabel (name ++ '=' :: '"' :: cs) = (readValue cs).map fun r => ((name, r.1), r.2) := by
  obtain ⟨htake, hdrop⟩ := takeWhile_name (all_of_isName hname) (c := '=') rfl ('"' :: cs)
  rw [readLabel, hdrop]
  simp only [htake, hname, if_true]

theorem readLabel_chars (w : Written) (rest : List Char) :
    readLabel (w.chars ++ rest) = some ((w.name, w.value), rest) := by
  have hchars : w.chars ++ rest = w.name ++ '=' :: '"' :: (w.text ++ '"' :: rest) := by
    simp only [Written.chars, labelChars, List.append_assoc, List.cons_append, List.nil_append]
  rw [hchars, readLabel_name w.isName, w.reads]
  rfl

theorem readLabels_chars (rest : List Char) :
    ∀ (labels : List Written), labels ≠ [] → ∀ fuel, labels.length ≤ fuel →
      readLabels fuel ([','].intercalate (labels.map Written.chars) ++ '}' :: rest) =
        some (labels.map fun w => (w.name, w.value), rest)
  | [], hne, _, _ => absurd rfl hne
  | [w], _, fuel, hfuel => by
      cases fuel with
      | zero => exact absurd hfuel (by simp)
      | succ fuel =>
          rw [List.map_singleton, List.intercalate_singleton, readLabels, readLabel_chars]
          rfl
  | w :: w' :: labels, _, fuel, hfuel => by
      cases fuel with
      | zero => exact absurd hfuel (by simp)
      | succ fuel =>
          have htail := readLabels_chars rest (w' :: labels) (List.cons_ne_nil _ _) fuel
            (Nat.le_of_succ_le_succ hfuel)
          have hsplit : [','].intercalate ((w :: w' :: labels).map Written.chars) ++ '}' :: rest =
              w.chars ++ ',' :: ([','].intercalate ((w' :: labels).map Written.chars) ++
                '}' :: rest) := by
            rw [List.map_cons, List.map_cons, List.intercalate_cons_cons, List.append_assoc,
              List.append_assoc]
            rfl
          rw [hsplit, readLabels, readLabel_chars]
          show (readLabels fuel _).map _ = _
          rw [htail]
          rfl

theorem length_le_intercalate : ∀ labels : List (List Char), (∀ l ∈ labels, l ≠ []) →
    labels.length ≤ ([','].intercalate labels).length
  | [], _ => Nat.zero_le _
  | [l], h => by
      rw [List.intercalate_singleton]
      exact List.length_pos_iff.mpr (h l List.mem_cons_self)
  | l :: l' :: labels, h => by
      have htail := length_le_intercalate (l' :: labels) fun m hm => h m (List.mem_cons_of_mem l hm)
      rw [List.intercalate_cons_cons, List.length_append, List.length_append, List.length_singleton,
        List.length_cons]
      omega

/-- **A line that is put together from its parts is read as those.** -/
theorem parseSample_line {name value : List Char} {labels : List Written}
    (hname : isName isMetricChar name = true) (hne : labels ≠ [])
    (hnodup : (labels.map Written.name).Nodup) (hvalue : isNumber value = true) :
    parseSample (lineChars name (labels.map Written.chars) value) =
      some ⟨name, labels.map fun w => (w.name, w.value), value⟩ := by
  obtain ⟨htake, hdrop⟩ := takeWhile_name (all_of_isName hname) (c := '{') rfl
    ([','].intercalate (labels.map Written.chars) ++ '}' :: ' ' :: value)
  have hlen : labels.length ≤
      ([','].intercalate (labels.map Written.chars) ++ '}' :: ' ' :: value).length := by
    have hle := length_le_intercalate (labels.map Written.chars) fun l hl => by
      obtain ⟨w, _, rfl⟩ := List.mem_map.mp hl
      rw [Written.chars, labelChars]
      exact List.append_ne_nil_of_right_ne_nil _ (List.cons_ne_nil _ _)
    rw [List.length_map] at hle
    rw [List.length_append]
    omega
  have hread := readLabels_chars (' ' :: value) labels hne _ hlen
  have hnames : (labels.map fun w => (w.name, w.value)).map Prod.fst = labels.map Written.name := by
    rw [List.map_map]
    rfl
  rw [parseSample, lineChars, hdrop]
  simp only [hread, htake, hnames]
  rw [if_pos ⟨hname, hnodup, hvalue⟩]

/-- The value of the first label of a line is read behind its quote. -/
theorem readValue_of_parseSample {name label cs value : List Char}
    (hname : isName isMetricChar name = true) (hlabel : isName isNameChar label = true)
    {p : Parsed} (h : parseSample (name ++ '{' :: (label ++ '=' :: '"' :: cs)) = some p)
    (hvalue : p.labels.head? = some (label, value)) : ∃ rest, readValue cs = some (value, rest) := by
  obtain ⟨htake, hdrop⟩ := takeWhile_name (all_of_isName hname) (c := '{') rfl
    (label ++ '=' :: '"' :: cs)
  rw [parseSample, hdrop] at h
  simp only [htake] at h
  split at h
  · next labels value' hread =>
      split at h
      · cases h
        -- the labels are read with fuel for the whole text
        cases hfuel : (label ++ '=' :: '"' :: cs).length with
        | zero =>
            rw [hfuel] at hread
            cases hread
        | succ fuel =>
            rw [hfuel, readLabels, readLabel_name hlabel] at hread
            cases hcs : readValue cs with
            | none =>
                rw [hcs] at hread
                cases hread
            | some r =>
                obtain ⟨v, u⟩ := r
                have hfirst : labels.head? = some (label, v) := by
                  rw [hcs, Option.map_some] at hread
                  split at hread
                  · next heq =>
                      cases heq
                      cases hread
                      rfl
                  · next heq =>
                      cases heq
                      rw [Option.map_eq_some_iff] at hread
                      obtain ⟨⟨_, _⟩, _, hlabels⟩ := hread
                      cases hlabels
                      rfl
                  · cases hread
                rw [hfirst] at hvalue
                cases hvalue
                exact ⟨u, rfl⟩
      · cases h
  · cases h

end TextFormat

end ConfidenceResolver
