import ConfidenceResolver.Telemetry.Families

/-!
# Telemetry — the metrics of a pool

`PooledResolver.PrometheusSnapshot` of `pool.go`: each instance of the pool writes an exposition,
and `deduplicateMetaLines` puts them one behind the other without the comments that were there
before.

The result is compared with what an exposition has to be, for any assignment of lines to families.

* `kept`: the lines that are written.  `brings`: what each fragment brings to them.
* `merge_conserves`: no sample is lost or doubled, and each comment is there once.
* `merged_well_iff`: the result is well formed if and only if it is not OpenMetrics and the families
  that fragments share adjoin.
-/

namespace ConfidenceResolver

/-! ### The merge -/

/-- The variables of `deduplicateMetaLines`; `b` has the lines that are written. -/
structure MetaMerge where
  seen : List String
  hasEOF : Bool
  b : List String

/-- The inner loop. -/
def MetaMerge.line (m : MetaMerge) (line : String) : MetaMerge :=
  if line = eofLine then { m with hasEOF := true }
  else if isMetaLine line then
    if line ∈ m.seen then m else { m with seen := line :: m.seen, b := m.b ++ [line] }
  else { m with b := m.b ++ [line] }

def MetaMerge.fragment (m : MetaMerge) (frag : String) : MetaMerge :=
  (split '\n' frag).foldl MetaMerge.line m

def deduplicateMetaLines (fragments : List String) : String :=
  let m := fragments.foldl MetaMerge.fragment ⟨[], false, []⟩
  terminated m.b ++ if m.hasEOF then eofLine ++ "\n" else ""

/-- `PooledResolver.PrometheusSnapshot`, with the texts of the instances. -/
def poolSnapshot (texts : List String) : String :=
  match texts.filter (· ≠ "") with
  | [] => ""
  | [fragment] => fragment
  | fragments => deduplicateMetaLines fragments

/-! ### What is asked of the merge -/

/-- The result is an exposition, with the samples and the comments of the fragments. -/
structure MergedWell {F : Type*} (family : String → F) (fragments : List String)
    (result : String) : Prop where
  exposition : Exposition family result
  samples : ∀ line, line ≠ "" → isMetaLine line = false →
    (linesOf result).count line = (fragments.flatMap linesOf).count line
  metas : ∀ line, line ≠ eofLine → isMetaLine line = true →
    (linesOf result).count line = if line ∈ fragments.flatMap linesOf then 1 else 0
  only : ∀ line ∈ linesOf result, line = "" ∨ line ∈ fragments.flatMap linesOf
  eof : eofLine ∈ linesOf result ↔ eofLine ∈ fragments.flatMap linesOf

/-! ### What is written -/

/-- Not written, after these lines. -/
def Dropped (before : List String) (line : String) : Prop :=
  line = eofLine ∨ (isMetaLine line = true ∧ line ∈ before)

instance (before : List String) (line : String) : Decidable (Dropped before line) :=
  inferInstanceAs (Decidable (_ ∨ _))

/-- The lines that are written, after others. -/
def kept (before : List String) : List String → List String
  | [] => []
  | line :: lines =>
      if Dropped before line then kept (line :: before) lines
      else line :: kept (line :: before) lines

/-- The comments that were seen are those before. -/
def SeenIn (seen before : List String) : Prop :=
  ∀ line, line ≠ eofLine → isMetaLine line = true → (line ∈ seen ↔ line ∈ before)

/-- A line that is no new comment changes nothing about that. -/
theorem SeenIn.cons {seen before : List String} (h : SeenIn seen before) {line : String}
    (hline : line ≠ eofLine → isMetaLine line = true → line ∈ before) :
    SeenIn seen (line :: before) := by
  intro l hne hmeta
  rw [h l hne hmeta, List.mem_cons]
  constructor
  · exact .inr
  · rintro (rfl | hl)
    · exact hline hne hmeta
    · exact hl

theorem SeenIn.cons_cons {seen before : List String} (h : SeenIn seen before) (line : String) :
    SeenIn (line :: seen) (line :: before) := by
  intro l hne hmeta
  rw [List.mem_cons, List.mem_cons, h l hne hmeta]

/-- What the loop does with a line. -/
theorem MetaMerge.line_spec {m : MetaMerge} {before : List String} (h : SeenIn m.seen before)
    (line : String) :
    (m.line line).b = m.b ++ (if Dropped before line then [] else [line]) ∧
      ((m.line line).hasEOF = true ↔ m.hasEOF = true ∨ eofLine = line) ∧
      SeenIn (m.line line).seen (line :: before) := by
  rw [MetaMerge.line]
  by_cases heof : line = eofLine
  · rw [if_pos heof, if_pos (.inl heof), List.append_nil]
    refine ⟨rfl, ⟨fun _ => .inr heof.symm, fun _ => rfl⟩, h.cons ?_⟩
    intro hne
    exact absurd heof hne
  · rw [if_neg heof, or_iff_left (Ne.symm heof)]
    by_cases hmeta : isMetaLine line = true
    · rw [if_pos hmeta]
      by_cases hmem : line ∈ m.seen
      · have hbefore := (h line heof hmeta).mp hmem
        rw [if_pos hmem, if_pos (.inr ⟨hmeta, hbefore⟩), List.append_nil]
        exact ⟨rfl, Iff.rfl, h.cons fun _ _ => hbefore⟩
      · have hkept : ¬ Dropped before line := by
          rintro (hl | ⟨-, hl⟩)
          · exact heof hl
          · exact hmem ((h line heof hmeta).mpr hl)
        rw [if_neg hmem, if_neg hkept]
        exact ⟨rfl, Iff.rfl, h.cons_cons line⟩
    · have hkept : ¬ Dropped before line := by
        rintro (hl | ⟨hl, -⟩)
        · exact heof hl
        · exact hmeta hl
      rw [if_neg hmeta, if_neg hkept]
      exact ⟨rfl, Iff.rfl, h.cons fun _ hl => absurd hl hmeta⟩

theorem foldl_line {m : MetaMerge} {before : List String} (h : SeenIn m.seen before)
    (lines : List String) :
    (lines.foldl MetaMerge.line m).b = m.b ++ kept before lines ∧
      ((lines.foldl MetaMerge.line m).hasEOF = true ↔ m.hasEOF = true ∨ eofLine ∈ lines) := by
  induction lines generalizing m before with
  | nil => exact ⟨(List.append_nil _).symm, (or_iff_left List.not_mem_nil).symm⟩
  | cons line lines ih =>
      obtain ⟨hb, heof, hseen⟩ := MetaMerge.line_spec h line
      obtain ⟨hbs, heofs⟩ := ih hseen
      rw [List.foldl_cons, hbs, heofs, hb, heof, List.mem_cons, or_assoc, kept, List.append_assoc]
      refine ⟨?_, Iff.rfl⟩
      split <;> rfl

/-- **What is written**: of all lines, those that are kept. -/
theorem deduplicateMetaLines_eq (fragments : List String) :
    deduplicateMetaLines fragments = terminated (kept [] (fragments.flatMap (split '\n'))) ++
      if eofLine ∈ fragments.flatMap (split '\n') then eofLine ++ "\n" else "" := by
  have hfold : fragments.foldl MetaMerge.fragment ⟨[], false, []⟩ =
      (fragments.flatMap (split '\n')).foldl MetaMerge.line ⟨[], false, []⟩ :=
    (List.foldl_flatMap ..).symm
  have hstart : SeenIn (MetaMerge.mk [] false []).seen [] := fun _ _ _ => Iff.rfl
  obtain ⟨hb, heof⟩ := foldl_line hstart (fragments.flatMap (split '\n'))
  rw [deduplicateMetaLines, hfold, hb, List.nil_append]
  congr 1
  exact if_congr (heof.trans (or_iff_right nofun)) rfl rfl

/-! ### Samples and comments -/

theorem isMetaLine_eofLine : isMetaLine eofLine = true := by decide

theorem kept_sublist (before lines : List String) : (kept before lines).Sublist lines := by
  induction lines generalizing before with
  | nil => exact List.Sublist.refl _
  | cons line lines ih =>
      rw [kept]
      split
      · exact (ih _).cons line
      · exact (ih _).cons_cons line

theorem eofLine_not_mem_kept (before lines : List String) : eofLine ∉ kept before lines := by
  induction lines generalizing before with
  | nil => exact List.not_mem_nil
  | cons line lines ih =>
      rw [kept]
      split
      · exact ih _
      · rename_i hkept
        rw [List.mem_cons]
        rintro (rfl | hmem)
        · exact hkept (.inl rfl)
        · exact ih _ hmem

/-- No other line is dropped. -/
theorem count_kept {line : String} (h : isMetaLine line = false) (before lines : List String) :
    (kept before lines).count line = lines.count line := by
  induction lines generalizing before with
  | nil => rfl
  | cons l lines ih =>
      rw [kept, List.count_cons]
      split
      · rename_i hdropped
        have hne : (l == line) = false := by
          rw [beq_eq_false_iff_ne]
          rintro rfl
          rcases hdropped with rfl | ⟨hmeta, -⟩
          · rw [isMetaLine_eofLine] at h
            cases h
          · rw [hmeta] at h
            cases h
        rw [ih, hne]
        rfl
      · rw [List.count_cons, ih]

/-- A comment is written once, where it is new. -/
theorem count_kept_meta {line : String} (hne : line ≠ eofLine) (h : isMetaLine line = true)
    (before lines : List String) :
    (kept before lines).count line = if line ∈ lines ∧ line ∉ before then 1 else 0 := by
  induction lines generalizing before with
  | nil =>
      rw [if_neg (fun h => List.not_mem_nil h.1)]
      rfl
  | cons l lines ih =>
      rw [kept]
      by_cases hl : l = line
      · subst hl
        by_cases hbefore : l ∈ before
        · rw [if_pos (.inr ⟨h, hbefore⟩), ih, if_neg (fun h => h.2 List.mem_cons_self),
            if_neg (fun h => h.2 hbefore)]
        · have hkept : ¬ Dropped before l := by
            rintro (heq | ⟨-, hmem⟩)
            · exact hne heq
            · exact hbefore hmem
          rw [if_neg hkept, List.count_cons_self, ih, if_neg (fun h => h.2 List.mem_cons_self),
            if_pos ⟨List.mem_cons_self, hbefore⟩]
      · have hiff : (line ∈ l :: lines ∧ line ∉ before) ↔ (line ∈ lines ∧ line ∉ l :: before) := by
          have hl' : line ≠ l := Ne.symm hl
          rw [List.mem_cons, List.mem_cons, or_iff_right hl', or_iff_right hl']
        rw [if_congr hiff rfl rfl, ← ih]
        split
        · rfl
        · rw [List.count_cons_of_ne hl]

/-- The lines that are written. -/
def mergedLines (fragments : List String) : List String :=
  kept [] (fragments.flatMap (split '\n')) ++
    if eofLine ∈ fragments.flatMap (split '\n') then [eofLine] else []

theorem deduplicateMetaLines_terminated (fragments : List String) :
    deduplicateMetaLines fragments = terminated (mergedLines fragments) := by
  rw [deduplicateMetaLines_eq, mergedLines, terminated, terminated, List.map_append,
    String.join_append]
  congr 1
  split <;> rfl

theorem merged_lines (fragments : List String) :
    Ended (deduplicateMetaLines fragments) ∧
      linesOf (deduplicateMetaLines fragments) = mergedLines fragments := by
  rw [deduplicateMetaLines_terminated]
  apply linesOf_terminated
  intro line hline
  rcases List.mem_append.mp hline with hline | hline
  · obtain ⟨frag, -, hfrag⟩ := List.mem_flatMap.mp ((kept_sublist _ _).subset hline)
    exact not_newline_of_mem_split hfrag
  · split at hline
    · rw [List.mem_singleton.mp hline]
      decide
    · cases hline

section Ended

variable {fragments : List String} (h : ∀ frag ∈ fragments, Ended frag)

include h

theorem mem_split_iff {line : String} (hne : line ≠ "") :
    line ∈ fragments.flatMap (split '\n') ↔ line ∈ fragments.flatMap linesOf := by
  rw [List.mem_flatMap, List.mem_flatMap]
  constructor
  · rintro ⟨frag, hfrag, hline⟩
    rw [split_eq (h frag hfrag), List.mem_append, List.mem_singleton, or_iff_left hne] at hline
    exact ⟨frag, hfrag, hline⟩
  · rintro ⟨frag, hfrag, hline⟩
    refine ⟨frag, hfrag, ?_⟩
    rw [split_eq (h frag hfrag)]
    exact List.mem_append_left _ hline

theorem count_split {line : String} (hne : line ≠ "") :
    (fragments.flatMap (split '\n')).count line = (fragments.flatMap linesOf).count line := by
  induction fragments with
  | nil => rfl
  | cons frag fragments ih =>
      rw [List.flatMap_cons, List.flatMap_cons, List.count_append, List.count_append,
        ih fun f hf => h f (List.mem_cons_of_mem frag hf), split_eq (h frag List.mem_cons_self),
        List.count_append, List.count_singleton, if_neg, Nat.add_zero]
      rw [beq_iff_eq]
      exact Ne.symm hne

end Ended

/-- **The merge conserves** samples and comments. -/
theorem merge_conserves {fragments : List String} (h : ∀ frag ∈ fragments, Ended frag) :
    (∀ line, line ≠ "" → isMetaLine line = false →
      (mergedLines fragments).count line = (fragments.flatMap linesOf).count line) ∧
    (∀ line, line ≠ eofLine → isMetaLine line = true →
      (mergedLines fragments).count line =
        if line ∈ fragments.flatMap linesOf then 1 else 0) ∧
    (∀ line ∈ mergedLines fragments, line = "" ∨ line ∈ fragments.flatMap linesOf) ∧
    (eofLine ∈ mergedLines fragments ↔ eofLine ∈ fragments.flatMap linesOf) := by
  have hblank : eofLine ≠ "" := by decide
  -- the last line is no other line
  have hcount : ∀ line, line ≠ eofLine → (mergedLines fragments).count line =
      (kept [] (fragments.flatMap (split '\n'))).count line := by
    intro line hne
    rw [mergedLines, List.count_append]
    split
    · rw [List.count_cons_of_ne (Ne.symm hne), List.count_nil, Nat.add_zero]
    · rw [List.count_nil, Nat.add_zero]
  refine ⟨?_, ?_, ?_, ?_⟩
  · intro line hne hmeta
    have heof : line ≠ eofLine := by
      rintro rfl
      rw [isMetaLine_eofLine] at hmeta
      cases hmeta
    rw [hcount line heof, count_kept hmeta, count_split h hne]
  · intro line heof hmeta
    have hne : line ≠ "" := by
      rintro rfl
      exact absurd hmeta (by decide)
    rw [hcount line heof, count_kept_meta heof hmeta]
    exact if_congr ((and_iff_left List.not_mem_nil).trans (mem_split_iff h hne)) rfl rfl
  · intro line hline
    by_cases hne : line = ""
    · exact .inl hne
    · refine .inr ((mem_split_iff h hne).mp ?_)
      rcases List.mem_append.mp hline with hline | hline
      · exact (kept_sublist _ _).subset hline
      · split at hline
        · rename_i heof
          exact List.mem_singleton.mp hline ▸ heof
        · cases hline
  · rw [mergedLines, List.mem_append, or_iff_right (eofLine_not_mem_kept _ _),
      ← mem_split_iff h hblank]
    split
    · rename_i heof
      exact ⟨fun _ => heof, fun _ => List.mem_singleton_self _⟩
    · rename_i heof
      exact ⟨fun hmem => absurd hmem List.not_mem_nil, fun hmem => absurd hmem heof⟩

/-! ### What each fragment brings -/

/-- The samples of each list, and the comments that are in none before. -/
def brings (before : List String) : List (List String) → List (List String)
  | [] => []
  | lines :: rest =>
      (lines.filter fun line => !(isMetaLine line && before.contains line)) ::
        brings (before ++ lines) rest

theorem Dropped.congr {before before' : List String} (h : SeenIn before before') (line : String) :
    Dropped before line ↔ Dropped before' line := by
  by_cases heof : line = eofLine
  · exact ⟨fun _ => .inl heof, fun _ => .inl heof⟩
  · rw [Dropped, Dropped, or_iff_right heof, or_iff_right heof]
    exact and_congr_right fun hmeta => h line heof hmeta

theorem kept_congr {before before' : List String} (h : SeenIn before before')
    (lines : List String) : kept before lines = kept before' lines := by
  induction lines generalizing before before' with
  | nil => rfl
  | cons line lines ih =>
      rw [kept, kept, ih (h.cons_cons line)]
      exact if_congr (Dropped.congr h line) rfl rfl

theorem kept_append (before l r : List String) :
    kept before (l ++ r) = kept before l ++ kept (before ++ l) r := by
  induction l generalizing before with
  | nil => rw [List.append_nil, List.nil_append, kept, List.nil_append]
  | cons line l ih =>
      have hbefore : kept (line :: before ++ l) r = kept (before ++ line :: l) r := by
        apply kept_congr
        intro l' _ _
        rw [List.cons_append, List.mem_cons, List.mem_append, List.mem_append, List.mem_cons,
          or_left_comm]
      rw [List.cons_append, kept, kept, ih, hbefore]
      split <;> rfl

/-- Blank lines and last lines are no comments to be seen. -/
theorem filter_kept (before lines : List String) :
    (kept before lines).filter isContent = kept before (lines.filter isContent) := by
  induction lines generalizing before with
  | nil => rfl
  | cons line lines ih =>
      rw [kept]
      by_cases hcontent : isContent line = true
      · rw [List.filter_cons_of_pos hcontent, kept]
        split
        · exact ih _
        · rw [List.filter_cons_of_pos hcontent, ih]
      · have hseen : SeenIn (line :: before) before := by
          intro l heof hmeta
          rw [List.mem_cons, or_iff_right]
          rintro rfl
          apply hcontent
          have hne : l ≠ "" := by
            rintro rfl
            exact absurd hmeta (by decide)
          rw [isContent, Bool.and_eq_true, decide_eq_true_iff, decide_eq_true_iff]
          exact ⟨hne, heof⟩
        rw [List.filter_cons_of_neg hcontent, ← kept_congr hseen, ← ih]
        split
        · rfl
        · rw [List.filter_cons_of_neg hcontent]

/-- A list without repeated comments. -/
theorem kept_eq_filter {lines : List String} (heof : eofLine ∉ lines)
    (hmetas : (lines.filter isMetaLine).Nodup) (before : List String) :
    kept before lines = lines.filter fun line => !(isMetaLine line && before.contains line) := by
  induction lines generalizing before with
  | nil => rfl
  | cons line lines ih =>
      rw [List.mem_cons, not_or] at heof
      have hrest : (lines.filter isMetaLine).Nodup := by
        refine hmetas.sublist ?_
        exact (List.sublist_cons_self line lines).filter isMetaLine
      have hbefore : kept (line :: before) lines = kept before lines := by
        rw [ih heof.2 hrest, ih heof.2 hrest]
        apply List.filter_congr
        intro l hl
        by_cases hmeta : isMetaLine l = true
        · have hne : l ≠ line := by
            rintro rfl
            rw [List.filter_cons_of_pos hmeta, List.nodup_cons] at hmetas
            exact hmetas.1 (List.mem_filter.mpr ⟨hl, hmeta⟩)
          rw [List.contains_cons, beq_false_of_ne hne, Bool.false_or]
        · rw [Bool.not_eq_true] at hmeta
          rw [hmeta]
          rfl
      have hdropped : Dropped before line ↔
          (isMetaLine line && before.contains line) = true := by
        rw [Dropped, or_iff_right (Ne.symm heof.1), Bool.and_eq_true, List.contains_iff_mem]
      rw [kept, hbefore, ih heof.2 hrest, List.filter_cons]
      by_cases h : Dropped before line
      · rw [if_pos h, hdropped.mp h]
        rfl
      · rw [if_neg h, if_pos]
        rw [Bool.not_eq_true', ← Bool.not_eq_true]
        exact mt hdropped.mpr h

theorem kept_flatten {cs : List (List String)} (heof : ∀ lines ∈ cs, eofLine ∉ lines)
    (hmetas : ∀ lines ∈ cs, (lines.filter isMetaLine).Nodup) (before : List String) :
    kept before cs.flatten = (brings before cs).flatten := by
  induction cs generalizing before with
  | nil => rfl
  | cons lines cs ih =>
      rw [List.flatten_cons, kept_append, brings, List.flatten_cons,
        kept_eq_filter (heof lines List.mem_cons_self) (hmetas lines List.mem_cons_self),
        ih (fun l hl => heof l (List.mem_cons_of_mem lines hl))
          (fun l hl => hmetas l (List.mem_cons_of_mem lines hl))]

theorem sublist_of_mem_brings {cs : List (List String)} {before l : List String}
    (h : l ∈ brings before cs) : ∃ lines ∈ cs, l.Sublist lines := by
  induction cs generalizing before with
  | nil => cases h
  | cons lines cs ih =>
      rcases List.mem_cons.mp h with rfl | h
      · exact ⟨lines, List.mem_cons_self, List.filter_sublist⟩
      · obtain ⟨lines', hlines', hsub⟩ := ih h
        exact ⟨lines', List.mem_cons_of_mem lines hlines', hsub⟩

/-- What lists of different families bring has different families. -/
theorem brings_apart {F : Type*} {family : String → F} {cs : List (List String)}
    (h : cs.Pairwise fun l l' => ∀ a ∈ l, ∀ b ∈ l', family a ≠ family b) (before : List String) :
    (brings before cs).Pairwise fun l l' => ∀ a ∈ l, ∀ b ∈ l', family a ≠ family b := by
  induction cs generalizing before with
  | nil => exact List.Pairwise.nil
  | cons lines cs ih =>
      rw [List.pairwise_cons] at h
      refine List.pairwise_cons.mpr ⟨?_, ih h.2 _⟩
      intro l' hl' a ha b hb
      obtain ⟨lines', hlines', hsub⟩ := sublist_of_mem_brings hl'
      exact h.1 lines' hlines' a (List.mem_of_mem_filter ha) b (hsub.subset hb)

/-- Samples are brought in order. -/
theorem samples_brings (before : List String) (cs : List (List String)) :
    (brings before cs).flatten.filter (fun line => !isMetaLine line) =
      cs.flatten.filter fun line => !isMetaLine line := by
  induction cs generalizing before with
  | nil => rfl
  | cons lines cs ih =>
      rw [brings, List.flatten_cons, List.flatten_cons, List.filter_append, List.filter_append, ih,
        List.filter_filter]
      congr 2
      funext line
      cases isMetaLine line <;> rfl

/-! ### The result -/

theorem eofLine_not_mem_contents (text : String) : eofLine ∉ contents text := by
  intro hmem
  exact absurd (List.mem_filter.mp hmem).2 (by decide)

theorem filter_split {fragments : List String} (h : ∀ frag ∈ fragments, Ended frag) :
    (fragments.flatMap (split '\n')).filter isContent = (fragments.map contents).flatten := by
  rw [List.filter_flatMap, ← List.flatMap_def]
  apply List.flatMap_congr
  intro frag hfrag
  rw [split_eq (h frag hfrag), List.filter_append, contents]
  exact List.append_nil _

/-- The contents of the result are what the fragments bring. -/
theorem contents_merged {fragments : List String} (h : ∀ frag ∈ fragments, Ended frag)
    (hmetas : ∀ frag ∈ fragments, ((contents frag).filter isMetaLine).Nodup) :
    contents (deduplicateMetaLines fragments) = (brings [] (fragments.map contents)).flatten := by
  have hlast : ∀ l : List String, l = [eofLine] ∨ l = [] → l.filter isContent = [] := by
    rintro l (rfl | rfl) <;> rfl
  rw [contents, (merged_lines fragments).2, mergedLines, List.filter_append, filter_kept,
    filter_split h, hlast, List.append_nil]
  · apply kept_flatten
    · intro lines hlines
      obtain ⟨frag, -, rfl⟩ := List.mem_map.mp hlines
      exact eofLine_not_mem_contents frag
    · intro lines hlines
      obtain ⟨frag, hfrag, rfl⟩ := List.mem_map.mp hlines
      exact hmetas frag hfrag
  · split
    · exact .inl rfl
    · exact .inr rfl

/-- Each fragment's last line feed makes a blank line. -/
theorem blank_mem_kept {fragments : List String} {frag : String} (hfrag : frag ∈ fragments)
    (h : Ended frag) : "" ∈ kept [] (fragments.flatMap (split '\n')) := by
  rw [← List.count_pos_iff, count_kept (by decide), List.count_pos_iff, List.mem_flatMap]
  exact ⟨frag, hfrag, List.mem_of_getLast? h⟩

section Families

variable {F : Type*} {family : String → F} {fragments : List String}

/-- What a fragment brings is grouped as the fragment is. -/
theorem grouped_brings (h : ∀ frag ∈ fragments, Exposition family frag) :
    ∀ l ∈ brings [] (fragments.map contents),
      Grouped family (fun line => isMetaLine line = true) l := by
  intro l hl
  obtain ⟨lines, hlines, hsub⟩ := sublist_of_mem_brings hl
  obtain ⟨frag, hfrag, rfl⟩ := List.mem_map.mp hlines
  exact (h frag hfrag).grouped.sublist hsub

/-- Once there is a last line, there is a blank one before. -/
theorem not_eof_of_exposition (h : ∀ frag ∈ fragments, Exposition family frag)
    (hresult : Exposition family (deduplicateMetaLines fragments)) :
    ∀ frag ∈ fragments, eofLine ∉ linesOf frag := by
  intro frag hfrag hmem
  have hmem' : eofLine ∈ fragments.flatMap (split '\n') := by
    refine List.mem_flatMap.mpr ⟨frag, hfrag, ?_⟩
    rw [split_eq (h frag hfrag).ends]
    exact List.mem_append_left _ hmem
  have hlines := (merged_lines fragments).2
  rw [mergedLines, if_pos hmem'] at hlines
  obtain ⟨lines, heq, -, hblank⟩ :=
    hresult.eof (hlines ▸ List.mem_append_right _ (List.mem_singleton_self _))
  rw [hlines] at heq
  obtain rfl := List.append_cancel_right heq
  exact hblank (blank_mem_kept hfrag (h frag hfrag).ends)

/-- The lines of a family lie together in the result where they adjoin in the fragments. -/
theorem exposition_merge_iff (h : ∀ frag ∈ fragments, Exposition family frag) :
    Exposition family (deduplicateMetaLines fragments) ↔
      (∀ frag ∈ fragments, eofLine ∉ linesOf frag) ∧
        Adjoining family (fun line => isMetaLine line = true)
          (brings [] (fragments.map contents)) := by
  have hended : ∀ frag ∈ fragments, Ended frag := fun frag hfrag => (h frag hfrag).ends
  have hcontents := contents_merged hended fun frag hfrag => (h frag hfrag).metas
  obtain ⟨hends, hlines⟩ := merged_lines fragments
  constructor
  · intro hresult
    refine ⟨not_eof_of_exposition h hresult, ?_⟩
    have hgrouped := hresult.grouped
    rw [hcontents] at hgrouped
    exact (grouped_flatten_iff.mp hgrouped).2
  · rintro ⟨heof, hadjoining⟩
    obtain ⟨-, hmetas, -, hlast⟩ := merge_conserves hended
    rw [← hlines] at hmetas hlast
    refine ⟨hends, ?_, ?_, ?_⟩
    · intro hmem
      obtain ⟨frag, hfrag, hmem⟩ := List.mem_flatMap.mp (hlast.mp hmem)
      exact absurd hmem (heof frag hfrag)
    · rw [List.nodup_iff_count_le_one]
      intro line
      by_cases hline : line ∈ (contents (deduplicateMetaLines fragments)).filter isMetaLine
      · obtain ⟨hmem, hmeta⟩ := List.mem_filter.mp hline
        -- a comment that several fragments have is kept once
        have hne : line ≠ eofLine := fun heq => eofLine_not_mem_contents _ (heq ▸ hmem)
        have hsub := (List.filter_sublist (p := isMetaLine)
          (l := contents (deduplicateMetaLines fragments))).trans List.filter_sublist
        refine Nat.le_trans (hsub.count_le line) ?_
        rw [hmetas line hne hmeta]
        split
        · exact Nat.le_refl 1
        · exact Nat.zero_le 1
      · rw [List.count_eq_zero_of_not_mem hline]
        exact Nat.zero_le 1
    · rw [hcontents]
      exact grouped_flatten_iff.mpr ⟨grouped_brings h, hadjoining⟩

/-- **What the pool reports** is an exposition if one instance reports, and else where the fragments
adjoin. -/
theorem exposition_poolSnapshot_iff {texts : List String}
    (h : ∀ text ∈ texts, Exposition family text) :
    Exposition family (poolSnapshot texts) ↔
      (texts.filter (· ≠ "")).length ≤ 1 ∨
        (∀ frag ∈ texts.filter (· ≠ ""), eofLine ∉ linesOf frag) ∧
        Adjoining family (fun line => isMetaLine line = true)
          (brings [] ((texts.filter (· ≠ "")).map contents)) := by
  have hfragments : ∀ frag ∈ texts.filter (· ≠ ""), Exposition family frag :=
    fun frag hfrag => h frag (List.mem_of_mem_filter hfrag)
  rw [poolSnapshot]
  match hfilter : texts.filter (· ≠ "") with
  | [] => exact iff_of_true (exposition_empty family) (.inl (Nat.zero_le 1))
  | [fragment] =>
      rw [hfilter] at hfragments
      exact iff_of_true (hfragments fragment List.mem_cons_self) (.inl (Nat.le_refl 1))
  | fragment :: fragment' :: fragments =>
      rw [hfilter] at hfragments
      have hlen : ¬ (fragment :: fragment' :: fragments).length ≤ 1 := by simp
      rw [or_iff_right hlen]
      exact exposition_merge_iff hfragments

end Families

/-! ### Two instances -/

/-- What an instance with so many bytes and events writes. -/
def instanceText (resolverId : String) (memoryBytes published : UInt64) : String :=
  TelemetrySnapshot.toPrometheus (fun _ => none)
    { memoryBytes := memoryBytes, events := { published := published } } resolverId {}

def memorySample (resolverId : String) : Line :=
  sampleLine {} resolverId "confidence_memory_bytes" [] 1024

def eventSample (resolverId : String) : Line :=
  sampleLine {} resolverId "confidence_events_published_total" [] 1

/-- The memory, and then the events. -/
theorem written_instance (resolverId : String) :
    TelemetrySnapshot.writePrometheus (fun _ => none)
      { memoryBytes := 1024, events := { published := 1 } } resolverId {} =
      [helpLine "confidence_memory_bytes" "Current memory usage of the resolver in bytes.",
        typeLine "confidence_memory_bytes" "gauge", memorySample resolverId,
        helpLine "confidence_events_published_total" "Total events published.",
        typeLine "confidence_events_published_total" "counter", eventSample resolverId] := rfl

section Instance

variable {resolverId : String} (hid : '\n' ∉ resolverId.toList)

include hid

theorem exposition_instanceText (memoryBytes published : UInt64) :
    Exposition metricFamily (instanceText resolverId memoryBytes published) :=
  exposition_toPrometheus hid _ _ _

theorem eofLine_not_mem_instanceText (memoryBytes published : UInt64) :
    eofLine ∉ linesOf (instanceText resolverId memoryBytes published) := by
  intro hmem
  have hcontent := isContent_toPrometheus hid {} _ _ rfl eofLine hmem
  exact absurd hcontent (by decide)

theorem contents_instanceText (memoryBytes published : UInt64) :
    contents (instanceText resolverId memoryBytes published) =
      (TelemetrySnapshot.writePrometheus (fun _ => none)
        { memoryBytes := memoryBytes, events := { published := published } } resolverId {}).map
          Line.text := by
  rw [contents, instanceText, List.filter_eq_self.mpr (isContent_toPrometheus hid {} _ _ rfl)]
  exact linesOf_toPrometheus hid {} _ _

/-- An instance without events reports one family, and so does one without memory. -/
theorem families_instanceText :
    (∀ line ∈ contents (instanceText resolverId 1024 0),
      metricFamily line = "confidence_memory_bytes") ∧
    ∀ line ∈ contents (instanceText resolverId 0 1),
      metricFamily line = "confidence_events_published" := by
  rw [contents_instanceText hid, contents_instanceText hid]
  refine ⟨?_, ?_⟩
  · intro line hline
    exact List.mem_singleton.mp ((inBlocks_writeMemory hid {} 1024).family_mem line hline)
  · intro line hline
    exact List.mem_singleton.mp ((inBlocks_eventLines hid {} (by decide) (by decide) 1).family_mem
      line hline)

theorem sampleIn_memorySample : SampleIn "confidence_memory_bytes" (memorySample resolverId) :=
  sampleIn_sampleLine (nameIn_self (by decide)) hid (by simp) {} 1024

theorem sampleIn_eventSample : SampleIn "confidence_events_published" (eventSample resolverId) :=
  sampleIn_sampleLine (nameIn_append "_total" (by decide) (by decide)) hid (by simp) {} 1

/-- The samples of an instance. -/
theorem samples_instanceText :
    (contents (instanceText resolverId 1024 1)).filter (fun line => !isMetaLine line) =
      [(memorySample resolverId).text, (eventSample resolverId).text] := by
  rw [contents_instanceText hid, written_instance]
  simp [helpLine_text, typeLine_text, isMetaLine_comment, (sampleIn_memorySample hid).sample,
    (sampleIn_eventSample hid).sample]

end Instance

/-! ### Main results -/

section Merged

variable {F : Type*} {family : String → F} {fragments : List String}

/-- **The merge of well-formed fragments** is as it has to be if and only if none has `# EOF` and
the families they share adjoin.  What the pool reports is an exposition if one instance reports, and
else under the same condition. -/
theorem merged_well_iff (h : ∀ frag ∈ fragments, Exposition family frag) :
    (MergedWell family fragments (deduplicateMetaLines fragments) ↔
      (∀ frag ∈ fragments, eofLine ∉ linesOf frag) ∧
        Adjoining family (fun line => isMetaLine line = true)
          (brings [] (fragments.map contents))) ∧
      (Exposition family (poolSnapshot fragments) ↔
        (fragments.filter (· ≠ "")).length ≤ 1 ∨
          (∀ frag ∈ fragments.filter (· ≠ ""), eofLine ∉ linesOf frag) ∧
          Adjoining family (fun line => isMetaLine line = true)
            (brings [] ((fragments.filter (· ≠ "")).map contents))) := by
  refine ⟨?_, exposition_poolSnapshot_iff h⟩
  rw [← exposition_merge_iff h]
  refine ⟨fun hwell => hwell.exposition, ?_⟩
  intro hresult
  obtain ⟨hsamples, hmetas, honly, hlast⟩ :=
    merge_conserves fun frag hfrag => (h frag hfrag).ends
  rw [← (merged_lines fragments).2] at hsamples hmetas honly hlast
  exact ⟨hresult, hsamples, hmetas, honly, hlast⟩

end Merged

/-- Two instances that share no family. -/
theorem merged_well_iff_sample :
    MergedWell metricFamily [instanceText "w0" 1024 0, instanceText "w1" 0 1]
      (deduplicateMetaLines [instanceText "w0" 1024 0, instanceText "w1" 0 1]) := by
  have hid : '\n' ∉ "w0".toList := by decide
  have hid' : '\n' ∉ "w1".toList := by decide
  have hexposition : ∀ frag ∈ [instanceText "w0" 1024 0, instanceText "w1" 0 1],
      Exposition metricFamily frag := by
    rw [List.forall_mem_cons, List.forall_mem_singleton]
    exact ⟨exposition_instanceText hid 1024 0, exposition_instanceText hid' 0 1⟩
  refine (merged_well_iff hexposition).1.mpr ⟨?_, ?_⟩
  · rw [List.forall_mem_cons, List.forall_mem_singleton]
    exact ⟨eofLine_not_mem_instanceText hid 1024 0, eofLine_not_mem_instanceText hid' 0 1⟩
  · refine (grouped_flatten_iff.mp
      (grouped_flatten_of_apart (grouped_brings hexposition) (brings_apart ?_ []))).2
    rw [List.map_cons, List.map_cons, List.map_nil, List.pairwise_pair]
    intro line hline line' hline'
    rw [(families_instanceText hid).1 line hline, (families_instanceText hid').2 line' hline']
    decide

/-- The memory of the second instance comes behind the events of the first. -/
theorem pool_of_two_splits_families :
    (∀ frag ∈ [instanceText "w0" 1024 1, instanceText "w1" 1024 1],
      Exposition metricFamily frag) ∧
      ¬ MergedWell metricFamily [instanceText "w0" 1024 1, instanceText "w1" 1024 1]
        (deduplicateMetaLines [instanceText "w0" 1024 1, instanceText "w1" 1024 1]) := by
  have hid : '\n' ∉ "w0".toList := by decide
  have hid' : '\n' ∉ "w1".toList := by decide
  have hexposition : ∀ frag ∈ [instanceText "w0" 1024 1, instanceText "w1" 1024 1],
      Exposition metricFamily frag := by
    rw [List.forall_mem_cons, List.forall_mem_singleton]
    exact ⟨exposition_instanceText hid 1024 1, exposition_instanceText hid' 1024 1⟩
  refine ⟨hexposition, ?_⟩
  intro hwell
  have hsamples : (contents (deduplicateMetaLines
      [instanceText "w0" 1024 1, instanceText "w1" 1024 1])).filter (fun line => !isMetaLine line) =
      [(memorySample "w0").text, (eventSample "w0").text, (memorySample "w1").text] ++
        [(eventSample "w1").text] := by
    rw [contents_merged (fun frag hfrag => (hexposition frag hfrag).ends)
      (fun frag hfrag => (hexposition frag hfrag).metas), samples_brings, List.map_cons,
      List.map_cons, List.map_nil, List.flatten_cons, List.flatten_cons, List.filter_append,
      List.filter_append, samples_instanceText hid, samples_instanceText hid']
    rfl
  have hlines : [(memorySample "w0").text, (eventSample "w0").text,
      (memorySample "w1").text].Sublist (contents (deduplicateMetaLines
        [instanceText "w0" 1024 1, instanceText "w1" 1024 1])) := by
    refine List.Sublist.trans ?_ (List.filter_sublist (p := fun line => !isMetaLine line))
    rw [hsamples]
    exact List.sublist_append_left _ _
  -- the memory is one family, and the events between are another
  have hmemory := (sampleIn_memorySample hid).family
  have hsplit := hwell.exposition.grouped.together _ _ _ hlines
    (hmemory.trans (sampleIn_memorySample hid').family.symm)
  rw [hmemory, (sampleIn_eventSample hid).family] at hsplit
  exact absurd hsplit (by decide)

end ConfidenceResolver
