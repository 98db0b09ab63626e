import ConfidenceResolver.Support.Grouping
import ConfidenceResolver.Telemetry.Exposition

/-!
# Telemetry — families in an exposition

The lines of one metric family are to lie together in an exposition, its comments first.

* `Exposition`: what a text has to be, for any assignment of lines to families.
* `exposition_of_blocks`: blocks of different families are one.
* `exposition_toPrometheus`: what an instance writes is one.
-/

namespace ConfidenceResolver

open TextFormat

/-! ### What an exposition has to be -/

def eofLine : String := "# EOF"

/-- `strings.HasPrefix(line, "# ")`. -/
def isMetaLine (line : String) : Bool := "# ".toList.isPrefixOf line.toList

/-- Lines, each with its end. -/
def terminated (lines : List String) : String := String.join (lines.map (· ++ "\n"))

/-- There is nothing behind the last line feed. -/
def Ended (text : String) : Prop := (split '\n' text).getLast? = some ""

/-- The lines of a text, each of which has an end. -/
def linesOf (text : String) : List String := (split '\n' text).dropLast

/-- Not blank, and not the last line of OpenMetrics. -/
def isContent (line : String) : Bool := line ≠ "" && line ≠ eofLine

def contents (text : String) : List String := (linesOf text).filter isContent

section WellFormed

variable {F : Type*} (family : String → F)

/-- A text of the Prometheus format, or of OpenMetrics if it has `# EOF`: comments and samples of
one family lie together, the comments first. -/
structure Exposition (text : String) : Prop where
  ends : Ended text
  eof : eofLine ∈ linesOf text → ∃ lines, linesOf text = lines ++ [eofLine] ∧ eofLine ∉ lines ∧
    "" ∉ lines
  metas : ((contents text).filter isMetaLine).Nodup
  grouped : Grouped family (fun line => isMetaLine line = true) (contents text)

theorem exposition_empty : Exposition family "" where
  ends := by
    rw [Ended]
    decide
  eof h := absurd h (by decide)
  metas := by decide
  grouped := by
    have hempty : contents "" = [] := by decide
    rw [hempty]
    exact ⟨fun a b c h => absurd h.length_le (by simp), fun a b h => absurd h.length_le (by simp)⟩

end WellFormed

/-! ### Lines of a text -/

/-- The first word of a text. -/
theorem split_word {c : Char} {word text : String} (rest : String) (h : c ∉ word.toList)
    (htext : text.toList = word.toList ++ c :: rest.toList) :
    split c text = word :: split c rest := by
  rw [split, htext, List.splitOn_append_cons_self_of_not_mem h, List.map_cons,
    String.ofList_toList]
  rfl

theorem split_line {line : String} (h : '\n' ∉ line.toList) (rest : String) :
    split '\n' (line ++ "\n" ++ rest) = line :: split '\n' rest := by
  apply split_word rest h
  rw [String.toList_append, String.toList_append, List.append_assoc]
  rfl

theorem split_terminated {lines : List String} (h : ∀ line ∈ lines, '\n' ∉ line.toList)
    (rest : String) : split '\n' (terminated lines ++ rest) = lines ++ split '\n' rest := by
  induction lines with
  | nil =>
      rw [terminated, List.map_nil, String.join_nil, String.empty_append]
      rfl
  | cons line lines ih =>
      rw [terminated, List.map_cons, String.join_cons, String.append_assoc, split_line
        (h line List.mem_cons_self)]
      exact congrArg (line :: ·) (ih fun l hl => h l (List.mem_cons_of_mem line hl))

/-- A line has no line feed. -/
theorem not_mem_of_mem_splitOn {c : Char} {cs piece : List Char} (h : piece ∈ cs.splitOn c) :
    c ∉ piece := by
  induction cs generalizing piece with
  | nil =>
      rw [List.splitOn_nil, List.mem_singleton] at h
      exact h ▸ List.not_mem_nil
  | cons x cs ih =>
      rw [List.splitOn_cons_eq_if_modifyHead] at h
      split at h
      · rcases List.mem_cons.mp h with rfl | h
        · exact List.not_mem_nil
        · exact ih h
      · rename_i hx
        obtain ⟨head, pieces, hsplit⟩ := List.exists_cons_of_ne_nil (List.splitOn_ne_nil c cs)
        rw [hsplit, List.modifyHead_cons] at h
        rw [hsplit] at ih
        rcases List.mem_cons.mp h with rfl | h
        · rw [List.mem_cons]
          rintro (rfl | hmem)
          · exact hx (beq_self_eq_true _)
          · exact ih List.mem_cons_self hmem
        · exact ih (List.mem_cons_of_mem head h)

theorem not_newline_of_mem_split {text line : String} (h : line ∈ split '\n' text) :
    '\n' ∉ line.toList := by
  obtain ⟨piece, hpiece, rfl⟩ := List.mem_map.mp h
  rw [String.toList_ofList]
  exact not_mem_of_mem_splitOn hpiece

theorem split_eq {text : String} (h : Ended text) : split '\n' text = linesOf text ++ [""] := by
  rw [linesOf, List.dropLast_append_getLast?]
  exact h

/-- The lines of a text that is written line by line. -/
theorem linesOf_terminated {lines : List String} (h : ∀ line ∈ lines, '\n' ∉ line.toList) :
    Ended (terminated lines) ∧ linesOf (terminated lines) = lines := by
  have hsplit := split_terminated h ""
  have hempty : split '\n' "" = [""] := by decide
  rw [String.append_empty, hempty] at hsplit
  refine ⟨?_, ?_⟩
  · rw [Ended, hsplit, List.getLast?_concat]
  · rw [linesOf, hsplit, List.dropLast_concat]

/-! ### Blocks -/

/-- A family with its comments and its samples. -/
structure FamilyBlock (F : Type*) where
  family : F
  comments : List String
  samples : List String

def FamilyBlock.lines {F : Type*} (b : FamilyBlock F) : List String := b.comments ++ b.samples

/-- The lines are of the family. -/
structure FamilyBlock.Proper {F : Type*} (family : String → F) (b : FamilyBlock F) : Prop where
  feed : ∀ line ∈ b.lines, '\n' ∉ line.toList
  content : ∀ line ∈ b.lines, isContent line = true
  families : ∀ line ∈ b.lines, family line = b.family
  comments : ∀ line ∈ b.comments, isMetaLine line = true
  samples : ∀ line ∈ b.samples, isMetaLine line = false
  nodup : b.comments.Nodup

section Blocks

variable {F : Type*} {family : String → F} {blocks : List (FamilyBlock F)}

theorem feed_not_mem_blocks (h : ∀ b ∈ blocks, b.Proper family) (openmetrics : Bool) :
    ∀ line ∈ blocks.flatMap FamilyBlock.lines ++ (if openmetrics then [eofLine] else []),
      '\n' ∉ line.toList := by
  intro line hline
  rcases List.mem_append.mp hline with hline | hline
  · obtain ⟨b, hb, hline⟩ := List.mem_flatMap.mp hline
    exact (h b hb).feed line hline
  · split at hline
    · rw [List.mem_singleton.mp hline]
      decide
    · cases hline

/-- **Blocks of different families are an exposition.** -/
theorem exposition_of_blocks (h : ∀ b ∈ blocks, b.Proper family)
    (hdistinct : (blocks.map FamilyBlock.family).Nodup) (openmetrics : Bool) :
    Exposition family (terminated
      (blocks.flatMap FamilyBlock.lines ++ if openmetrics then [eofLine] else [])) := by
  have hcontent : ∀ line ∈ blocks.flatMap FamilyBlock.lines, isContent line = true := by
    intro line hline
    obtain ⟨b, hb, hline⟩ := List.mem_flatMap.mp hline
    exact (h b hb).content line hline
  have hne : blocks.Pairwise fun b b' => b.family ≠ b'.family := List.pairwise_map.mp hdistinct
  obtain ⟨hended, hlines⟩ := linesOf_terminated (feed_not_mem_blocks h openmetrics)
  have hcontents : contents (terminated
      (blocks.flatMap FamilyBlock.lines ++ if openmetrics then [eofLine] else [])) =
      blocks.flatMap FamilyBlock.lines := by
    have hlast : (if openmetrics then [eofLine] else []).filter isContent = [] := by
      split <;> rfl
    rw [contents, hlines, List.filter_append, hlast, List.append_nil, List.filter_eq_self]
    exact hcontent
  refine ⟨hended, ?_, ?_, ?_⟩
  · rw [hlines]
    intro heof
    have hnot : eofLine ∉ blocks.flatMap FamilyBlock.lines :=
      fun hmem => absurd (hcontent _ hmem) (by decide)
    have hblank : "" ∉ blocks.flatMap FamilyBlock.lines :=
      fun hmem => absurd (hcontent _ hmem) (by decide)
    refine ⟨blocks.flatMap FamilyBlock.lines, ?_, hnot, hblank⟩
    cases openmetrics with
    | true => rfl
    | false =>
        rw [if_neg Bool.false_ne_true, List.append_nil] at heof
        exact absurd heof hnot
  · -- the comments of a block name its family, and no two blocks have one family
    have hmetas : (blocks.flatMap FamilyBlock.lines).filter isMetaLine =
        blocks.flatMap FamilyBlock.comments := by
      rw [List.filter_flatMap]
      apply List.flatMap_congr
      intro b hb
      rw [FamilyBlock.lines, List.filter_append, List.filter_eq_self.mpr (h b hb).comments,
        List.filter_eq_nil_iff.mpr, List.append_nil]
      intro line hline
      rw [(h b hb).samples line hline]
      exact Bool.false_ne_true
    rw [hcontents, hmetas, List.nodup_flatMap]
    refine ⟨fun b hb => (h b hb).nodup, hne.imp_of_mem ?_⟩
    intro b b' hb hb' hfamily line hline hline'
    apply hfamily
    rw [← (h b hb).families line (List.mem_append_left _ hline),
      (h b' hb').families line (List.mem_append_left _ hline')]
  · rw [hcontents, List.flatMap_def]
    apply grouped_flatten_of_apart
    · intro l hl
      obtain ⟨b, hb, rfl⟩ := List.mem_map.mp hl
      refine grouped_block (h b hb).families (h b hb).comments ?_
      intro line hline
      rw [(h b hb).samples line hline]
      exact Bool.false_ne_true
    · rw [List.pairwise_map]
      refine hne.imp_of_mem ?_
      intro b b' hb hb' hfamily line hline line' hline' heq
      apply hfamily
      rw [← (h b hb).families line hline, heq, (h b' hb').families line' hline']

end Blocks

/-! ### The family of a line -/

def familySuffixes : List String := ["_bucket", "_sum", "_count", "_total"]

/-- The family of a metric: its name, less what is put behind it. -/
def familyOfName (name : String) : String :=
  match familySuffixes.find? fun suffix => suffix.toList.isSuffixOf name.toList with
  | some suffix => String.ofList (name.toList.take (name.length - suffix.length))
  | none => name

/-- The family of a comment or a sample. -/
def metricFamily (line : String) : String :=
  if isMetaLine line then familyOfName ((split ' ' line).getD 2 "")
  else familyOfName (String.ofList (line.toList.takeWhile isMetricChar))

theorem familyOfName_append {suffix : String} (h : suffix ∈ familySuffixes) (name : String) :
    familyOfName (name ++ suffix) = name := by
  have hfind : familySuffixes.find? (fun s => s.toList.isSuffixOf (name ++ suffix).toList) =
      some suffix := by
    rw [String.toList_append]
    simp only [familySuffixes, List.mem_cons, List.not_mem_nil, or_false] at h
    -- no suffix ends another
    rcases h with rfl | rfl | rfl | rfl <;>
      simp [familySuffixes, List.isSuffixOf, List.find?, List.isPrefixOf]
  rw [familyOfName, hfind]
  simp only [String.length_append, Nat.add_sub_cancel, String.toList_append]
  rw [← String.length_toList, List.take_left, String.ofList_toList]

/-- `# kind name text`. -/
def commentText (kind name text : String) : String := "# " ++ kind ++ " " ++ name ++ " " ++ text

theorem helpLine_text (name help : String) :
    (helpLine name help).text = commentText "HELP" name help := rfl

theorem typeLine_text (name kind : String) :
    (typeLine name kind).text = commentText "TYPE" name kind := rfl

theorem toList_commentText (kind name text : String) : (commentText kind name text).toList =
    '#' :: ' ' :: (kind.toList ++ ' ' :: (name.toList ++ ' ' :: text.toList)) := by
  simp [commentText]

theorem isMetaLine_comment (kind name text : String) :
    isMetaLine (commentText kind name text) = true := by
  rw [isMetaLine, toList_commentText]
  rfl

/-- The family of a comment is in its third word. -/
theorem metricFamily_comment {kind name : String} (hkind : ' ' ∉ kind.toList)
    (hname : ' ' ∉ name.toList) (text : String) :
    metricFamily (commentText kind name text) = familyOfName name := by
  have hwords : split ' ' (commentText kind name text) =
      "#" :: kind :: name :: split ' ' text := by
    have hhash : ' ' ∉ "#".toList := by decide
    rw [split_word (kind ++ " " ++ name ++ " " ++ text) hhash,
      split_word (name ++ " " ++ text) hkind, split_word text hname]
    · simp
    · simp
    · simp [toList_commentText]
  rw [metricFamily, isMetaLine_comment, if_pos rfl, hwords]
  rfl

theorem metricFamily_sample {s : Sample} (hname : isName isMetricChar s.name.toList = true) :
    isMetaLine s.text = false ∧ metricFamily s.text = familyOfName s.name := by
  have hall := all_of_isName hname
  have hmeta : isMetaLine s.text = false := by
    rw [isMetaLine, Sample.toList_text, lineChars]
    cases hchars : s.name.toList with
    | nil =>
        rw [hchars] at hname
        cases hname
    | cons c cs =>
        have hne : ('#' == c) = false := by
          rw [beq_eq_false_iff_ne]
          rintro rfl
          exact absurd (hall '#' (hchars ▸ List.mem_cons_self)) (by decide)
        have hstart : "# ".toList = ['#', ' '] := rfl
        rw [hstart, List.cons_append, List.isPrefixOf_cons_cons, hne, Bool.false_and]
  refine ⟨hmeta, ?_⟩
  rw [metricFamily, hmeta, if_neg Bool.false_ne_true, Sample.toList_text, lineChars,
    (takeWhile_name hall rfl _).1, String.ofList_toList]

/-! ### What an instance writes -/

def instanceFamilies : List String :=
  [latencyName, "confidence_resolves", "confidence_memory_bytes", "confidence_apply_dedup_applies",
    "confidence_apply_dedup_deduped", "confidence_apply_dedup_overflow",
    "confidence_apply_dedup_sweeps", "confidence_apply_dedup_map_size",
    "confidence_apply_dedup_map_capacity", "confidence_flush_succeeded",
    "confidence_flush_failed", "confidence_events_published",
    "confidence_event_batches_succeeded", "confidence_event_batches_failed",
    "confidence_events_rejected", "confidence_provider_init"]

theorem instanceFamilies_nodup : instanceFamilies.Nodup := by decide +kernel

/-- A name of a metric of the family. -/
structure NameIn (family name : String) : Prop where
  isName : isName isMetricChar name.toList = true
  family : familyOfName name = family

theorem nameIn_self {family : String} (h : family ∈ instanceFamilies) : NameIn family family := by
  have hall : instanceFamilies.all (fun name => TextFormat.isName isMetricChar name.toList &&
      familyOfName name == name) = true := by
    decide +kernel
  have hname := List.all_eq_true.mp hall family h
  rw [Bool.and_eq_true, beq_iff_eq] at hname
  exact ⟨hname.1, hname.2⟩

theorem nameIn_append {family : String} (suffix : String) (h : family ∈ instanceFamilies)
    (hsuffix : suffix ∈ familySuffixes) : NameIn family (family ++ suffix) where
  isName := by
    have hall : familySuffixes.all (fun suffix => suffix.toList.all isMetricChar) = true := by
      decide
    have hname := (nameIn_self h).isName
    rw [String.toList_append]
    cases hchars : family.toList with
    | nil =>
        rw [hchars] at hname
        cases hname
    | cons c cs =>
        rw [hchars, TextFormat.isName, Bool.and_eq_true] at hname
        rw [List.cons_append, TextFormat.isName, Bool.and_eq_true, ← List.cons_append,
          List.all_append, Bool.and_eq_true]
        exact ⟨hname.1, hname.2, List.all_eq_true.mp hall suffix hsuffix⟩
  family := familyOfName_append hsuffix family

/-- A sample of the family, on one line. -/
structure SampleIn (family : String) (line : Line) : Prop where
  sample : isMetaLine line.text = false
  family : metricFamily line.text = family
  feed : '\n' ∉ line.text.toList

theorem not_mem_intercalate {c : Char} (hc : c ≠ ',') {pieces : List (List Char)}
    (h : ∀ piece ∈ pieces, c ∉ piece) : c ∉ [','].intercalate pieces := by
  induction pieces with
  | nil => exact List.not_mem_nil
  | cons piece pieces ih =>
      cases pieces with
      | nil =>
          rw [List.intercalate_singleton]
          exact h piece List.mem_cons_self
      | cons piece' pieces =>
          rw [List.intercalate_cons_cons, List.mem_append, List.mem_append, List.mem_singleton]
          rintro ((hmem | rfl) | hmem)
          · exact h piece List.mem_cons_self hmem
          · exact hc rfl
          · exact ih (fun p hp => h p (List.mem_cons_of_mem piece hp)) hmem

theorem feed_not_mem_escaped (value : String) : '\n' ∉ (escapeLabelValue value).toList := by
  rw [escapeLabelValue, String.toList_ofList, List.mem_flatMap]
  rintro ⟨c, -, hmem⟩
  unfold escapeChar at hmem
  split at hmem
  · exact absurd hmem (by decide)
  · exact absurd hmem (by decide)
  · exact absurd hmem (by decide)
  · next hc => exact hc (List.mem_singleton.mp hmem).symm

theorem not_mem_of_isName {allowed : Char → Bool} {name : List Char}
    (h : TextFormat.isName allowed name = true) {c : Char} (hc : allowed c = false) : c ∉ name := by
  intro hmem
  rw [all_of_isName h c hmem] at hc
  cases hc

/-- A label has no line feed if its value is escaped or has none. -/
theorem feed_not_mem_label {l : SampleLabel} (hname : isName isNameChar l.name.toList = true)
    (hvalue : l.escaped = true ∨ '\n' ∉ l.value.toList) : '\n' ∉ l.text.toList := by
  have hwritten : '\n' ∉ l.written.toList := by
    rw [SampleLabel.written]
    split
    · exact feed_not_mem_escaped l.value
    · next hescaped => exact hvalue.resolve_left hescaped
  rw [SampleLabel.toList_text, labelChars, List.mem_append, List.mem_cons, List.mem_cons,
    List.mem_append, List.mem_singleton]
  rintro (hmem | heq | heq | hmem | heq)
  · exact not_mem_of_isName hname rfl hmem
  · exact absurd heq (by decide)
  · exact absurd heq (by decide)
  · exact hwritten hmem
  · exact absurd heq (by decide)

theorem SampleLabel.Legible.feed_not_mem {l : SampleLabel} (h : l.Legible) :
    '\n' ∉ l.text.toList := by
  apply feed_not_mem_label h.name
  refine h.value.imp_right ?_
  intro hplain hmem
  exact (hplain '\n' hmem).2.2 rfl

theorem feed_not_mem_value (n : Nat) (config : PrometheusConfig) :
    '\n' ∉ (toString n ++ config.suffix).toList := by
  rw [String.toList_append, List.mem_append]
  rintro (hmem | hmem)
  · rw [Nat.toString_eq_repr, Nat.toList_repr] at hmem
    have hdigit := Nat.isDigit_of_mem_toDigits (by decide) (by decide) hmem
    exact absurd hdigit (by decide)
  · rw [PrometheusConfig.suffix] at hmem
    split at hmem
    · exact absurd hmem (by decide)
    · exact absurd hmem (by decide)

theorem sampleIn_sampleLine {family name : String} (hname : NameIn family name)
    {resolverId : String} (hid : '\n' ∉ resolverId.toList) {labels : List SampleLabel}
    (hlabels : ∀ l ∈ labels, l.Legible) (config : PrometheusConfig) (value : Nat) :
    SampleIn family (sampleLine config resolverId name labels value) := by
  obtain ⟨hsample, hfamily⟩ := metricFamily_sample
    (s := ⟨name, ⟨"resolver_id", resolverId, false⟩ :: labels, toString value ++ config.suffix⟩)
    hname.isName
  refine ⟨hsample, hfamily.trans hname.family, ?_⟩
  rw [sampleLine, Line.text, Sample.toList_text, lineChars, List.mem_append, List.mem_cons,
    List.mem_append, List.mem_cons, List.mem_cons]
  rintro (hmem | heq | hmem | heq | heq | hmem)
  · exact not_mem_of_isName hname.isName rfl hmem
  · exact absurd heq (by decide)
  · refine not_mem_intercalate (by decide) ?_ hmem
    intro piece hpiece
    obtain ⟨l, hl, rfl⟩ := List.mem_map.mp hpiece
    rcases List.mem_cons.mp hl with rfl | hl
    · exact feed_not_mem_label isName_resolver_id (.inr hid)
    · exact (hlabels l hl).feed_not_mem
  · exact absurd heq (by decide)
  · exact absurd heq (by decide)
  · exact feed_not_mem_value value config hmem

/-- Lines that are blocks of these families. -/
def InBlocks (families : List String) (lines : List Line) : Prop :=
  ∃ blocks : List (FamilyBlock String), (∀ b ∈ blocks, b.Proper metricFamily) ∧
    (blocks.map FamilyBlock.family).Sublist families ∧
    lines.map Line.text = blocks.flatMap FamilyBlock.lines

theorem inBlocks_nil (families : List String) : InBlocks families [] :=
  ⟨[], fun _ hb => absurd hb List.not_mem_nil, List.nil_sublist families, rfl⟩

theorem InBlocks.append {families families' : List String} {lines lines' : List Line}
    (h : InBlocks families lines) (h' : InBlocks families' lines') :
    InBlocks (families ++ families') (lines ++ lines') := by
  obtain ⟨blocks, hproper, hsub, heq⟩ := h
  obtain ⟨blocks', hproper', hsub', heq'⟩ := h'
  refine ⟨blocks ++ blocks', ?_, ?_, ?_⟩
  · intro b hb
    rcases List.mem_append.mp hb with hb | hb
    · exact hproper b hb
    · exact hproper' b hb
  · rw [List.map_append]
    exact hsub.append hsub'
  · rw [List.map_append, List.flatMap_append, heq, heq']

theorem feed_not_mem_comment {kind name text : String} (hkind : '\n' ∉ kind.toList)
    (hname : '\n' ∉ name.toList) (htext : '\n' ∉ text.toList) :
    '\n' ∉ (commentText kind name text).toList := by
  simp [toList_commentText, hkind, hname, htext]

theorem isContent_of_family {line : String} (h : metricFamily line ≠ "") :
    isContent line = true := by
  rw [isContent, Bool.and_eq_true, decide_eq_true_iff, decide_eq_true_iff]
  refine ⟨?_, ?_⟩
  · rintro rfl
    exact h (by decide)
  · rintro rfl
    exact h (by decide)

theorem InBlocks.family_mem {families : List String} {lines : List Line}
    (h : InBlocks families lines) :
    ∀ line ∈ lines.map Line.text, metricFamily line ∈ families := by
  obtain ⟨blocks, hproper, hsub, heq⟩ := h
  rw [heq]
  intro line hline
  obtain ⟨b, hb, hline⟩ := List.mem_flatMap.mp hline
  rw [(hproper b hb).families line hline]
  exact hsub.subset (List.mem_map_of_mem hb)

/-- The lines of one metric. -/
theorem inBlocks_family {family name : String} (hmem : family ∈ instanceFamilies)
    (hname : NameIn family name) {help kind : String} (hhelp : '\n' ∉ help.toList)
    (hkind : '\n' ∉ kind.toList) {lines : List Line}
    (hlines : ∀ line ∈ lines, SampleIn family line) :
    InBlocks [family] ([helpLine name help, typeLine name kind] ++ lines) := by
  let b : FamilyBlock String :=
    ⟨family, [commentText "HELP" name help, commentText "TYPE" name kind], lines.map Line.text⟩
  -- a property of the two comments and of the samples is one of all lines
  have hall : ∀ {P : String → Prop}, P (commentText "HELP" name help) →
      P (commentText "TYPE" name kind) → (∀ line ∈ lines, P line.text) →
      ∀ line ∈ b.lines, P line := by
    intro P hP hP' hlines line hline
    rcases List.mem_append.mp hline with hline | hline
    · rcases List.mem_cons.mp hline with rfl | hline
      · exact hP
      · rw [List.mem_singleton.mp hline]
        exact hP'
    · obtain ⟨l, hl, rfl⟩ := List.mem_map.mp hline
      exact hlines l hl
  have hspace : ' ' ∉ name.toList := not_mem_of_isName hname.isName rfl
  have hfeed : '\n' ∉ name.toList := not_mem_of_isName hname.isName rfl
  have hfamilies : ∀ line ∈ b.lines, metricFamily line = family := by
    refine hall ?_ ?_ fun line hline => (hlines line hline).family
    · exact (metricFamily_comment (by decide) hspace help).trans hname.family
    · exact (metricFamily_comment (by decide) hspace kind).trans hname.family
  have hdistinct : commentText "HELP" name help ≠ commentText "TYPE" name kind := by
    intro heq
    have hchars := congrArg String.toList heq
    rw [toList_commentText, toList_commentText, List.cons_eq_cons, List.cons_eq_cons] at hchars
    exact absurd (List.cons_eq_cons.mp hchars.2.2).1 (by decide)
  have hproper : b.Proper metricFamily := by
    refine ⟨?_, ?_, hfamilies, ?_, ?_, ?_⟩
    · refine hall ?_ ?_ fun line hline => (hlines line hline).feed
      · exact feed_not_mem_comment (by decide) hfeed hhelp
      · exact feed_not_mem_comment (by decide) hfeed hkind
    · intro line hline
      apply isContent_of_family
      rw [hfamilies line hline]
      rintro rfl
      exact absurd hmem (by decide)
    · intro line hline
      rcases List.mem_cons.mp hline with rfl | hline
      · exact isMetaLine_comment "HELP" name help
      · rw [List.mem_singleton.mp hline]
        exact isMetaLine_comment "TYPE" name kind
    · intro line hline
      obtain ⟨l, hl, rfl⟩ := List.mem_map.mp hline
      exact (hlines l hl).sample
    · rw [List.nodup_cons, List.mem_singleton]
      exact ⟨hdistinct, List.nodup_singleton _⟩
  refine ⟨[b], ?_, List.Sublist.refl _, ?_⟩
  · intro b' hb'
    rw [List.mem_singleton.mp hb']
    exact hproper
  · rw [List.flatMap_singleton]
    rfl

theorem InBlocks.cons {family : String} {families : List String} {lines lines' : List Line}
    (h : InBlocks [family] lines) (h' : InBlocks families lines') :
    InBlocks (family :: families) (lines ++ lines') :=
  h.append h'

theorem isName_le : TextFormat.isName isNameChar "le".toList = true := by decide

theorem isName_reason : TextFormat.isName isNameChar "reason".toList = true := by decide

section Writers

variable {resolverId : String} (hid : '\n' ∉ resolverId.toList) (config : PrometheusConfig)

include hid

omit hid in
theorem inBlocks_counterHeader {base help : String} (hbase : base ∈ instanceFamilies)
    (hhelp : '\n' ∉ help.toList) {lines : List Line}
    (hlines : ∀ line ∈ lines, SampleIn base line) :
    InBlocks [base] (counterHeader config base help ++ lines) := by
  refine inBlocks_family hbase ?_ hhelp (by decide) hlines
  rw [PrometheusConfig.typeName]
  split
  · exact nameIn_self hbase
  · exact nameIn_append _ hbase (by decide)

theorem inBlocks_counterLines {base help : String} (hbase : base ∈ instanceFamilies)
    (hhelp : '\n' ∉ help.toList) (value : Nat) :
    InBlocks [base] (counterLines config resolverId base help value) := by
  refine inBlocks_counterHeader config hbase hhelp ?_
  intro line hline
  rw [List.mem_singleton.mp hline]
  exact sampleIn_sampleLine (nameIn_append _ hbase (by decide)) hid (by simp) config value

theorem inBlocks_gaugeLines {name help : String} (hname : name ∈ instanceFamilies)
    (hhelp : '\n' ∉ help.toList) (value : Nat) :
    InBlocks [name] (gaugeLines config resolverId name help value) := by
  apply inBlocks_family hname (nameIn_self hname) hhelp (by decide)
  intro line hline
  rw [List.mem_singleton.mp hline]
  exact sampleIn_sampleLine (nameIn_self hname) hid (by simp) config value

theorem inBlocks_writeHistogram (upper : Nat → Option ℚ) (s : HistogramSnapshot) :
    InBlocks [latencyName] (writeHistogram upper s resolverId config) := by
  have hmem : latencyName ∈ instanceFamilies := List.mem_cons_self
  have hbucket : ∀ (le : String) (count : UInt64), AllPlain le.toList →
      SampleIn latencyName (bucketLine config resolverId le count) := by
    intro le count hplain
    refine sampleIn_sampleLine (nameIn_append _ hmem (by decide)) hid ?_ config count.toNat
    intro l hl
    rw [List.mem_singleton.mp hl]
    exact ⟨isName_le, .inr hplain⟩
  rw [writeHistogram]
  split
  · exact inBlocks_nil _
  · rw [List.append_assoc]
    refine inBlocks_family hmem (nameIn_self hmem) (by decide) (by decide) ?_
    intro line hline
    rcases List.mem_append.mp hline with hline | hline
    · obtain ⟨e, -, rfl⟩ := List.mem_map.mp hline
      exact hbucket _ _ (plain_upperText upper e.1)
    · simp only [List.mem_cons, List.not_mem_nil, or_false] at hline
      rcases hline with rfl | rfl | rfl
      · exact hbucket _ _ (by decide)
      · exact sampleIn_sampleLine (nameIn_append _ hmem (by decide)) hid (by simp) config _
      · exact sampleIn_sampleLine (nameIn_append _ hmem (by decide)) hid (by simp) config _

theorem inBlocks_writeResolveRates (resolveRates : List UInt64) :
    InBlocks ["confidence_resolves"] (writeResolveRates resolveRates resolverId config) := by
  have hmem : "confidence_resolves" ∈ instanceFamilies := by decide
  have hname : NameIn "confidence_resolves" "confidence_resolves_total" :=
    nameIn_append "_total" hmem (by decide)
  rw [writeResolveRates]
  split
  · refine inBlocks_counterHeader config hmem (by decide) ?_
    intro line hline
    obtain ⟨e, -, hline⟩ := List.mem_filterMap.mp hline
    split at hline
    · cases hline
    · cases hline
      refine sampleIn_sampleLine hname hid ?_ config _
      intro l hl
      rw [List.mem_singleton.mp hl]
      exact ⟨isName_reason, .inr (plain_reasonLabel e.2)⟩
  · exact inBlocks_nil _

theorem inBlocks_writeProviderInit (providerInitRate : List ProviderInitSnapshot) :
    InBlocks ["confidence_provider_init"]
      (writeProviderInit providerInitRate resolverId config) := by
  have hmem : "confidence_provider_init" ∈ instanceFamilies := by decide
  have hname : NameIn "confidence_provider_init" "confidence_provider_init_total" :=
    nameIn_append "_total" hmem (by decide)
  rw [writeProviderInit]
  split
  · refine inBlocks_counterHeader config hmem (by decide) ?_
    intro line hline
    obtain ⟨entry, -, hline⟩ := List.mem_filterMap.mp hline
    split at hline
    · cases hline
    · cases hline
      exact sampleIn_sampleLine hname hid (legible_entryLabels entry.labels) config _
  · exact inBlocks_nil _

theorem inBlocks_writeMemory (memoryBytes : UInt64) :
    InBlocks ["confidence_memory_bytes"] (writeMemory memoryBytes resolverId config) := by
  rw [writeMemory]
  split
  · exact inBlocks_nil _
  · exact inBlocks_gaugeLines hid config (by decide) (by decide) _

theorem inBlocks_writeApplyDedup (applyDedup : Option ApplyDedupSnapshot) :
    InBlocks ["confidence_apply_dedup_applies", "confidence_apply_dedup_deduped",
      "confidence_apply_dedup_overflow", "confidence_apply_dedup_sweeps",
      "confidence_apply_dedup_map_size", "confidence_apply_dedup_map_capacity"]
      (writeApplyDedup applyDedup resolverId config) := by
  rw [writeApplyDedup]
  split
  · exact inBlocks_nil _
  · rw [List.append_assoc, List.append_assoc, List.append_assoc, List.append_assoc]
    apply InBlocks.cons (inBlocks_counterLines hid config (by decide) (by decide) _)
    apply InBlocks.cons (inBlocks_counterLines hid config (by decide) (by decide) _)
    apply InBlocks.cons (inBlocks_counterLines hid config (by decide) (by decide) _)
    apply InBlocks.cons (inBlocks_counterLines hid config (by decide) (by decide) _)
    apply InBlocks.cons (inBlocks_gaugeLines hid config (by decide) (by decide) _)
    exact inBlocks_gaugeLines hid config (by decide) (by decide) _

theorem inBlocks_writeFlush (flush : FlushSnapshot) :
    InBlocks ["confidence_flush_succeeded", "confidence_flush_failed"]
      (writeFlush flush resolverId config) := by
  rw [writeFlush]
  split
  · exact inBlocks_nil _
  · apply InBlocks.cons (inBlocks_counterLines hid config (by decide) (by decide) _)
    exact inBlocks_counterLines hid config (by decide) (by decide) _

theorem inBlocks_eventLines {base help : String} (hbase : base ∈ instanceFamilies)
    (hhelp : '\n' ∉ help.toList) (value : UInt64) :
    InBlocks [base] (eventLines config resolverId base help value) := by
  rw [eventLines]
  split
  · exact inBlocks_counterLines hid config hbase hhelp _
  · exact inBlocks_nil _

theorem inBlocks_writeEvents (events : EventsSnapshot) :
    InBlocks ["confidence_events_published", "confidence_event_batches_succeeded",
      "confidence_event_batches_failed", "confidence_events_rejected"]
      (writeEvents events resolverId config) := by
  rw [writeEvents, List.append_assoc, List.append_assoc]
  apply InBlocks.cons (inBlocks_eventLines hid config (by decide) (by decide) _)
  apply InBlocks.cons (inBlocks_eventLines hid config (by decide) (by decide) _)
  apply InBlocks.cons (inBlocks_eventLines hid config (by decide) (by decide) _)
  exact inBlocks_eventLines hid config (by decide) (by decide) _

theorem writePrometheus_blocks (upper : Nat → Option ℚ) (s : TelemetrySnapshot) :
    ∃ blocks : List (FamilyBlock String), (∀ b ∈ blocks, b.Proper metricFamily) ∧
      (blocks.map FamilyBlock.family).Nodup ∧
      (s.writePrometheus upper resolverId config).map Line.text =
        blocks.flatMap FamilyBlock.lines ++ if config.openmetrics then [eofLine] else [] := by
  have hblocks := (((((inBlocks_writeHistogram hid config upper s.latency).append
    (inBlocks_writeResolveRates hid config s.resolveRates)).append
    (inBlocks_writeMemory hid config s.memoryBytes)).append
    (inBlocks_writeApplyDedup hid config s.applyDedup)).append
    (inBlocks_writeFlush hid config s.flush)).append
    (inBlocks_writeEvents hid config s.events)
  obtain ⟨blocks, hproper, hsub, heq⟩ :=
    hblocks.append (inBlocks_writeProviderInit hid config s.providerInitRate)
  have hlast : (if config.openmetrics then [Line.comment "# EOF"] else []).map Line.text =
      if config.openmetrics then [eofLine] else [] := by
    split <;> rfl
  refine ⟨blocks, hproper, instanceFamilies_nodup.sublist hsub, ?_⟩
  rw [← heq, ← hlast, ← List.map_append]
  rfl

omit hid in
theorem toPrometheus_eq (upper : Nat → Option ℚ) (s : TelemetrySnapshot) :
    s.toPrometheus upper resolverId config =
      terminated ((s.writePrometheus upper resolverId config).map Line.text) := by
  rw [terminated, List.map_map]
  rfl

/-- **What an instance writes is an exposition.** -/
theorem exposition_toPrometheus (upper : Nat → Option ℚ) (s : TelemetrySnapshot) :
    Exposition metricFamily (s.toPrometheus upper resolverId config) := by
  obtain ⟨blocks, hproper, hnodup, heq⟩ := writePrometheus_blocks hid config upper s
  rw [toPrometheus_eq, heq]
  exact exposition_of_blocks hproper hnodup config.openmetrics

/-- Its lines are those that were written. -/
theorem linesOf_toPrometheus (upper : Nat → Option ℚ) (s : TelemetrySnapshot) :
    linesOf (s.toPrometheus upper resolverId config) =
      (s.writePrometheus upper resolverId config).map Line.text := by
  obtain ⟨blocks, hproper, -, heq⟩ := writePrometheus_blocks hid config upper s
  rw [toPrometheus_eq, heq]
  exact (linesOf_terminated (feed_not_mem_blocks hproper config.openmetrics)).2

/-- Outside OpenMetrics there is nothing but families. -/
theorem isContent_toPrometheus (upper : Nat → Option ℚ) (s : TelemetrySnapshot)
    (hopen : config.openmetrics = false) :
    ∀ line ∈ linesOf (s.toPrometheus upper resolverId config), isContent line = true := by
  obtain ⟨blocks, hproper, -, heq⟩ := writePrometheus_blocks hid config upper s
  rw [linesOf_toPrometheus hid, heq, hopen, if_neg Bool.false_ne_true, List.append_nil]
  intro line hline
  obtain ⟨b, hb, hline⟩ := List.mem_flatMap.mp hline
  exact (hproper b hb).content line hline

end Writers

end ConfidenceResolver
