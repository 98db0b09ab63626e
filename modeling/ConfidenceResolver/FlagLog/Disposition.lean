import ConfidenceResolver.FlagLog.Delivery
import ConfidenceResolver.Logs.Conservation
import Mathlib.Data.List.Flatten

/-!
# FlagLog — what a disposition says

The pieces of a delivery divide the applied flags of the batch, and the other fields of an aggregate
travel on one of its pieces.

* `Accounts`: the pieces of a part of a delivery, and what its outcome says of them.
* `splitFlags_accounts`, `deliverAggregate_accounts`, `deliverAllWithinLimit_accounts`: one for each
  way to split.
* `disposition_sound`: `complete`, `mixed` and `failed`.
-/

namespace ConfidenceResolver

namespace FlagLog

/-! ### What a request carries -/

/-- The fields of a request that are not assignments. -/
structure OtherData where
  telemetryData : Option TelemetryData
  flagResolveInfo : List FlagResolveInfo
  clientResolveInfo : List ClientResolveInfo

/-- The applied flags of an envelope, each with what identifies its resolve. -/
def appliedIn (envelopes : List FlagAssigned) : List (String × Option ClientInfo × AppliedFlag) :=
  envelopes.flatMap fun e => e.flags.map fun flag => (e.resolveId, e.clientInfo, flag)

def applied (request : WriteFlagLogsRequest) : List (String × Option ClientInfo × AppliedFlag) :=
  appliedIn request.flagAssigned

/-- The other data of a request: none, if all three fields are empty. -/
def otherData (request : WriteFlagLogsRequest) : List OtherData :=
  if request.telemetryData.isNone && request.flagResolveInfo.isEmpty &&
      request.clientResolveInfo.isEmpty then []
  else [⟨request.telemetryData, request.flagResolveInfo, request.clientResolveInfo⟩]

/-- A request that carries something. -/
def HasContent (request : WriteFlagLogsRequest) : Prop :=
  applied request ≠ [] ∨ otherData request ≠ []

/-- No envelope is without flags. -/
def NoEmptyEnvelope (request : WriteFlagLogsRequest) : Prop :=
  ∀ e ∈ request.flagAssigned, e.flags ≠ []

def appliedOf (pieces : List Piece) : List (String × Option ClientInfo × AppliedFlag) :=
  pieces.flatMap fun p => applied p.request

def otherDataOf (pieces : List Piece) : List OtherData :=
  pieces.flatMap fun p => otherData p.request

def landed (pieces : List Piece) : List Piece := pieces.filter fun p => p.fate = .accepted

@[simp] theorem appliedIn_append (l l' : List FlagAssigned) :
    appliedIn (l ++ l') = appliedIn l ++ appliedIn l' := List.flatMap_append

@[simp] theorem appliedOf_append (l l' : List Piece) :
    appliedOf (l ++ l') = appliedOf l ++ appliedOf l' := List.flatMap_append

@[simp] theorem otherDataOf_append (l l' : List Piece) :
    otherDataOf (l ++ l') = otherDataOf l ++ otherDataOf l' := List.flatMap_append

@[simp] theorem appliedOf_singleton (p : Piece) : appliedOf [p] = applied p.request :=
  List.flatMap_singleton _ _

@[simp] theorem otherDataOf_singleton (p : Piece) : otherDataOf [p] = otherData p.request :=
  List.flatMap_singleton _ _

/-- An envelope with a flag is content. -/
theorem hasContent_of_envelopes {request : WriteFlagLogsRequest} (h : request.flagAssigned ≠ [])
    (hfull : NoEmptyEnvelope request) : HasContent request := by
  obtain ⟨e, rest, he⟩ := List.exists_cons_of_ne_nil h
  obtain ⟨flag, flags, hflags⟩ :=
    List.exists_cons_of_ne_nil (hfull e (he ▸ List.mem_cons_self))
  left
  rw [applied, he, appliedIn, List.flatMap_cons, hflags]
  exact List.cons_ne_nil _ _

/-! ### A part of a delivery -/

/-- The pieces that carry `flags` and `others`, settled with an outcome.  If the part is `solid`,
each of its pieces carries something. -/
structure Accounts (flags : List (String × Option ClientInfo × AppliedFlag))
    (others : List OtherData) (solid : Prop) (outcome : Delivered) (pieces : List Piece) : Prop where
  pieces_ne : pieces ≠ []
  applied_eq : appliedOf pieces = flags
  others_sublist : (otherDataOf pieces).Sublist others
  others_eq : (∀ p ∈ pieces, p.fate = .accepted) → otherDataOf pieces = others
  ok_iff : 0 < outcome.ok ↔ ∃ p ∈ pieces, p.fate = .accepted
  lost_iff : 0 < outcome.lost ↔ ∃ p ∈ pieces, p.fate ≠ .accepted
  content : solid → ∀ p ∈ pieces, HasContent p.request

variable {flags flags' : List (String × Option ClientInfo × AppliedFlag)}
variable {others others' : List OtherData} {solid solid' : Prop} {a b outcome : Delivered}
variable {pieces pieces' : List Piece}

/-- Two parts, one after the other, under an outcome that has a success or a loss if one of them
has. -/
theorem Accounts.append (h : Accounts flags others solid a pieces)
    (h' : Accounts flags' others' solid' b pieces') {both : Prop} (hboth : both → solid ∧ solid')
    (hok : 0 < outcome.ok ↔ 0 < a.ok ∨ 0 < b.ok)
    (hlost : 0 < outcome.lost ↔ 0 < a.lost ∨ 0 < b.lost) :
    Accounts (flags ++ flags') (others ++ others') both outcome (pieces ++ pieces') where
  pieces_ne := List.append_ne_nil_of_left_ne_nil h.pieces_ne _
  applied_eq := by rw [appliedOf_append, h.applied_eq, h'.applied_eq]
  others_sublist := by
    rw [otherDataOf_append]
    exact h.others_sublist.append h'.others_sublist
  others_eq hall := by
    obtain ⟨hleft, hright⟩ := List.forall_mem_append.mp hall
    rw [otherDataOf_append, h.others_eq hleft, h'.others_eq hright]
  ok_iff := by
    rw [hok, h.ok_iff, h'.ok_iff]
    simp only [List.mem_append, or_and_right, exists_or]
  lost_iff := by
    rw [hlost, h.lost_iff, h'.lost_iff]
    simp only [List.mem_append, or_and_right, exists_or]
  content hsolid := by
    obtain ⟨hleft, hright⟩ := hboth hsolid
    exact List.forall_mem_append.mpr ⟨h.content hleft, h'.content hright⟩

/-- The request that a part delivers. -/
abbrev Accounts.Of (request : WriteFlagLogsRequest) (outcome : Delivered) (pieces : List Piece) :
    Prop :=
  Accounts (applied request) (otherData request) (HasContent request ∧ NoEmptyEnvelope request)
    outcome pieces

/-! ### The outcome of halves -/

theorem splitOutcome_ok {count : Nat} (hcount : 0 < count) (anyOk anyLost : Bool) :
    0 < (splitOutcome anyOk anyLost count).ok ↔ anyOk = true := by
  cases anyOk <;> cases anyLost <;> simp [splitOutcome, Delivered.ofOk, Delivered.ofLost, hcount]

/-- The loss of a split that settled a piece. -/
theorem splitOutcome_lost {count : Nat} (hcount : 0 < count) {anyOk anyLost : Bool}
    (h : anyOk = true ∨ anyLost = true) :
    0 < (splitOutcome anyOk anyLost count).lost ↔ anyLost = true := by
  cases anyOk <;> cases anyLost <;>
    simp [splitOutcome, Delivered.ofOk, Delivered.ofLost, hcount] at h ⊢

/-- A part has a success or a loss. -/
theorem Accounts.settled (h : Accounts flags others solid outcome pieces) :
    0 < outcome.ok ∨ 0 < outcome.lost := by
  obtain ⟨p, ps, hp⟩ := List.exists_cons_of_ne_nil h.pieces_ne
  have hmem : p ∈ pieces := hp ▸ List.mem_cons_self
  by_cases hfate : p.fate = .accepted
  · exact .inl (h.ok_iff.mpr ⟨p, hmem, hfate⟩)
  · exact .inr (h.lost_iff.mpr ⟨p, hmem, hfate⟩)

theorem Accounts.merge (h : Accounts flags others solid a pieces)
    (h' : Accounts flags' others' solid' b pieces') {both : Prop} (hboth : both → solid ∧ solid') :
    Accounts (flags ++ flags') (others ++ others') both (a.merge b) (pieces ++ pieces') :=
  h.append h' hboth Nat.add_pos_iff_pos_or_pos Nat.add_pos_iff_pos_or_pos

theorem Accounts.combine (h : Accounts flags others solid a pieces)
    (h' : Accounts flags' others' solid' b pieces') {both : Prop} (hboth : both → solid ∧ solid')
    {count : Nat} (hcount : 0 < count) :
    Accounts (flags ++ flags') (others ++ others') both (combineHalves a b count)
      (pieces ++ pieces') := by
  refine h.append h' hboth ?_ ?_
  · rw [combineHalves, splitOutcome_ok hcount]
    simp
  · rw [combineHalves, splitOutcome_lost hcount]
    · simp
    · simpa using h.settled.imp .inl .inl

/-! ### A request sent whole, or dropped -/

theorem Accounts.single {request : WriteFlagLogsRequest} {fate : Fate} {count : Nat}
    (hcount : 0 < count) :
    Accounts.Of request (if fate = .accepted then .ofOk count else .ofLost count)
      [⟨request, fate⟩] where
  pieces_ne := List.cons_ne_nil _ _
  applied_eq := appliedOf_singleton _
  others_sublist := (otherDataOf_singleton _).symm ▸ List.Sublist.refl _
  others_eq _ := otherDataOf_singleton _
  ok_iff := by by_cases h : fate = .accepted <;> simp [h, Delivered.ofOk, Delivered.ofLost, hcount]
  lost_iff := by
    by_cases h : fate = .accepted <;> simp [h, Delivered.ofOk, Delivered.ofLost, hcount]
  content hsolid := List.forall_mem_singleton.mpr hsolid.1

theorem deliverWhole_accounts (send : Sender) (history : List Piece)
    (request : WriteFlagLogsRequest) {count : Nat} (hcount : 0 < count) :
    Accounts.Of request (deliverWhole send history request count).1
      (deliverWhole send history request count).2 := Accounts.single hcount

theorem dropped_accounts (request : WriteFlagLogsRequest) {count : Nat} (hcount : 0 < count) :
    Accounts.Of request (.ofLost count) [⟨request, .dropped⟩] :=
  @Accounts.single request .dropped count hcount

/-! ### The flags of one assignment -/

/-- The envelopes that the stack stands for. -/
def stacked (assigned : FlagAssigned) (stack : List (List AppliedFlag)) : List FlagAssigned :=
  stack.map fun flags => { assigned with flags := flags }

/-- The loop divides the flags between its pieces and the stack, and the other data is carried until
a piece is sent. -/
structure Split.Inv (request : WriteFlagLogsRequest) (assigned : FlagAssigned)
    (stack : List (List AppliedFlag)) (s : Split) : Prop where
  applied_eq : appliedOf s.pieces ++ appliedIn (stacked assigned stack) = applied request
  others_eq : otherDataOf s.pieces ++ otherData (s.carry.getD {}) = otherData request
  carried : (∃ p ∈ s.pieces, p.fate ≠ .dropped) → otherData (s.carry.getD {}) = []
  anyOk : s.anyOk = true ↔ ∃ p ∈ s.pieces, p.fate = .accepted
  anyLost : s.anyLost = true ↔ ∃ p ∈ s.pieces, p.fate ≠ .accepted
  content : ∀ p ∈ s.pieces, applied p.request ≠ []

theorem appliedIn_envelope (assigned : FlagAssigned) (flags : List AppliedFlag) :
    appliedIn [{ assigned with flags := flags }] =
      flags.map fun flag => (assigned.resolveId, assigned.clientInfo, flag) :=
  List.flatMap_singleton _ _

theorem appliedIn_stacked_cons (assigned : FlagAssigned) (flags : List AppliedFlag)
    (stack : List (List AppliedFlag)) :
    appliedIn (stacked assigned (flags :: stack)) =
      appliedIn [{ assigned with flags := flags }] ++ appliedIn (stacked assigned stack) :=
  appliedIn_append [_] _

section Loop

variable {request : WriteFlagLogsRequest} {assigned : FlagAssigned}
variable {stack : List (List AppliedFlag)} {envelope : List AppliedFlag} {s : Split}

/-- An empty entry of the stack is passed over. -/
theorem Split.Inv.pop (h : s.Inv request assigned ([] :: stack)) : s.Inv request assigned stack :=
  { h with applied_eq := h.applied_eq }

/-- An entry is halved. -/
theorem Split.Inv.halve (h : s.Inv request assigned (envelope :: stack)) (n : Nat) :
    ({ s with carry := some { s.carry.getD {} with flagAssigned := [] } } : Split).Inv request assigned
      (envelope.take n :: envelope.drop n :: stack) :=
  { h with
    applied_eq := by
      rw [← h.applied_eq]
      simp only [appliedIn_stacked_cons, appliedIn_envelope]
      rw [← List.append_assoc (List.map _ _), ← List.map_append, List.take_append_drop] }

/-- A piece with the flags on top of the stack is settled: it is sent with the carried data, or
dropped without. -/
theorem Split.Inv.settle (h : s.Inv request assigned (envelope :: stack)) (hne : envelope ≠ [])
    {carry : Option WriteFlagLogsRequest} {piece : Piece}
    (hflags : piece.request.flagAssigned = [{ assigned with flags := envelope }])
    (hothers : otherData piece.request ++ otherData (carry.getD {}) = otherData (s.carry.getD {}))
    (hsent : piece.fate ≠ .dropped → otherData (carry.getD {}) = []) :
    (s.settle carry piece).Inv request assigned stack where
  applied_eq := by
    rw [← h.applied_eq, appliedIn_stacked_cons, ← hflags]
    simp only [Split.settle, appliedOf_append, appliedOf_singleton, applied, List.append_assoc]
  others_eq := by
    rw [← h.others_eq, ← hothers]
    simp only [Split.settle, otherDataOf_append, otherDataOf_singleton, List.append_assoc]
  carried := by
    rintro ⟨p, hp, hfate⟩
    obtain hp | hp := List.mem_append.mp hp
    · -- after a piece was sent there is nothing left to carry
      have hnil := h.carried ⟨p, hp, hfate⟩
      rw [hnil] at hothers
      exact (List.append_eq_nil_iff.mp hothers).2
    · exact hsent (List.mem_singleton.mp hp ▸ hfate)
  anyOk := by simp [Split.settle, h.anyOk, or_and_right, exists_or]
  anyLost := by simp [Split.settle, h.anyLost, or_and_right, exists_or]
  content := by
    refine List.forall_mem_append.mpr ⟨h.content, List.forall_mem_singleton.mpr ?_⟩
    rw [applied, hflags, appliedIn_envelope]
    exact List.map_eq_nil_iff.not.mpr hne

/-- The loop keeps the invariant, down to the empty stack. -/
theorem Split.Inv.splitFlags (sizes : DeliverySizes) (send : Sender) (history : List Piece) :
    ∀ {stack : List (List AppliedFlag)} {s : Split}, s.Inv request assigned stack →
      (splitFlags sizes send history assigned stack s).Inv request assigned [] := by
  intro stack s
  induction stack, s using splitFlags.induct sizes send history assigned with
  | case1 s =>
      intro h
      rwa [FlagLog.splitFlags]
  | case2 s stack ih =>
      intro h
      rw [FlagLog.splitFlags, if_pos rfl]
      exact ih h.pop
  | case3 s flags stack hne envelope piece hsize ih =>
      intro h
      rw [FlagLog.splitFlags, if_neg hne]
      simp only
      rw [if_pos hsize]
      refine ih (h.settle hne rfl ?_ fun _ => rfl)
      exact List.append_nil _
  | case4 s flags stack hne envelope piece hsize carry hlong ih =>
      intro h
      rw [FlagLog.splitFlags, if_neg hne]
      simp only
      rw [if_neg hsize, if_pos hlong]
      exact ih (h.halve _)
  | case5 s flags stack hne envelope piece hsize carry hshort ih =>
      intro h
      rw [FlagLog.splitFlags, if_neg hne]
      simp only
      rw [if_neg hsize, if_neg hshort]
      exact ih (h.settle hne rfl rfl fun hsent => absurd rfl hsent)

end Loop

/-- **The flags of one assignment**: each is on one piece. -/
theorem splitFlags_accounts (sizes : DeliverySizes) (send : Sender) (history : List Piece)
    {request : WriteFlagLogsRequest} {assigned : FlagAssigned} {count : Nat} (hcount : 0 < count)
    (hassigned : request.flagAssigned = [assigned]) (hflags : assigned.flags ≠ []) :
    Accounts.Of request (deliverBySplittingFlags sizes send history request assigned count).1
      (deliverBySplittingFlags sizes send history request assigned count).2 := by
  have hstart : ({ carry := some { request with flagAssigned := [] } } : Split).Inv request assigned
      [assigned.flags] :=
    { applied_eq := by rw [applied, hassigned]; rfl
      others_eq := rfl
      carried := fun ⟨_, hp, _⟩ => absurd hp List.not_mem_nil
      anyOk := by simp
      anyLost := by simp
      content := fun _ hp => absurd hp List.not_mem_nil }
  have hend := hstart.splitFlags sizes send history
  generalize hs : splitFlags sizes send history assigned [assigned.flags]
    { carry := some { request with flagAssigned := [] } } = s at hend
  rw [deliverBySplittingFlags, hs]
  have happlied : appliedOf s.pieces = applied request := by
    rw [← hend.applied_eq]
    exact (List.append_nil _).symm
  -- there are flags, so there are pieces, and each has a fate
  have hne : s.pieces ≠ [] := by
    intro hnil
    rw [hnil, applied, hassigned] at happlied
    exact hflags (List.map_eq_nil_iff.mp (happlied.trans (appliedIn_envelope assigned _)).symm)
  obtain ⟨p, ps, hp⟩ := List.exists_cons_of_ne_nil hne
  have hmem : p ∈ s.pieces := hp ▸ List.mem_cons_self
  have hany : s.anyOk = true ∨ s.anyLost = true := by
    by_cases hfate : p.fate = .accepted
    · exact .inl (hend.anyOk.mpr ⟨p, hmem, hfate⟩)
    · exact .inr (hend.anyLost.mpr ⟨p, hmem, hfate⟩)
  exact
    { pieces_ne := hne
      applied_eq := happlied
      others_sublist := hend.others_eq ▸ List.sublist_append_left _ _
      others_eq := fun hall => by
        have hsent : ∃ p ∈ s.pieces, p.fate ≠ .dropped :=
          ⟨p, hmem, fun hdropped => nomatch hdropped.symm.trans (hall p hmem)⟩
        rw [← hend.others_eq, hend.carried hsent, List.append_nil]
      ok_iff := (splitOutcome_ok hcount _ _).trans hend.anyOk
      lost_iff := (splitOutcome_lost hcount hany).trans hend.anyLost
      content := fun _ p hp => .inl (hend.content p hp) }

/-! ### An aggregate -/

/-- The head of an aggregate keeps the other data, and the tail has none. -/
theorem halves_carry (request : WriteFlagLogsRequest) (n : Nat) :
    applied { request with flagAssigned := request.flagAssigned.take n } ++
        applied { flagAssigned := request.flagAssigned.drop n } = applied request ∧
      otherData { request with flagAssigned := request.flagAssigned.take n } ++
        otherData { flagAssigned := request.flagAssigned.drop n } = otherData request := by
  constructor
  · simp only [applied, ← appliedIn_append, List.take_append_drop]
  · exact List.append_nil _

/-- Both halves of an aggregate have an envelope. -/
theorem halves_solid {request : WriteFlagLogsRequest} (hlong : 1 < request.flagAssigned.length)
    (hfull : NoEmptyEnvelope request) :
    let half := request.flagAssigned.length / 2
    let head := { request with flagAssigned := request.flagAssigned.take half }
    let tail : WriteFlagLogsRequest := { flagAssigned := request.flagAssigned.drop half }
    (HasContent head ∧ NoEmptyEnvelope head) ∧ HasContent tail ∧ NoEmptyEnvelope tail := by
  intro half head tail
  have hhead : NoEmptyEnvelope head := fun e he => hfull e (List.mem_of_mem_take he)
  have htail : NoEmptyEnvelope tail := fun e he => hfull e (List.mem_of_mem_drop he)
  refine ⟨⟨hasContent_of_envelopes ?_ hhead, hhead⟩, hasContent_of_envelopes ?_ htail, htail⟩
  · refine List.ne_nil_of_length_pos ?_
    rw [List.length_take]
    omega
  · refine List.ne_nil_of_length_pos ?_
    rw [List.length_drop]
    omega

/-- **An aggregate**: its pieces divide what it carries, however it is split. -/
theorem deliverAggregate_accounts (sizes : DeliverySizes) (send : Sender) (history : List Piece)
    (request : WriteFlagLogsRequest) {count : Nat} (hcount : 0 < count) :
    Accounts.Of request (deliverAggregate sizes send history request count).1
      (deliverAggregate sizes send history request count).2 := by
  -- by the branches of the source: sent whole, halved, split by its flags, or dropped
  induction history, request, count using deliverAggregate.induct sizes send with
  | case1 history request count size hsize =>
      rw [deliverAggregate, if_pos hsize]
      exact deliverWhole_accounts send history request hcount
  | case2 history request count size hsize hroom =>
      rw [deliverAggregate, if_neg hsize, if_pos hroom]
      exact deliverWhole_accounts send history request hcount
  | case3 history request count size hsize hroom hlong half head tail hone a iha _ ihb =>
      rw [deliverAggregate, if_neg hsize, if_neg hroom, if_pos hlong, if_pos hone]
      obtain ⟨happlied, hothers⟩ := halves_carry request half
      have hboth (hsolid : HasContent request ∧ NoEmptyEnvelope request) :=
        halves_solid hlong hsolid.2
      have h := (iha hcount).combine (ihb hcount) hboth hcount
      rwa [happlied, hothers] at h
  | case4 history request count size hsize hroom hlong half head tail hone headCount a iha _ ihb =>
      rw [deliverAggregate, if_neg hsize, if_neg hroom, if_pos hlong, if_neg hone]
      obtain ⟨happlied, hothers⟩ := halves_carry request half
      have hhead : 0 < headCount := by omega
      have htail : 0 < count - headCount := by omega
      have hboth (hsolid : HasContent request ∧ NoEmptyEnvelope request) :=
        halves_solid hlong hsolid.2
      have h := (iha hhead).merge (ihb htail) hboth
      rwa [happlied, hothers] at h
  | case5 history request count size hsize hroom hshort assigned hassigned hmany =>
      rw [deliverAggregate, if_neg hsize, if_neg hroom, if_neg hshort, hassigned]
      simp only
      rw [if_pos hmany]
      exact splitFlags_accounts sizes send history hcount hassigned
        (List.ne_nil_of_length_pos (Nat.lt_trans Nat.one_pos hmany))
  | case6 history request count size hsize hroom hshort assigned hassigned hfew =>
      rw [deliverAggregate, if_neg hsize, if_neg hroom, if_neg hshort, hassigned]
      simp only
      rw [if_neg hfew]
      exact dropped_accounts request hcount
  | case7 history request count size hsize hroom hshort hother =>
      rw [deliverAggregate, if_neg hsize, if_neg hroom, if_neg hshort]
      split
      · exact absurd ‹_› (hother _)
      · exact dropped_accounts request hcount

/-! ### What an aggregate carries -/

theorem otherData_ne_nil {request : WriteFlagLogsRequest} :
    otherData request ≠ [] ↔ request.telemetryData ≠ none ∨ request.flagResolveInfo ≠ [] ∨
      request.clientResolveInfo ≠ [] := by
  rw [otherData]
  cases request.telemetryData <;> cases request.flagResolveInfo <;>
    cases request.clientResolveInfo <;> simp

/-- An accumulator that gives the result some other data. -/
def Carries (a : Aggregation) : Prop :=
  a.aggTelemetry ≠ none ∨ a.flagResolveMap.entries ≠ [] ∨ a.schemaMap.entries ≠ []

theorem Carries.add {a : Aggregation} {log : WriteFlagLogsRequest}
    (h : Carries a ∨ otherData log ≠ []) : Carries (a.add log) := by
  rw [otherData_ne_nil] at h
  obtain (h | h | h) | h | h | h := h
  · left
    rw [Aggregation.add]
    cases log.telemetryData
    · exact h
    · exact Option.some_ne_none _
  · exact .inr (.inl (HashMap.foldl_insert_ne_nil _ _ _ _ (.inl h)))
  · exact .inr (.inr (HashMap.foldl_insert_ne_nil _ _ _ _ (.inl h)))
  · left
    obtain ⟨td, htd⟩ := Option.ne_none_iff_exists'.mp h
    rw [Aggregation.add, htd]
    exact Option.some_ne_none _
  · exact .inr (.inl (HashMap.foldl_insert_ne_nil _ _ _ _ (.inr h)))
  · exact .inr (.inr (HashMap.foldl_insert_ne_nil _ _ _ _ (.inr h)))

theorem Carries.foldl {logs : List WriteFlagLogsRequest} : ∀ {a : Aggregation},
    (Carries a ∨ ∃ log ∈ logs, otherData log ≠ []) → Carries (logs.foldl Aggregation.add a) := by
  induction logs with
  | nil =>
      rintro a (h | ⟨log, hlog, -⟩)
      · exact h
      · exact absurd hlog List.not_mem_nil
  | cons log logs ih =>
      rintro a (h | ⟨log', hlog', h⟩)
      · exact ih (.inl (.add (.inl h)))
      · obtain rfl | hlog' := List.mem_cons.mp hlog'
        · exact ih (.inl (.add (.inr h)))
        · exact ih (.inr ⟨log', hlog', h⟩)

/-- An aggregate of a record with other data has other data. -/
theorem otherData_aggregate {logs : List WriteFlagLogsRequest}
    (h : ∃ log ∈ logs, otherData log ≠ []) : otherData (aggregateBatch logs) ≠ [] := by
  rw [otherData_ne_nil]
  obtain htelemetry | hflags | hschemas := Carries.foldl (a := {}) (.inr h)
  · left
    obtain ⟨td, htd⟩ := Option.ne_none_iff_exists'.mp htelemetry
    simp [aggregateBatch, Aggregation.result, Aggregation.telemetryData, htd]
  · exact .inr (.inl (List.map_eq_nil_iff.not.mpr hflags))
  · exact .inr (.inr (List.map_eq_nil_iff.not.mpr hschemas))

theorem applied_aggregate (logs : List WriteFlagLogsRequest) :
    applied (aggregateBatch logs) = logs.flatMap applied := by
  rw [applied, flagAssigned_aggregate, appliedIn, List.flatMap_assoc]
  rfl

/-- Each record carries something, and has no envelope without flags. -/
def Substantial (logs : List WriteFlagLogsRequest) : Prop :=
  ∀ log ∈ logs, HasContent log ∧ NoEmptyEnvelope log

theorem Substantial.aggregate {logs : List WriteFlagLogsRequest} (h : Substantial logs)
    (hne : logs ≠ []) : HasContent (aggregateBatch logs) ∧ NoEmptyEnvelope (aggregateBatch logs) := by
  obtain ⟨log, rest, hlog⟩ := List.exists_cons_of_ne_nil hne
  have hmem : log ∈ logs := hlog ▸ List.mem_cons_self
  constructor
  · obtain happlied | hother := (h log hmem).1
    · left
      rw [applied_aggregate]
      intro hnil
      exact happlied (List.flatMap_eq_nil_iff.mp hnil log hmem)
    · exact .inr (otherData_aggregate ⟨log, hmem, hother⟩)
  · intro e he
    rw [flagAssigned_aggregate] at he
    obtain ⟨log, hlog, he⟩ := List.mem_flatMap.mp he
    exact (h log hlog).2 e he

/-! ### A batch -/

/-- The chunks of a batch that are aggregated. -/
def chunks (sizes : DeliverySizes) (logs : List WriteFlagLogsRequest) :
    List (List WriteFlagLogsRequest) :=
  if logs = [] then []
  else if halved sizes logs then
    chunks sizes (logs.take (logs.length / 2)) ++ chunks sizes (logs.drop (logs.length / 2))
  else [logs]
termination_by logs.length
decreasing_by
  all_goals
    rename_i h
    have := h.2
    simp only [List.length_take, List.length_drop]
    omega

/-- The other data of a batch: that of the aggregates of its chunks. -/
def batchData (sizes : DeliverySizes) (logs : List WriteFlagLogsRequest) : List OtherData :=
  (chunks sizes logs).flatMap fun chunk => otherData (aggregateBatch chunk)

/-- **A batch**: its pieces divide its applied flags and the other data of its chunks. -/
theorem deliverAllWithinLimit_accounts (sizes : DeliverySizes) (send : Sender)
    (history : List Piece) (logs : List WriteFlagLogsRequest) (hne : logs ≠ []) :
    Accounts (logs.flatMap applied) (batchData sizes logs) (Substantial logs)
      (deliverAllWithinLimit sizes send history logs).1
      (deliverAllWithinLimit sizes send history logs).2 := by
  induction history, logs using deliverAllWithinLimit.induct sizes send with
  | case1 history => exact absurd rfl hne
  | case2 history logs hne hhalved a ihhead ihtail =>
      have hlong : 1 < logs.length := hhalved.2
      have hhead : logs.take (logs.length / 2) ≠ [] := by
        refine List.ne_nil_of_length_pos ?_
        rw [List.length_take]
        omega
      have htail : logs.drop (logs.length / 2) ≠ [] := by
        refine List.ne_nil_of_length_pos ?_
        rw [List.length_drop]
        omega
      have hsolid (h : Substantial logs) : Substantial (logs.take (logs.length / 2)) ∧
          Substantial (logs.drop (logs.length / 2)) :=
        ⟨fun log hlog => h log (List.mem_of_mem_take hlog),
          fun log hlog => h log (List.mem_of_mem_drop hlog)⟩
      have h := (ihhead hhead).merge (ihtail htail) hsolid
      rw [deliverAllWithinLimit, if_neg hne, if_pos hhalved, batchData, chunks, if_neg hne,
        if_pos hhalved, List.flatMap_append]
      rwa [← List.flatMap_append, List.take_append_drop] at h
  | case3 history logs hne hwhole =>
      rw [deliverAllWithinLimit, if_neg hne, if_neg hwhole, batchData, chunks, if_neg hne,
        if_neg hwhole, List.flatMap_singleton, ← applied_aggregate]
      have h := deliverAggregate_accounts sizes send history (aggregateBatch logs)
        (List.length_pos_of_ne_nil hne)
      exact { h with content := fun hsolid => h.content (hsolid.aggregate hne) }

/-! ### The disposition -/

theorem ackDecision_complete {outcome : Delivered} :
    ackDecision outcome = .complete ↔ ¬ 0 < outcome.lost := by
  rw [ackDecision]
  by_cases hlost : 0 < outcome.lost <;> by_cases hok : 0 < outcome.ok <;> simp [hlost, hok]

theorem ackDecision_failed {outcome : Delivered} :
    ackDecision outcome = .failed ↔ 0 < outcome.lost ∧ ¬ 0 < outcome.ok := by
  rw [ackDecision]
  by_cases hlost : 0 < outcome.lost <;> by_cases hok : 0 < outcome.ok <;> simp [hlost, hok]

theorem ackDecision_mixed {outcome : Delivered} :
    ackDecision outcome = .mixed ↔
      ackDecision outcome ≠ .complete ∧ ackDecision outcome ≠ .failed := by
  cases ackDecision outcome <;> simp

/-- Everything was on a piece that was accepted. -/
def Covers (flags : List (String × Option ClientInfo × AppliedFlag)) (others : List OtherData)
    (pieces : List Piece) : Prop :=
  appliedOf (landed pieces) = flags ∧ otherDataOf (landed pieces) = others

theorem landed_sublist (pieces : List Piece) : (landed pieces).Sublist pieces :=
  List.filter_sublist

/-- What a filter leaves out adds nothing, if nothing is missing. -/
theorem eq_nil_of_filter_flatMap {A B : Type} {f : A → List B} {p : A → Bool} {l : List A}
    (h : (l.filter p).flatMap f = l.flatMap f) {a : A} (ha : a ∈ l) (hp : p a = false) :
    f a = [] := by
  induction l with
  | nil => exact absurd ha List.not_mem_nil
  | cons b l ih =>
      have hlen : ((l.filter p).flatMap f).length ≤ (l.flatMap f).length :=
        (List.filter_sublist.flatMap f).length_le
      by_cases hb : p b = true
      · rw [List.filter_cons_of_pos hb, List.flatMap_cons, List.flatMap_cons] at h
        obtain rfl | ha := List.mem_cons.mp ha
        · exact absurd (hb.symm.trans hp) Bool.noConfusion
        · exact ih (List.append_cancel_left h) ha
      · rw [List.filter_cons_of_neg hb, List.flatMap_cons] at h
        have hsum := congrArg List.length h
        rw [List.length_append] at hsum
        have hnil : f b = [] := List.eq_nil_of_length_eq_zero (by omega)
        obtain rfl | ha := List.mem_cons.mp ha
        · exact hnil
        · exact ih (by rw [h, hnil, List.nil_append]) ha

namespace Accounts

theorem complete_iff (h : Accounts flags others solid outcome pieces) :
    ackDecision outcome = .complete ↔ ∀ p ∈ pieces, p.fate = .accepted := by
  rw [ackDecision_complete, h.lost_iff]
  simp

theorem failed_iff (h : Accounts flags others solid outcome pieces) :
    ackDecision outcome = .failed ↔ landed pieces = [] := by
  rw [ackDecision_failed, h.ok_iff, landed, List.filter_eq_nil_iff]
  simp only [not_exists, not_and, decide_eq_true_eq]
  refine ⟨fun hall => hall.2, fun hall => ⟨?_, hall⟩⟩
  exact h.settled.resolve_left fun hok =>
    let ⟨p, hp, hfate⟩ := h.ok_iff.mp hok
    hall p hp hfate

/-- With every piece accepted, everything has landed. -/
theorem covers (h : Accounts flags others solid outcome pieces)
    (hall : ∀ p ∈ pieces, p.fate = .accepted) : Covers flags others pieces := by
  have hlanded : landed pieces = pieces :=
    List.filter_eq_self.mpr fun p hp => decide_eq_true (hall p hp)
  rw [Covers, hlanded]
  exact ⟨h.applied_eq, h.others_eq hall⟩

/-- If everything has landed then every piece was accepted: a piece that was not has carried
something. -/
theorem all_accepted (h : Accounts flags others solid outcome pieces) (hsolid : solid)
    (hcovers : Covers flags others pieces) : ∀ p ∈ pieces, p.fate = .accepted := by
  intro p hp
  by_contra hfate
  have hdata : otherDataOf (landed pieces) = otherDataOf pieces := by
    refine ((landed_sublist pieces).flatMap _).eq_of_length_le ?_
    exact (congrArg List.length hcovers.2).symm ▸ h.others_sublist.length_le
  obtain happlied | hother := h.content hsolid p hp
  · exact happlied (eq_nil_of_filter_flatMap (hcovers.1.trans h.applied_eq.symm) hp
      (decide_eq_false hfate))
  · exact hother (eq_nil_of_filter_flatMap hdata hp (decide_eq_false hfate))

end Accounts

/-- The consumer acknowledges a batch if and only if its disposition is `complete`. -/
theorem consume_ok_iff (sizes : DeliverySizes) (send : Sender)
    (messages : List (Option WriteFlagLogsRequest)) (dedup : Bool) (nowSeconds : Int64) :
    (consume sizes send (some messages) dedup nowSeconds).1 = .ok () ↔
      ackDecision (deliverAllWithinLimit sizes send [] (batchLogs messages dedup nowSeconds)).1 =
        .complete := by
  rw [consume]
  simp only
  cases ackDecision
    (deliverAllWithinLimit sizes send [] (batchLogs messages dedup nowSeconds)).1 <;> simp

/-- **The disposition is sound**: `failed` if and only if no piece was accepted; `complete` only if
everything was, and no applied flag more than once.  For records that each carry something,
`complete` if and only if everything was accepted, and `mixed` in all other cases. -/
theorem disposition_sound (sizes : DeliverySizes) (send : Sender)
    (logs : List WriteFlagLogsRequest) (hne : logs ≠ []) :
    let outcome := (deliverAllWithinLimit sizes send [] logs).1
    let pieces := (deliverAllWithinLimit sizes send [] logs).2
    let covered := Covers (logs.flatMap applied) (batchData sizes logs) pieces
    (ackDecision outcome = .failed ↔ landed pieces = []) ∧
      (ackDecision outcome = .complete → covered) ∧
      (appliedOf (landed pieces)).Sublist (logs.flatMap applied) ∧
      (Substantial logs →
        (ackDecision outcome = .complete ↔ covered) ∧
        (ackDecision outcome = .mixed ↔ ¬ covered ∧ landed pieces ≠ [])) := by
  have h := deliverAllWithinLimit_accounts sizes send [] logs hne
  generalize deliverAllWithinLimit sizes send [] logs = result at h ⊢
  obtain ⟨outcome, pieces⟩ := result
  refine ⟨h.failed_iff, fun hcomplete => h.covers (h.complete_iff.mp hcomplete), ?_, ?_⟩
  · rw [← h.applied_eq]
    exact (landed_sublist pieces).flatMap _
  · intro hsolid
    have hcomplete : ackDecision outcome = .complete ↔
        Covers (logs.flatMap applied) (batchData sizes logs) pieces :=
      h.complete_iff.trans ⟨h.covers, h.all_accepted hsolid⟩
    refine ⟨hcomplete, ?_⟩
    rw [ackDecision_mixed, Ne, hcomplete, Ne, h.failed_iff]

/-! ### A batch with an empty record -/

theorem maxBufferBytes_le_word : maxBufferBytes ≤ 2 ^ 32 - 1 := by decide

/-- The sizes of records that differ in their targeting keys only. -/
def keySizes : DeliverySizes where
  usizeMax := 2 ^ 32 - 1
  encodedLen log := min (((applied log).map fun a => a.2.2.targetingKey.length).sum) (2 ^ 32 - 1)
  encodedLen_le _ := Nat.min_le_right _ _
  maxBufferBytes_le := maxBufferBytes_le_word
  jsonLen log := some (2 + ((applied log).map fun a => a.2.2.targetingKey.length).sum)

/-- A record of one flag, applied for a targeting key. -/
def keyRecord (key : String) : WriteFlagLogsRequest :=
  { flagAssigned := [⟨"r", none, [⟨"flags/f", key, "id", "", "", [], none, none⟩]⟩] }

/-- A backend that takes what carries an applied flag. -/
def refusesEmpty : Sender := fun _ request => request.flagAssigned ≠ []

/-- A chunk of small size is sent whole. -/
theorem deliverAllWithinLimit_whole {sizes : DeliverySizes} {logs : List WriteFlagLogsRequest}
    (send : Sender) (history : List Piece) (hne : logs ≠ []) (hwhole : ¬ halved sizes logs)
    (hsize : sizes.size (aggregateBatch logs) ≤ maxDeliveryBytes) :
    deliverAllWithinLimit sizes send history logs =
      deliverWhole send history (aggregateBatch logs) logs.length := by
  rw [deliverAllWithinLimit, if_neg hne, if_neg hwhole, deliverAggregate, if_pos hsize]

/-- A chunk that is too large goes in halves. -/
theorem deliverAllWithinLimit_halved {sizes : DeliverySizes} {logs : List WriteFlagLogsRequest}
    (send : Sender) (history : List Piece) (hne : logs ≠ []) (hhalved : halved sizes logs) :
    deliverAllWithinLimit sizes send history logs =
      let a := deliverAllWithinLimit sizes send history (logs.take (logs.length / 2))
      let b := deliverAllWithinLimit sizes send (history ++ a.2) (logs.drop (logs.length / 2))
      (a.1.merge b.1, a.2 ++ b.2) := by
  conv => lhs; rw [deliverAllWithinLimit, if_neg hne, if_pos hhalved]

/-- The sizes of records of half a mebibyte for each applied flag. -/
def flagSizes : DeliverySizes where
  usizeMax := 2 ^ 32 - 1
  encodedLen log := min (2 ^ 19 * (applied log).length) (2 ^ 32 - 1)
  encodedLen_le _ := Nat.min_le_right _ _
  maxBufferBytes_le := maxBufferBytes_le_word
  jsonLen log := some (2 + 2 ^ 19 * (applied log).length)

/-- A backend that refuses the applied flags of one key. -/
def refusesKey (key : String) : Sender := fun _ request =>
  (applied request).all fun a => a.2.2.targetingKey ≠ key

/-- A batch that is halved twice, and the middle record refused. -/
theorem disposition_sound_sample :
    let logs := [keyRecord "a", keyRecord "b", keyRecord "c"]
    let outcome := (deliverAllWithinLimit flagSizes (refusesKey "b") [] logs).1
    let pieces := (deliverAllWithinLimit flagSizes (refusesKey "b") [] logs).2
    ackDecision outcome = .mixed ∧
      ¬ Covers (logs.flatMap applied) (batchData flagSizes logs) pieces ∧
      (appliedOf (landed pieces)).map (·.2.2.targetingKey) = ["a", "c"] := by
  intro logs outcome pieces
  have hwhole (key : String) (history : List Piece) :
      deliverAllWithinLimit flagSizes (refusesKey "b") history [keyRecord key] =
        deliverWhole (refusesKey "b") history (aggregateBatch [keyRecord key]) 1 := by
    refine deliverAllWithinLimit_whole _ _ (List.cons_ne_nil _ _)
      (fun h => absurd h.2 (Nat.lt_irrefl 1)) ?_
    have hone : (applied (aggregateBatch [keyRecord key])).length = 1 := rfl
    rw [DeliverySizes.size, flagSizes, Option.getD_some, hone]
    decide
  have htail (history : List Piece) : deliverAllWithinLimit flagSizes (refusesKey "b") history
      [keyRecord "b", keyRecord "c"] =
        (⟨1, 1⟩, [⟨aggregateBatch [keyRecord "b"], .refused⟩,
          ⟨aggregateBatch [keyRecord "c"], .accepted⟩]) := by
    rw [deliverAllWithinLimit_halved _ _ (List.cons_ne_nil _ _) (by decide)]
    simp only [List.length_cons, List.length_nil, Nat.reduceAdd, Nat.reduceDiv, List.take_succ_cons,
      List.take_zero, List.drop_succ_cons, List.drop_zero, hwhole]
    rfl
  have hresult : deliverAllWithinLimit flagSizes (refusesKey "b") [] logs =
      (⟨2, 1⟩, [⟨aggregateBatch [keyRecord "a"], .accepted⟩,
        ⟨aggregateBatch [keyRecord "b"], .refused⟩,
        ⟨aggregateBatch [keyRecord "c"], .accepted⟩]) := by
    rw [deliverAllWithinLimit_halved _ _ (List.cons_ne_nil _ _) (by decide)]
    simp only [List.length_cons, List.length_nil, Nat.reduceAdd, Nat.reduceDiv,
      List.take_succ_cons, List.take_zero, List.drop_succ_cons, List.drop_zero, hwhole, htail]
    rfl
  have hmixed : ackDecision outcome = .mixed := by
    rw [show outcome = ⟨2, 1⟩ from congrArg Prod.fst hresult]
    rfl
  have hsolid : Substantial logs := by
    intro log hlog
    simp only [logs, List.mem_cons, List.not_mem_nil, or_false] at hlog
    rcases hlog with rfl | rfl | rfl <;>
      exact ⟨.inl (List.cons_ne_nil _ _), List.forall_mem_singleton.mpr (List.cons_ne_nil _ _)⟩
  have hsound := disposition_sound flagSizes (refusesKey "b") logs (List.cons_ne_nil _ _)
  refine ⟨hmixed, ((hsound.2.2.2 hsolid).2.mp hmixed).1, ?_⟩
  rw [show pieces = _ from congrArg Prod.snd hresult]
  decide

/-- A batch of a record that is sent alone and of an empty one. -/
theorem mixed_of_heavy {key : String} (hheavy : protoChunkBytes < key.length)
    (hlight : 2 + key.length ≤ maxDeliveryBytes) :
    let logs := [keyRecord key, {}]
    let result := deliverAllWithinLimit keySizes refusesEmpty [] logs
    Covers (logs.flatMap applied) (batchData keySizes logs) result.2 ∧
      ackDecision result.1 = .mixed := by
  have hmax : key.length < 2 ^ 32 - 1 := Nat.lt_of_le_of_lt (Nat.le_of_add_left_le hlight) (by decide)
  have hencoded : keySizes.encodedLen (keyRecord key) = key.length :=
    Nat.min_eq_left (Nat.le_of_lt hmax)
  have hempty : keySizes.encodedLen {} = 0 := by decide
  have hhalved : halved keySizes [keyRecord key, {}] := by
    refine ⟨?_, Nat.one_lt_two⟩
    have hsum : ([keyRecord key, {}].map keySizes.encodedLen).sum = key.length := by
      simp [hencoded, hempty]
    have hmod : key.length % (keySizes.usizeMax + 1) = key.length :=
      Nat.mod_eq_of_lt (Nat.lt_succ_of_lt hmax)
    rw [hsum, hmod]
    exact hheavy
  have hsingle (log : WriteFlagLogsRequest) : ¬ halved keySizes [log] := fun h =>
    absurd h.2 (Nat.lt_irrefl 1)
  have hfirst : deliverAllWithinLimit keySizes refusesEmpty [] [keyRecord key] =
      deliverWhole refusesEmpty [] (aggregateBatch [keyRecord key]) 1 :=
    deliverAllWithinLimit_whole _ _ (List.cons_ne_nil _ _) (hsingle _) hlight
  have hsecond (history : List Piece) : deliverAllWithinLimit keySizes refusesEmpty history [{}] =
      deliverWhole refusesEmpty history (aggregateBatch [{}]) 1 :=
    deliverAllWithinLimit_whole _ _ (List.cons_ne_nil _ _) (hsingle _) (by decide)
  have hchunks : chunks keySizes [keyRecord key, {}] = [[keyRecord key], [{}]] := by
    rw [chunks, if_neg (List.cons_ne_nil _ _), if_pos hhalved]
    simp [chunks, hsingle]
  have hresult : deliverAllWithinLimit keySizes refusesEmpty [] [keyRecord key, {}] =
      (⟨1, 1⟩, [⟨aggregateBatch [keyRecord key], .accepted⟩, ⟨aggregateBatch [{}], .refused⟩]) := by
    rw [deliverAllWithinLimit, if_neg (List.cons_ne_nil _ _), if_pos hhalved]
    have hhead : [keyRecord key, {}].take ([keyRecord key, {}].length / 2) = [keyRecord key] := by
      simp
    have htail : [keyRecord key, {}].drop ([keyRecord key, {}].length / 2) = [{}] := by simp
    simp only [hhead, htail, hfirst, hsecond]
    rfl
  intro logs result
  rw [show result = _ from hresult, show logs = [keyRecord key, {}] from rfl, batchData, hchunks]
  exact ⟨⟨rfl, rfl⟩, rfl⟩

/-- **Empty records**: all that a batch carries has landed, and an empty record that is refused
makes the outcome `mixed`. -/
theorem empty_record_refused :
    let logs := [keyRecord (String.ofList (List.replicate 800000 'k')), {}]
    let result := deliverAllWithinLimit keySizes refusesEmpty [] logs
    Covers (logs.flatMap applied) (batchData keySizes logs) result.2 ∧
      ackDecision result.1 = .mixed := by
  have hlength : (String.ofList (List.replicate 800000 'k')).length = 800000 := by
    rw [String.length_ofList, List.length_replicate]
  exact mixed_of_heavy (by rw [hlength]; decide) (by rw [hlength]; decide)

end FlagLog

end ConfidenceResolver
