import Mathlib.Data.List.Forall2
import ConfidenceResolver.FlagLog.Delivery

/-!
# FlagLog — what splitting reaches

What an upstream gets that accepts every piece.  The other data of an aggregate travels with the
flags of its first envelope until a piece is sent, and pulls each flag that is tried before over the
limit.

* `items`: what a request carries, each item as a request of its own.
* `missing`: the items that fit alone and are lost.
* `deliverAggregate_conserves`: what has landed and what is missing make up what fits.
* `splitting_reaches_iff`: all that fits lands if and only if the other data gets through with the
  first flag that fits alone (`lead`), or neither has an item that fits.
-/

namespace ConfidenceResolver

namespace FlagLog

/-! ### Items -/

/-- The applied flags of an envelope, each alone in it, or the envelope if it has none. -/
def envelopeItems (e : FlagAssigned) : List WriteFlagLogsRequest :=
  if e.flags = [] then [{ flagAssigned := [e] }]
  else e.flags.map fun flag => { flagAssigned := [{ e with flags := [flag] }] }

/-- The items that are not assignments. -/
def otherItems (request : WriteFlagLogsRequest) : List WriteFlagLogsRequest :=
  request.telemetryData.toList.map (fun telemetry => { telemetryData := some telemetry }) ++
    request.flagResolveInfo.map (fun info => { flagResolveInfo := [info] }) ++
    request.clientResolveInfo.map fun info => { clientResolveInfo := [info] }

/-- What a request carries, each item as a request of its own. -/
def items (request : WriteFlagLogsRequest) : List WriteFlagLogsRequest :=
  otherItems request ++ request.flagAssigned.flatMap envelopeItems

/-- The flags of one envelope as items. -/
def flagItems (e : FlagAssigned) (flags : List AppliedFlag) : List WriteFlagLogsRequest :=
  flags.map fun flag => { flagAssigned := [{ e with flags := [flag] }] }

theorem flagItems_append (e : FlagAssigned) (flags flags' : List AppliedFlag) :
    flagItems e (flags ++ flags') = flagItems e flags ++ flagItems e flags' := List.map_append

/-- The items on the pieces that were accepted. -/
def landedItems (pieces : List Piece) : List WriteFlagLogsRequest :=
  (pieces.filter fun p => p.fate = .accepted).flatMap fun p => items p.request

@[simp] theorem landedItems_append (l l' : List Piece) :
    landedItems (l ++ l') = landedItems l ++ landedItems l' := by
  rw [landedItems, List.filter_append, List.flatMap_append]
  rfl

theorem landedItems_accepted (request : WriteFlagLogsRequest) :
    landedItems [⟨request, .accepted⟩] = items request := List.flatMap_singleton _ _

theorem landedItems_dropped (request : WriteFlagLogsRequest) :
    landedItems [⟨request, .dropped⟩] = [] := rfl

/-! ### Sizes -/

/-- A request is cut down to a part of what it carries. -/
structure Within (p q : WriteFlagLogsRequest) : Prop where
  telemetryData : p.telemetryData = none ∨ p.telemetryData = q.telemetryData
  flagAssigned : List.SublistForall₂
    (fun e e' : FlagAssigned =>
      e.resolveId = e'.resolveId ∧ e.clientInfo = e'.clientInfo ∧ e.flags.Sublist e'.flags)
    p.flagAssigned q.flagAssigned
  flagResolveInfo : p.flagResolveInfo.Sublist q.flagResolveInfo
  clientResolveInfo : p.clientResolveInfo.Sublist q.clientResolveInfo

/-- The JSON text of a part is not longer than the whole's. -/
def DeliverySizes.Grows (sizes : DeliverySizes) : Prop :=
  ∀ p q, Within p q → sizes.size p ≤ sizes.size q

/-- A part with all the other data, and a part of the first envelope. -/
theorem within_first (request : WriteFlagLogsRequest) {e e' : FlagAssigned}
    {rest : List FlagAssigned} (hflags : request.flagAssigned = e' :: rest)
    (hresolve : e.resolveId = e'.resolveId) (hclient : e.clientInfo = e'.clientInfo)
    (hpart : e.flags.Sublist e'.flags) : Within { request with flagAssigned := [e] } request where
  telemetryData := .inr rfl
  flagAssigned := by
    rw [hflags]
    exact .cons ⟨hresolve, hclient, hpart⟩ .nil
  flagResolveInfo := List.Sublist.refl _
  clientResolveInfo := List.Sublist.refl _

/-- The part without the other data. -/
theorem within_alone (other : WriteFlagLogsRequest) (e : FlagAssigned) :
    Within { flagAssigned := [e] } { other with flagAssigned := [e] } where
  telemetryData := .inl rfl
  flagAssigned := .cons ⟨rfl, rfl, List.Sublist.refl _⟩ .nil
  flagResolveInfo := List.nil_sublist _
  clientResolveInfo := List.nil_sublist _

variable (sizes : DeliverySizes)

/-- Whether a request is under the limit. -/
def fits (request : WriteFlagLogsRequest) : Prop := sizes.size request < measuredBackendLimit

instance (request : WriteFlagLogsRequest) : Decidable (fits sizes request) :=
  inferInstanceAs (Decidable (_ < _))

/-- The items under the limit. -/
def fitting (l : List WriteFlagLogsRequest) : List WriteFlagLogsRequest := l.filter (fits sizes ·)

@[simp] theorem fitting_append (l l' : List WriteFlagLogsRequest) :
    fitting sizes (l ++ l') = fitting sizes l ++ fitting sizes l' := List.filter_append ..

theorem fitting_nil_iff (l : List WriteFlagLogsRequest) :
    fitting sizes l = [] ↔ ∀ item ∈ l, ¬fits sizes item := by
  rw [fitting, List.filter_eq_nil_iff]
  simp only [decide_eq_true_eq]

theorem fitting_singleton_neg {request : WriteFlagLogsRequest} (h : ¬fits sizes request) :
    fitting sizes [request] = [] := (fitting_nil_iff sizes _).mpr (List.forall_mem_singleton.mpr h)

/-! ### What is missing -/

/-- The flags of an envelope go out in order, and the first one that fits with the other data takes
it along: those before it are dropped. -/
def missingFlags (other : WriteFlagLogsRequest) (e : FlagAssigned) :
    List AppliedFlag → List WriteFlagLogsRequest
  | [] => fitting sizes (otherItems other)
  | flag :: flags =>
      if fits sizes { other with flagAssigned := [{ e with flags := [flag] }] } then []
      else fitting sizes (flagItems e [flag]) ++ missingFlags other e flags

/-- The items that fit and are lost. -/
def missing (request : WriteFlagLogsRequest) : List WriteFlagLogsRequest :=
  match request.flagAssigned with
  | [] => if fits sizes request then [] else fitting sizes (items request)
  | e :: _ =>
      if e.flags = [] then
        if fits sizes { request with flagAssigned := [e] } then []
        else fitting sizes (items { request with flagAssigned := [e] })
      else missingFlags sizes request e e.flags

theorem missingFlags_congr (other : WriteFlagLogsRequest) (l : List FlagAssigned) (e : FlagAssigned)
    (flags : List AppliedFlag) :
    missingFlags sizes { other with flagAssigned := l } e flags =
      missingFlags sizes other e flags := by
  induction flags with
  | nil => rfl
  | cons flag flags ih => rw [missingFlags, missingFlags, ih]

/-- Without other data nothing is lost that fits. -/
theorem missingFlags_empty (e : FlagAssigned) (flags : List AppliedFlag) :
    missingFlags sizes {} e flags = [] := by
  induction flags with
  | nil => rfl
  | cons flag flags ih =>
      rw [missingFlags]
      split
      · rfl
      · rename_i hfits
        have hdropped : fitting sizes (flagItems e [flag]) = [] := fitting_singleton_neg sizes hfits
        rw [hdropped, ih]
        rfl

theorem items_flags {request : WriteFlagLogsRequest} {e : FlagAssigned}
    (he : request.flagAssigned = [e]) (hflags : e.flags ≠ []) :
    items request = otherItems request ++ flagItems e e.flags := by
  rw [items, he, List.flatMap_singleton]
  exact congrArg (otherItems request ++ ·) (if_neg hflags)

variable {sizes}

/-- A chunk that fits with the other data has a first flag that does. -/
theorem missingFlags_of_fits (hsizes : sizes.Grows) {other : WriteFlagLogsRequest}
    {e : FlagAssigned} {flags : List AppliedFlag} (hflags : flags ≠ []) (rest : List AppliedFlag)
    (h : fits sizes { other with flagAssigned := [{ e with flags := flags }] }) :
    missingFlags sizes other e (flags ++ rest) = [] := by
  obtain ⟨flag, flags, rfl⟩ := List.exists_cons_of_ne_nil hflags
  have hpart : Within { other with flagAssigned := [{ e with flags := [flag] }] }
      { other with flagAssigned := [{ e with flags := flag :: flags }] } :=
    within_first { other with flagAssigned := [{ e with flags := flag :: flags }] } rfl rfl rfl
      ((List.nil_sublist flags).cons_cons flag)
  have hfirst : fits sizes { other with flagAssigned := [{ e with flags := [flag] }] } :=
    lt_of_le_of_lt (hsizes _ _ hpart) h
  exact if_pos hfirst

/-- What is alone with its first envelope, or has no other data, is only lost if it does not fit. -/
theorem missing_empty (l : List FlagAssigned) : missing sizes { flagAssigned := l } = [] := by
  cases l with
  | nil => exact ite_self []
  | cons e rest =>
      simp only [missing]
      split
      · rename_i hnone
        split
        · rfl
        · rename_i hfits
          have hitem : items { flagAssigned := [e] } = [{ flagAssigned := [e] }] := by
            rw [items, List.flatMap_singleton, envelopeItems, if_pos hnone]
            rfl
          rw [hitem]
          exact fitting_singleton_neg sizes hfits
      · rw [missingFlags_congr sizes {} (e :: rest)]
        exact missingFlags_empty sizes e e.flags

/-- Only the first envelope has to do with what is missing. -/
theorem missing_cons (request : WriteFlagLogsRequest) (e : FlagAssigned)
    (rest : List FlagAssigned) :
    missing sizes { request with flagAssigned := e :: rest } =
      missing sizes { request with flagAssigned := [e] } := by
  simp only [missing]
  rw [missingFlags_congr sizes request (e :: rest), missingFlags_congr sizes request [e]]

theorem missing_flags {request : WriteFlagLogsRequest} {e : FlagAssigned} {rest : List FlagAssigned}
    (he : request.flagAssigned = e :: rest) (hflags : e.flags ≠ []) :
    missing sizes request = missingFlags sizes request e e.flags := by
  rw [missing, he]
  exact if_neg hflags

/-- A request that fits loses nothing. -/
theorem missing_of_fits (hsizes : sizes.Grows) {request : WriteFlagLogsRequest}
    (h : fits sizes request) : missing sizes request = [] := by
  rw [missing]
  split
  · exact if_pos h
  · rename_i e rest hflags
    have hfirst : fits sizes { request with flagAssigned := [e] } :=
      lt_of_le_of_lt (hsizes _ _ (within_first request hflags rfl rfl (List.Sublist.refl _))) h
    rw [if_pos hfirst]
    split
    · rfl
    · rename_i hne
      simpa using missingFlags_of_fits hsizes (e := e) hne [] hfirst

/-! ### Conservation -/

variable {send : Sender}

theorem deliver_accepted (haccept : ∀ history request, send history request = true)
    (history : List Piece) (request : WriteFlagLogsRequest) :
    deliver send history request = ⟨request, .accepted⟩ := by
  rw [deliver, if_pos (haccept history request)]

theorem items_whole (haccept : ∀ history request, send history request = true)
    (history : List Piece) (request : WriteFlagLogsRequest) (count : Nat) :
    landedItems (deliverWhole send history request count).2 = items request := by
  rw [deliverWhole, deliver_accepted haccept]
  exact landedItems_accepted request

/-- A piece that is sent lands what it carries. -/
theorem landedItems_sent (haccept : ∀ history request, send history request = true)
    (history : List Piece) (s : Split) (carry : Option WriteFlagLogsRequest)
    (request : WriteFlagLogsRequest) :
    landedItems (s.settle carry (deliver send history request)).pieces =
      landedItems s.pieces ++ items request := by
  rw [deliver_accepted haccept, Split.settle, landedItems_append, landedItems_accepted]

theorem landedItems_unsent (s : Split) (carry : Option WriteFlagLogsRequest)
    (request : WriteFlagLogsRequest) :
    landedItems (s.settle carry ⟨request, .dropped⟩).pieces = landedItems s.pieces := by
  rw [Split.settle, landedItems_append, landedItems_dropped, List.append_nil]

/-- An item moves to the front of both sides. -/
theorem perm_of_moved {α : Type} {a b c l m : List α} (moved : List α)
    (h : (l ++ m).Perm (a ++ (b ++ c))) :
    (l ++ (moved ++ m)).Perm (a ++ (b ++ (moved ++ c))) := by
  have hright : (a ++ (b ++ (moved ++ c))).Perm (moved ++ (a ++ (b ++ c))) := by
    rw [← List.append_assoc, ← List.append_assoc a b c]
    exact List.perm_append_comm_assoc (a ++ b) moved c
  exact (List.perm_append_comm_assoc l moved m).trans ((h.append_left moved).trans hright.symm)

/-- The loop lands what fits of the other data and of the flags on the stack, but for what is
missing. -/
theorem splitFlags_items (hsizes : sizes.Grows)
    (haccept : ∀ history request, send history request = true) (history : List Piece)
    (e : FlagAssigned) (stack : List (List AppliedFlag)) (s : Split) :
    (fitting sizes (landedItems (splitFlags sizes send history e stack s).pieces) ++
        missingFlags sizes (s.carry.getD {}) e stack.flatten).Perm
      (fitting sizes (landedItems s.pieces) ++
        (fitting sizes (otherItems (s.carry.getD {})) ++
          fitting sizes (flagItems e stack.flatten))) := by
  induction stack, s using splitFlags.induct sizes send history e with
  | case1 s =>
      rw [splitFlags]
      simp [missingFlags, flagItems, fitting]
  | case2 stack s ih =>
      rw [splitFlags, if_pos rfl]
      exact ih
  | case3 flags stack s hne envelope request hsize ih =>
      rw [splitFlags, if_neg hne, if_pos hsize]
      -- the piece takes the other data with it: what is left on the stack travels alone
      have hnothing : missingFlags sizes (s.carry.getD {}) e (flags :: stack).flatten = [] :=
        missingFlags_of_fits hsizes hne stack.flatten hsize
      have hitems : items request = otherItems (s.carry.getD {}) ++ flagItems e flags :=
        items_flags (e := envelope) rfl hne
      rw [landedItems_sent haccept, hitems] at ih
      rw [hnothing, ← missingFlags_empty sizes e stack.flatten]
      refine ih.trans (.of_eq ?_)
      simp only [List.flatten_cons, flagItems_append, fitting_append, List.append_assoc]
      rfl
  | case4 flags stack s hne envelope request hsize carry hmany ih =>
      rw [splitFlags, if_neg hne, if_neg hsize, if_pos hmany]
      have hflags : (flags.take (flags.length / 2) ::
          flags.drop (flags.length / 2) :: stack).flatten = (flags :: stack).flatten := by
        simp only [List.flatten_cons, ← List.append_assoc, List.take_append_drop]
      rw [hflags] at ih
      rwa [← missingFlags_congr sizes (s.carry.getD {}) []]
  | case5 flags stack s hne envelope request hsize carry hone ih =>
      rw [splitFlags, if_neg hne, if_neg hsize, if_neg hone]
      obtain ⟨flag, rfl⟩ : ∃ flag, flags = [flag] :=
        List.length_eq_one_iff.mp (le_antisymm (not_lt.mp hone) (List.length_pos_of_ne_nil hne))
      -- the flag is dropped and the other data stays: the next chunk is in the same position
      have hmissing : missingFlags sizes (s.carry.getD {}) e ([flag] :: stack).flatten =
          fitting sizes (flagItems e [flag]) ++
            missingFlags sizes (s.carry.getD {}) e stack.flatten := if_neg hsize
      rw [landedItems_unsent] at ih
      rw [hmissing, List.flatten_cons, flagItems_append, fitting_append]
      refine perm_of_moved (fitting sizes (flagItems e [flag])) ?_
      rwa [← missingFlags_congr sizes (s.carry.getD {}) []]

/-- What has landed and what is missing make up what fits. -/
def Conserves (sizes : DeliverySizes) (request : WriteFlagLogsRequest)
    (pieces : List Piece) : Prop :=
  (fitting sizes (landedItems pieces) ++ missing sizes request).Perm (fitting sizes (items request))

theorem Conserves.perm_iff {request : WriteFlagLogsRequest} {pieces : List Piece}
    (h : Conserves sizes request pieces) :
    (fitting sizes (landedItems pieces)).Perm (fitting sizes (items request)) ↔
      missing sizes request = [] := by
  constructor
  · intro hperm
    have hlength := (h.trans hperm.symm).length_eq
    rw [List.length_append] at hlength
    exact List.eq_nil_of_length_eq_zero (Nat.add_eq_left.mp hlength)
  · intro hnil
    rwa [Conserves, hnil, List.append_nil] at h

theorem whole_conserves (hsizes : sizes.Grows)
    (haccept : ∀ history request, send history request = true) (history : List Piece)
    {request : WriteFlagLogsRequest} (count : Nat) (h : fits sizes request) :
    Conserves sizes request (deliverWhole send history request count).2 := by
  rw [Conserves, items_whole haccept, missing_of_fits hsizes h, List.append_nil]

/-- The second half has none of the other data, so nothing of it is lost that fits. -/
theorem halves_conserve {request : WriteFlagLogsRequest} {half : Nat} {a b : List Piece}
    (hhalf : 0 < half) (hlong : 0 < request.flagAssigned.length)
    (ha : Conserves sizes { request with flagAssigned := request.flagAssigned.take half } a)
    (hb : Conserves sizes { flagAssigned := request.flagAssigned.drop half } b) :
    Conserves sizes request (a ++ b) := by
  have hmissing : missing sizes { request with flagAssigned := request.flagAssigned.take half } =
      missing sizes request := by
    obtain ⟨e, rest, he⟩ := List.exists_cons_of_ne_nil (List.ne_nil_of_length_pos hlong)
    obtain ⟨half, rfl⟩ := Nat.exists_eq_add_one_of_ne_zero hhalf.ne'
    rw [he, List.take_succ_cons, missing_cons, ← missing_cons request e rest, ← he]
  have hitems : items { request with flagAssigned := request.flagAssigned.take half } ++
      items { flagAssigned := request.flagAssigned.drop half } = items request := by
    have henvelopes := congrArg (List.flatMap envelopeItems)
      (List.take_append_drop half request.flagAssigned)
    rw [List.flatMap_append] at henvelopes
    rw [items, items, items, ← henvelopes, List.append_assoc]
    rfl
  rw [Conserves, hmissing] at ha
  rw [Conserves, missing_empty, List.append_nil] at hb
  rw [Conserves, ← hitems, landedItems_append, fitting_append, fitting_append, List.append_assoc]
  exact ((List.perm_append_comm.append_left _).trans
    (.of_eq (List.append_assoc ..).symm)).trans (ha.append hb)

theorem split_conserves (hsizes : sizes.Grows)
    (haccept : ∀ history request, send history request = true) (history : List Piece)
    {request : WriteFlagLogsRequest} {e : FlagAssigned} (count : Nat)
    (he : request.flagAssigned = [e]) (hflags : e.flags ≠ []) :
    Conserves sizes request (deliverBySplittingFlags sizes send history request e count).2 := by
  have hloop := splitFlags_items hsizes haccept history e [e.flags]
    { carry := some { request with flagAssigned := [] } }
  rw [Option.getD_some, missingFlags_congr, List.flatten_singleton] at hloop
  rw [Conserves, missing_flags he hflags, items_flags he hflags, fitting_append]
  exact hloop

/-- What is dropped as a whole is missing as far as it fits. -/
theorem dropped_conserves {request : WriteFlagLogsRequest} (h : ¬fits sizes request)
    (hfew : request.flagAssigned = [] ∨ ∃ e, request.flagAssigned = [e] ∧ ¬1 < e.flags.length) :
    Conserves sizes request [⟨request, .dropped⟩] := by
  rw [Conserves, landedItems_dropped]
  change (missing sizes request).Perm _
  obtain hnone | ⟨e, he, hfew⟩ := hfew
  · rw [missing, hnone]
    exact .of_eq (if_neg h)
  · have hrequest : { request with flagAssigned := [e] } = request := by rw [← he]
    match hflags : e.flags with
    | [] =>
        rw [missing, he]
        simp only
        rw [if_pos hflags, hrequest, if_neg h]
    | [flag] =>
        have hsame : { e with flags := [flag] } = e := by rw [← hflags]
        have hne : e.flags ≠ [] := by simp [hflags]
        rw [missing_flags he hne, items_flags he hne, hflags, missingFlags, hsame, hrequest,
          if_neg h, fitting_append]
        exact List.perm_append_comm
    | _ :: _ :: _ => exact absurd (by simp [hflags]) hfew

/-- What lands of an aggregate, when every piece is accepted. -/
theorem deliverAggregate_conserves (hsizes : sizes.Grows)
    (haccept : ∀ history request, send history request = true) (history : List Piece)
    (request : WriteFlagLogsRequest) (count : Nat) :
    Conserves sizes request (deliverAggregate sizes send history request count).2 := by
  induction history, request, count using deliverAggregate.induct sizes send with
  | case1 history request count size hsize =>
      rw [deliverAggregate, if_pos hsize]
      exact whole_conserves hsizes haccept history count
        (lt_of_le_of_lt hsize (by decide : maxDeliveryBytes < measuredBackendLimit))
  | case2 history request count size hsize hroom =>
      rw [deliverAggregate, if_neg hsize, if_pos hroom]
      exact whole_conserves hsizes haccept history count hroom
  | case3 history request count size hsize hroom hlong half head tail hone a iha _ ihb =>
      -- all other data goes with the first half
      rw [deliverAggregate, if_neg hsize, if_neg hroom, if_pos hlong, if_pos hone]
      exact halves_conserve (Nat.div_pos hlong Nat.two_pos) (Nat.zero_lt_of_lt hlong) iha ihb
  | case4 history request count size hsize hroom hlong half head tail hone headCount a iha _ ihb =>
      rw [deliverAggregate, if_neg hsize, if_neg hroom, if_pos hlong, if_neg hone]
      exact halves_conserve (Nat.div_pos hlong Nat.two_pos) (Nat.zero_lt_of_lt hlong) iha ihb
  | case5 history request count size hsize hroom hshort assigned hassigned hmany =>
      rw [deliverAggregate, if_neg hsize, if_neg hroom, if_neg hshort, hassigned]
      simp only
      rw [if_pos hmany]
      exact split_conserves hsizes haccept history count hassigned
        (List.ne_nil_of_length_pos (Nat.zero_lt_of_lt hmany))
  | case6 history request count size hsize hroom hshort assigned hassigned hfew =>
      rw [deliverAggregate, if_neg hsize, if_neg hroom, if_neg hshort, hassigned]
      simp only
      rw [if_neg hfew]
      exact dropped_conserves hroom (.inr ⟨assigned, hassigned, hfew⟩)
  | case7 history request count size hsize hroom hshort hother =>
      rw [deliverAggregate, if_neg hsize, if_neg hroom, if_neg hshort]
      have hnone : request.flagAssigned = [] := by
        match hflags : request.flagAssigned with
        | [] => rfl
        | [e] => exact absurd hflags (hother e)
        | _ :: _ :: _ => exact absurd (by simp [hflags]) hshort
      split
      · exact absurd ‹_› (hother _)
      · exact dropped_conserves hroom (.inl hnone)

/-! ### The lead -/

variable (sizes) in
/-- The flag of an envelope that the other data is delivered with: the first that fits alone. -/
def leadFlags (e : FlagAssigned) : List AppliedFlag :=
  match e.flags.find? (fun flag => fits sizes { flagAssigned := [{ e with flags := [flag] }] }) with
  | some flag => [flag]
  | none => e.flags.take 1

variable (sizes) in
/-- The other data of a request, with what it travels with. -/
def lead (request : WriteFlagLogsRequest) : WriteFlagLogsRequest :=
  match request.flagAssigned with
  | [] => request
  | e :: _ => { request with flagAssigned := [{ e with flags := leadFlags sizes e }] }

/-- A flag that does not fit alone does not fit with other data. -/
theorem not_fits_of_alone (hsizes : sizes.Grows) (other : WriteFlagLogsRequest) {e : FlagAssigned}
    (h : ¬fits sizes { flagAssigned := [e] }) : ¬fits sizes { other with flagAssigned := [e] } :=
  fun hfits => h (lt_of_le_of_lt (hsizes _ _ (within_alone other e)) hfits)

/-- Without a flag that fits, the other data is lost. -/
theorem missingFlags_none (hsizes : sizes.Grows) (other : WriteFlagLogsRequest) (e : FlagAssigned)
    {flags : List AppliedFlag}
    (h : ∀ flag ∈ flags, ¬fits sizes { flagAssigned := [{ e with flags := [flag] }] }) :
    missingFlags sizes other e flags = fitting sizes (otherItems other) := by
  induction flags with
  | nil => rfl
  | cons flag flags ih =>
      obtain ⟨hflag, hrest⟩ := List.forall_mem_cons.mp h
      rw [missingFlags, if_neg (not_fits_of_alone hsizes other hflag), ih hrest]
      exact congrArg (· ++ _) (fitting_singleton_neg sizes hflag)

/-- The first flag that fits alone decides. -/
theorem missingFlags_some (hsizes : sizes.Grows) (other : WriteFlagLogsRequest) (e : FlagAssigned)
    {flags : List AppliedFlag} {flag : AppliedFlag}
    (h : flags.find? (fun flag => fits sizes { flagAssigned := [{ e with flags := [flag] }] }) =
      some flag) :
    missingFlags sizes other e flags = [] ↔
      fits sizes { other with flagAssigned := [{ e with flags := [flag] }] } := by
  induction flags with
  | nil => cases h
  | cons next flags ih =>
      -- a flag that fits alone is missing unless it takes the other data along
      by_cases hnext : fits sizes { flagAssigned := [{ e with flags := [next] }] }
      · obtain rfl : next = flag := by simpa [List.find?_cons, hnext] using h
        have hitem : fitting sizes (flagItems e [next]) ≠ [] := by
          intro hnil
          exact (fitting_nil_iff sizes _).mp hnil _ (List.mem_singleton.mpr rfl) hnext
        rw [missingFlags, ite_eq_left_iff]
        constructor
        · intro himp
          by_contra hfits
          exact hitem (List.append_eq_nil_iff.mp (himp hfits)).1
        · intro hfits hnot
          exact absurd hfits hnot
      · have hdropped : fitting sizes (flagItems e [next]) = [] := fitting_singleton_neg sizes hnext
        rw [missingFlags, if_neg (not_fits_of_alone hsizes other hnext), hdropped]
        exact ih (by simpa [List.find?_cons, hnext] using h)

theorem lost_nil_iff (request : WriteFlagLogsRequest) :
    (if fits sizes request then [] else fitting sizes (items request)) = [] ↔
      fits sizes request ∨ ∀ item ∈ items request, ¬fits sizes item := by
  rw [ite_eq_left_iff, ← or_iff_not_imp_left, fitting_nil_iff]

theorem missingFlags_nil_iff (hsizes : sizes.Grows) (other : WriteFlagLogsRequest)
    {e : FlagAssigned} (hflags : e.flags ≠ []) :
    missingFlags sizes other e e.flags = [] ↔
      fits sizes { other with flagAssigned := [{ e with flags := leadFlags sizes e }] } ∨
        ∀ item ∈ otherItems other ++ flagItems e (leadFlags sizes e), ¬fits sizes item := by
  rw [leadFlags]
  split
  · rename_i flag hfind
    have hflag : fits sizes { flagAssigned := [{ e with flags := [flag] }] } := by
      simpa using List.find?_some hfind
    -- the item of the flag fits: the second alternative is out
    rw [missingFlags_some hsizes other e hfind, or_iff_left]
    intro hnone
    exact hnone _ (List.mem_append_right _ (List.mem_singleton.mpr rfl)) hflag
  · rename_i hfind
    have hall : ∀ flag ∈ e.flags, ¬fits sizes { flagAssigned := [{ e with flags := [flag] }] } := by
      simpa using hfind
    obtain ⟨flag, flags, hcons⟩ := List.exists_cons_of_ne_nil hflags
    have hflag := hall flag (hcons ▸ List.mem_cons_self)
    have htake : e.flags.take 1 = [flag] := by rw [hcons]; rfl
    have hitems : fitting sizes (otherItems other ++ flagItems e [flag]) =
        fitting sizes (otherItems other) := by
      rw [fitting_append, flagItems, List.map_singleton, fitting_singleton_neg sizes hflag,
        List.append_nil]
    rw [missingFlags_none hsizes other e hall, htake,
      or_iff_right (not_fits_of_alone hsizes other hflag), ← hitems, fitting_nil_iff]

/-- Nothing is missing if the lead gets through, or has nothing that fits. -/
theorem missing_nil_iff (hsizes : sizes.Grows) (request : WriteFlagLogsRequest) :
    missing sizes request = [] ↔
      fits sizes (lead sizes request) ∨ ∀ item ∈ items (lead sizes request), ¬fits sizes item := by
  match he : request.flagAssigned with
  | [] =>
      rw [missing, lead, he]
      exact lost_nil_iff request
  | e :: rest =>
      have hlead : lead sizes request =
          { request with flagAssigned := [{ e with flags := leadFlags sizes e }] } := by
        rw [lead, he]
      rw [hlead]
      by_cases hflags : e.flags = []
      · -- the envelope travels as it is
        have hsame : { e with flags := leadFlags sizes e } = e := by
          rw [leadFlags, hflags]
          exact congrArg (fun l => { e with flags := l }) hflags.symm
        rw [hsame, ← lost_nil_iff, missing, he]
        simp only
        rw [if_pos hflags]
      · have hne : leadFlags sizes e ≠ [] := by
          rw [leadFlags]
          split
          · exact List.cons_ne_nil _ _
          · simpa using hflags
        rw [missing_flags he hflags, missingFlags_nil_iff hsizes request hflags,
          items_flags (e := { e with flags := leadFlags sizes e }) rfl hne]
        rfl

/-- **Splitting reaches what fits**, if and only if the other data gets through with the flag it
travels with, or no item of the two fits: then it is the items that fit, each as often as the
request has it, that land. -/
theorem splitting_reaches_iff (sizes : DeliverySizes) (hsizes : sizes.Grows) (send : Sender)
    (haccept : ∀ history request, send history request = true) (history : List Piece)
    (request : WriteFlagLogsRequest) (count : Nat) :
    (fitting sizes (landedItems (deliverAggregate sizes send history request count).2)).Perm
        (fitting sizes (items request)) ↔
      fits sizes (lead sizes request) ∨ ∀ item ∈ items (lead sizes request), ¬fits sizes item := by
  rw [← missing_nil_iff hsizes]
  exact (deliverAggregate_conserves hsizes haccept history request count).perm_iff

/-! ### A resolve info over the limit -/

/-- A list field of a JSON object, with the comma behind it. -/
def listLen (nameLen : Nat) (elements : List Nat) : Nat :=
  if elements = [] then 0 else nameLen + elements.sum

theorem listLen_le {α : Type} (nameLen : Nat) {R : α → α → Prop} {f : α → Nat}
    (hf : ∀ a b, R a b → f a ≤ f b) {l l' : List α} (h : List.SublistForall₂ R l l') :
    listLen nameLen (l.map f) ≤ listLen nameLen (l'.map f) := by
  have hsum : (l.map f).sum ≤ (l'.map f).sum := by
    induction h with
    | nil => exact Nat.zero_le _
    | cons hab _ ih =>
        simp only [List.map_cons, List.sum_cons]
        exact Nat.add_le_add (hf _ _ hab) ih
    | cons_right _ ih => exact ih.trans (Nat.le_add_left _ _)
  by_cases hl : l = []
  · rw [hl]
    exact Nat.zero_le _
  · have hl' : l' ≠ [] := by
      rintro rfl
      cases h
      exact hl rfl
    simp only [listLen, List.map_eq_nil_iff, if_neg hl, if_neg hl']
    exact Nat.add_le_add_left hsum nameLen

theorem listLen_sublist {α : Type} (nameLen : Nat) (f : α → Nat) {l l' : List α}
    (h : l.Sublist l') : listLen nameLen (l.map f) ≤ listLen nameLen (l'.map f) :=
  listLen_le nameLen (R := (· = ·)) (fun _ _ hab => (congrArg f hab).le) h.sublistForall₂

/-- The JSON texts of requests whose flags have a name, a targeting key and an assignment id, and
whose resolve infos have a name; an element is counted with its comma. -/
def textSizes : DeliverySizes where
  usizeMax := 4294967295
  encodedLen _ := 0
  encodedLen_le _ := Nat.zero_le _
  maxBufferBytes_le := by decide
  jsonLen log :=
    let flagLen (flag : AppliedFlag) : Nat :=
      48 + flag.flag.length + flag.targetingKey.length + flag.assignmentId.length
    let envelopeLen (e : FlagAssigned) : Nat :=
      17 + e.resolveId.length + listLen 10 (e.flags.map flagLen)
    some (2 + (listLen 17 (log.flagAssigned.map envelopeLen) +
      listLen 20 (log.flagResolveInfo.map fun info => 12 + info.flag.length) - 1))

theorem textSizes_grows : textSizes.Grows := by
  intro p q h
  refine Nat.add_le_add_left (Nat.sub_le_sub_right (Nat.add_le_add ?_ ?_) 1) 2
  · refine listLen_le 17 ?_ h.flagAssigned
    rintro e e' ⟨hresolve, -, hflags⟩
    rw [hresolve]
    exact Nat.add_le_add_left (listLen_sublist 10 _ hflags) _
  · exact listLen_sublist 20 _ h.flagResolveInfo

/-- An upstream that takes every piece. -/
def acceptsAll : Sender := fun _ _ => true

/-- A flag applied for one key. -/
def keyFlag (key : String) : AppliedFlag := ⟨"flags/f", key, "", "id", "", [], none, none⟩

/-- Two applied flags behind a resolve info. -/
def namedRequest (name : String) : WriteFlagLogsRequest :=
  { flagAssigned := [⟨"r", none, [keyFlag "a", keyFlag "b"]⟩], flagResolveInfo := [⟨name, [], []⟩] }

/-- The same with longer keys. -/
def keyedRequest (key : String) : WriteFlagLogsRequest :=
  { flagAssigned := [⟨"r", none, [keyFlag key, keyFlag key]⟩],
    flagResolveInfo := [⟨"flags/f", [], []⟩] }

/-- One flag of a key of three million characters fits with the resolve info, and two do not. -/
theorem keyedRequest_fits {key : String} (h : key.length = 3000000) :
    fits textSizes (lead textSizes (keyedRequest key)) ∧ ¬fits textSizes (keyedRequest key) := by
  have hname : "flags/f".length = 7 := rfl
  have hid : "id".length = 2 := rfl
  have hresolve : "r".length = 1 := rfl
  have hlimit : measuredBackendLimit = 4193298 := rfl
  have hlead : leadFlags textSizes ⟨"r", none, [keyFlag key, keyFlag key]⟩ = [keyFlag key] := by
    rw [leadFlags]
    split
    · next flag hfind =>
        have hmem := List.mem_of_find?_eq_some hfind
        simp only [List.mem_cons, List.not_mem_nil, or_false, or_self] at hmem
        rw [hmem]
    · rfl
  have hrequest : lead textSizes (keyedRequest key) =
      { keyedRequest key with flagAssigned := [⟨"r", none, [keyFlag key]⟩] } := by
    rw [← hlead]
    rfl
  constructor
  · rw [hrequest]
    simp only [fits, keyedRequest, DeliverySizes.size, textSizes, keyFlag,
      Option.getD_some, List.map_cons, List.map_nil, listLen, List.cons_ne_nil, if_false,
      List.sum_cons, List.sum_nil, h, hname, hid, hresolve, hlimit]
    omega
  · simp only [fits, keyedRequest, DeliverySizes.size, textSizes, keyFlag,
      Option.getD_some, List.map_cons, List.map_nil, listLen, List.cons_ne_nil, if_false,
      List.sum_cons, List.sum_nil, h, hname, hid, hresolve, hlimit]
    omega

/-- A request over the limit of which everything lands. -/
theorem splitting_reaches_iff_sample :
    let request := keyedRequest (String.ofList (List.replicate 3000000 'x'))
    ¬fits textSizes request ∧
      (fitting textSizes (landedItems
        (deliverAggregate textSizes acceptsAll [] request 1).2)).Perm
        (fitting textSizes (items request)) := by
  have hlength : (String.ofList (List.replicate 3000000 'x')).length = 3000000 := by
    rw [String.length_ofList, List.length_replicate]
  obtain ⟨hlead, hover⟩ := keyedRequest_fits hlength
  exact ⟨hover, (splitting_reaches_iff textSizes textSizes_grows acceptsAll (fun _ _ => rfl) []
    _ 1).mpr (.inl hlead)⟩

/-- A request with a resolve info of a name over the limit does not fit. -/
theorem not_fits_named {name : String} (h : measuredBackendLimit ≤ name.length)
    (flagAssigned : List FlagAssigned) :
    ¬fits textSizes { namedRequest name with flagAssigned := flagAssigned } := by
  simp only [fits, DeliverySizes.size, textSizes, namedRequest, Option.getD_some, List.map_cons,
    List.map_nil, listLen, List.cons_ne_nil, if_false, List.sum_cons, List.sum_nil, not_lt]
  omega

/-- Such a name pulls both flags over the limit, and nothing lands that fits. -/
theorem named_blocks {name : String} (h : measuredBackendLimit ≤ name.length) :
    fitting textSizes (landedItems
      (deliverAggregate textSizes acceptsAll [] (namedRequest name) 1).2) = [] := by
  let e : FlagAssigned := ⟨"r", none, [keyFlag "a", keyFlag "b"]⟩
  have hinfo : fitting textSizes (otherItems (namedRequest name)) = [] :=
    fitting_singleton_neg textSizes (not_fits_named h [])
  have hitems : fitting textSizes (items (namedRequest name)) =
      fitting textSizes (flagItems e e.flags) := by
    rw [items_flags (e := e) rfl (List.cons_ne_nil _ _), fitting_append, hinfo, List.nil_append]
  have hmissing : missing textSizes (namedRequest name) =
      fitting textSizes (flagItems e e.flags) := by
    rw [missing_flags (e := e) rfl (List.cons_ne_nil _ _), missingFlags,
      if_neg (not_fits_named h _), missingFlags, if_neg (not_fits_named h _), missingFlags, hinfo,
      List.append_nil, ← fitting_append, ← flagItems_append]
    rfl
  have hconserves : Conserves textSizes (namedRequest name)
      (deliverAggregate textSizes acceptsAll [] (namedRequest name) 1).2 :=
    deliverAggregate_conserves textSizes_grows (fun _ _ => rfl) [] (namedRequest name) 1
  have hlength := hconserves.length_eq
  rw [hmissing, hitems, List.length_append] at hlength
  exact List.eq_nil_of_length_eq_zero (Nat.add_eq_right.mp hlength)

/-- The resolve info is over the limit: a flag that fits is not delivered. -/
theorem heavy_info_blocks :
    let request := namedRequest (String.ofList (List.replicate measuredBackendLimit 'x'))
    let item : WriteFlagLogsRequest := { flagAssigned := [⟨"r", none, [keyFlag "a"]⟩] }
    item ∈ items request ∧ fits textSizes item ∧
      item ∉ landedItems (deliverAggregate textSizes acceptsAll [] request 1).2 := by
  intro request item
  -- the text is measured, never written out
  have hlong : measuredBackendLimit ≤
      (String.ofList (List.replicate measuredBackendLimit 'x')).length := by
    rw [String.length_ofList, List.length_replicate]
  have hfits : fits textSizes item := by decide
  refine ⟨List.mem_cons_of_mem _ List.mem_cons_self, hfits, fun hlanded => ?_⟩
  exact (fitting_nil_iff textSizes _).mp (named_blocks hlong) item hlanded hfits

end FlagLog

end ConfidenceResolver
