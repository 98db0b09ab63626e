import ConfidenceResolver.Apply.Deferred

/-!
# Apply — all or nothing

An apply is checked flag by flag while its entries are made, and logged as a whole or not at all.
The times of the client are moved to the clock of the host by the arithmetic of `chrono`, whose
dates reach far beyond those of protobuf timestamps.

* `Chrono.Calendar`: what is documented of `chrono`, on dates without leap seconds.
* `flagToApply_valid`: valid times are moved without an overflow.
* `AccountResolver.applyFlags_applicable`: what an apply needs to succeed.
* `apply_all_or_nothing`: the two outcomes of an apply; with the collection of exposures disabled
  there is neither.
-/

namespace ConfidenceResolver

/-! ### Timestamps -/

namespace Timestamp

/-- The nanoseconds since the epoch. -/
def total (t : Timestamp) : Int := t.seconds * 1000000000 + t.nanos

/-- The timestamp of a number of nanoseconds: the fraction counts forward in time. -/
def ofTotal (n : Int) : Timestamp := ⟨n / 1000000000, n % 1000000000⟩

/-- A valid protobuf timestamp: from the year 1 to the end of the year 9999. -/
structure Valid (t : Timestamp) : Prop where
  year_ge : -62135596800 ≤ t.seconds
  year_le : t.seconds ≤ 253402300799
  nanos_nonneg : 0 ≤ t.nanos
  nanos_lt : t.nanos < 1000000000

theorem total_ofTotal (n : Int) : (ofTotal n).total = n := by
  rw [total, ofTotal, Int.mul_comm]
  exact Int.mul_ediv_add_emod n _

end Timestamp

/-! ### Dates -/

/-- The first and the last second of `chrono`: the years -262143 and 262142. -/
def minDateSeconds : Int := -8334601228800

def maxDateSeconds : Int := 8210266876799

/-- The arithmetic that `chrono` documents.  `At d n`: the date `d` is `n` nanoseconds after the
epoch, and not in a leap second. -/
structure Chrono.Calendar (chrono : Chrono) where
  At : chrono.DateTime → Int → Prop
  nanoseconds : chrono.TimeDelta → Int
  fromTimestamp_at (t : Timestamp) : minDateSeconds ≤ t.seconds → t.seconds ≤ maxDateSeconds →
    0 ≤ t.nanos → t.nanos < 1000000000 → ∃ d, chrono.fromTimestamp t = some d ∧ At d t.total
  signedDurationSince_at {d d' : chrono.DateTime} {n n' : Int} : At d n → At d' n' →
    nanoseconds (chrono.signedDurationSince d d') = n - n'
  checkedSubSigned_at {d : chrono.DateTime} {n : Int} (delta : chrono.TimeDelta) : At d n →
    minDateSeconds * 1000000000 ≤ n - nanoseconds delta →
    n - nanoseconds delta < (maxDateSeconds + 1) * 1000000000 →
    ∃ d', chrono.checkedSubSigned d delta = some d' ∧ At d' (n - nanoseconds delta)
  toTimestamp_at {d : chrono.DateTime} {n : Int} : At d n → chrono.toTimestamp d = .ofTotal n

variable {Bytes Plain : Type} {chrono : Chrono}

/-- A valid timestamp is a date. -/
theorem Chrono.Calendar.date (calendar : chrono.Calendar) {t : Timestamp} (h : t.Valid) :
    ∃ d, chrono.fromTimestamp t = some d ∧ calendar.At d t.total := by
  have hlow : minDateSeconds ≤ t.seconds := le_trans (by decide) h.year_ge
  have hhigh : t.seconds ≤ maxDateSeconds := le_trans h.year_le (by decide)
  exact calendar.fromTimestamp_at t hlow hhigh h.nanos_nonneg h.nanos_lt

/-- Three valid times are within the years of `chrono`: nothing overflows. -/
theorem skew_in_range {send receive apply : Timestamp} (hsend : send.Valid)
    (hreceive : receive.Valid) (happly : apply.Valid) :
    minDateSeconds * 1000000000 ≤ receive.total - (send.total - apply.total) ∧
      receive.total - (send.total - apply.total) < (maxDateSeconds + 1) * 1000000000 := by
  obtain ⟨hs, hs', hsn, hsn'⟩ := hsend
  obtain ⟨hr, hr', hrn, hrn'⟩ := hreceive
  obtain ⟨ha, ha', han, han'⟩ := happly
  simp only [Timestamp.total, minDateSeconds, maxDateSeconds]
  omega

/-! ### One flag -/

/-- What is logged for an applied flag: the flag of the token, and the time at which the host
received the apply, less what the client counted between applying and sending. -/
def EntryOf (token : ResolveToken) (sendTime receiveTime : Timestamp) (f : ResolverAppliedFlag)
    (entry : FlagToApply) : Prop :=
  token.assignments.lookup f.flag = some entry.assignedFlag ∧
    ∃ applyTime, f.applyTime = some applyTime ∧
      entry.skewAdjustedAppliedTime.total =
        receiveTime.total - (sendTime.total - applyTime.total)

/-- A flag of the token, with valid times. -/
theorem flagToApply_valid (calendar : chrono.Calendar) {sent received : chrono.DateTime}
    {sendTime receiveTime : Timestamp} (hsent : calendar.At sent sendTime.total)
    (hreceived : calendar.At received receiveTime.total) (hsend : sendTime.Valid)
    (hreceive : receiveTime.Valid) {token : ResolveToken} {f : ResolverAppliedFlag}
    {assigned : AssignedFlag} {applyTime : Timestamp}
    (hassigned : token.assignments.lookup f.flag = some assigned)
    (happly : f.applyTime = some applyTime) (hvalid : applyTime.Valid) :
    ∃ entry, flagToApply chrono sent received token f = .ok entry ∧
      EntryOf token sendTime receiveTime f entry := by
  obtain ⟨applied, hfrom, happlied⟩ := calendar.date hvalid
  -- the difference is exact, and what is subtracted from the receive time stays in the range
  have hskew := calendar.signedDurationSince_at hsent happlied
  obtain ⟨hlow, hhigh⟩ := skew_in_range hsend hreceive hvalid
  rw [← hskew] at hlow hhigh
  obtain ⟨adjusted, hsub, hadjusted⟩ := calendar.checkedSubSigned_at _ hreceived hlow hhigh
  refine ⟨⟨assigned, chrono.toTimestamp adjusted⟩, ?_, hassigned, applyTime, happly, ?_⟩
  · simp only [flagToApply, hassigned, happly, hfrom, hsub, orFail, Option.elim_some, ok_bind]
    rfl
  · rw [calendar.toTimestamp_at hadjusted, Timestamp.total_ofTotal, hskew]

/-- A flag whose entry is made is in the token, and has its time. -/
theorem flagToApply_ok {sent received : chrono.DateTime} {token : ResolveToken}
    {f : ResolverAppliedFlag} {entry : FlagToApply}
    (h : flagToApply chrono sent received token f = .ok entry) :
    (token.assignments.lookup f.flag).isSome ∧ f.applyTime.isSome := by
  have hassigned := flagToApply_lookup h
  obtain ⟨_, -, h⟩ := bind_eq_ok.mp h
  obtain ⟨applyTime, happly, -⟩ := bind_eq_ok.mp h
  rw [hassigned, orFail_eq_ok happly]
  exact ⟨rfl, rfl⟩

/-! ### An apply -/

/-- What an apply needs: a token that is decrypted and decoded, to one of version 1; all its times;
and no flag that is not in the token. -/
structure Applicable (host : ApplyHost Bytes Plain) (request : ApplyFlagsRequest Bytes)
    (token : ResolveToken) : Prop where
  tokenV1 : host.tokenV1 request.resolveToken = .ok token
  sendTime : request.sendTime.isSome
  flags : ∀ f ∈ request.flags, (token.assignments.lookup f.flag).isSome ∧ f.applyTime.isSome

/-- The times of a request and of its receipt, as far as they are there, are valid timestamps. -/
structure TimesValid (currentTime : Timestamp) (request : ApplyFlagsRequest Bytes) : Prop where
  receive : currentTime.Valid
  send : ∀ t, request.sendTime = some t → t.Valid
  apply : ∀ f ∈ request.flags, ∀ t, f.applyTime = some t → t.Valid

namespace AccountResolver

variable (r : AccountResolver) {host : ApplyHost Bytes Plain} {request : ApplyFlagsRequest Bytes}

/-- An apply that succeeds had all it needs. -/
theorem applyFlags_applicable (henabled : r.disableExposureCollection = false)
    {calls : List HostCall} (h : r.applyFlags chrono host request = .ok calls) :
    ∃ token, Applicable host request token := by
  rw [applyFlags, henabled, if_neg Bool.false_ne_true] at h
  -- the checks in the order of the source; the log comes behind the last one
  obtain ⟨sendTime, hsend, h⟩ := bind_eq_ok.mp h
  obtain ⟨sent, -, h⟩ := bind_eq_ok.mp h
  obtain ⟨received, -, h⟩ := bind_eq_ok.mp h
  obtain ⟨token, htoken, h⟩ := bind_eq_ok.mp h
  obtain ⟨entries, hentries, -⟩ := bind_eq_ok.mp h
  refine ⟨token, htoken, by rw [orFail_eq_ok hsend]; rfl, fun f hf => ?_⟩
  obtain ⟨entry, -, hentry⟩ := exists_of_forall₂ (mapM_eq_ok.mp hentries) hf
  exact flagToApply_ok hentry

/-- With valid times an apply that has all it needs is logged, once and in order. -/
theorem applyFlags_logs (henabled : r.disableExposureCollection = false)
    (calendar : chrono.Calendar) {token : ResolveToken} (h : Applicable host request token)
    (hvalid : TimesValid host.currentTime request) :
    ∃ sendTime entries, request.sendTime = some sendTime ∧
      List.Forall₂ (EntryOf token sendTime host.currentTime) request.flags entries ∧
      r.applyFlags chrono host request =
        .ok [.logAssign token.resolveId entries r.client r.state.sdk] := by
  obtain ⟨sendTime, hsend⟩ := Option.isSome_iff_exists.mp h.sendTime
  obtain ⟨sent, hsent, hsentAt⟩ := calendar.date (hvalid.send sendTime hsend)
  obtain ⟨received, hreceived, hreceivedAt⟩ := calendar.date hvalid.receive
  have hone : ∀ f ∈ request.flags, ∃ entry,
      flagToApply chrono sent received token f = .ok entry ∧
        EntryOf token sendTime host.currentTime f entry := by
    intro f hf
    obtain ⟨hassigned, happly⟩ := h.flags f hf
    obtain ⟨assigned, hassigned⟩ := Option.isSome_iff_exists.mp hassigned
    obtain ⟨applyTime, happly⟩ := Option.isSome_iff_exists.mp happly
    exact flagToApply_valid calendar hsentAt hreceivedAt (hvalid.send sendTime hsend)
      hvalid.receive hassigned happly (hvalid.apply f hf applyTime happly)
  obtain ⟨entries, hentries⟩ := forall₂_exists hone
  have hmap : request.flags.mapM (flagToApply chrono sent received token) = .ok entries :=
    mapM_eq_ok.mpr (hentries.imp fun _ _ h => h.1)
  refine ⟨sendTime, entries, hsend, hentries.imp fun _ _ h => h.2, ?_⟩
  rw [applyFlags, henabled, if_neg Bool.false_ne_true]
  simp only [hsend, hsent, hreceived, h.tokenV1, hmap, orFail, Option.elim_some, ok_bind]
  rfl

/-- **An apply is all or nothing.**  Without all it needs it is an error, which logs nothing; with
it, and valid times, it is logged once, with an entry for each flag in the order of the request.
With the collection of exposures disabled it succeeds and logs nothing, whatever the request. -/
theorem apply_all_or_nothing (chrono : Chrono) (calendar : chrono.Calendar)
    (host : ApplyHost Bytes Plain) (request : ApplyFlagsRequest Bytes) :
    (r.disableExposureCollection = true → r.applyFlags chrono host request = .ok []) ∧
    (r.disableExposureCollection = false →
      ((∀ token, ¬Applicable host request token) →
        ∃ e, r.applyFlags chrono host request = .error e) ∧
      ∀ token, Applicable host request token → TimesValid host.currentTime request →
        ∃ sendTime entries, request.sendTime = some sendTime ∧
          List.Forall₂ (EntryOf token sendTime host.currentTime) request.flags entries ∧
          r.applyFlags chrono host request =
            .ok [.logAssign token.resolveId entries r.client r.state.sdk]) := by
  constructor
  · intro hdisabled
    rw [applyFlags, hdisabled, if_pos rfl]
  · intro henabled
    constructor
    · intro hnone
      cases hresult : r.applyFlags chrono host request with
      | error e => exact ⟨e, rfl⟩
      | ok calls =>
          obtain ⟨token, htoken⟩ := r.applyFlags_applicable henabled hresult
          exact absurd htoken (hnone token)
    · intro token htoken hvalid
      exact r.applyFlags_logs henabled calendar htoken hvalid

end AccountResolver

/-! ### An apply of two flags -/

/-- Dates as nanoseconds, in the range of `chrono`; none of them is in a leap second. -/
def Sample.nanoDates : Chrono where
  DateTime := Int
  TimeDelta := Int
  fromTimestamp t :=
    if minDateSeconds ≤ t.seconds ∧ t.seconds ≤ maxDateSeconds ∧ 0 ≤ t.nanos ∧
      t.nanos < 1000000000 then some t.total else none
  signedDurationSince a b := a - b
  checkedSubSigned a d :=
    if minDateSeconds * 1000000000 ≤ a - d ∧ a - d < (maxDateSeconds + 1) * 1000000000 then
      some (a - d)
    else none
  toTimestamp a := .ofTotal a

def Sample.nanoCalendar : Sample.nanoDates.Calendar where
  At d n := d = n
  nanoseconds delta := delta
  fromTimestamp_at _ h₁ h₂ h₃ h₄ := ⟨_, if_pos ⟨h₁, h₂, h₃, h₄⟩, rfl⟩
  signedDurationSince_at h h' := h ▸ h' ▸ rfl
  checkedSubSigned_at _ h h₁ h₂ := by
    subst h
    exact ⟨_, if_pos ⟨h₁, h₂⟩, rfl⟩
  toTimestamp_at h := h ▸ rfl

/-- A token of two flags. -/
def Sample.pairToken : ResolveToken where
  resolveId := "r"
  assignments := (Finmap.singleton "flags/f" everyoneAssigned).insert "flags/g"
    { everyoneAssigned with flag := "flags/g" }

/-- One of them was applied five seconds before the request was sent, the other half a second. -/
def Sample.pairRequest : ApplyFlagsRequest Sample.Encoded where
  flags := [⟨"flags/g", some ⟨94, 500000000⟩⟩, ⟨"flags/f", some ⟨90, 0⟩⟩]
  resolveToken := .inr Sample.pairToken
  sendTime := some ⟨95, 0⟩

/-- Both are logged, by the clock of the resolver. -/
theorem apply_all_or_nothing_sample :
    ∃ entries, List.Forall₂ (EntryOf Sample.pairToken ⟨95, 0⟩ ⟨160, 0⟩)
        Sample.pairRequest.flags entries ∧
      entries.map (·.skewAdjustedAppliedTime.total) = [159500000000, 155000000000] ∧
      Sample.everyoneResolver.applyFlags Sample.nanoDates Sample.applyHost Sample.pairRequest =
        .ok [.logAssign "r" entries Sample.everyoneResolver.client none] := by
  have htoken : Applicable Sample.applyHost Sample.pairRequest Sample.pairToken :=
    ⟨rfl, rfl, List.forall_mem_cons.mpr ⟨⟨by decide, rfl⟩,
      List.forall_mem_singleton.mpr ⟨by decide, rfl⟩⟩⟩
  have hvalid : TimesValid Sample.applyHost.currentTime Sample.pairRequest := by
    refine ⟨⟨by decide, by decide, by decide, by decide⟩, ?_, ?_⟩
    · rintro t ⟨⟩
      exact ⟨by decide, by decide, by decide, by decide⟩
    · refine List.forall_mem_cons.mpr ⟨?_, List.forall_mem_singleton.mpr ?_⟩ <;> rintro t ⟨⟩ <;>
        exact ⟨by decide, by decide, by decide, by decide⟩
  obtain ⟨-, henabled⟩ := Sample.everyoneResolver.apply_all_or_nothing Sample.nanoDates
    Sample.nanoCalendar Sample.applyHost Sample.pairRequest
  obtain ⟨sendTime, entries, hsend, hentries, hlog⟩ :=
    (henabled rfl).2 Sample.pairToken htoken hvalid
  cases hsend
  refine ⟨entries, hentries, ?_, hlog⟩
  cases hentries with
  | cons hfirst hrest =>
      obtain ⟨-, _, ⟨⟩, hfirst⟩ := hfirst
      cases hrest with
      | cons hsecond hnil =>
          obtain ⟨-, _, ⟨⟩, hsecond⟩ := hsecond
          cases hnil
          rw [List.map_cons, List.map_singleton, hfirst, hsecond]
          rfl

/-- **Nothing is checked with the collection of exposures disabled**: a token that cannot be
decrypted, and no time, are no error. -/
theorem disabled_apply_succeeds :
    let r := { Sample.everyoneResolver with disableExposureCollection := true }
    let request : ApplyFlagsRequest Sample.Encoded :=
      ⟨[⟨"flags/f", none⟩], .inl ⟨none, [], []⟩, none⟩
    Sample.applyHost.tokenV1 request.resolveToken = .error (.decrypt "") ∧
      r.applyFlags Sample.nanoDates Sample.applyHost request = .ok [] :=
  ⟨rfl, rfl⟩

end ConfidenceResolver
