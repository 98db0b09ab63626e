import ConfidenceResolver.Hosts.EventTracking
import ConfidenceResolver.Logs.ByteLimit
import Mathlib.Data.List.Perm.Basic

/-!
# Hosts — delivery of events

What becomes of the events that `Track` puts into the engine, over every order of calls: a batch is
flushed once and published at most once, and there is no other copy of it.

* `events_delivered_once`: every event is in one place, and batches are taken in the order of the
  events.
* `publications_accounted`: the delivery counters and the reports of failures are those of the
  batches.
* `drain_delivers`: when `drainEvents` leaves nothing behind.
-/

namespace ConfidenceResolver

open ByteQueue (Sound Drained total)

/-- What the lengths satisfy: an empty response has no bytes, and the target can be counted. -/
structure EventSizes.Usable (sizes : EventSizes) : Prop where
  empty : sizes.response {} = 0
  wide : EventGuest.logTargetBytes < sizes.usizeMax

theorem EventSizes.Usable.pos {sizes : EventSizes} (hsizes : sizes.Usable) (e : Event) :
    0 < EventLogger.encodedLen sizes e :=
  fieldLen_pos ((Nat.zero_le _).trans_lt hsizes.wide) _

namespace EventProvider

variable (sizes : EventSizes)

/-! ### What is claimed -/

/-- The batches taken from the engine, in order. -/
def handed (p : EventProvider) : List (List Event) := p.publications.map (·.batch)

/-- The batch of a call that is still at the service. -/
def unansweredOf (f : Publication) : List (List Event) :=
  if f.phase = .publishing then [f.batch] else []

def unanswered (p : EventProvider) : List (List Event) := p.publications.flatMap unansweredOf

/-- Every event that the engine took was accepted once, or was in a batch that failed or is at the
service, or was lost in the engine, or is buffered.  What was taken out and what is buffered is in
the order of the calls of `Track`, and a batch is within the target or one event. -/
structure Custody (p : EventProvider) : Prop where
  once : ((p.accepted.map (·.1)).flatten ++ p.failed.flatten ++ p.unanswered.flatten ++ p.lost ++
    p.buffered).Perm p.tracked
  order : (p.handed.flatten ++ p.buffered).Sublist p.tracked
  sized : ∀ batch ∈ p.handed, batch ≠ [] ∧
    (total (EventLogger.encodedLen sizes) batch ≤ EventGuest.logTargetBytes ∨ ∃ e, batch = [e])

/-- The step neither loses an instance nor what it has returned. -/
def Spares : EventStep → Prop
  | .track how _ _ => how ≠ .fatal
  | .flush how _ => how ≠ .fatal ∧ how ≠ .unreadable
  | .publish _ _ | .advance _ => True
  | .close => False

/-- What is to be recorded of the batches that were answered. -/
def outcomes (p : EventProvider) : Counters
  | .eventsPublished => (p.accepted.map fun a => (a.1.length : Int) - a.2).sum
  | .eventBatchesSucceeded => p.accepted.length
  | .eventBatchesFailed => p.failed.length
  | .eventsRejected => (p.accepted.map fun a => (a.2 : Int)).sum
  | .flushSucceeded | .flushFailed => 0

/-- What the calls of `RecordEventBatch` add. -/
def recordedCounts (p : EventProvider) : Counters :=
  additions (p.recorded.flatMap fun c => recordEventBatch c.1 c.2.1 c.2.2)

/-- What a call is still going to record. -/
def unrecorded (f : Publication) : Counters :=
  match f.phase with
  | .failing => additions (recordEventBatch f.batch.length 0 false)
  | .recording publishedCount rejectedCount succeeded =>
      additions (recordEventBatch publishedCount rejectedCount succeeded)
  | .publishing | .attempting _ | .reporting | .done => 0

/-- The failure is about to be counted. -/
def uncounted (f : Publication) : Bool := f.phase = .failing

/-- The failure is counted, and the attempt about to be. -/
def unattempted (f : Publication) : Bool :=
  match f.phase with
  | .recording _ _ succeeded | .attempting succeeded => !succeeded
  | .publishing | .failing | .reporting | .done => false

/-- The batches answered are recorded as what they are, and each failure is counted for one report;
unless a report is due, fewer failures than a window wait for the next one, apart from those of
calls that are about to count their attempt. -/
structure Accounted (p : EventProvider) : Prop where
  recorded : p.recordedCounts + (p.publications.map unrecorded).sum = p.outcomes
  reports : p.reported.sum + p.eventPublishFailures + p.publications.countP uncounted =
    p.failed.length
  window : (∀ f ∈ p.publications, f.phase ≠ .reporting) →
    p.eventPublishFailures ≤
      p.eventPublishAttempts % eventPublishLogWindow + p.publications.countP unattempted

/-- No call is in progress. -/
def AtRest (p : EventProvider) : Prop := ∀ f ∈ p.publications, f.phase = .done

/-! ### The invariant -/

structure Inv (p : EventProvider) : Prop where
  sound : ∀ logger ∈ p.eventTracker.live,
    Sound sizes.usizeMax (EventLogger.encodedLen sizes) logger
  once : (p.handed.flatten ++ p.lost ++ p.buffered).Perm p.tracked
  order : (p.handed.flatten ++ p.buffered).Sublist p.tracked
  sized : ∀ batch ∈ p.handed, batch ≠ [] ∧
    (total (EventLogger.encodedLen sizes) batch ≤ EventGuest.logTargetBytes ∨ ∃ e, batch = [e])
  answered : (p.accepted.map (·.1) ++ p.failed ++ p.unanswered).Perm p.handed

variable {sizes} {p : EventProvider}

theorem inv_new : Inv sizes new where
  sound logger hlogger := by
    obtain rfl : ByteQueue.empty = logger := by
      simpa [new, EventTracker.new, EventTracker.live] using hlogger
    exact ByteQueue.sound_empty _ _
  once := .refl _
  order := .refl _
  sized batch hbatch := by cases hbatch
  answered := .refl _

/-- The calls that a flush adds, and their batches. -/
theorem batches_concat (f : List (List Event)) (out : List Event) :
    f ++ (if out.length = 0 then [] else [Publication.mk out .publishing]).map (·.batch) =
      f ++ (if out.length = 0 then [] else [out]) ∧
    (f ++ if out.length = 0 then [] else [out]).flatten = f.flatten ++ out := by
  constructor
  · split <;> rfl
  · rw [List.flatten_append]
    split
    · next hnil =>
        rw [List.eq_nil_of_length_eq_zero hnil]
        rfl
    · simp

/-- **A call into the engine**: a batch is taken out, events are lost, an event is put in. -/
theorem Inv.exchange (h : Inv sizes p) {t : EventTracker} (out lost put : List Event)
    (hsound : ∀ logger ∈ t.live, Sound sizes.usizeMax (EventLogger.encodedLen sizes) logger)
    (hmoved : (out ++ lost ++ t.buffered).Perm (p.buffered ++ put))
    (horder : (out ++ t.buffered).Sublist (p.buffered ++ put))
    (hsized : total (EventLogger.encodedLen sizes) out ≤ EventGuest.logTargetBytes ∨
      ∃ e, out = [e]) :
    Inv sizes
      { p with
        eventTracker := t
        publications :=
          p.publications ++ if out.length = 0 then [] else [Publication.mk out .publishing]
        tracked := p.tracked ++ put
        lost := p.lost ++ lost } := by
  obtain ⟨hbatches, hflatten⟩ := batches_concat p.handed out
  rw [handed, ← List.map_append, ← handed] at hbatches
  refine ⟨hsound, ?_, ?_, ?_, ?_⟩
  · rw [handed, hbatches, hflatten]
    have hold := Multiset.coe_eq_coe.mpr h.once
    have hnew := Multiset.coe_eq_coe.mpr hmoved
    simp only [← Multiset.coe_add] at hold hnew
    apply Multiset.coe_eq_coe.mp
    simp only [← Multiset.coe_add]
    -- what goes out was buffered or has just been put in, and the rest stays where it was
    calc (p.handed.flatten + out + (p.lost + lost) + t.buffered : Multiset Event)
        = p.handed.flatten + p.lost + (out + lost + t.buffered) := by abel
      _ = p.handed.flatten + p.lost + p.buffered + put := by
          rw [hnew]
          abel
      _ = p.tracked + put := by rw [hold]
  · rw [handed, hbatches, hflatten, List.append_assoc]
    have hput := h.order.append_right put
    rw [List.append_assoc] at hput
    exact (horder.append_left p.handed.flatten).trans hput
  · rw [handed, hbatches]
    intro batch hbatch
    rcases List.mem_append.mp hbatch with hbatch | hbatch
    · exact h.sized batch hbatch
    · split at hbatch
      · cases hbatch
      · next hne =>
          obtain rfl := List.mem_singleton.mp hbatch
          exact ⟨fun hnil => hne (by rw [hnil]; rfl), hsized⟩
  · have hnew :
        (if out.length = 0 then [] else [Publication.mk out .publishing]).flatMap unansweredOf =
          if out.length = 0 then [] else [out] := by
      split <;> rfl
    rw [handed, hbatches, unanswered, List.flatMap_append, hnew, ← List.append_assoc]
    exact h.answered.append_right _

/-- The call leaves the engine as it is, or it cannot be reached. -/
theorem Inv.untouched (h : Inv sizes p) {t : EventTracker} (hlive : t.live = p.eventTracker.live) :
    Inv sizes { p with eventTracker := t } := by
  have hmoved := h.exchange (t := t) [] [] [] (by simpa [hlive] using h.sound)
    (by simp [EventTracker.buffered, hlive]) (by simp [EventTracker.buffered, hlive])
    (.inl (Nat.zero_le _))
  simpa using hmoved

/-- The instance has trapped. -/
theorem Inv.trapped (h : Inv sizes p) {t : EventTracker} {reloads : Bool}
    (hlive : t.live = if reloads then some .empty else none) :
    Inv sizes { p with eventTracker := t, lost := p.lost ++ p.buffered } := by
  have hempty : t.buffered = [] := by cases reloads <;> simp [EventTracker.buffered, hlive]
  have hmoved := h.exchange (t := t) [] p.buffered []
    (by cases reloads <;> simp [hlive, ByteQueue.sound_empty]) (by simp [hempty]) (by simp [hempty])
    (.inl (Nat.zero_le _))
  simpa using hmoved

/-- `Track`. -/
theorem Inv.track (h : Inv sizes p) (how : EngineCall) (reloads : Bool)
    (request : TrackEventRequest) : Inv sizes (p.step sizes (.track how reloads request)) := by
  have hlive := (p.eventTracker.call_eq how reloads fun logger =>
    (EventGuest.trackEvent logger request, ())).1
  rw [← EventTracker.trackEvent] at hlive
  rw [step]
  generalize (p.eventTracker.trackEvent how reloads request).1 = t at hlive
  cases hlogger : p.eventTracker.live with
  | none =>
      rw [hlogger, Option.bind_none, ← hlogger] at hlive
      simpa [losses, hlogger] using h.untouched hlive
  | some logger =>
      have htaken : t.live = some (EventGuest.trackEvent logger request) →
          Inv sizes
            { p with eventTracker := t, tracked := p.tracked ++ [EventGuest.eventOf request] } := by
        intro hput
        have hheld : t.buffered = p.buffered ++ [EventGuest.eventOf request] := by
          simp only [buffered, EventTracker.buffered, hput, hlogger, Option.elim]
          exact ByteQueue.held_push _ _
        have hpushed : Sound sizes.usizeMax (EventLogger.encodedLen sizes)
            (EventGuest.trackEvent logger request) := (h.sound logger hlogger).push _
        have hmoved := h.exchange (t := t) [] [] [EventGuest.eventOf request]
          (by simpa [hput] using hpushed) (by simp [hheld]) (by simp [hheld]) (.inl (Nat.zero_le _))
        simpa using hmoved
      rw [hlogger, Option.bind_some] at hlive
      cases how with
      | returned | unreadable => simpa [losses, hlogger] using htaken hlive
      | refused => simpa [losses, hlogger] using h.untouched (hlive.trans hlogger.symm)
      | fatal => simpa [losses, hlogger] using h.trapped hlive

variable (sizes) in
/-- A flush of the queue into an empty response. -/
abbrev flushOfQueue (logger : EventLogger) : EventLogger × List Event × Nat :=
  logger.flush sizes.usizeMax (EventLogger.encodedLen sizes) 0 EventGuest.logTargetBytes false

/-- A flush of the guest is that. -/
theorem boundedFlushEvents_eq (hsizes : sizes.Usable) (logger : EventLogger) :
    EventGuest.boundedFlushEvents sizes logger =
      ((flushOfQueue sizes logger).1, ⟨(flushOfQueue sizes logger).2.1⟩) := by
  simp [flushOfQueue, EventGuest.boundedFlushEvents, EventLogger.boundedFlush,
    EventLogger.flushFill, hsizes.empty]

/-- A batch leaves the engine, and reaches the provider or is lost. -/
theorem Inv.flushed (hsizes : sizes.Usable) (h : Inv sizes p) {t : EventTracker}
    {logger : EventLogger} (hlogger : p.eventTracker.live = some logger)
    (hlive : t.live = some (EventGuest.boundedFlushEvents sizes logger).1) {out lost : List Event}
    (hsplit : out = [] ∧ lost = (EventGuest.boundedFlushEvents sizes logger).2.events ∨
      out = (EventGuest.boundedFlushEvents sizes logger).2.events ∧ lost = []) :
    Inv sizes
      { p with
        eventTracker := t
        publications :=
          p.publications ++ if out.length = 0 then [] else [Publication.mk out .publishing]
        lost := p.lost ++ lost } := by
  have hsound := h.sound logger hlogger
  have hheld := ByteQueue.flush_held sizes.usizeMax (EventLogger.encodedLen sizes) logger 0
    EventGuest.logTargetBytes false
  have hfits := hsound.flush_fits hsizes.pos hsizes.wide
  have hafter := hsound.flush 0 EventGuest.logTargetBytes false
  rw [boundedFlushEvents_eq hsizes] at hlive hsplit
  have hbuffered : p.buffered = logger.held := by simp [buffered, EventTracker.buffered, hlogger]
  have hrest : t.buffered = (flushOfQueue sizes logger).1.held := by
    simp [EventTracker.buffered, hlive]
  have hmoved := h.exchange (t := t) out lost []
    (by simpa [hlive] using hafter)
    (by rw [hrest, hbuffered, ← hheld]; rcases hsplit with ⟨rfl, rfl⟩ | ⟨rfl, rfl⟩ <;> simp)
    (by rw [hrest, hbuffered, ← hheld]; rcases hsplit with ⟨rfl, rfl⟩ | ⟨rfl, rfl⟩ <;> simp)
    (by rcases hsplit with ⟨rfl, rfl⟩ | ⟨rfl, rfl⟩; exact .inl (Nat.zero_le _); exact hfits)
  simpa using hmoved

/-- `flushAndPublishEvents`, up to the batch. -/
theorem Inv.flush (hsizes : sizes.Usable) (h : Inv sizes p) (how : EngineCall) (reloads : Bool) :
    Inv sizes (p.step sizes (.flush how reloads)) := by
  obtain ⟨hlive, hok⟩ := p.eventTracker.call_eq how reloads (EventGuest.boundedFlushEvents sizes)
  rw [← EventTracker.flushEvents] at hlive hok
  rw [step]
  generalize p.eventTracker.flushEvents sizes how reloads = called at hlive hok
  obtain ⟨t, result⟩ := called
  cases result with
  | ok batch =>
      obtain ⟨rfl, logger, hlogger, rfl⟩ := (hok batch).mp rfl
      rw [hlogger, Option.bind_some] at hlive
      have hbatch := h.flushed hsizes hlogger hlive (.inr ⟨rfl, rfl⟩)
      dsimp only
      split
      · next hnil => simpa [losses, hlogger, hnil] using hbatch
      · next hne => simpa [losses, hlogger, hne] using hbatch
  | error e =>
      cases hlogger : p.eventTracker.live with
      | none =>
          rw [hlogger, Option.bind_none, ← hlogger] at hlive
          simpa [losses, hlogger] using h.untouched hlive
      | some logger =>
          rw [hlogger, Option.bind_some] at hlive
          cases how with
          | returned =>
              have hreturned := (hok _).mpr ⟨rfl, logger, hlogger, rfl⟩
              cases hreturned
          | refused => simpa [losses, hlogger] using h.untouched (hlive.trans hlogger.symm)
          | unreadable =>
              simpa [losses, hlogger] using h.flushed hsizes hlogger hlive (.inl ⟨rfl, rfl⟩)
          | fatal => simpa [losses, hlogger] using h.trapped hlive

/-- A call that changes, and the others. -/
theorem perm_set {l : List Publication} {i : Nat} {f : Publication} (hi : l[i]? = some f)
    (f' : Publication) : ∃ rest, l.Perm (f :: rest) ∧ (l.set i f').Perm (f' :: rest) := by
  obtain ⟨hlt, rfl⟩ := List.getElem?_eq_some_iff.mp hi
  exact ⟨l.eraseIdx i, (List.getElem_cons_eraseIdx_perm hlt).symm,
    List.set_perm_cons_eraseIdx hlt f'⟩

/-- **A call goes on**: its batch is answered, or only counters change. -/
theorem Inv.goOn (h : Inv sizes p) {i : Nat} {f : Publication} (hi : p.publications[i]? = some f)
    (f' : Publication) (hbatch : f'.batch = f.batch) {accepted : List (List Event × Nat)}
    {failed : List (List Event)}
    (hmoved : (accepted.map (·.1) ++ failed ++ unansweredOf f').Perm
      (p.accepted.map (·.1) ++ p.failed ++ unansweredOf f))
    (attempts failures : Nat) (recorded : List (Int × Int × Bool)) (reported : List Nat) :
    Inv sizes
      { p.move i f' with
        accepted := accepted
        failed := failed
        eventPublishAttempts := attempts
        eventPublishFailures := failures
        recorded := recorded
        reported := reported } := by
  have hhanded : (p.publications.set i f').map (·.batch) = p.handed := by
    obtain ⟨hlt, rfl⟩ := List.getElem?_eq_some_iff.mp hi
    rw [List.map_set, hbatch, handed, ← List.map_set, List.set_getElem_self]
  refine ⟨h.sound, ?_, ?_, ?_, ?_⟩
  · rw [handed, move, hhanded]
    exact h.once
  · rw [handed, move, hhanded]
    exact h.order
  · rw [handed, move, hhanded]
    exact h.sized
  · rw [handed, move, hhanded]
    refine .trans ?_ h.answered
    obtain ⟨rest, hbefore, hafter⟩ := perm_set hi f'
    have hbefore := hbefore.flatMap_right unansweredOf
    have hafter := hafter.flatMap_right unansweredOf
    rw [List.flatMap_cons] at hbefore hafter
    have hanswered := hmoved.append_right (rest.flatMap unansweredOf)
    rw [List.append_assoc _ (unansweredOf f'), List.append_assoc _ (unansweredOf f)] at hanswered
    exact (hafter.append_left _).trans (hanswered.trans (hbefore.append_left _).symm)

/-- **One step** keeps the invariant. -/
theorem Inv.step (hsizes : sizes.Usable) (h : Inv sizes p) (e : EventStep) :
    Inv sizes (p.step sizes e) := by
  cases e with
  | track how reloads request => exact h.track how reloads request
  | flush how reloads => exact h.flush hsizes how reloads
  | publish i rejected =>
      rw [EventProvider.step]
      split
      · next batch hi =>
          cases rejected with
          | some rejected =>
              refine h.goOn hi ⟨batch, .recording (batch.length - rejected) rejected true⟩ rfl ?_
                _ _ _ _
              -- the batch goes from those that wait for an answer to those that were accepted
              have hcomm : ([batch] ++ p.failed).Perm (p.failed ++ [batch]) := List.perm_append_comm
              have hcomm := hcomm.append_left (p.accepted.map (·.1))
              simpa [unansweredOf, move] using hcomm
          | none =>
              refine h.goOn hi ⟨batch, .failing⟩ rfl ?_ _ _ _ _
              simp [unansweredOf, move]
      · exact h
  | advance i =>
      rw [EventProvider.step]
      split
      · next batch hi =>
          exact h.goOn hi ⟨batch, .recording batch.length 0 false⟩ rfl (.refl _) _ _ _ _
      · next batch publishedCount rejectedCount succeeded hi =>
          exact h.goOn hi ⟨batch, .attempting succeeded⟩ rfl (.refl _) _ _ _ _
      · next batch succeeded hi =>
          have hmoved : unansweredOf ⟨batch,
              if (p.eventPublishAttempts + 1) % eventPublishLogWindow = 0 then .reporting
              else .done⟩ = [] := by
            split <;> rfl
          refine h.goOn hi ⟨batch, if (p.eventPublishAttempts + 1) % eventPublishLogWindow = 0
            then .reporting else .done⟩ rfl ?_ _ _ _ _
          rw [hmoved]
          exact .refl _
      · next batch hi => exact h.goOn hi ⟨batch, .done⟩ rfl (.refl _) _ _ _ _
      · exact h
  | close =>
      have hclosed : p.eventTracker.close.live = none := by
        simp [EventTracker.close, EventTracker.live]
      have hempty : p.eventTracker.close.buffered = [] := by simp [EventTracker.buffered, hclosed]
      have hmoved := h.exchange (t := p.eventTracker.close) [] p.buffered []
        (by simp [hclosed]) (by simp [hempty]) (by simp [hempty]) (.inl (Nat.zero_le _))
      simpa [EventProvider.step] using hmoved

/-- **A run** keeps the invariant. -/
theorem Inv.run (hsizes : sizes.Usable) (h : Inv sizes p) (es : List EventStep) :
    Inv sizes (p.run sizes es) := by
  induction es generalizing p with
  | nil => exact h
  | cons e es ih => exact ih (h.step hsizes e)

theorem Inv.custody (h : Inv sizes p) : Custody sizes p where
  once := by
    have hflatten := h.answered.flatten
    rw [List.flatten_append, List.flatten_append] at hflatten
    rw [List.append_assoc _ p.lost]
    refine .trans (hflatten.append_right _) ?_
    rw [← List.append_assoc]
    exact h.once
  order := h.order
  sized := h.sized

/-- A step that spares the engine loses nothing. -/
theorem lost_step (hlost : p.lost = []) {e : EventStep} (he : Spares e) :
    (p.step sizes e).lost = [] := by
  cases e with
  | track how reloads request =>
      cases how <;> cases hlive : p.eventTracker.live <;> simp_all [step, losses, Spares]
  | flush how reloads =>
      rw [step]
      generalize p.eventTracker.flushEvents sizes how reloads = called
      obtain ⟨t, result⟩ := called
      have hnone : ∀ returned, losses p.eventTracker how returned = [] := by
        intro returned
        cases how <;> cases hlive : p.eventTracker.live <;> simp_all [losses, Spares]
      cases result with
      | ok batch =>
          dsimp only
          split <;> simp [hlost, hnone]
      | error e => simp [hlost, hnone]
  | publish i rejected =>
      rw [step]
      split
      · cases rejected <;> exact hlost
      · exact hlost
  | advance i =>
      rw [step]
      split <;> exact hlost
  | close => exact he.elim

theorem lost_run (hlost : p.lost = []) {es : List EventStep} (hes : ∀ e ∈ es, Spares e) :
    (p.run sizes es).lost = [] := by
  induction es generalizing p with
  | nil => exact hlost
  | cons e es ih =>
      obtain ⟨he, hes⟩ := List.forall_mem_cons.mp hes
      exact ih (lost_step hlost he) hes

/-! ### Accounts -/

theorem accounted_new : Accounted new where
  recorded := by
    funext k
    cases k <;> rfl
  reports := rfl
  window _ := Nat.zero_le _

/-- The sum changes by that of one call. -/
theorem sum_set {A : Type*} [AddCommMonoid A] (amount : Publication → A) {l : List Publication}
    {i : Nat} {f : Publication} (hi : l[i]? = some f) (f' : Publication) :
    ∃ others, (l.map amount).sum = amount f + others ∧
      ((l.set i f').map amount).sum = amount f' + others := by
  obtain ⟨rest, hbefore, hafter⟩ := perm_set hi f'
  refine ⟨(rest.map amount).sum, ?_, ?_⟩
  · rw [(hbefore.map amount).sum_eq, List.map_cons, List.sum_cons]
  · rw [(hafter.map amount).sum_eq, List.map_cons, List.sum_cons]

/-- The number of calls changes by one call. -/
theorem countP_set (q : Publication → Bool) {l : List Publication} {i : Nat} {f : Publication}
    (hi : l[i]? = some f) (f' : Publication) :
    ∃ others, l.countP q = others + (if q f then 1 else 0) ∧
      (l.set i f').countP q = others + if q f' then 1 else 0 := by
  obtain ⟨rest, hbefore, hafter⟩ := perm_set hi f'
  refine ⟨rest.countP q, ?_, ?_⟩
  · rw [hbefore.countP_eq, List.countP_cons]
  · rw [hafter.countP_eq, List.countP_cons]

/-- A call that is not at its report, and is not brought there. -/
theorem reporting_set {l : List Publication} {i : Nat} {f f' : Publication} (hi : l[i]? = some f)
    (hf : f.phase ≠ .reporting) (h : ∀ g ∈ l.set i f', g.phase ≠ .reporting) :
    ∀ g ∈ l, g.phase ≠ .reporting := by
  intro g hg
  obtain ⟨j, hlt, rfl⟩ := List.getElem_of_mem hg
  by_cases hij : i = j
  · subst hij
    obtain ⟨_, rfl⟩ := List.getElem?_eq_some_iff.mp hi
    exact hf
  · refine h _ (List.mem_iff_getElem.mpr ⟨j, by simpa using hlt, ?_⟩)
    exact List.getElem_set_ne hij _

/-- **A call goes on**, and what it was going to count or record is counted or recorded. -/
theorem Accounted.goOn (h : Accounted p) {i : Nat} {f f' : Publication}
    (hi : p.publications[i]? = some f) {p' : EventProvider}
    (hset : p'.publications = p.publications.set i f') {gained : Counters}
    (houtcomes : p'.outcomes = p.outcomes + gained)
    (hrecorded : p'.recordedCounts + unrecorded f' = p.recordedCounts + unrecorded f + gained)
    (hreports : p'.reported.sum + p'.eventPublishFailures + (if uncounted f' then 1 else 0) +
        p.failed.length =
      p.reported.sum + p.eventPublishFailures + (if uncounted f then 1 else 0) + p'.failed.length)
    (hwindow : p'.eventPublishFailures = 0 ∨ f.phase ≠ .reporting ∧ (f'.phase ≠ .reporting →
      p'.eventPublishFailures + p.eventPublishAttempts % eventPublishLogWindow +
          (if unattempted f then 1 else 0) ≤
        p.eventPublishFailures + p'.eventPublishAttempts % eventPublishLogWindow +
          if unattempted f' then 1 else 0)) : Accounted p' := by
  refine ⟨?_, ?_, fun hnone => ?_⟩
  · -- the other publications count as before, so that only the counts of this one move
    obtain ⟨others, hbefore, hafter⟩ := sum_set unrecorded hi f'
    have hold := h.recorded
    rw [hset, hafter]
    rw [hbefore] at hold
    calc p'.recordedCounts + (unrecorded f' + others)
        = p.recordedCounts + (unrecorded f + others) + gained := by
          rw [← add_assoc, hrecorded]
          abel
      _ = p'.outcomes := by rw [hold, houtcomes]
  · obtain ⟨others, hbefore, hafter⟩ := countP_set uncounted hi f'
    have hold := h.reports
    rw [hset, hafter]
    rw [hbefore] at hold
    omega
  · rcases hwindow with hzero | ⟨hphase, hstep⟩
    · rw [hzero]
      exact Nat.zero_le _
    · rw [hset] at hnone
      obtain ⟨others, hbefore, hafter⟩ := countP_set unattempted hi f'
      have hold := h.window (reporting_set hi hphase hnone)
      have hat := hstep (hnone f' (List.mem_iff_getElem?.mpr
        ⟨i, List.getElem?_set_self (List.getElem?_eq_some_iff.mp hi).1⟩))
      rw [hset, hafter]
      rw [hbefore] at hold
      omega

/-- A new call records nothing yet. -/
theorem Accounted.launch (h : Accounted p) {t : EventTracker} {tracked lost : List Event}
    (new : List Publication) (hnew : ∀ f ∈ new, f.phase = .publishing) :
    Accounted
      { p with
        eventTracker := t
        publications := p.publications ++ new
        tracked := tracked
        lost := lost } := by
  have hnone : (new.map unrecorded).sum = 0 ∧ new.countP uncounted = 0 ∧
      new.countP unattempted = 0 := by
    refine ⟨List.sum_eq_zero fun c hc => ?_, List.countP_eq_zero.mpr fun f hf => ?_,
      List.countP_eq_zero.mpr fun f hf => ?_⟩
    · obtain ⟨f, hf, rfl⟩ := List.mem_map.mp hc
      simp [unrecorded, hnew f hf]
    · simp [uncounted, hnew f hf]
    · simp [unattempted, hnew f hf]
  obtain ⟨hrecorded, huncounted, hunattempted⟩ := hnone
  refine ⟨?_, ?_, fun hreporting => ?_⟩
  · rw [List.map_append, List.sum_append, hrecorded, add_zero]
    exact h.recorded
  · rw [List.countP_append, huncounted]
    exact h.reports
  · rw [List.countP_append, hunattempted]
    exact h.window fun f hf => hreporting f (List.mem_append_left new hf)

/-! A batch is answered, or recorded. -/

theorem outcomes_accepted {p' : EventProvider} {batch : List Event} {rejected : Nat}
    (haccepted : p'.accepted = p.accepted ++ [(batch, rejected)]) (hfailed : p'.failed = p.failed) :
    p'.outcomes = p.outcomes +
      additions (recordEventBatch (batch.length - rejected) rejected true) := by
  funext k
  cases k <;> simp [outcomes, additions, recordEventBatch, haccepted, hfailed]

theorem outcomes_failed {p' : EventProvider} {batch : List Event}
    (haccepted : p'.accepted = p.accepted) (hfailed : p'.failed = p.failed ++ [batch]) :
    p'.outcomes = p.outcomes + additions (recordEventBatch batch.length 0 false) := by
  funext k
  cases k <;> simp [outcomes, additions, recordEventBatch, haccepted, hfailed]

theorem outcomes_same {p' : EventProvider} (haccepted : p'.accepted = p.accepted)
    (hfailed : p'.failed = p.failed) : p'.outcomes = p.outcomes + 0 := by
  funext k
  cases k <;> simp [outcomes, haccepted, hfailed]

theorem recordedCounts_concat {p' : EventProvider} {c : Int × Int × Bool}
    (h : p'.recorded = p.recorded ++ [c]) :
    p'.recordedCounts = p.recordedCounts + additions (recordEventBatch c.1 c.2.1 c.2.2) := by
  simp [recordedCounts, additions, h]

/-- **One step** keeps the accounts. -/
theorem Accounted.step (h : Accounted p) (e : EventStep) : Accounted (p.step sizes e) := by
  cases e with
  | track how reloads request => simpa [EventProvider.step] using h.launch [] (by simp)
  | flush how reloads =>
      rw [EventProvider.step]
      generalize p.eventTracker.flushEvents sizes how reloads = called
      obtain ⟨t, result⟩ := called
      cases result with
      | ok batch =>
          dsimp only
          split
          · simpa using h.launch [] (by simp)
          · exact h.launch [⟨batch.events, .publishing⟩] (by simp)
      | error e => simpa using h.launch [] (by simp)
  | publish i rejected =>
      rw [EventProvider.step]
      split
      · next batch hi =>
          cases rejected with
          | some rejected =>
              refine h.goOn hi rfl (outcomes_accepted rfl rfl) ?_ ?_ (.inr ⟨by simp, fun _ => ?_⟩)
              · change p.recordedCounts + additions _ = p.recordedCounts + 0 + additions _
                rw [add_zero]
              · simp [uncounted, move]
              · simp [unattempted, move]
          | none =>
              refine h.goOn hi rfl (outcomes_failed rfl rfl) ?_ ?_ (.inr ⟨by simp, fun _ => ?_⟩)
              · change p.recordedCounts + additions _ = p.recordedCounts + 0 + additions _
                rw [add_zero]
              · simp [uncounted, move]
                omega
              · simp [unattempted, move]
      · exact h
  -- the goroutine goes on after its answer, one atomic operation at a time
  | advance i =>
      rw [EventProvider.step]
      split
      · next batch hi =>
          refine h.goOn hi rfl (outcomes_same rfl rfl) (add_zero _).symm ?_
            (.inr ⟨by simp, fun _ => ?_⟩)
          · simp [uncounted, move]
            omega
          · simp [unattempted, move]
            omega
      · next batch publishedCount rejectedCount succeeded hi =>
          refine h.goOn hi rfl (outcomes_same rfl rfl) ?_ ?_ (.inr ⟨by simp, fun _ => ?_⟩)
          · rw [recordedCounts_concat (p := p) rfl]
            simp only [unrecorded, add_zero]
          · simp [uncounted, move]
          · simp [unattempted, move]
      · next batch succeeded hi =>
          refine h.goOn hi rfl (outcomes_same rfl rfl) ?_ ?_ (.inr ⟨by simp, fun hnone => ?_⟩)
          · change p.recordedCounts + _ = p.recordedCounts + 0 + 0
            by_cases hdue : (p.eventPublishAttempts + 1) % eventPublishLogWindow = 0 <;>
              simp [unrecorded, hdue]
          · by_cases hdue : (p.eventPublishAttempts + 1) % eventPublishLogWindow = 0 <;>
              simp [uncounted, move, hdue]
          · -- the attempts go up by one within the window
            have hwindow : (p.eventPublishAttempts + 1) % eventPublishLogWindow ≠ 0 := by
              intro hzero
              exact hnone (if_pos hzero)
            rw [eventPublishLogWindow] at hwindow
            cases succeeded <;> simp [unattempted, move, eventPublishLogWindow, hwindow] <;> omega
      · next batch hi =>
          refine h.goOn hi rfl (outcomes_same rfl rfl) (add_zero _).symm ?_ (.inl rfl)
          simp [uncounted, move]
      · exact h
  | close => simpa [EventProvider.step] using h.launch [] (by simp)

/-- **A run** keeps the accounts. -/
theorem Accounted.run (h : Accounted p) (es : List EventStep) : Accounted (p.run sizes es) := by
  induction es generalizing p with
  | nil => exact h
  | cons e es ih => exact ih (h.step e)

/-- With no call in progress, nothing is left to record or to count. -/
theorem Accounted.atRest (h : Accounted p) (hrest : p.AtRest) :
    p.recordedCounts = p.outcomes ∧ p.reported.sum + p.eventPublishFailures = p.failed.length ∧
      p.eventPublishFailures < eventPublishLogWindow := by
  have hrecorded : (p.publications.map unrecorded).sum = 0 := by
    refine List.sum_eq_zero fun c hc => ?_
    obtain ⟨f, hf, rfl⟩ := List.mem_map.mp hc
    simp [unrecorded, hrest f hf]
  have huncounted : p.publications.countP uncounted = 0 :=
    List.countP_eq_zero.mpr fun f hf => by simp [uncounted, hrest f hf]
  have hunattempted : p.publications.countP unattempted = 0 :=
    List.countP_eq_zero.mpr fun f hf => by simp [unattempted, hrest f hf]
  have hwindow := h.window fun f hf => by simp [hrest f hf]
  refine ⟨?_, ?_, ?_⟩
  · rw [← h.recorded, hrecorded, add_zero]
  · rw [← h.reports, huncounted, Nat.add_zero]
  · have hmod := Nat.mod_lt p.eventPublishAttempts (show 0 < eventPublishLogWindow by decide)
    omega

/-! ### Drains -/

/-- A flush that returns, of an engine that can be reached. -/
theorem step_flush_returned (hsizes : sizes.Usable) {logger : EventLogger}
    (hlogger : p.eventTracker.live = some logger) (reloads : Bool) :
    (p.step sizes (.flush .returned reloads)).eventTracker.live =
        some (flushOfQueue sizes logger).1 ∧
      (p.step sizes (.flush .returned reloads)).publications =
        p.publications ++
          if (flushOfQueue sizes logger).2.1.length = 0 then []
          else [⟨(flushOfQueue sizes logger).2.1, .publishing⟩] := by
  obtain ⟨hlive, hok⟩ := p.eventTracker.call_eq .returned reloads
    (EventGuest.boundedFlushEvents sizes)
  rw [← EventTracker.flushEvents] at hlive hok
  rw [hlogger, Option.bind_some, boundedFlushEvents_eq hsizes] at hlive
  have hbatch := (hok _).mpr ⟨rfl, logger, hlogger, rfl⟩
  rw [boundedFlushEvents_eq hsizes] at hbatch
  rw [step]
  generalize p.eventTracker.flushEvents sizes .returned reloads = called at hlive hbatch
  obtain ⟨t, result⟩ := called
  obtain rfl : result = _ := hbatch
  dsimp only
  split
  · exact ⟨hlive, (List.append_nil _).symm⟩
  · exact ⟨hlive, rfl⟩

/-- The last call does all its steps. -/
theorem run_settles (sizes : EventSizes) {l : List Publication} {batch : List Event}
    (hlast : p.publications = l ++ [⟨batch, .publishing⟩]) (rejected : Option Nat) :
    (p.run sizes [.publish l.length rejected, .advance l.length, .advance l.length,
        .advance l.length, .advance l.length]).publications = l ++ [⟨batch, .done⟩] ∧
      (p.run sizes [.publish l.length rejected, .advance l.length, .advance l.length,
        .advance l.length, .advance l.length]).eventTracker = p.eventTracker := by
  by_cases hdue : (p.eventPublishAttempts + 1) % eventPublishLogWindow = 0 <;> cases rejected <;>
    simp [run, step, move, hlast, hdue, List.set_append_right]

/-- `flushAndPublishEvents` is a run. -/
theorem flushAndPublishEvents_run (sizes : EventSizes) (p : EventProvider) (round : Round) :
    ∃ es, (p.flushAndPublishEvents sizes round).1 = p.run sizes es := by
  rw [flushAndPublishEvents]
  split
  · exact ⟨[.flush round.how round.reloads], rfl⟩
  · exact ⟨.flush round.how round.reloads :: _, rfl⟩

/-- `drainEvents` is a run. -/
theorem drainRounds_run (sizes : EventSizes) (rounds : Nat → Round) (left : Nat) :
    ∀ (i : Nat) (p : EventProvider), ∃ es, drainRounds sizes rounds left i p = p.run sizes es := by
  induction left with
  | zero => exact fun _ _ => ⟨[], rfl⟩
  | succ left ih =>
      intro i p
      obtain ⟨es, hes⟩ := flushAndPublishEvents_run sizes p (rounds i)
      rw [drainRounds]
      dsimp only
      split
      · exact ⟨es, hes⟩
      · split
        · exact ⟨es, hes⟩
        · obtain ⟨es', hes'⟩ := ih (i + 1) (p.flushAndPublishEvents sizes (rounds i)).1
          refine ⟨es ++ es', ?_⟩
          rw [hes', hes, EventProvider.run, EventProvider.run, EventProvider.run, List.foldl_append]

/-- A drain keeps custody, whatever comes from outside. -/
theorem Inv.drainEvents (hsizes : sizes.Usable) (h : Inv sizes p) (rounds : Nat → Round) :
    Inv sizes (p.drainEvents sizes rounds) := by
  obtain ⟨es, hes⟩ := drainRounds_run sizes rounds maxDrainBatches 0 p
  rw [EventProvider.drainEvents, hes]
  exact h.run hsizes es

/-- **A round of a drain** that reaches the engine. -/
theorem round_returned (hsizes : sizes.Usable) {logger : EventLogger}
    (hlogger : p.eventTracker.live = some logger) {round : Round} (hhow : round.how = .returned) :
    (p.flushAndPublishEvents sizes round).1.eventTracker.live =
        some (flushOfQueue sizes logger).1 ∧
      (p.flushAndPublishEvents sizes round).1.publications =
        p.publications ++
          (if (flushOfQueue sizes logger).2.1.length = 0 then []
          else [⟨(flushOfQueue sizes logger).2.1, .done⟩]) ∧
      (p.flushAndPublishEvents sizes round).2 =
        (flushOfQueue sizes logger).2.1.length := by
  obtain ⟨hlive, hflushed⟩ := step_flush_returned hsizes hlogger round.reloads
  rw [flushAndPublishEvents, hhow]
  generalize (flushOfQueue sizes logger).2.1 = out at hflushed
  by_cases hnone : out.length = 0
  · rw [if_pos hnone, List.append_nil] at hflushed
    simp [hlive, hflushed, hnone]
  · rw [if_neg hnone] at hflushed
    have hfound :
        (p.step sizes (.flush .returned round.reloads)).publications[p.publications.length]? =
          some ⟨out, .publishing⟩ := by simp [hflushed]
    obtain ⟨hsettled, htracker⟩ := run_settles sizes hflushed round.rejected
    simp only [hfound, hsettled, htracker, hlive, if_neg hnone]
    exact ⟨trivial, trivial, trivial⟩

/-- **The rounds of a drain** that all reach the engine: flushes in a row, with their batches
published, that leave nothing or have used up the rounds. -/
theorem drainRounds_drained (hsizes : sizes.Usable) {rounds : Nat → Round}
    (hrounds : ∀ i, (rounds i).how = .returned ∧ (rounds i).done = false) (left : Nat) :
    ∀ (i : Nat) (p : EventProvider) (logger : EventLogger), p.eventTracker.live = some logger →
      Sound sizes.usizeMax (EventLogger.encodedLen sizes) logger →
      ∃ bs logger', Drained sizes.usizeMax (EventLogger.encodedLen sizes) EventGuest.logTargetBytes
          logger bs logger' ∧
        (drainRounds sizes rounds left i p).publications =
          p.publications ++ bs.map (Publication.mk · .done) ∧
        (drainRounds sizes rounds left i p).buffered = logger'.held ∧
        (logger'.held = [] ∨ bs.length = left) := by
  induction left with
  | zero =>
      intro i p logger hlogger _
      refine ⟨[], logger, .nil logger, by simp [drainRounds], ?_, .inr rfl⟩
      simp [drainRounds, EventTracker.buffered, hlogger]
  | succ left ih =>
      intro i p logger hlogger hsound
      obtain ⟨hhow, hdone⟩ := hrounds i
      obtain ⟨hlive, hpublications, hflushed⟩ := round_returned hsizes hlogger hhow
      rw [drainRounds]
      dsimp only
      rw [hflushed]
      -- a flush that gives nothing has left nothing, and ends the rounds
      by_cases hnone : (flushOfQueue sizes logger).2.1.length = 0
      · have hnil := List.eq_nil_of_length_eq_zero hnone
        have hempty := (hsound.flush_leaves hsizes.pos (by decide)).1 hnil
        have hheld := ByteQueue.flush_held sizes.usizeMax (EventLogger.encodedLen sizes) logger 0
          EventGuest.logTargetBytes false
        rw [hnil, List.nil_append] at hheld
        rw [if_pos hnone]
        rw [if_pos hnone, List.append_nil] at hpublications
        refine ⟨[], logger, .nil logger, by simp [hpublications], ?_, .inl hempty⟩
        simp [EventTracker.buffered, hlive, hheld]
      · obtain ⟨bs, logger', hdrained, hrest, hbuffered, hleft⟩ := ih (i + 1) _ _ hlive
          (hsound.flush 0 EventGuest.logTargetBytes false)
        rw [if_neg hnone, hdone, if_neg Bool.false_ne_true]
        refine ⟨_ :: bs, logger', .cons (fun hnil => hnone (by rw [hnil]; rfl)) hdrained, ?_,
          hbuffered, hleft.imp_right (congrArg (· + 1))⟩
        rw [hrest, hpublications, if_neg hnone]
        simp

/-! ### Main results -/

/-- **Events are delivered at most once**, for every order of calls, whatever traps, fails or is
rejected; and when the engine is spared, the batches and the buffer are the events tracked. -/
theorem events_delivered_once (hsizes : sizes.Usable) (es : List EventStep) :
    Custody sizes (new.run sizes es) ∧
      ((∀ e ∈ es, Spares e) →
        (new.run sizes es).handed.flatten ++ (new.run sizes es).buffered =
          (new.run sizes es).tracked) := by
  have hinv := inv_new.run hsizes es
  refine ⟨hinv.custody, fun hes => hinv.order.eq_of_length ?_⟩
  have hlength := hinv.once.length_eq
  rwa [lost_run rfl hes, List.append_nil] at hlength

end EventProvider

namespace Sample

def checkout : TrackEventRequest := { eventName := "checkout" }

theorem eventSizes_usable : eventSizes.Usable := ⟨rfl, by decide⟩

/-- The engine traps between two events; the batch of the second is accepted. -/
def trapBetween : List EventStep :=
  [.track .returned true checkout, .track .fatal true checkout, .track .returned true checkout,
    .flush .returned true, .publish 0 (some 0)]

def named (eventName : String) : TrackEventRequest := { eventName := eventName }

/-- Two events of one name. -/
def twice (eventName : String) : List EventStep :=
  [.track .returned true (named eventName), .track .returned true (named eventName)]

/-- Every call returns, and the service accepts everything. -/
def accepting (_ : Nat) : EventProvider.Round := ⟨.returned, true, some 0, false⟩

theorem accepting_rounds (i : Nat) :
    (accepting i).how = .returned ∧ (accepting i).done = false :=
  ⟨rfl, rfl⟩

theorem buffered_twice (eventName : String) :
    (EventProvider.new.run eventSizes (twice eventName)).buffered =
      [EventGuest.eventOf (named eventName), EventGuest.eventOf (named eventName)] := rfl

theorem encodedLen_named {eventName : String} (h : eventName.length = 1500000) :
    EventLogger.encodedLen eventSizes (EventGuest.eventOf (named eventName)) = 1500023 := by
  have hlength : (EventGuest.eventOf (named eventName)).eventDefinition.length = 1500017 := by
    rw [EventGuest.eventOf, String.length_append]
    exact congrArg (EventGuest.eventDefPrefix.length + ·) h
  have hlen : eventSizes.event (EventGuest.eventOf (named eventName)) = 1500019 :=
    congrArg (· + 2) hlength
  rw [EventLogger.encodedLen, hlen]
  decide

end Sample

namespace EventProvider

/-- One of two events is lost, the other accepted. -/
theorem events_delivered_once_trap :
    (new.run Sample.eventSizes Sample.trapBetween).tracked.length = 2 ∧
      (new.run Sample.eventSizes Sample.trapBetween).lost.length = 1 ∧
      (new.run Sample.eventSizes Sample.trapBetween).accepted.length = 1 ∧
      Custody Sample.eventSizes (new.run Sample.eventSizes Sample.trapBetween) :=
  ⟨rfl, rfl, rfl, (events_delivered_once Sample.eventSizes_usable Sample.trapBetween).1⟩

/-- **What the delivery counters say is what happened**, for every order of steps: with the calls in
progress taken into account, and without them once there are none. -/
theorem publications_accounted (sizes : EventSizes) (es : List EventStep) :
    Accounted (new.run sizes es) ∧
      ((new.run sizes es).AtRest →
        (new.run sizes es).recordedCounts = (new.run sizes es).outcomes ∧
          (new.run sizes es).reported.sum + (new.run sizes es).eventPublishFailures =
            (new.run sizes es).failed.length ∧
          (new.run sizes es).eventPublishFailures < eventPublishLogWindow) :=
  ⟨accounted_new.run es, (accounted_new.run es).atRest⟩

/-- **A drain leaves nothing behind** when its calls reach the engine in time and the events
buffered have no more bytes than half as many targets as there are rounds: each of them is in one
batch that was published, in order. -/
theorem drain_delivers {sizes : EventSizes} (hsizes : sizes.Usable) (es : List EventStep)
    {rounds : Nat → Round}
    (hrounds : ∀ i, (rounds i).how = .returned ∧ (rounds i).done = false)
    (hlive : (new.run sizes es).eventTracker.live.isSome)
    (hsmall : total (EventLogger.encodedLen sizes) (new.run sizes es).buffered ≤
      maxDrainBatches / 2 * EventGuest.logTargetBytes) :
    Custody sizes ((new.run sizes es).drainEvents sizes rounds) ∧
      ((new.run sizes es).drainEvents sizes rounds).buffered = [] ∧
      ∃ bs : List (List Event), ((new.run sizes es).drainEvents sizes rounds).publications =
          (new.run sizes es).publications ++ bs.map (Publication.mk · .done) ∧
        bs.flatten = (new.run sizes es).buffered := by
  have hinv := inv_new.run hsizes es
  refine ⟨(hinv.drainEvents hsizes rounds).custody, ?_⟩
  generalize new.run sizes es = p at *
  obtain ⟨logger, hlogger⟩ := Option.isSome_iff_exists.mp hlive
  have hsound := hinv.sound logger hlogger
  have hbuffered : p.buffered = logger.held := by simp [EventTracker.buffered, hlogger]
  obtain ⟨bs, logger', hdrained, hpublications, hafter, hleft⟩ := drainRounds_drained hsizes hrounds
    maxDrainBatches 0 p logger hlogger hsound
  have hheld := hdrained.held_eq
  have hempty : logger'.held = [] := by
    refine hleft.resolve_right fun hall => ?_
    -- as many batches as there are rounds have more bytes than there are
    have hbytes := hdrained.bytes hsizes.pos (by decide) hsound
    rw [hall, ← hbuffered, Nat.mul_add] at hbytes
    have hhalf : 0 < maxDrainBatches / 2 := by decide
    omega
  rw [hempty, List.append_nil] at hheld
  exact ⟨hafter.trans hempty, bs, hpublications, hheld.trans hbuffered.symm⟩

/-- Batches of one event each are those of their events. -/
theorem map_flatten_of_singletons {bs : List (List Event)} (h : ∀ b ∈ bs, ∃ e, b = [e]) :
    bs.flatten.map (fun e => [e]) = bs := by
  induction bs with
  | nil => rfl
  | cons b bs ih =>
      obtain ⟨e, rfl⟩ := h b List.mem_cons_self
      rw [List.flatten_cons, List.map_append, ih fun b' hb' => h b' (List.mem_cons_of_mem _ hb')]
      rfl

/-- Two events are drained, of 1.5 MB each: in two batches. -/
theorem drain_delivers_two :
    ∃ e : Event, ∃ p : EventProvider, p.buffered = [e, e] ∧
      let drained := p.drainEvents Sample.eventSizes Sample.accepting
      drained.buffered = [] ∧ drained.handed = [[e], [e]] := by
  let eventName := String.ofList (List.replicate 1500000 'c')
  have hname : eventName.length = 1500000 := by
    rw [String.length_ofList, List.length_replicate]
  have hlen := Sample.encodedLen_named hname
  have hbuffered := Sample.buffered_twice eventName
  have htotal : total (EventLogger.encodedLen Sample.eventSizes)
      (new.run Sample.eventSizes (Sample.twice eventName)).buffered = 3000046 := by
    rw [hbuffered, ByteQueue.total_cons, ByteQueue.total_cons, hlen]
    rfl
  obtain ⟨hcustody, hempty, bs, hpublications, hflatten⟩ := drain_delivers Sample.eventSizes_usable
    (Sample.twice eventName) Sample.accepting_rounds rfl (by rw [htotal]; decide)
  have hhanded : ((new.run Sample.eventSizes (Sample.twice eventName)).drainEvents
      Sample.eventSizes Sample.accepting).handed = bs := by
    rw [handed, hpublications, List.map_append, List.map_map]
    exact List.map_id bs
  have hsingle : ∀ b ∈ bs, ∃ e, b = [e] := by
    intro b hb
    obtain ⟨hne, hsmall | hone⟩ := hcustody.sized b (hhanded ▸ hb)
    · rcases b with _ | ⟨e, _ | ⟨e', b⟩⟩
      · exact absurd rfl hne
      · exact ⟨e, rfl⟩
      · have hmem : ∀ x ∈ e :: e' :: b, x = EventGuest.eventOf (Sample.named eventName) := by
          intro x hx
          have hin := List.mem_flatten_of_mem hb hx
          rw [hflatten, hbuffered] at hin
          simpa using hin
        rw [hmem e (by simp), hmem e' (by simp), ByteQueue.total_cons, ByteQueue.total_cons,
          hlen] at hsmall
        rw [EventGuest.logTargetBytes] at hsmall
        omega
    · exact hone
  refine ⟨_, _, hbuffered, hempty, ?_⟩
  rw [hhanded, ← map_flatten_of_singletons hsingle, hflatten, hbuffered]
  rfl

end EventProvider

end ConfidenceResolver
