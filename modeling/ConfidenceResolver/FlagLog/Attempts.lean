import ConfidenceResolver.FlagLog.Disposition
import ConfidenceResolver.Support.Histories

/-!
# FlagLog — the attempts of a delivery

`deliver` of `flag_log/mod.rs`: the destinations are tried in their order, each of them up to three
times while its failures look transient.  An attempt that fails may have landed all the same, so a
request may land more than once, and may have landed when its delivery has failed.

* `Network.deliver`: whether a request is delivered, and how many of its failed attempts have
  landed.
* `settled_delivery`: the pieces of a batch are settled by these deliveries, one after the other.
* `landings`: what the backend has taken of some pieces.
* `landings_perm`: the pieces that were accepted, and what has landed without an answer that says
  so.
-/

namespace ConfidenceResolver

namespace FlagLog

/-! ### One request -/

/-- `DELIVERY_ATTEMPTS`. -/
def deliveryAttempts : Nat := 3

/-- What comes of an attempt: there is no budget left for it; a status below 400; or another
status, or none, of a request that has landed or has not, where another attempt may help or not. -/
inductive Answer where
  | outOfBudget
  | ok
  | failed (retryable landed : Bool)

/-- How the attempts at a destination end. -/
inductive Walked where
  | delivered
  | failed
  | outOfBudget
deriving DecidableEq

/-- The inner loop of `deliver`: how it ends, and how many of the failed attempts have landed. -/
def tryDestination (answer : Nat → Answer) : List Nat → Walked × Nat
  | [] => (.failed, 0)
  | attempt :: attempts =>
      match answer attempt with
      | .outOfBudget => (.outOfBudget, 0)
      | .ok => (.delivered, 0)
      | .failed retryable landed =>
          let rest :=
            if retryable && attempt < deliveryAttempts then tryDestination answer attempts
            else (.failed, 0)
          (rest.1, landed.toNat + rest.2)

/-- The outer loop. -/
def walk (answer : Nat → Nat → Answer) : List Nat → Bool × Nat
  | [] => (false, 0)
  | destination :: destinations =>
      let first := tryDestination (answer destination) (List.range' 1 deliveryAttempts)
      match first.1 with
      | .delivered => (true, first.2)
      | .outOfBudget => (false, first.2)
      | .failed =>
          let rest := walk answer destinations
          (rest.1, first.2 + rest.2)

/-- What there is to deliver to: a client secret, a number of destinations, and what comes of the
attempts for a request, after the pieces before it, by destination and attempt. -/
structure Network where
  secret : Bool
  destinations : Nat
  answer : List Piece → WriteFlagLogsRequest → Nat → Nat → Answer

namespace Network

/-- `deliver`. -/
def deliver (network : Network) (history : List Piece) (request : WriteFlagLogsRequest) :
    Bool × Nat :=
  if network.secret then
    walk (network.answer history request) (List.range network.destinations)
  else (false, 0)

/-- The answer alone, by which a delivery is split. -/
def send (network : Network) : Sender := fun history request => (network.deliver history request).1

/-- No attempt lands that fails. -/
def Candid (network : Network) : Prop :=
  ∀ history request destination attempt retryable,
    network.answer history request destination attempt ≠ .failed retryable true

end Network

theorem tryDestination_candid {answer : Nat → Answer}
    (h : ∀ attempt retryable, answer attempt ≠ .failed retryable true) (attempts : List Nat) :
    (tryDestination answer attempts).2 = 0 := by
  induction attempts with
  | nil => rfl
  | cons attempt attempts ih =>
      rw [tryDestination]
      cases hanswer : answer attempt with
      | outOfBudget => rfl
      | ok => rfl
      | failed retryable landed =>
          cases landed with
          | true => exact absurd hanswer (h attempt retryable)
          | false =>
              simp only [Bool.toNat_false, Nat.zero_add]
              split
              · exact ih
              · rfl

theorem walk_candid {answer : Nat → Nat → Answer}
    (h : ∀ destination attempt retryable, answer destination attempt ≠ .failed retryable true)
    (destinations : List Nat) : (walk answer destinations).2 = 0 := by
  induction destinations with
  | nil => rfl
  | cons destination destinations ih =>
      have hfirst := tryDestination_candid (h destination) (List.range' 1 deliveryAttempts)
      rw [walk]
      split <;> simp only [hfirst, ih]

theorem Network.Candid.deliver {network : Network} (h : network.Candid) (history : List Piece)
    (request : WriteFlagLogsRequest) : (network.deliver history request).2 = 0 := by
  rw [Network.deliver]
  split
  · exact walk_candid (h history request) _
  · rfl

/-! ### The pieces of a batch -/

variable {sizes : DeliverySizes} {send : Sender} {history pieces pieces' : List Piece}

/-- Each piece is dropped, or what becomes of its request after the pieces before it. -/
def Settled (send : Sender) (history pieces : List Piece) : Prop :=
  Throughout (fun before p => p.fate = .dropped ∨ p = deliver send (history ++ before) p.request)
    pieces

theorem settled_nil : Settled send history [] := throughout_nil

theorem settled_append :
    Settled send history (pieces ++ pieces') ↔
      Settled send history pieces ∧ Settled send (history ++ pieces) pieces' := by
  rw [Settled, throughout_append]
  simp only [Settled, List.append_assoc]

theorem settled_singleton {p : Piece} :
    Settled send history [p] ↔ p.fate = .dropped ∨ p = deliver send history p.request := by
  rw [Settled, ← List.nil_append [p], throughout_concat, List.append_nil]
  exact and_iff_right throughout_nil

theorem settled_deliver (send : Sender) (history : List Piece) (request : WriteFlagLogsRequest) :
    Settled send history [deliver send history request] := settled_singleton.mpr (.inr rfl)

theorem settled_dropped (request : WriteFlagLogsRequest) :
    Settled send history [⟨request, .dropped⟩] := settled_singleton.mpr (.inl rfl)

theorem settled_splitFlags (assigned : FlagAssigned) {stack : List (List AppliedFlag)} {s : Split}
    (h : Settled send history s.pieces) :
    Settled send history (splitFlags sizes send history assigned stack s).pieces := by
  induction stack, s using splitFlags.induct sizes send history assigned with
  | case1 s => rwa [splitFlags]
  | case2 s stack ih =>
      rw [splitFlags, if_pos rfl]
      exact ih h
  | case3 s flags stack hne envelope request hsize ih =>
      rw [splitFlags, if_neg hne]
      simp only
      rw [if_pos hsize]
      exact ih (settled_append.mpr ⟨h, settled_deliver send _ _⟩)
  | case4 s flags stack hne envelope request hsize carry hlong ih =>
      rw [splitFlags, if_neg hne]
      simp only
      rw [if_neg hsize, if_pos hlong]
      exact ih h
  | case5 s flags stack hne envelope request hsize carry hshort ih =>
      rw [splitFlags, if_neg hne]
      simp only
      rw [if_neg hsize, if_neg hshort]
      exact ih (settled_append.mpr ⟨h, settled_dropped _⟩)

theorem settled_deliverAggregate (history : List Piece) (request : WriteFlagLogsRequest)
    (count : Nat) : Settled send history (deliverAggregate sizes send history request count).2 := by
  induction history, request, count using deliverAggregate.induct sizes send with
  | case1 history request count size hsize =>
      rw [deliverAggregate, if_pos hsize]
      exact settled_deliver send history request
  | case2 history request count size hsize hroom =>
      rw [deliverAggregate, if_neg hsize, if_pos hroom]
      exact settled_deliver send history request
  | case3 history request count size hsize hroom hlong half head tail hone a iha _ ihb =>
      rw [deliverAggregate, if_neg hsize, if_neg hroom, if_pos hlong, if_pos hone]
      exact settled_append.mpr ⟨iha, ihb⟩
  | case4 history request count size hsize hroom hlong half head tail hone headCount a iha _ ihb =>
      rw [deliverAggregate, if_neg hsize, if_neg hroom, if_pos hlong, if_neg hone]
      exact settled_append.mpr ⟨iha, ihb⟩
  | case5 history request count size hsize hroom hshort assigned hassigned hmany =>
      rw [deliverAggregate, if_neg hsize, if_neg hroom, if_neg hshort, hassigned]
      simp only
      rw [if_pos hmany]
      exact settled_splitFlags assigned settled_nil
  | case6 history request count size hsize hroom hshort assigned hassigned hfew =>
      rw [deliverAggregate, if_neg hsize, if_neg hroom, if_neg hshort, hassigned]
      simp only
      rw [if_neg hfew]
      exact settled_dropped request
  | case7 history request count size hsize hroom hshort hother =>
      rw [deliverAggregate, if_neg hsize, if_neg hroom, if_neg hshort]
      split
      · exact absurd ‹_› (hother _)
      · exact settled_dropped request

/-- **A batch**: one delivery after the other. -/
theorem settled_delivery (history : List Piece) (logs : List WriteFlagLogsRequest) :
    Settled send history (deliverAllWithinLimit sizes send history logs).2 := by
  induction history, logs using deliverAllWithinLimit.induct sizes send with
  | case1 history =>
      rw [deliverAllWithinLimit, if_pos rfl]
      exact settled_nil
  | case2 history logs hne hhalved a ihhead ihtail =>
      rw [deliverAllWithinLimit, if_neg hne, if_pos hhalved]
      exact settled_append.mpr ⟨ihhead, ihtail⟩
  | case3 history logs hne hwhole =>
      rw [deliverAllWithinLimit, if_neg hne, if_neg hwhole]
      exact settled_deliverAggregate history _ _

/-! ### What lands -/

/-- A request that the backend has taken, and whether the answer says so. -/
structure Landing where
  request : WriteFlagLogsRequest
  answered : Bool

/-- What the backend has taken of one request. -/
def landingsOf (network : Network) (history : List Piece) (request : WriteFlagLogsRequest) :
    List Landing :=
  List.replicate (network.deliver history request).2 ⟨request, false⟩ ++
    if (network.deliver history request).1 then [⟨request, true⟩] else []

/-- What the backend has taken of some pieces. -/
def landings (network : Network) (history : List Piece) : List Piece → List Landing
  | [] => []
  | p :: pieces =>
      (if p.fate = .dropped then [] else landingsOf network history p.request) ++
        landings network (history ++ [p]) pieces

/-- The applied flags of what has landed. -/
def takenFlags (l : List Landing) : List (String × Option ClientInfo × AppliedFlag) :=
  l.flatMap fun landing => applied landing.request

/-- What has landed without an answer that says so. -/
def unanswered (l : List Landing) : List Landing := l.filter fun landing => !landing.answered

theorem settled_cons {p : Piece} : Settled send history (p :: pieces) ↔
    (p.fate = .dropped ∨ p = deliver send history p.request) ∧
      Settled send (history ++ [p]) pieces := by
  rw [← List.singleton_append, settled_append, settled_singleton]

/-- One answer says so, and none for a piece that is not accepted. -/
theorem answered_landingsOf (network : Network) (history : List Piece)
    (request : WriteFlagLogsRequest) :
    (landingsOf network history request).filter Landing.answered =
      if network.send history request then [⟨request, true⟩] else [] := by
  rw [landingsOf, List.filter_append, Network.send]
  cases (network.deliver history request).1 <;> simp

theorem answered_landings (network : Network) (h : Settled network.send history pieces) :
    takenFlags ((landings network history pieces).filter Landing.answered) =
      appliedOf (landed pieces) := by
  induction pieces generalizing history with
  | nil => rfl
  | cons p pieces ih =>
      obtain ⟨hp, hrest⟩ := settled_cons.mp h
      have htail := ih hrest
      simp only [takenFlags, landed, appliedOf, landings, List.filter_append, List.flatMap_append,
        List.filter_cons] at htail ⊢
      rw [htail]
      by_cases hdropped : p.fate = .dropped
      · simp [hdropped]
      · have hfate : p.fate = (deliver network.send history p.request).fate :=
          congrArg Piece.fate (hp.resolve_left hdropped)
        rw [if_neg hdropped, answered_landingsOf, hfate, deliver]
        cases network.send history p.request <;> simp

/-- **What lands** of the pieces of a delivery: those that were accepted, and what has landed
without an answer that says so. -/
theorem landings_perm (network : Network) (h : Settled network.send history pieces) :
    (takenFlags (landings network history pieces)).Perm
      (appliedOf (landed pieces) ++ takenFlags (unanswered (landings network history pieces))) := by
  rw [← answered_landings network h, takenFlags, takenFlags, takenFlags, unanswered,
    ← List.flatMap_append]
  exact (List.filter_append_perm Landing.answered _).symm.flatMap_right _

/-- Each landing is of a piece. -/
theorem mem_landings {network : Network} {landing : Landing}
    (h : landing ∈ landings network history pieces) : ∃ p ∈ pieces, p.request = landing.request := by
  induction pieces generalizing history with
  | nil => exact absurd h List.not_mem_nil
  | cons p pieces ih =>
      rw [landings, List.mem_append] at h
      rcases h with h | h
      · refine ⟨p, List.mem_cons_self, ?_⟩
        split at h
        · exact absurd h List.not_mem_nil
        · rw [landingsOf, List.mem_append] at h
          rcases h with h | h
          · rw [List.eq_of_mem_replicate h]
          · split at h
            · rw [List.mem_singleton.mp h]
            · exact absurd h List.not_mem_nil
      · obtain ⟨q, hq, hrequest⟩ := ih h
        exact ⟨q, List.mem_cons_of_mem p hq, hrequest⟩

/-- While no attempt lands that fails, every landing is answered. -/
theorem Network.Candid.unanswered_landings {network : Network} (h : network.Candid)
    (history pieces : List Piece) : unanswered (landings network history pieces) = [] := by
  induction pieces generalizing history with
  | nil => rfl
  | cons p pieces ih =>
      have htail := ih (history ++ [p])
      rw [unanswered] at htail ⊢
      rw [landings, List.filter_append, htail, List.append_nil]
      split
      · rfl
      · rw [landingsOf, h.deliver]
        split <;> rfl

end FlagLog

end ConfidenceResolver
