import ConfidenceResolver.Apply.ApplyDedup
import ConfidenceResolver.FlagLog.Buffer
import ConfidenceResolver.Logs.Aggregate

/-!
# FlagLog — splitting a delivery

`flag_log/mod.rs` from a batch of records to the outcome of its delivery, and the queue consumer of
`flag_log/queue.rs`.  A batch is split by its encoded size, an aggregate by the length of its JSON,
and one assignment by its flags.

* `Sender`: what `deliver` answers to a piece, after all the pieces before it.
* `deliverAllWithinLimit`, `deliverAggregate`, `deliverBySplittingFlags`: the outcome, with the
  pieces in the order they were settled in.
* `ackDecision`, `consume`: what the queue is told.
-/

namespace ConfidenceResolver

namespace FlagLog

/-- `MAX_DELIVERY_BYTES`. -/
def maxDeliveryBytes : Nat := 3 * 1024 * 1024 + 512 * 1024

/-- `MEASURED_BACKEND_LIMIT`. -/
def measuredBackendLimit : Nat := 4193298

/-- `DEDUP_MAX_ENTRIES`. -/
def dedupMaxEntries : Nat := 100000

/-- The length of the JSON text of a request, when it can be written. -/
structure DeliverySizes extends LogSizes where
  jsonLen : WriteFlagLogsRequest → Option Nat

/-- The size that is compared with the limits. -/
def DeliverySizes.size (sizes : DeliverySizes) (request : WriteFlagLogsRequest) : Nat :=
  (sizes.jsonLen request).getD sizes.usizeMax

/-! ### Outcomes -/

/-- `Delivered`. -/
structure Delivered where
  ok : Nat := 0
  lost : Nat := 0
deriving DecidableEq

/-- `Delivered::ok`. -/
def Delivered.ofOk (n : Nat) : Delivered := { ok := n }

/-- `Delivered::lost`. -/
def Delivered.ofLost (n : Nat) : Delivered := { lost := n }

/-- `Delivered::merge`. -/
def Delivered.merge (a b : Delivered) : Delivered := ⟨a.ok + b.ok, a.lost + b.lost⟩

/-- `split_outcome`. -/
def splitOutcome (anyOk anyLost : Bool) (count : Nat) : Delivered :=
  match anyOk, anyLost with
  | true, false => .ofOk count
  | true, true => ⟨count, count⟩
  | false, _ => .ofLost count

/-- `combine_halves`. -/
def combineHalves (head tail : Delivered) (count : Nat) : Delivered :=
  splitOutcome (0 < head.ok || 0 < tail.ok) (0 < head.lost || 0 < tail.lost) count

/-- `Disposition`; `mixed` is `Partial`. -/
inductive Disposition where
  | complete
  | mixed
  | failed
deriving DecidableEq

/-- `ack_decision`. -/
def ackDecision (outcome : Delivered) : Disposition :=
  if 0 < outcome.ok ∧ 0 < outcome.lost then .mixed
  else if 0 < outcome.lost then .failed
  else .complete

/-! ### Pieces -/

/-- What became of a piece: a dropped one is not sent. -/
inductive Fate where
  | accepted
  | refused
  | dropped
deriving DecidableEq

structure Piece where
  request : WriteFlagLogsRequest
  fate : Fate

/-- The answer of `deliver` to a request, after the pieces before it. -/
abbrev Sender : Type := List Piece → WriteFlagLogsRequest → Bool

variable (sizes : DeliverySizes) (send : Sender)

/-- `deliver`. -/
def deliver (history : List Piece) (request : WriteFlagLogsRequest) : Piece :=
  ⟨request, if send history request then .accepted else .refused⟩

/-- The outcome of a request that is sent as it is. -/
def deliverWhole (history : List Piece) (request : WriteFlagLogsRequest) (count : Nat) :
    Delivered × List Piece :=
  let piece := deliver send history request
  (if piece.fate = .accepted then .ofOk count else .ofLost count, [piece])

/-! ### Splitting the flags of one assignment -/

/-- The variables of the loop of `deliver_by_splitting_flags`, and its pieces so far. -/
structure Split where
  carry : Option WriteFlagLogsRequest
  anyOk : Bool := false
  anyLost : Bool := false
  pieces : List Piece := []

/-- A piece is settled: the two bits of success are `any_ok` and `any_lost`. -/
def Split.settle (s : Split) (carry : Option WriteFlagLogsRequest) (piece : Piece) : Split where
  carry := carry
  anyOk := s.anyOk || piece.fate = .accepted
  anyLost := s.anyLost || piece.fate ≠ .accepted
  pieces := s.pieces ++ [piece]

/-- What the stack still takes: a split makes two entries of one. -/
def stackRank (stack : List (List AppliedFlag)) : Nat :=
  (stack.map fun flags => max 1 (2 * flags.length - 1)).sum

theorem stackRank_split (flags : List AppliedFlag) (stack : List (List AppliedFlag))
    (h : 1 < flags.length) :
    stackRank (flags.take (flags.length / 2) :: flags.drop (flags.length / 2) :: stack) <
      stackRank (flags :: stack) := by
  simp only [stackRank, List.map_cons, List.sum_cons, List.length_take, List.length_drop]
  omega

/-- The loop of `deliver_by_splitting_flags`; the top of the stack is the head of the list.  A flag
that is dropped leaves the carried fields to the next piece. -/
def splitFlags (history : List Piece) (assigned : FlagAssigned) :
    List (List AppliedFlag) → Split → Split
  | [], s => s
  | flags :: stack, s =>
      if flags = [] then splitFlags history assigned stack s
      else
        let envelope : FlagAssigned := { assigned with flags := flags }
        let request := { s.carry.getD {} with flagAssigned := [envelope] }
        if sizes.size request < measuredBackendLimit then
          splitFlags history assigned stack
            (s.settle none (deliver send (history ++ s.pieces) request))
        else
          let carry := some { request with flagAssigned := [] }
          if 1 < flags.length then
            splitFlags history assigned
              (flags.take (flags.length / 2) :: flags.drop (flags.length / 2) :: stack)
              { s with carry := carry }
          else
            splitFlags history assigned stack
              (s.settle carry ⟨{ flagAssigned := [envelope] }, .dropped⟩)
termination_by stack => stackRank stack
decreasing_by
  all_goals first
    | exact stackRank_split flags stack ‹_›
    | simp only [stackRank, List.map_cons, List.sum_cons]; omega

/-- `deliver_by_splitting_flags`, of a request with the one envelope. -/
def deliverBySplittingFlags (history : List Piece) (request : WriteFlagLogsRequest)
    (assigned : FlagAssigned) (count : Nat) : Delivered × List Piece :=
  let s := splitFlags sizes send history assigned [assigned.flags]
    { carry := some { request with flagAssigned := [] } }
  (splitOutcome s.anyOk s.anyLost count, s.pieces)

/-! ### Splitting an aggregate, and a batch -/

/-- `deliver_aggregate`. -/
def deliverAggregate (history : List Piece) (request : WriteFlagLogsRequest) (count : Nat) :
    Delivered × List Piece :=
  let size := sizes.size request
  if size ≤ maxDeliveryBytes then deliverWhole send history request count
  else if size < measuredBackendLimit then deliverWhole send history request count
  else if 1 < request.flagAssigned.length then
    let half := request.flagAssigned.length / 2
    let head := { request with flagAssigned := request.flagAssigned.take half }
    let tail : WriteFlagLogsRequest := { flagAssigned := request.flagAssigned.drop half }
    if count < 2 then
      let a := deliverAggregate history head count
      let b := deliverAggregate (history ++ a.2) tail count
      (combineHalves a.1 b.1 count, a.2 ++ b.2)
    else
      let headCount := (count + 1) / 2
      let a := deliverAggregate history head headCount
      let b := deliverAggregate (history ++ a.2) tail (count - headCount)
      (a.1.merge b.1, a.2 ++ b.2)
  else
    match request.flagAssigned with
    | [assigned] =>
        if 1 < assigned.flags.length then
          deliverBySplittingFlags sizes send history request assigned count
        else (.ofLost count, [⟨request, .dropped⟩])
    | _ => (.ofLost count, [⟨request, .dropped⟩])
termination_by request.flagAssigned.length
decreasing_by
  all_goals simp only [List.length_take, List.length_drop]; omega

/-- Whether a batch is halved before it is aggregated. -/
def halved (logs : List WriteFlagLogsRequest) : Prop :=
  protoChunkBytes < (logs.map sizes.encodedLen).sum % (sizes.usizeMax + 1) ∧ 1 < logs.length

instance (logs : List WriteFlagLogsRequest) : Decidable (halved sizes logs) :=
  inferInstanceAs (Decidable (_ ∧ _))

/-- `deliver_all_within_limit`. -/
def deliverAllWithinLimit (history : List Piece) (logs : List WriteFlagLogsRequest) :
    Delivered × List Piece :=
  if logs = [] then ({}, [])
  else if halved sizes logs then
    let a := deliverAllWithinLimit history (logs.take (logs.length / 2))
    let b := deliverAllWithinLimit (history ++ a.2) (logs.drop (logs.length / 2))
    (a.1.merge b.1, a.2 ++ b.2)
  else deliverAggregate sizes send history (aggregateBatch logs) logs.length
termination_by logs.length
decreasing_by
  all_goals
    rename_i h
    have := h.2
    simp only [List.length_take, List.length_drop]
    omega

/-! ### The consumer -/

/-- The first closure of `dedup_flag_applies`, over the flags of one envelope. -/
def dedupFlags (nowSeconds : Int64) (d : ApplyDedup) :
    List AppliedFlag → ApplyDedup × List AppliedFlag
  | [] => (d, [])
  | applied :: flags =>
      let (d, isNew) :=
        d.checkHash (computeAppliedFlagDedupHash (.ofAppliedFlag applied)) nowSeconds
      let (d, kept) := dedupFlags nowSeconds d flags
      (d, if isNew then applied :: kept else kept)

/-- The envelopes of one log; an envelope without flags is removed. -/
def dedupEnvelopes (nowSeconds : Int64) (d : ApplyDedup) :
    List FlagAssigned → ApplyDedup × List FlagAssigned
  | [] => (d, [])
  | assignment :: rest =>
      let (d, flags) := dedupFlags nowSeconds d assignment.flags
      let (d, kept) := dedupEnvelopes nowSeconds d rest
      (d, if flags = [] then kept else { assignment with flags := flags } :: kept)

/-- `dedup_flag_applies`. -/
def dedupFlagApplies (nowSeconds : Int64) (d : ApplyDedup) :
    List WriteFlagLogsRequest → ApplyDedup × List WriteFlagLogsRequest
  | [] => (d, [])
  | log :: logs =>
      let (d, flagAssigned) := dedupEnvelopes nowSeconds d log.flagAssigned
      let (d, kept) := dedupFlagApplies nowSeconds d logs
      (d, { log with flagAssigned := flagAssigned } :: kept)

/-- `dedup_batch_flag_applies`: a window of its own for each batch. -/
def dedupBatchFlagApplies (logs : List WriteFlagLogsRequest) (nowSeconds : Int64) :
    List WriteFlagLogsRequest :=
  (dedupFlagApplies nowSeconds (.new Int64.maxValue dedupMaxEntries) logs).2

/-- The records of the messages: a message that does not parse is skipped. -/
def batchLogs (messages : List (Option WriteFlagLogsRequest)) (dedup : Bool) (nowSeconds : Int64) :
    List WriteFlagLogsRequest :=
  let logs := messages.filterMap id
  if dedup then dedupBatchFlagApplies logs nowSeconds else logs

/-- `consume`: the result, whose error makes the queue redeliver the batch, and the pieces.  There
is nothing to do for a batch whose messages cannot be read. -/
def consume (messages : Option (List (Option WriteFlagLogsRequest))) (dedup : Bool)
    (nowSeconds : Int64) : Except String Unit × List Piece :=
  match messages with
  | none => (.ok (), [])
  | some messages =>
      let (outcome, pieces) :=
        deliverAllWithinLimit sizes send [] (batchLogs messages dedup nowSeconds)
      (match ackDecision outcome with
        | .mixed => .error
            s!"flag log delivery partial: {outcome.lost} of {outcome.ok + outcome.lost} records failed"
        | .failed => .error s!"flag log delivery failed for all {outcome.lost} records"
        | .complete => .ok (), pieces)

end FlagLog

end ConfidenceResolver
