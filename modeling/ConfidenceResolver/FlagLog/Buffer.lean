import ConfidenceResolver.Proto.Logs
import ConfidenceResolver.Support.FrontCut

/-!
# FlagLog — the buffer

`flag_log/buffer.rs` between two awaits: what an offer, a turn of the timer and a turn of a drain do
to the buffer, to the count of deliveries in flight, and to the console.  Times are whole
milliseconds, as `Date::now` gives them.

* `Buffer`, `Entry`: the buffer; an entry caches the length of its log.
* `Isolate`: the thread's state, with a history of what was offered and what was taken.
* `offerAt`, `tickStep`, `shedDown`, `drainPass`: the synchronous blocks of the source.
-/

namespace ConfidenceResolver

namespace FlagLog

/-! ### Limits -/

/-- `PROTO_CHUNK_BYTES`. -/
def protoChunkBytes : Nat := 768 * 1024

def flushBytes : Nat := protoChunkBytes

def maxBufferRecords : Nat := 20000

def flushRecords : Nat := maxBufferRecords / 16

def maxBufferBytes : Nat := 12 * 1024 * 1024

def idleMs : Int := 1000

def maxAgeMs : Int := 10000

def maxInFlight : Nat := 4

def hardInFlight : Nat := 8

def minDrainBudgetMs : Int := 1000

def retireAtRemainingMs : Int := 6000

/-- `usize::MAX`, and `encoded_len` as the library computes it. -/
structure LogSizes where
  usizeMax : Nat
  encodedLen : WriteFlagLogsRequest → Nat
  encodedLen_le (log : WriteFlagLogsRequest) : encodedLen log ≤ usizeMax
  maxBufferBytes_le : maxBufferBytes ≤ usizeMax

theorem LogSizes.flushBytes_lt (sizes : LogSizes) : flushBytes < sizes.usizeMax :=
  Nat.lt_of_lt_of_le (by decide) sizes.maxBufferBytes_le

/-! ### The buffer -/

variable (sizes : LogSizes)

/-- `Entry`. -/
structure Entry where
  log : WriteFlagLogsRequest
  seq : UInt64
  len : Nat
  atMs : Int
  cached : len = sizes.encodedLen log

/-- `Buffer`. -/
structure Buffer where
  logs : List (Entry sizes)
  bytes : Nat
  nextSeq : UInt64
  waiterActive : Bool

variable {sizes}

theorem Entry.len_le (e : Entry sizes) : e.len ≤ sizes.usizeMax :=
  e.cached ▸ sizes.encodedLen_le e.log

namespace Buffer

def new : Buffer sizes := ⟨[], 0, 0, false⟩

def push (buffer : Buffer sizes) (log : WriteFlagLogsRequest) (nowMs : Int) : Buffer sizes :=
  { buffer with
    bytes := ByteQueue.add sizes.usizeMax buffer.bytes (sizes.encodedLen log)
    nextSeq := buffer.nextSeq + 1
    logs := buffer.logs ++ [⟨log, buffer.nextSeq, sizes.encodedLen log, nowMs, rfl⟩] }

def firstMs (buffer : Buffer sizes) : Option Int := buffer.logs.head?.map (·.atMs)

def lastMs (buffer : Buffer sizes) : Option Int := buffer.logs.getLast?.map (·.atMs)

def sizeDue (buffer : Buffer sizes) : Bool :=
  flushBytes ≤ buffer.bytes || flushRecords ≤ buffer.logs.length

def atCeiling (buffer : Buffer sizes) : Bool :=
  maxBufferBytes ≤ buffer.bytes || maxBufferRecords ≤ buffer.logs.length

def timeDue (buffer : Buffer sizes) (nowMs : Int) : Bool :=
  match buffer.firstMs, buffer.lastMs with
  | some first, some last => idleMs ≤ nowMs - last || maxAgeMs ≤ nowMs - first
  | _, _ => false

/-- The chunk at the front, up to an entry at which `stop` holds, and the buffer without it. -/
def drain (buffer : Buffer sizes) (stop : Entry sizes → Bool) :
    List WriteFlagLogsRequest × Buffer sizes :=
  let (taken, rest, bytes) :=
    FrontCut.cut sizes.usizeMax Entry.len flushBytes flushRecords stop buffer.logs
  (taken.map (·.log), { buffer with logs := rest, bytes := buffer.bytes - bytes })

/-- `take_chunk_before`. -/
def takeChunkBefore (buffer : Buffer sizes) (boundary : UInt64) :
    List WriteFlagLogsRequest × Buffer sizes :=
  buffer.drain fun entry => boundary ≤ entry.seq

/-- `take_chunk`. -/
def takeChunk (buffer : Buffer sizes) : List WriteFlagLogsRequest × Buffer sizes :=
  buffer.drain fun _ => false

end Buffer

/-- `Decision`. -/
inductive Decision where
  | hold
  | deliver
  | shed
deriving DecidableEq

/-- `decide`. -/
def Decision.decide (atCeiling : Bool) (inFlight : Nat) : Decision :=
  if hardInFlight ≤ inFlight && atCeiling then .shed
  else if maxInFlight ≤ inFlight && !atCeiling then .hold
  else .deliver

/-! ### The isolate -/

/-- What is written to the console about records that were not delivered. -/
inductive ConsoleLine where
  | shed (records inFlight : Nat)
  | shedFromTimer (records chunks inFlight : Nat)
  | leftBuffered (reason : String) (delivered left bytes : Nat)
  | bufferEmpty (reason : String) (delivered : Nat)

/-- Who takes a chunk: an offer, or a task, as a timer or as a drain. -/
inductive Taker where
  | offer
  | timer (task : Nat)
  | drain (task : Nat)
deriving DecidableEq

/-- A chunk taken off the buffer, to be delivered or to be dropped. -/
structure Take where
  taker : Taker
  shed : Bool
  chunk : List WriteFlagLogsRequest

variable (sizes) in
/-- `BUFFER` and `IN_FLIGHT`, and the console.  Only for stating what follows: the records offered
and the chunks taken so far, and whether the byte count has saturated. -/
structure Isolate where
  buffer : Buffer sizes
  inFlight : Nat
  console : List ConsoleLine
  offered : List WriteFlagLogsRequest
  takes : List Take
  saturated : Bool

namespace Isolate

def new : Isolate sizes := ⟨.new, 0, [], [], [], false⟩

def push (s : Isolate sizes) (log : WriteFlagLogsRequest) (nowMs : Int) : Isolate sizes :=
  { s with
    buffer := s.buffer.push log nowMs
    offered := s.offered ++ [log]
    saturated := s.saturated || decide (sizes.usizeMax < s.buffer.bytes + sizes.encodedLen log) }

/-- A chunk is taken off the buffer. -/
def took (s : Isolate sizes) (taken : List WriteFlagLogsRequest × Buffer sizes) (taker : Taker)
    (shed : Bool) : List WriteFlagLogsRequest × Isolate sizes :=
  (taken.1, { s with buffer := taken.2, takes := s.takes ++ [⟨taker, shed, taken.1⟩] })

/-- `InFlight::acquire`. -/
def acquire (s : Isolate sizes) : Isolate sizes := { s with inFlight := s.inFlight + 1 }

/-- `InFlight` is dropped. -/
def release (s : Isolate sizes) : Isolate sizes := { s with inFlight := s.inFlight - 1 }

/-- `Waiter::claim`, if it gives a waiter. -/
def claim (s : Isolate sizes) : Option (Isolate sizes) :=
  if s.buffer.logs.isEmpty || s.buffer.waiterActive then none
  else some { s with buffer := { s.buffer with waiterActive := true } }

/-- `Waiter` is dropped. -/
def dropWaiter (s : Isolate sizes) : Isolate sizes :=
  { s with buffer := { s.buffer with waiterActive := false } }

/-- `console_log!`. -/
def log (s : Isolate sizes) (line : ConsoleLine) : Isolate sizes :=
  { s with console := s.console ++ [line] }

/-- `offer_at`: the batch to deliver, which holds a slot. -/
def offerAt (s : Isolate sizes) (log : WriteFlagLogsRequest) (nowMs : Int) :
    Option (List WriteFlagLogsRequest) × Isolate sizes :=
  let s := s.push log nowMs
  if !s.buffer.sizeDue then (none, s)
  else
    match Decision.decide s.buffer.atCeiling s.inFlight with
    | .hold => (none, s)
    | .shed =>
        let (batch, s) := s.took s.buffer.takeChunk .offer true
        (none, s.log (.shed batch.length s.inFlight))
    | .deliver =>
        let s := s.acquire
        let (batch, s) := s.took s.buffer.takeChunk .offer false
        (some batch, s)

/-! ### A turn of the timer -/

/-- `Step`; a chunk to deliver holds a slot. -/
inductive Step where
  | done
  | wait
  | deliver (batch : List WriteFlagLogsRequest)
  | shed (batch : List WriteFlagLogsRequest)

/-- The step that `tick` takes when it has the budget. -/
def tickStep (s : Isolate sizes) (task : Nat) (nowMs : Int) : Step × Isolate sizes :=
  if s.buffer.logs.isEmpty then (.done, s)
  else if !s.buffer.timeDue nowMs then (.wait, s)
  else
    match Decision.decide s.buffer.atCeiling s.inFlight with
    | .hold => (.wait, s)
    | .shed =>
        let (batch, s) := s.took s.buffer.takeChunk (.timer task) true
        (.shed batch, s)
    | .deliver =>
        let s := s.acquire
        let (batch, s) := s.took s.buffer.takeChunk (.timer task) false
        (.deliver batch, s)

end Isolate

/-- A chunk of a buffer that is not empty is not empty. -/
theorem Buffer.takeChunk_ne_nil {buffer : Buffer sizes} (h : buffer.logs ≠ []) :
    buffer.takeChunk.1 ≠ [] := by
  obtain ⟨e, logs, hlogs⟩ := List.exists_cons_of_ne_nil h
  intro hnil
  have hstop := FrontCut.cut_eq_nil (List.map_eq_nil_iff.mp hnil) e (by rw [hlogs]; rfl)
  exact Bool.noConfusion hstop

/-- A chunk and the rest are the whole. -/
theorem Buffer.drain_append (buffer : Buffer sizes) (stop : Entry sizes → Bool) :
    (buffer.drain stop).1 ++ (buffer.drain stop).2.logs.map (·.log) = buffer.logs.map (·.log) := by
  rw [Buffer.drain, ← List.map_append, FrontCut.cut_append]

theorem Buffer.takeChunk_length_lt {buffer : Buffer sizes} (h : buffer.logs ≠ []) :
    buffer.takeChunk.2.logs.length < buffer.logs.length := by
  have hlength := congrArg List.length (buffer.drain_append fun _ => false)
  have hpos := List.length_pos_iff.mpr (Buffer.takeChunk_ne_nil h)
  rw [List.length_append, List.length_map, List.length_map] at hlength
  rw [Buffer.takeChunk] at hpos ⊢
  omega

namespace Isolate

/-- The loop that keeps shedding down to the flush size: the records and chunks shed. -/
def shedDown (s : Isolate sizes) (task records chunks : Nat) : Nat × Nat × Isolate sizes :=
  if h : s.buffer.logs.isEmpty || !s.buffer.sizeDue then (records, chunks, s)
  else
    let more := s.took s.buffer.takeChunk (.timer task) true
    shedDown more.2 task (records + more.1.length) (chunks + 1)
termination_by s.buffer.logs.length
decreasing_by
  refine Buffer.takeChunk_length_lt ?_
  rintro hnil
  simp [hnil] at h

/-! ### A turn of a drain -/

/-- Why a drain ends.  A cancelled one ends at its delivery. -/
inductive DrainStop where
  | budget
  | emptied
  | inFlight
  | nothingOwned
  | cancelled

/-- One turn of the loop of `drain_before_standing_down`: the chunk to deliver, which holds a
slot. -/
def drainPass (s : Isolate sizes) (task : Nat) (boundary : UInt64) (remainingMs : Int) :
    Except DrainStop (List WriteFlagLogsRequest) × Isolate sizes :=
  if remainingMs < minDrainBudgetMs then (.error .budget, s)
  else if s.buffer.logs.isEmpty then (.error .emptied, s)
  else if maxInFlight ≤ s.inFlight && !s.buffer.atCeiling then (.error .inFlight, s)
  else if hardInFlight ≤ s.inFlight then (.error .inFlight, s)
  else
    let s := s.acquire
    let (chunk, s) := s.took (s.buffer.takeChunkBefore boundary) (.drain task) false
    -- an empty chunk ends the loop, and its slot is dropped
    if chunk.isEmpty then (.error .nothingOwned, s.release) else (.ok chunk, s)

/-- What a drain writes when its loop has ended. -/
def reportDrain (s : Isolate sizes) (reason : String) (delivered : Nat) : Isolate sizes :=
  if 0 < s.buffer.logs.length then
    s.log (.leftBuffered reason delivered s.buffer.logs.length s.buffer.bytes)
  else if 0 < delivered then s.log (.bufferEmpty reason delivered)
  else s

end Isolate

end FlagLog

end ConfidenceResolver
