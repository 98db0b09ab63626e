import ConfidenceResolver.Apply.ApplyFlags
import ConfidenceResolver.Apply.DedupKey
import ConfidenceResolver.Support.HashMap
import ConfidenceResolver.Support.Saturating

/-!
# Apply — dropping duplicates

`apply_dedup.rs`: a table of the applies seen, by the hash of their key, each with a time in
seconds.  An apply whose hash is in the table is dropped.  A sweep removes the entries that are as
old as the window; it is called from the flush cycle, and does nothing if the last one was less than
ten seconds before.
-/

namespace ConfidenceResolver

/-- `SWEEP_MIN_INTERVAL_SECONDS`. -/
def sweepMinIntervalSeconds : Int64 := 10

/-- `ApplyDedup`. -/
structure ApplyDedup where
  seen : HashMap Word Int64
  ttlSeconds : Int64
  maxEntries : Nat
  lastSweepSeconds : Int64
  appliesTotal : UInt64
  appliesDeduped : UInt64
  applyDedupOverflow : UInt64
  sweeps : UInt64

/-- `DedupResult`: the flags of a batch that are kept, by the bits of one word, or of many for a
batch of more than 64. -/
structure DedupResult where
  small : UInt64
  large : List UInt64
  count : Nat

namespace DedupResult

/-- `new`. -/
def new (len : Nat) : DedupResult :=
  ⟨0, if len > 64 then List.replicate (len / 64 + 1) 0 else [], 0⟩

def bit (idx : Nat) : UInt64 := 1 <<< UInt64.ofNat (idx % 64)

/-- `mark`. -/
def mark (keep : DedupResult) (idx : Nat) : DedupResult :=
  { if keep.large.isEmpty then
      if idx < 64 then { keep with small := keep.small ||| bit idx } else keep
    else { keep with large := keep.large.modify (idx / 64) (· ||| bit idx) } with
    count := keep.count + 1 }

def isEmpty (keep : DedupResult) : Bool := keep.count = 0

/-- `is_kept`. -/
def isKept (keep : DedupResult) (idx : Nat) : Bool :=
  if keep.large.isEmpty then idx < 64 && keep.small &&& bit idx != 0
  else keep.large[idx / 64]?.any fun word => word &&& bit idx != 0

/-- `collect`. -/
def collect (keep : DedupResult) (flags : List FlagToApply) : List FlagToApply :=
  if keep.count = flags.length then flags
  else (flags.zipIdx.filter fun f => keep.isKept f.2).map (·.1)

end DedupResult

namespace ApplyDedup

/-- `new`. -/
def new (ttlSeconds : Int64) (maxEntries : Nat) : ApplyDedup :=
  ⟨.empty, ttlSeconds, maxEntries, 0, 0, 0, 0, 0⟩

/-- One apply, at a time that is not before the last sweep; `false` for a duplicate. -/
def see (d : ApplyDedup) (hash : Word) (nowSeconds : Int64) : ApplyDedup × Bool :=
  let d := { d with appliesTotal := d.appliesTotal + 1 }
  if (d.seen.get? hash).isSome then ({ d with appliesDeduped := d.appliesDeduped + 1 }, false)
  else if d.seen.entries.length < d.maxEntries then
    ({ d with seen := d.seen.insert hash nowSeconds }, true)
  else ({ d with applyDedupOverflow := d.applyDedupOverflow + 1 }, true)

/-- `check_hash`. -/
def checkHash (d : ApplyDedup) (hash : Word) (nowSeconds : Int64) : ApplyDedup × Bool :=
  d.see hash (max nowSeconds d.lastSweepSeconds)

/-- One turn of the loop of `filter_duplicates`. -/
def filterOne (nowSeconds : Int64) (state : ApplyDedup × DedupResult) (flag : FlagToApply × Nat) :
    ApplyDedup × DedupResult :=
  let (d, isNew) := state.1.see (computeDedupHash flag.1.assignedFlag) nowSeconds
  (d, if isNew then state.2.mark flag.2 else state.2)

/-- `filter_duplicates`. -/
def filterDuplicates (d : ApplyDedup) (flags : List FlagToApply) (nowSeconds : Int64) :
    ApplyDedup × DedupResult :=
  flags.zipIdx.foldl (filterOne (max nowSeconds d.lastSweepSeconds)) (d, .new flags.length)

/-- Whether a sweep is not throttled. -/
def sweepDue (d : ApplyDedup) (nowSeconds : Int64) : Prop :=
  ¬ saturatingSub nowSeconds d.lastSweepSeconds < sweepMinIntervalSeconds

instance (d : ApplyDedup) (nowSeconds : Int64) : Decidable (d.sweepDue nowSeconds) :=
  inferInstanceAs (Decidable (¬ _))

/-- `sweep`. -/
def sweep (d : ApplyDedup) (nowSeconds : Int64) : ApplyDedup :=
  if d.sweepDue nowSeconds then
    { d with
      lastSweepSeconds := nowSeconds
      sweeps := d.sweeps + 1
      seen := d.seen.retain fun _ ts => saturatingSub nowSeconds ts < d.ttlSeconds }
  else d

/-- The hash is in the table. -/
def Knows (d : ApplyDedup) (hash : Word) : Prop := (d.seen.get? hash).isSome

/-- A single apply: a duplicate is known, and only an apply that is let through becomes known. -/
theorem knows_checkHash (d : ApplyDedup) (hash : Word) (nowSeconds : Int64) :
    ((d.checkHash hash nowSeconds).2 = false → d.Knows hash) ∧
      ∀ hash', (d.checkHash hash nowSeconds).1.Knows hash' →
        d.Knows hash' ∨ (hash' = hash ∧ (d.checkHash hash nowSeconds).2 = true) := by
  rw [checkHash, see]
  split
  · next hseen => exact ⟨fun _ => hseen, fun hash' h => .inl h⟩
  · split
    · refine ⟨by simp, fun hash' h => ?_⟩
      by_cases hsame : hash = hash'
      · exact .inr ⟨hsame.symm, rfl⟩
      · rw [Knows, HashMap.get?_insert, if_neg hsame] at h
        exact .inl h
    · exact ⟨by simp, fun hash' h => .inl h⟩

end ApplyDedup

/-- `log_assign` of the guest: the table, and the flags that are logged, if any call is made.  An
apply without flags is logged as it is. -/
def logAssign (d : ApplyDedup) (enabled : Bool) (assignedFlags : List FlagToApply) :
    ApplyDedup × Option (List FlagToApply) :=
  match assignedFlags.head? with
  | none => (d, some assignedFlags)
  | some first =>
      if enabled then
        let (d, result) := d.filterDuplicates assignedFlags
          (Int64.ofInt first.skewAdjustedAppliedTime.seconds)
        if result.isEmpty then (d, none)
        else if result.count = assignedFlags.length then (d, some assignedFlags)
        else (d, some (result.collect assignedFlags))
      else (d, some assignedFlags)

end ConfidenceResolver
