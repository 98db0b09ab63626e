import ConfidenceResolver.FlagLog.Delivery
import ConfidenceResolver.Support.Histories
import Mathlib.Data.List.Range
import Mathlib.Data.Nat.ModEq

/-!
# FlagLog — the shards of the queue

`flag_log/shards.rs`: which queues are bound, and how a log is sent to one of them.

* `unbrokenRow_iff`: the queues found are those of the unbroken row of bindings.
* `sendToAny`: the queues from a chosen one on, around to the one before it.
* `sends_once`: each of the row is tried once at most, and the log is dropped only if each has
  failed.
-/

namespace ConfidenceResolver

namespace FlagLog

variable {Q : Type}

/-! ### Discovery -/

/-- The name of the next binding, after `n` queues were found. -/
def shardBinding (n : Nat) : String :=
  if n = 0 then "flag_logs_queue" else "flag_logs_queue_" ++ toString (n + 1)

/-- The loop of `discover`: one turn for each binding, and it ends at a name that is not bound. -/
def discoverFrom (lookup : String → Option Q) : Nat → List Q → List Q
  | 0, queues => queues
  | turns + 1, queues =>
      match lookup (shardBinding queues.length) with
      | some queue => discoverFrom lookup turns (queues ++ [queue])
      | none => queues

/-- `discover`, in an environment with these bindings. -/
def discover (env : List (String × Q)) : List Q :=
  match env.lookup (shardBinding 0) with
  | none => []
  | some first => discoverFrom (fun name => env.lookup name) env.length [first]

theorem toString_nat_injective : Function.Injective (fun n : Nat => toString n) := by
  intro m n h
  have hdigits : Nat.toDigits 10 m = Nat.toDigits 10 n := by
    rw [← Nat.toList_repr, ← Nat.toList_repr]
    exact congrArg String.toList h
  rw [← Nat.ofDigitChars_ten_toDigits (n := m), hdigits, Nat.ofDigitChars_ten_toDigits]

theorem shardBinding_injective : Function.Injective shardBinding := by
  -- only the first name is without a number
  have hfirst (k : Nat) : "flag_logs_queue_" ++ toString (k + 1) ≠ "flag_logs_queue" := by
    intro hk
    have hlong := congrArg String.length hk
    have hprefix : "flag_logs_queue_".length = "flag_logs_queue".length + 1 := by decide
    rw [String.length_append, hprefix] at hlong
    omega
  intro m n h
  rcases m with _ | m <;> rcases n with _ | n
  · rfl
  · exact absurd h.symm (hfirst _)
  · exact absurd h (hfirst _)
  · have hnumber : m + 1 + 1 = n + 1 + 1 :=
      toString_nat_injective ((String.append_right_inj _).mp h)
    omega

/-- What a loop has found: the queues of the first names. -/
structure Found (lookup : String → Option Q) (queues : List Q) : Prop where
  bound : ∀ i : Nat, i < queues.length → lookup (shardBinding i) = queues[i]?

theorem Found.concat {lookup : String → Option Q} {queues : List Q} (h : Found lookup queues)
    {queue : Q} (hqueue : lookup (shardBinding queues.length) = some queue) :
    Found lookup (queues ++ [queue]) where
  bound i hi := by
    rcases Nat.lt_or_ge i queues.length with hold | hnew
    · rw [h.bound i hold, List.getElem?_append_left hold]
    · have hlast : i = queues.length := by
        rw [List.length_append] at hi
        simp at hi
        omega
      rw [hlast, hqueue]
      simp

/-- The loop keeps what was found; it ends at a free name, or has found a queue in each turn. -/
theorem Found.discoverFrom {lookup : String → Option Q} {queues : List Q}
    (h : Found lookup queues) (turns : Nat) :
    Found lookup (discoverFrom lookup turns queues) ∧
      (lookup (shardBinding (FlagLog.discoverFrom lookup turns queues).length) = none ∨
        (FlagLog.discoverFrom lookup turns queues).length = queues.length + turns) := by
  induction turns generalizing queues with
  | zero => exact ⟨h, .inr rfl⟩
  | succ turns ih =>
      rw [FlagLog.discoverFrom]
      cases hqueue : lookup (shardBinding queues.length) with
      | none => exact ⟨h, .inl hqueue⟩
      | some queue =>
          obtain ⟨hfound, hend⟩ := ih (h.concat hqueue)
          refine ⟨hfound, hend.imp id fun hlength => ?_⟩
          rw [hlength, List.length_append]
          simp
          omega

/-- There are no more queues than bindings. -/
theorem Found.length_le {env : List (String × Q)} {queues : List Q}
    (h : Found (fun name => env.lookup name) queues) : queues.length ≤ env.length := by
  have hnames : ((List.range queues.length).map shardBinding).Nodup :=
    List.nodup_range.map shardBinding_injective
  have hsubset : (List.range queues.length).map shardBinding ⊆ env.map Prod.fst := by
    intro name hname
    obtain ⟨i, hi, rfl⟩ := List.mem_map.mp hname
    have hi := List.mem_range.mp hi
    have hlookup := h.bound i hi
    rw [List.getElem?_eq_getElem hi] at hlookup
    obtain ⟨before, after, henv, -⟩ := List.lookup_eq_some_iff.mp hlookup
    rw [henv]
    simp
  have hlength := (List.subperm_of_subset hnames hsubset).length_le
  rwa [List.length_map, List.length_range, List.length_map] at hlength

/-- The queues are those of the first names, up to the first name that is not bound. -/
structure UnbrokenRow (env : List (String × Q)) (queues : List Q) : Prop extends
    Found (fun name => env.lookup name) queues where
  ends : env.lookup (shardBinding queues.length) = none

theorem unbrokenRow_discover (env : List (String × Q)) : UnbrokenRow env (discover env) := by
  rw [discover]
  cases hfirst : env.lookup (shardBinding 0) with
  | none => exact ⟨⟨fun i hi => absurd hi (Nat.not_lt_zero i)⟩, hfirst⟩
  | some first =>
      have hone : Found (fun name => env.lookup name) [first] :=
        ⟨fun i hi => by
          have hi : i = 0 := Nat.lt_one_iff.mp hi
          rw [hi, hfirst]
          rfl⟩
      obtain ⟨hfound, hend⟩ := hone.discoverFrom env.length
      refine ⟨hfound, hend.resolve_right fun hlength => ?_⟩
      -- a queue in each turn, and the first one, are more than there are bindings
      have hle := hfound.length_le
      rw [hlength, List.length_singleton] at hle
      omega

/-- A row does not end at a name under which another has a queue. -/
theorem UnbrokenRow.length_le {env : List (String × Q)} {queues queues' : List Q}
    (h : UnbrokenRow env queues) (h' : UnbrokenRow env queues') :
    queues'.length ≤ queues.length := by
  by_contra hlt
  have hbound := h'.bound queues.length (Nat.lt_of_not_le hlt)
  rw [List.getElem?_eq_getElem (Nat.lt_of_not_le hlt)] at hbound
  cases h.ends.symm.trans hbound

/-- **Discovery**: there is one unbroken row, and it is found. -/
theorem unbrokenRow_iff {env : List (String × Q)} {queues : List Q} :
    UnbrokenRow env queues ↔ discover env = queues := by
  have hfound := unbrokenRow_discover env
  constructor
  · intro h
    have hlength : (discover env).length = queues.length :=
      Nat.le_antisymm (h.length_le hfound) (hfound.length_le h)
    refine List.ext_getElem? fun i => ?_
    rcases Nat.lt_or_ge i queues.length with hi | hi
    · exact (hfound.bound i (hlength ▸ hi)).symm.trans (h.bound i hi)
    · rw [List.getElem?_eq_none hi, List.getElem?_eq_none (hlength ▸ hi)]
  · rintro rfl
    exact hfound

/-! ### Sending -/

/-- `select_index`. -/
def selectIndex (len : Nat) (sample : Float) : Nat :=
  if len = 0 then 0 else (sample * len.toFloat).toUInt32.toNat % len

/-- What is written to the console. -/
inductive SendLine where
  | failed (name : String)
  | failedAttempt (name : String) (attempt total : Nat)
  | exhausted (total : Nat)
deriving DecidableEq

/-- How sending went: the queues that were tried, in order. -/
structure Sending where
  sent : Bool
  tried : List Nat
  lines : List SendLine

/-- The line of a queue that does not take the log. -/
def failureLine (total idx offset : Nat) : SendLine :=
  if total = 1 then .failed (shardBinding idx)
  else .failedAttempt (shardBinding idx) (offset + 1) total

variable (queues : List Q) (accepts : List Nat → Q → Bool)

/-- The loop of `send_to_any` over the offsets; `accepts` is the answer of a queue, after those that
were tried before it. -/
def sendFrom (start : Nat) : List Nat → List Nat → Sending
  | tried, [] => ⟨false, tried, if 1 < queues.length then [.exhausted queues.length] else []⟩
  | tried, offset :: offsets =>
      let idx := (start + offset) % UInt32.size % queues.length
      match queues[idx]? with
      | none => sendFrom start tried offsets
      | some queue =>
          if accepts tried queue then ⟨true, tried ++ [idx], []⟩
          else
            let rest := sendFrom start (tried ++ [idx]) offsets
            { rest with lines := failureLine queues.length idx offset :: rest.lines }

/-- `send_to_any`. -/
def sendToAny (sample : Float) : Sending :=
  if queues = [] then ⟨false, [], []⟩
  else
    sendFrom queues accepts (selectIndex queues.length sample) [] (List.range queues.length)

/-! ### Each queue once -/

/-- The queues from a chosen one on, and around. -/
def rotation (start total : Nat) : List Nat :=
  (List.range total).map fun offset => (start + offset) % total

theorem rotation_perm (start total : Nat) : (rotation start total).Perm (List.range total) := by
  have hnodup : (rotation start total).Nodup := by
    refine List.Nodup.map_on ?_ List.nodup_range
    intro a ha b hb hab
    have hmod : a ≡ b [MOD total] := Nat.ModEq.add_left_cancel' start hab
    rwa [Nat.ModEq, Nat.mod_eq_of_lt (List.mem_range.mp ha),
      Nat.mod_eq_of_lt (List.mem_range.mp hb)] at hmod
  have hsubset : rotation start total ⊆ List.range total := by
    intro i hi
    obtain ⟨offset, hoffset, rfl⟩ := List.mem_map.mp hi
    have hpos : 0 < total := Nat.zero_lt_of_lt (List.mem_range.mp hoffset)
    exact List.mem_range.mpr (Nat.mod_lt _ hpos)
  exact (List.subperm_of_subset hnodup hsubset).perm_of_length_le (by simp [rotation])

/-- A queue that was tried after others has not taken the log. -/
def Refused (tried : List Nat) (idx : Nat) : Prop :=
  ∃ queue, queues[idx]? = some queue ∧ accepts tried queue = false

/-- The queue that a line is about. -/
def SendLine.name : SendLine → Option String
  | .failed name | .failedAttempt name _ _ => some name
  | .exhausted _ => none

@[simp] theorem name_failureLine (total idx offset : Nat) :
    (failureLine total idx offset).name = some (shardBinding idx) := by
  rw [failureLine]
  split <;> rfl

/-- The loop goes on from queues that have refused: it tries the rest in order, up to the first that
takes the log, and has a line for each that does not. -/
theorem sendFrom_spec (start : Nat) (hbound : queues.length ≤ 2147483648)
    (hstart : start < queues.length) {offsets tried : List Nat}
    (hoffsets : ∀ o ∈ offsets, o < queues.length)
    (htried : Throughout (Refused queues accepts) tried) :
    let r := sendFrom queues accepts start tried offsets
    let next := offsets.map fun o => (start + o) % queues.length
    ∃ refused, Throughout (Refused queues accepts) (tried ++ refused) ∧
      r.lines.filterMap SendLine.name = refused.map shardBinding ∧
      ((r.sent = true ∧ ∃ last rest queue, next = refused ++ last :: rest ∧
          r.tried = tried ++ refused ++ [last] ∧ queues[last]? = some queue ∧
          accepts (tried ++ refused) queue = true) ∨
        (r.sent = false ∧ next = refused ∧ r.tried = tried ++ refused)) := by
  induction offsets generalizing tried with
  | nil =>
      refine ⟨[], by simpa using htried, ?_, .inr ⟨rfl, rfl, (List.append_nil _).symm⟩⟩
      rw [sendFrom]
      split <;> rfl
  | cons offset offsets ih =>
      obtain ⟨hoffset, hrest⟩ := List.forall_mem_cons.mp hoffsets
      -- the index is computed with 32 bits and does not wrap
      have hwrap : (start + offset) % UInt32.size = start + offset :=
        Nat.mod_eq_of_lt (by simp only [UInt32.size]; omega)
      have hidx : (start + offset) % queues.length < queues.length := Nat.mod_lt _ (by omega)
      have hqueue := List.getElem?_eq_getElem hidx
      simp only [sendFrom, hwrap, hqueue, List.map_cons]
      split
      · rename_i haccepts
        refine ⟨[], by simpa using htried, rfl, .inl ⟨rfl, _, _, _, rfl, ?_, hqueue, ?_⟩⟩
        · simp
        · simpa using haccepts
      · rename_i hrefuses
        have hone : Refused queues accepts tried ((start + offset) % queues.length) :=
          ⟨_, hqueue, Bool.eq_false_iff.mpr hrefuses⟩
        obtain ⟨refused, hrefused, hlines, hend⟩ := ih hrest (throughout_concat.mpr ⟨htried, hone⟩)
        refine ⟨(start + offset) % queues.length :: refused, by simpa using hrefused, ?_, ?_⟩
        · simp [hlines]
        · refine hend.imp ?_ ?_
          · rintro ⟨hsent, last, rest, queue, hnext, htried, hlast, haccepts⟩
            refine ⟨hsent, last, rest, queue, by simp [hnext], by simp [htried], hlast, ?_⟩
            simpa using haccepts
          · rintro ⟨hsent, hnext, htried⟩
            exact ⟨hsent, by simp [hnext], by simp [htried]⟩

/-- How a log is sent to the queues of an environment. -/
structure SentOnce (env : List (String × Q)) (accepts : List Nat → Q → Bool) (r : Sending)
    (refused : List Nat) : Prop where
  nodup : r.tried.Nodup
  /-- They are tried in order, from one of them on and around. -/
  order : ∃ start, r.tried <+: rotation start (discover env).length
  /-- The queue under an index is bound to the name that a line gives it. -/
  named : ∀ i ∈ r.tried, ∃ queue, (discover env)[i]? = some queue ∧
    env.lookup (shardBinding i) = some queue
  refusals : Throughout (Refused (discover env) accepts) refused
  lines : r.lines.filterMap SendLine.name = refused.map shardBinding
  /-- The log is sent to the last queue only, -/
  sent : r.sent = true → ∃ last queue, r.tried = refused ++ [last] ∧
    (discover env)[last]? = some queue ∧ accepts refused queue = true
  /-- and it is dropped after all of them. -/
  dropped : r.sent = false → r.tried = refused ∧
    r.tried.Perm (List.range (discover env).length)

/-- Each queue that was found is tried at most once, and none after one that takes the log; it is
dropped only if there is none that takes it. -/
theorem sentOnce_sendToAny (env : List (String × Q)) (accepts : List Nat → Q → Bool)
    (sample : Float) (hbound : (discover env).length ≤ 2147483648) :
    ∃ refused, SentOnce env accepts (sendToAny (discover env) accepts sample) refused := by
  have hfound := unbrokenRow_discover env
  -- a failure line names the binding that the queue was found under
  have hnamed {tried : List Nat} (htried : tried ⊆ List.range (discover env).length) :
      ∀ i ∈ tried, ∃ queue, (discover env)[i]? = some queue ∧
        env.lookup (shardBinding i) = some queue := by
    intro i hi
    have hlt := List.mem_range.mp (htried hi)
    have hqueue := List.getElem?_eq_getElem hlt
    exact ⟨_, hqueue, (hfound.bound i hlt).trans hqueue⟩
  rw [sendToAny]
  split
  · rename_i hnone
    refine ⟨[], List.nodup_nil, ⟨0, List.nil_prefix⟩, hnamed (List.nil_subset _), throughout_nil,
      rfl, ?_, ?_⟩
    · exact fun h => absurd h Bool.false_ne_true
    · rw [hnone]
      exact fun _ => ⟨rfl, .nil⟩
  · rename_i hsome
    have hpos : 0 < (discover env).length := List.length_pos_of_ne_nil hsome
    have hstart : selectIndex (discover env).length sample < (discover env).length := by
      rw [selectIndex, if_neg (Nat.ne_of_gt hpos)]
      exact Nat.mod_lt _ hpos
    generalize selectIndex (discover env).length sample = start at hstart ⊢
    have hperm := rotation_perm start (discover env).length
    have hspec := sendFrom_spec (discover env) accepts start hbound hstart
      (fun o ho => List.mem_range.mp ho) (throughout_nil (Q := Refused (discover env) accepts))
    simp only [List.nil_append] at hspec
    obtain ⟨refused, hrefused, hlines, hend⟩ := hspec
    rcases hend with ⟨hsent, last, rest, queue, hnext, htried, hlast, haccepts⟩ |
      ⟨hsent, hnext, htried⟩
    · -- the queues that were tried are the first of the rotation
      have hsplit : rotation start (discover env).length = (refused ++ [last]) ++ rest := by
        rw [rotation, hnext]
        simp
      have hfirst : (refused ++ [last]).Sublist (rotation start (discover env).length) := by
        rw [hsplit]
        exact List.sublist_append_left _ _
      refine ⟨refused, ?_, ⟨start, ?_⟩, ?_, hrefused, hlines,
        fun _ => ⟨last, queue, htried, hlast, haccepts⟩,
        fun h => absurd (h.symm.trans hsent) Bool.false_ne_true⟩
      · rw [htried]
        exact (hperm.nodup_iff.mpr List.nodup_range).sublist hfirst
      · rw [htried, hsplit]
        exact List.prefix_append _ _
      · rw [htried]
        exact hnamed (List.Subset.trans hfirst.subset hperm.subset)
    · -- every queue has refused, so the whole rotation was tried
      have hall : rotation start (discover env).length = refused := hnext
      rw [hall] at hperm
      refine ⟨refused, ?_, ⟨start, ?_⟩, ?_, hrefused, hlines,
        fun h => absurd (hsent.symm.trans h) Bool.false_ne_true, fun _ => ⟨htried, ?_⟩⟩
      · rw [htried]
        exact hperm.nodup_iff.mpr List.nodup_range
      · rw [htried, hall]
      · rw [htried]
        exact hnamed hperm.subset
      · rw [htried]
        exact hperm

/-- **Sending**: the queues that are found are exactly those of the unbroken row of bindings, and a
log is sent to one of them at most. -/
theorem sends_once (env : List (String × Q)) (accepts : List Nat → Q → Bool) (sample : Float)
    (hbound : (discover env).length ≤ 2147483648) :
    (∀ queues, UnbrokenRow env queues ↔ discover env = queues) ∧
      ∃ refused, SentOnce env accepts (sendToAny (discover env) accepts sample) refused :=
  ⟨fun _ => unbrokenRow_iff, sentOnce_sendToAny env accepts sample hbound⟩

/-- Two shards, and a third binding that is not the next one. -/
def sampleBindings : List (String × String) :=
  [("events_queue", "events"), ("flag_logs_queue_2", "second"), ("flag_logs_queue", "original"),
    ("flag_logs_queue_4", "fourth")]

theorem sends_once_two :
    discover sampleBindings = ["original", "second"] ∧
      (∀ queues, UnbrokenRow sampleBindings queues ↔ discover sampleBindings = queues) ∧
      ∃ refused, SentOnce sampleBindings (fun _ queue => queue = "second")
        (sendToAny (discover sampleBindings) (fun _ queue => queue = "second") 0.25) refused :=
  ⟨by decide, sends_once sampleBindings _ 0.25 (by decide)⟩

end FlagLog

end ConfidenceResolver
