import Mathlib.Data.List.Dedup
import Mathlib.Data.List.Perm.Basic
import Mathlib.Data.List.Perm.Lattice

/-!
# Support — a queue that delivers again

Messages are published under numbers of their own.  A consumer is run on a batch of the pending
ones: if it acknowledges the batch then its messages are done with, otherwise they stay pending, and
may come in any other batch.  A message may also be given up.

* `Courier`: the queue, with the history of the runs of its consumer.
* `Placed`: each message is pending, given up, or in one batch that was acknowledged.
* `Consumed`: each run is one of the consumer.
* `delivered_perm`: what was delivered together, by the batches that were acknowledged and the runs
  that failed.
-/

namespace ConfidenceResolver

/-- A run of the consumer: its batch, what it did, and whether it has acknowledged the batch. -/
structure Attempt (M O : Type) where
  batch : List (Nat × M)
  result : O
  acked : Bool

structure Courier (M O : Type) where
  published : List (Nat × M) := []
  pending : List (Nat × M) := []
  buried : List (Nat × M) := []
  attempts : List (Attempt M O) := []

namespace Courier

variable {M E O : Type}

def publish (c : Courier M O) (message : M) : Courier M O :=
  { c with
    published := c.published ++ [(c.published.length, message)]
    pending := c.pending ++ [(c.published.length, message)] }

def publishAll (c : Courier M O) (messages : List M) : Courier M O := messages.foldl publish c

/-- The pending messages of these numbers, in the order of the numbers. -/
def batch (c : Courier M O) (ids : List Nat) : List (Nat × M) :=
  ids.dedup.filterMap fun id => c.pending.find? fun e => e.1 = id

/-- The consumer is run on a batch, in an environment. -/
def attempt (consumer : List M → E → O × Bool) (c : Courier M O) (ids : List Nat) (env : E) :
    Courier M O :=
  let run := consumer ((c.batch ids).map Prod.snd) env
  { c with
    pending := if run.2 then c.pending.filter fun e => e.1 ∉ ids else c.pending
    attempts := c.attempts ++ [⟨c.batch ids, run.1, run.2⟩] }

/-- A pending message is given up. -/
def bury (c : Courier M O) (id : Nat) : Courier M O :=
  { c with
    pending := c.pending.filter fun e => e.1 ≠ id
    buried := c.buried ++ c.pending.filter fun e => e.1 = id }

/-- The runs that have acknowledged their batch. -/
def acks (c : Courier M O) : List (Attempt M O) := c.attempts.filter (·.acked)

/-- The runs that have not. -/
def failures (c : Courier M O) : List (Attempt M O) := c.attempts.filter fun a => !a.acked

/-- The messages that are done with. -/
def done (c : Courier M O) : List (Nat × M) := c.acks.flatMap (·.batch)

/-! ### Each message in one place -/

structure Placed (c : Courier M O) : Prop where
  numbers : c.published.map Prod.fst = List.range c.published.length
  perm : c.published.Perm (c.pending ++ c.buried ++ c.done)

variable {c : Courier M O}

theorem Placed.nodup_published (h : c.Placed) : (c.published.map Prod.fst).Nodup := by
  rw [h.numbers]
  exact List.nodup_range

theorem Placed.nodup (h : c.Placed) :
    ((c.pending ++ c.buried ++ c.done).map Prod.fst).Nodup :=
  (h.perm.map Prod.fst).nodup_iff.mp h.nodup_published

theorem Placed.nodup_pending (h : c.Placed) : (c.pending.map Prod.fst).Nodup := by
  have hall := h.nodup
  rw [List.append_assoc, List.map_append] at hall
  exact hall.of_append_left

theorem mem_batch {ids : List Nat} (hnodup : (c.pending.map Prod.fst).Nodup) {e : Nat × M} :
    e ∈ c.batch ids ↔ e ∈ c.pending ∧ e.1 ∈ ids := by
  simp only [batch, List.mem_filterMap, List.mem_dedup]
  constructor
  · rintro ⟨id, hid, hfind⟩
    have heq : e.1 = id := by simpa using List.find?_some hfind
    exact ⟨List.mem_of_find?_eq_some hfind, heq ▸ hid⟩
  · rintro ⟨hmem, hid⟩
    refine ⟨e.1, hid, ?_⟩
    -- there is one message of each number
    obtain ⟨e', hfind⟩ := Option.isSome_iff_exists.mp
      (List.find?_isSome.mpr ⟨e, hmem, decide_eq_true rfl⟩ :
        (c.pending.find? fun e' => e'.1 = e.1).isSome = true)
    have heq : e'.1 = e.1 := by simpa using List.find?_some hfind
    rw [hfind, List.inj_on_of_nodup_map hnodup (List.mem_of_find?_eq_some hfind) hmem heq]

theorem nodup_batch (c : Courier M O) (ids : List Nat) : (c.batch ids).Nodup := by
  refine (List.nodup_dedup ids).filterMap ?_
  intro id id' e he he'
  have hid : e.1 = id := by simpa using List.find?_some he
  have hid' : e.1 = id' := by simpa using List.find?_some he'
  exact hid.symm.trans hid'

/-- The batch, and the messages that stay. -/
theorem batch_perm {ids : List Nat} (hnodup : (c.pending.map Prod.fst).Nodup) :
    c.pending.Perm ((c.pending.filter fun e => e.1 ∉ ids) ++ c.batch ids) := by
  have hpending : c.pending.Nodup := hnodup.of_map
  have hdisjoint : (c.pending.filter fun e => e.1 ∉ ids).Disjoint (c.batch ids) := by
    intro e hstay hbatch
    exact of_decide_eq_true (List.mem_filter.mp hstay).2 ((mem_batch hnodup).mp hbatch).2
  have hright := (hpending.filter fun e => e.1 ∉ ids).append (nodup_batch c ids) hdisjoint
  refine (List.perm_ext_iff_of_nodup hpending hright).mpr fun e => ?_
  rw [List.mem_append, List.mem_filter, mem_batch hnodup]
  by_cases hid : e.1 ∈ ids <;> simp [hid]

theorem placed_new : ({} : Courier M O).Placed := ⟨rfl, .nil⟩

theorem Placed.publish (h : c.Placed) (message : M) : (c.publish message).Placed where
  numbers := by
    simp only [Courier.publish, List.map_append, List.length_append, List.map_singleton, h.numbers]
    exact List.range_succ.symm
  perm := by
    -- the new message is moved behind the others
    have hnew := h.perm.append_right [(c.published.length, message)]
    refine hnew.trans ?_
    change ((c.pending ++ c.buried ++ c.done) ++ [(c.published.length, message)]).Perm
      ((c.pending ++ [(c.published.length, message)]) ++ c.buried ++ c.done)
    simp only [List.append_assoc]
    refine List.Perm.append_left c.pending ?_
    rw [← List.append_assoc, ← List.append_assoc]
    exact List.perm_append_comm.trans (by simp)

theorem Placed.publishAll (h : c.Placed) (messages : List M) : (c.publishAll messages).Placed := by
  induction messages generalizing c with
  | nil => exact h
  | cons message messages ih => exact ih (h.publish message)

theorem published_publishAll (c : Courier M O) (messages : List M) :
    (c.publishAll messages).published.map Prod.snd = c.published.map Prod.snd ++ messages := by
  induction messages generalizing c with
  | nil => exact (List.append_nil _).symm
  | cons message messages ih =>
      refine (ih (c.publish message)).trans ?_
      simp [publish]

theorem attempts_publishAll (c : Courier M O) (messages : List M) :
    (c.publishAll messages).attempts = c.attempts := by
  induction messages generalizing c with
  | nil => rfl
  | cons message messages ih => exact ih (c.publish message)

theorem Placed.attempt (h : c.Placed) (consumer : List M → E → O × Bool) (ids : List Nat)
    (env : E) : (c.attempt consumer ids env).Placed where
  numbers := h.numbers
  perm := by
    refine h.perm.trans ?_
    simp only [Courier.attempt, done, acks, List.filter_append, List.flatMap_append]
    cases hack : (consumer ((c.batch ids).map Prod.snd) env).2 with
    | false => simp
    | true =>
        -- the batch moves from the pending messages to those that are done with
        have hbatch := ((batch_perm h.nodup_pending).append_right (c.buried ++ c.done) :
          (c.pending ++ (c.buried ++ c.done)).Perm
            ((c.pending.filter fun e => e.1 ∉ ids) ++ c.batch ids ++ (c.buried ++ c.done)))
        simp only [done, acks, List.append_assoc] at hbatch
        simp only [if_true, List.filter_cons, List.filter_nil, List.flatMap_cons, List.flatMap_nil,
          List.append_nil, List.append_assoc]
        refine hbatch.trans (List.Perm.append_left _ ?_)
        rw [← List.append_assoc c.buried]
        exact List.perm_append_comm.trans (by simp)

theorem Placed.bury (h : c.Placed) (id : Nat) : (c.bury id).Placed where
  numbers := h.numbers
  perm := by
    refine h.perm.trans ?_
    change (c.pending ++ c.buried ++ c.done).Perm
      ((c.pending.filter fun e => e.1 ≠ id) ++ (c.buried ++ c.pending.filter fun e => e.1 = id) ++
        c.done)
    refine List.Perm.append_right c.done ?_
    have hsplit := (List.filter_append_perm (fun e => decide (e.1 ≠ id)) c.pending).symm
    simp only [decide_not, Bool.not_not] at hsplit
    refine (hsplit.append_right c.buried).trans ?_
    simp only [ne_eq, decide_not, List.append_assoc]
    exact List.Perm.append_left _ List.perm_append_comm

/-! ### What the runs have done -/

/-- Each run is one of the consumer, on messages that were published. -/
structure Consumed (consumer : List M → E → O × Bool) (c : Courier M O) : Prop where
  ran : ∀ a ∈ c.attempts, ∃ env, consumer (a.batch.map Prod.snd) env = (a.result, a.acked)
  batches : ∀ a ∈ c.attempts, a.batch ⊆ c.published

theorem consumed_new (consumer : List M → E → O × Bool) :
    Consumed consumer ({} : Courier M O) := ⟨by simp, by simp⟩

variable {consumer : List M → E → O × Bool}

theorem Consumed.publish (h : Consumed consumer c) (message : M) :
    Consumed consumer (c.publish message) where
  ran := h.ran
  batches a ha := List.Subset.trans (h.batches a ha) (List.subset_append_left _ _)

theorem Consumed.publishAll (h : Consumed consumer c) (messages : List M) :
    Consumed consumer (c.publishAll messages) := by
  induction messages generalizing c with
  | nil => exact h
  | cons message messages ih => exact ih (h.publish message)

theorem Consumed.attempt (h : Consumed consumer c) (hplaced : c.Placed) (ids : List Nat) (env : E) :
    Consumed consumer (c.attempt consumer ids env) where
  ran := List.forall_mem_append.mpr ⟨h.ran, List.forall_mem_singleton.mpr ⟨env, rfl⟩⟩
  batches := by
    refine List.forall_mem_append.mpr ⟨h.batches, List.forall_mem_singleton.mpr fun e he => ?_⟩
    have hpending := ((mem_batch hplaced.nodup_pending).mp he).1
    refine hplaced.perm.symm.subset ?_
    rw [List.append_assoc]
    exact List.mem_append_left _ hpending

theorem Consumed.bury (h : Consumed consumer c) (id : Nat) : Consumed consumer (c.bury id) :=
  ⟨h.ran, h.batches⟩

/-- What a run of the consumer adds to those that have acknowledged their batch. -/
theorem acks_attempt (consumer : List M → E → O × Bool) (c : Courier M O) (ids : List Nat)
    (env : E) :
    let run := consumer ((c.batch ids).map Prod.snd) env
    (c.attempt consumer ids env).acks =
      c.acks ++ if run.2 then [⟨c.batch ids, run.1, run.2⟩] else [] := by
  intro run
  simp only [acks, attempt, List.filter_append]
  cases run.2 <;> simp [run]

/-- **What was delivered**: the contents of the messages that are done with, what their runs have
delivered beyond that, and what the failed runs have delivered, if each run that acknowledges its
batch delivers its contents. -/
theorem delivered_perm {A : Type} (content : M → List A) (delivered extra : O → List A)
    (h : ∀ a ∈ c.acks, (delivered a.result).Perm
      (a.batch.flatMap (fun e => content e.2) ++ extra a.result)) :
    (c.attempts.flatMap fun a => delivered a.result).Perm
      (c.done.flatMap (fun e => content e.2) ++ c.acks.flatMap (fun a => extra a.result) ++
        c.failures.flatMap fun a => delivered a.result) := by
  have hacks : (c.acks.flatMap fun a => delivered a.result).Perm
      (c.done.flatMap (fun e => content e.2) ++ c.acks.flatMap fun a => extra a.result) := by
    rw [done, List.flatMap_assoc]
    exact (List.Perm.flatMap_left c.acks h).trans
      (List.flatMap_append_perm c.acks _ _).symm
  have hsplit := (List.filter_append_perm (·.acked) c.attempts).symm
  have hattempts := hsplit.flatMap_right fun a => delivered a.result
  rw [List.flatMap_append] at hattempts
  exact hattempts.trans (hacks.append_right _)

end Courier

end ConfidenceResolver
