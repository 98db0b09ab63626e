import ConfidenceResolver.Evaluation.ManagedContext
import ConfidenceResolver.Evaluation.Traps

/-!
# Evaluation — an unknown client secret

The error for a secret that no client has names that secret and every one the state has, each of
them masked.

* `Mask`: what a mask shows of a secret, and what it does not.
* `maskSecret_mask`: what `mask_secret` returns is a mask, where it returns.
* `unknown_secret_iff`: the lookup is an error with a text of masks if and only if each secret of
  more than six bytes can be cut three bytes from either end.
-/

namespace ConfidenceResolver

/-- A mask shows nothing of a secret of at most six bytes, and of another one its first three bytes
and its last three. -/
inductive Mask (s : String) : String → Prop
  | hidden (h : s.utf8ByteSize ≤ 6) : Mask s "***"
  | ends {front middle back : String} (h : s = front ++ middle ++ back)
      (hfront : front.utf8ByteSize = 3) (hmiddle : middle ≠ "") (hback : back.utf8ByteSize = 3) :
      Mask s (front ++ "..." ++ back)

/-! ### Cuts -/

/-- The bytes of a text. -/
theorem utf8ByteSize_toList (s : String) : s.utf8ByteSize = (s.toList.map Char.utf8Size).sum := by
  conv_lhs => rw [← String.ofList_toList (s := s), String.utf8ByteSize_ofList]
  induction s.toList with
  | nil => rfl
  | cons c cs ih => rw [String.utf8Len_cons, ih, List.map_cons, List.sum_cons, Nat.add_comm]

theorem takeBytes_eq_some {cs front : List Char} : ∀ {n : Nat}, takeBytes n cs = some front →
    ∃ back, cs = front ++ back ∧ (front.map Char.utf8Size).sum = n := by
  induction cs generalizing front with
  | nil =>
      rintro (_ | n) h
      · cases h
        exact ⟨[], rfl, rfl⟩
      · cases h
  | cons c cs ih =>
      rintro (_ | n) h
      · cases h
        exact ⟨c :: cs, rfl, rfl⟩
      · rw [takeBytes] at h
        split at h
        · rename_i hle
          obtain ⟨rest, hrest, rfl⟩ := Option.map_eq_some_iff.mp h
          obtain ⟨back, rfl, hsum⟩ := ih hrest
          refine ⟨back, rfl, ?_⟩
          rw [List.map_cons, List.sum_cons, hsum, Nat.add_sub_cancel' hle]
        · cases h

theorem dropBytes_eq_some {cs back : List Char} : ∀ {n : Nat}, dropBytes n cs = some back →
    ∃ front, cs = front ++ back ∧ (front.map Char.utf8Size).sum = n := by
  induction cs with
  | nil =>
      rintro (_ | n) h
      · cases h
        exact ⟨[], rfl, rfl⟩
      · cases h
  | cons c cs ih =>
      rintro (_ | n) h
      · cases h
        exact ⟨[], rfl, rfl⟩
      · rw [dropBytes] at h
        split at h
        · rename_i hle
          obtain ⟨front, rfl, hsum⟩ := ih h
          refine ⟨c :: front, rfl, ?_⟩
          rw [List.map_cons, List.sum_cons, hsum, Nat.add_sub_cancel' hle]
        · cases h

/-- Two cuts do not overlap when the second is further on: there is a part between them. -/
theorem cuts_apart {cs front back : List Char} {m n : Nat} (hfront : takeBytes m cs = some front)
    (hback : dropBytes n cs = some back) (h : m < n) :
    ∃ middle, middle ≠ [] ∧ cs = front ++ middle ++ back := by
  obtain ⟨rest, htake, hm⟩ := takeBytes_eq_some hfront
  obtain ⟨before, hdrop, hn⟩ := dropBytes_eq_some hback
  rcases List.prefix_or_prefix_of_prefix ⟨rest, htake.symm⟩ ⟨back, hdrop.symm⟩ with hle | hover
  · obtain ⟨middle, rfl⟩ := hle
    refine ⟨middle, ?_, hdrop⟩
    rintro rfl
    rw [List.append_nil, hm] at hn
    exact Nat.ne_of_lt h hn
  · obtain ⟨tail, rfl⟩ := hover
    rw [List.map_append, List.sum_append, hn] at hm
    exact absurd (hm ▸ Nat.le_add_right n _) (Nat.not_le.mpr h)

/-- **What `mask_secret` returns is a mask.** -/
theorem maskSecret_mask {s m : String} (h : maskSecret s = some m) : Mask s m := by
  rw [maskSecret] at h
  split at h
  · rename_i hshort
    cases h
    exact .hidden hshort
  · rename_i hlong
    rcases hfront : takeBytes 3 s.toList with _ | front
    · rw [hfront] at h
      cases h
    rcases hback : dropBytes (s.utf8ByteSize - 3) s.toList with _ | back
    · rw [hfront, hback] at h
      cases h
    rw [hfront, hback] at h
    cases h
    obtain ⟨middle, hne, hparts⟩ := cuts_apart hfront hback (by omega)
    obtain ⟨-, -, hthree⟩ := takeBytes_eq_some hfront
    obtain ⟨before, hdrop, hbefore⟩ := dropBytes_eq_some hback
    have htotal := congrArg (fun cs => (cs.map Char.utf8Size).sum) hdrop
    simp only [← utf8ByteSize_toList, List.map_append, List.sum_append, hbefore] at htotal
    refine @Mask.ends s (String.ofList front) (String.ofList middle) (String.ofList back) ?_ ?_ ?_ ?_
    · rw [← String.ofList_append, ← String.ofList_append, ← hparts, String.ofList_toList]
    · rw [utf8ByteSize_toList, String.toList_ofList, hthree]
    · intro hempty
      have hnil := congrArg String.toList hempty
      rw [String.toList_ofList] at hnil
      exact hne hnil
    · rw [utf8ByteSize_toList, String.toList_ofList]
      omega

/-! ### The error -/

/-- The text of the error shows each secret by a mask, and nothing more of any. -/
def MaskedText (state : ResolverState) (clientSecret text : String) : Prop :=
  ∃ requested available, Mask clientSecret requested ∧
    List.Forall₂ Mask (state.secrets.entries.map Prod.fst) available ∧
    text = "client secret not found: requested=" ++ requested ++ ", available=[" ++
      ", ".intercalate available ++ "]"

theorem mapM_masks {secrets available : List String} (h : secrets.mapM maskSecret = some available) :
    List.Forall₂ Mask secrets available := by
  induction secrets generalizing available with
  | nil =>
      cases h
      exact .nil
  | cons s secrets ih =>
      rw [List.mapM_cons] at h
      rcases hs : maskSecret s with _ | m
      · rw [hs] at h
        cases h
      rcases hrest : secrets.mapM maskSecret with _ | rest
      · rw [hs, hrest] at h
        cases h
      rw [hs, hrest] at h
      cases h
      exact .cons (maskSecret_mask hs) (ih hrest)

/-- The lookup of an unknown secret is an error with a masked text wherever it returns. -/
theorem getResolver_masked {state : ResolverState} {natives : Natives} {clientSecret : String}
    {context : Struct} {canEncrypt : Bool} (hunknown : state.secrets.get? clientSecret = none)
    (hreturns : (state.getResolver natives clientSecret context canEncrypt).isSome) :
    ∃ text, state.getResolver natives clientSecret context canEncrypt = some (.error text) ∧
      MaskedText state clientSecret text := by
  rw [ResolverState.getResolver, hunknown] at hreturns ⊢
  rcases hrequested : maskSecret clientSecret with _ | requested
  · rw [hrequested] at hreturns
    cases hreturns
  rcases havailable : (state.secrets.entries.map Prod.fst).mapM maskSecret with _ | available
  · rw [hrequested, havailable] at hreturns
    cases hreturns
  exact ⟨_, rfl, requested, available, maskSecret_mask hrequested, mapM_masks havailable, rfl⟩

/-- **An unknown client secret is an ordinary error** with a text of masks exactly when neither it
nor a stored secret is longer than six bytes and has a character across one of the two cuts. -/
theorem unknown_secret_iff (state : ResolverState) (natives : Natives) (clientSecret : String)
    (context : Struct) (canEncrypt : Bool)
    (hunknown : state.secrets.get? clientSecret = none) :
    (∃ text, state.getResolver natives clientSecret context canEncrypt = some (.error text) ∧
        MaskedText state clientSecret text) ↔
      Maskable clientSecret ∧ ∀ e ∈ state.secrets.entries, Maskable e.1 := by
  have hnone : ¬ (none : Option Client).isSome = true := Bool.false_ne_true
  have hreturns : (state.getResolver natives clientSecret context canEncrypt).isSome ↔
      (state.secrets.get? clientSecret).isSome ∨
        Maskable clientSecret ∧ ∀ e ∈ state.secrets.entries, Maskable e.1 := getResolver_isSome
  rw [hunknown, or_iff_right hnone] at hreturns
  rw [← hreturns]
  constructor
  · rintro ⟨text, htext, -⟩
    rw [htext]
    rfl
  · exact getResolver_masked hunknown

theorem unknown_secret_iff_sample :
    ∃ text, Sample.managingState.getResolver Sample.natives "key-dé1" [] true =
        some (.error text) ∧ MaskedText Sample.managingState "key-dé1" text := by
  refine (unknown_secret_iff Sample.managingState Sample.natives "key-dé1" [] true rfl).mpr ⟨?_, ?_⟩
  · exact .inr ⟨⟨['k', 'e', 'y'], by decide, rfl⟩, ⟨['k', 'e', 'y', '-', 'd'], by decide, rfl⟩⟩
  · intro e he
    obtain rfl := List.mem_singleton.mp he
    exact .inl (by decide)

/-- **A character across the third byte** of an unknown secret: the lookup panics. -/
theorem unknown_secret_panics :
    Sample.managingState.secrets.get? "abédefg" = none ∧
      Sample.managingState.getResolver Sample.natives "abédefg" [] true = none :=
  ⟨rfl, rfl⟩

end ConfidenceResolver
