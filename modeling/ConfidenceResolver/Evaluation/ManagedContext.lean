import ConfidenceResolver.Materialization.SuspendResume
import ConfidenceResolver.Resolver.GetResolver
import ConfidenceResolver.Support.Separated

/-!
# Evaluation — the managed context is authoritative

What a lookup finds in the context that `get_resolver` builds.  Two facts about a struct carry the
proof, both about one path through it:

* `Holds`: the path leads to this value, and on its way no field occurs twice.
* `Free`: the path leaves the struct below nested structs only, so it passes no value and stops at
  no inner struct.

`setNested` establishes the first along its own path (`holds_setNested`) and keeps both along a
path apart from it.  A managed path is written after the managed paths that start it, since a map
is visited in the order of its keys; hence `holds_unflatten`.  `mergeStructs` keeps what the
managed side holds (`getPath_mergeStructs_of_holds`) and answers as the request where the managed
side is free (`getPath_mergeStructs_of_free`).
-/

namespace ConfidenceResolver

/-- A value that is not a struct. -/
def Value.IsScalar : Value → Prop
  | .struct _ => False
  | _ => True

/-! ### The values of a field -/

/-- Every value the fields give to `key`. -/
def fieldsAt (s : Struct) (key : String) : List Value :=
  (s.filter fun field => field.1 = key).map Prod.snd

theorem fieldsAt_cons (field : String × Value) (s : Struct) (key : String) :
    fieldsAt (field :: s) key = if field.1 = key then field.2 :: fieldsAt s key
      else fieldsAt s key := by
  rw [fieldsAt, List.filter_cons]
  split <;> rename_i h <;> simp_all [fieldsAt]

theorem lookup_eq_head? (s : Struct) (key : String) : s.lookup key = (fieldsAt s key).head? := by
  induction s with
  | nil => rfl
  | cons field s ih =>
      rw [SortedMap.lookup_cons, fieldsAt_cons, ih]
      by_cases h : key = field.1
      · rw [if_pos h, if_pos h.symm, List.head?_cons]
      · rw [if_neg h, if_neg (Ne.symm h)]

theorem fieldsAt_insert (s : Struct) (key key' : String) (v : Value) :
    fieldsAt (Struct.insert s key v) key' = if key = key' then [v] else fieldsAt s key' := by
  rw [Struct.insert, fieldsAt_cons, fieldsAt, List.filter_filter]
  split
  · rename_i h
    simp [← h]
  · rename_i h
    congr 1
    refine List.filter_congr fun field _ => ?_
    simp only [ne_eq, decide_not, Bool.and_eq_left_iff_imp, decide_eq_true_eq,
      Bool.not_eq_eq_eq_not, Bool.not_true, decide_eq_false_iff_not]
    exact fun hfield hkey => h (hkey.symm.trans hfield)

theorem lookup_insert (s : Struct) (key key' : String) (v : Value) :
    (Struct.insert s key v).lookup key' = if key = key' then some v else s.lookup key' := by
  rw [lookup_eq_head?, fieldsAt_insert, lookup_eq_head?]
  split <;> rfl

/-! ### One path through a struct -/

/-- The path leads to `v`, and each of its fields occurs once. -/
def Holds (v : Value) : Struct → List String → Prop
  | _, [] => False
  | s, [key] => fieldsAt s key = [v]
  | s, key :: path => ∃ sub, fieldsAt s key = [.struct sub] ∧ Holds v sub path

/-- The path leads out of the struct, through nested structs only. -/
def Free : Struct → List String → Prop
  | _, [] => False
  | s, key :: path =>
      fieldsAt s key = [] ∨ ∃ sub, fieldsAt s key = [.struct sub] ∧ Free sub path

theorem getPath_of_holds {v : Value} {s : Struct} {path : List String} (h : Holds v s path) :
    getPath s path = v := by
  induction path generalizing s with
  | nil => exact h.elim
  | cons key path ih =>
      cases path with
      | nil =>
          rw [getPath, lookup_eq_head?, show fieldsAt s key = [v] from h]
          rfl
      | cons key' path =>
          obtain ⟨sub, hsub, hrest⟩ := h
          rw [getPath, lookup_eq_head?, hsub, List.head?_cons]
          · exact ih hrest
          · exact List.cons_ne_nil _ _

theorem free_nil {path : List String} (h : path ≠ []) : Free [] path := by
  obtain ⟨key, path, rfl⟩ := List.exists_cons_of_ne_nil h
  exact .inl rfl

/-! ### Writing a path -/

/-- The struct that `set_nested` descends into. -/
def nestedAt (s : Struct) (key : String) : Struct :=
  match s.lookup key with
  | some (.struct fields) => fields
  | _ => []

theorem setNested_cons (s : Struct) (key : String) {path : List String} (h : path ≠ [])
    (v : Value) : setNested s (key :: path) v =
      Struct.insert s key (.struct (setNested (nestedAt s key) path v)) := by
  obtain ⟨next, path, rfl⟩ := List.exists_cons_of_ne_nil h
  rfl

theorem nestedAt_of_fieldsAt {s sub : Struct} {key : String}
    (h : fieldsAt s key = [.struct sub]) : nestedAt s key = sub := by
  rw [nestedAt, lookup_eq_head?, h]
  rfl

theorem nestedAt_of_absent {s : Struct} {key : String} (h : fieldsAt s key = []) :
    nestedAt s key = [] := by
  rw [nestedAt, lookup_eq_head?, h]
  rfl

/-- The value of a field that `set_nested` wrote, or left alone. -/
theorem fieldsAt_setNested (s : Struct) (key key' : String) (path : List String) (v : Value) :
    fieldsAt (setNested s (key :: path) v) key' =
      if key = key' then
        [if path = [] then v else .struct (setNested (nestedAt s key) path v)]
      else fieldsAt s key' := by
  by_cases h : path = []
  · subst h
    rw [if_pos rfl]
    exact fieldsAt_insert s key key' v
  · rw [setNested_cons s key h, fieldsAt_insert, if_neg h]

theorem holds_cons {v : Value} {s : Struct} {key : String} {path : List String}
    (h : path ≠ []) :
    Holds v s (key :: path) ↔ ∃ sub, fieldsAt s key = [.struct sub] ∧ Holds v sub path := by
  obtain ⟨next, path, rfl⟩ := List.exists_cons_of_ne_nil h
  rfl

theorem holds_setNested (s : Struct) {path : List String} (h : path ≠ []) (v : Value) :
    Holds v (setNested s path v) path := by
  induction path generalizing s with
  | nil => exact absurd rfl h
  | cons key path ih =>
      by_cases hpath : path = []
      · subst hpath
        exact (fieldsAt_setNested s key key [] v).trans (if_pos rfl)
      · refine (holds_cons hpath).mpr ⟨setNested (nestedAt s key) path v, ?_, ih _ hpath⟩
        rw [fieldsAt_setNested, if_pos rfl, if_neg hpath]

/-- A write along a path apart from it leaves a held value in place. -/
theorem Holds.setNested {v w : Value} {s : Struct} {path path' : List String}
    (h : Holds v s path) (hapart : Apart path path') :
    Holds v (setNested s path' w) path := by
  induction path generalizing s path' with
  | nil => exact h.elim
  | cons key path ih =>
      cases path' with
      | nil => exact absurd hapart not_apart_nil
      | cons key' path' =>
          have hrest := apart_cons_cons.mp hapart
          by_cases hpath : path = []
          · subst hpath
            have hne : key' ≠ key := fun heq => not_nil_apart (hrest heq.symm)
            exact (fieldsAt_setNested s key' key path' w).trans (by rw [if_neg hne]; exact h)
          · obtain ⟨sub, hsub, hheld⟩ := (holds_cons hpath).mp h
            rw [holds_cons hpath, fieldsAt_setNested]
            by_cases hkey : key' = key
            · subst hkey
              -- the write descends into the same nested struct
              have hne : path' ≠ [] := fun hnil => not_apart_nil (hnil ▸ hrest rfl)
              rw [if_pos rfl, if_neg hne, nestedAt_of_fieldsAt hsub]
              exact ⟨_, rfl, ih hheld (hrest rfl)⟩
            · rw [if_neg hkey]
              exact ⟨sub, hsub, hheld⟩

theorem Free.setNested {w : Value} {s : Struct} {path path' : List String}
    (h : Free s path) (hapart : Apart path path') : Free (setNested s path' w) path := by
  induction path generalizing s path' with
  | nil => exact h.elim
  | cons key path ih =>
      cases path' with
      | nil => exact absurd hapart not_apart_nil
      | cons key' path' =>
          have hrest := apart_cons_cons.mp hapart
          rw [Free, fieldsAt_setNested]
          by_cases hkey : key' = key
          · subst hkey
            have hne : path' ≠ [] := fun hnil => not_apart_nil (hnil ▸ hrest rfl)
            have hpath : path ≠ [] := fun hnil => not_nil_apart (hnil ▸ hrest rfl)
            rw [if_pos rfl, if_neg hne]
            refine .inr ⟨_, rfl, ?_⟩
            rcases h with habsent | ⟨sub, hsub, hfree⟩
            · rw [nestedAt_of_absent habsent]
              exact ih (free_nil hpath) (hrest rfl)
            · rw [nestedAt_of_fieldsAt hsub]
              exact ih hfree (hrest rfl)
          · rw [if_neg hkey]
            exact h

/-! ### The managed struct -/

/-- Paths compared part by part: one that starts another is not greater. -/
theorem le_of_parts {c : Char} {p q : String} (h : split c p <+: split c q) : p ≤ q := by
  have hparts : p.toList.splitOn c <+: q.toList.splitOn c :=
    (List.prefix_map_iff_of_injective fun a b hab => by
      simpa using congrArg String.toList hab).mp h
  exact not_lt.mp fun hlt => (prefix_of_splitOn hparts).le (String.lt_iff_toList_lt.mp hlt)

/-- A managed path that no other managed path extends holds its value. -/
theorem holds_unflatten {managed : SortedMap String Value} {path : String} {v : Value}
    (hmem : (path, v) ∈ managed.entries)
    (hmax : ∀ e ∈ managed.entries, split '.' path <+: split '.' e.1 → e.1 = path) :
    Holds v (unflatten managed) (split '.' path) := by
  refine managed.foldl_established (P := fun s => Holds v s (split '.' path)) hmem
    (fun s => holds_setNested s (split_ne_nil _ _) v)
    (fun s e he hlt hheld => hheld.setNested ⟨fun hstart => ?_, fun hstart => ?_⟩) []
  · exact hlt.ne (hmax e he hstart).symm
  · exact absurd (le_of_parts hstart) (not_le.mpr hlt)

theorem free_unflatten {managed : SortedMap String Value} {path : String}
    (hapart : ∀ e ∈ managed.entries, Apart (split '.' path) (split '.' e.1)) :
    Free (unflatten managed) (split '.' path) := by
  rw [unflatten]
  refine List.foldlRecOn (motive := fun s => Free s (split '.' path)) managed.entries _
    (free_nil (split_ne_nil _ _)) fun s hfree e he => ?_
  exact hfree.setNested (hapart e he)

/-! ### Merging -/

theorem lookup_mergeStructs_of_absent {managed : Struct} {key : String}
    (h : fieldsAt managed key = []) (result : Struct) :
    (mergeStructs managed result).lookup key = result.lookup key := by
  induction managed generalizing result with
  | nil => rw [mergeStructs]
  | cons field managed ih =>
      obtain ⟨key', managedVal⟩ := field
      rw [fieldsAt_cons] at h
      split at h
      · exact absurd h (List.cons_ne_nil _ _)
      · rename_i hne
        rw [mergeStructs, ih h, lookup_insert, if_neg hne]

/-- A managed field that occurs once is merged into the request's. -/
theorem lookup_mergeStructs {managed : Struct} {key : String} {v : Value}
    (h : fieldsAt managed key = [v]) (result : Struct) :
    (mergeStructs managed result).lookup key = some (mergeValue v (result.lookup key)) := by
  induction managed generalizing result with
  | nil => exact absurd h.symm (List.cons_ne_nil _ _)
  | cons field managed ih =>
      obtain ⟨key', managedVal⟩ := field
      rw [fieldsAt_cons] at h
      rw [mergeStructs]
      split at h
      · rename_i heq
        obtain ⟨rfl, habsent⟩ := List.cons_eq_cons.mp h
        subst heq
        rw [lookup_mergeStructs_of_absent habsent, lookup_insert, if_pos rfl]
      · rename_i hne
        rw [ih h, lookup_insert, if_neg hne]

theorem mergeValue_of_isScalar {v : Value} (h : v.IsScalar) (requestVal : Option Value) :
    mergeValue v requestVal = v := by
  cases v with
  | struct ms => exact h.elim
  | _ => rw [mergeValue]; simp

/-- A nested managed struct is merged into a struct of the request, and replaces anything else. -/
theorem mergeValue_struct (sub : Struct) (requestVal : Option Value) :
    (∃ rs, requestVal = some (.struct rs) ∧
      mergeValue (.struct sub) requestVal = .struct (mergeStructs sub rs)) ∨
    (∀ rs, requestVal ≠ some (.struct rs)) ∧ mergeValue (.struct sub) requestVal = .struct sub := by
  match requestVal with
  | some (.struct rs) => exact .inl ⟨rs, rfl, by rw [mergeValue]⟩
  | none | some .unset | some .null | some (.number _) | some (.string _) | some (.bool _)
  | some (.list _) => exact .inr ⟨by simp, by rw [mergeValue]; simp⟩

theorem getPath_cons (s : Struct) (key : String) {path : List String} (h : path ≠ []) :
    getPath s (key :: path) =
      match s.lookup key with
      | some (.struct fields) => getPath fields path
      | _ => .unset := by
  obtain ⟨next, path, rfl⟩ := List.exists_cons_of_ne_nil h
  rfl

/-- What the managed side holds, the merged struct holds, whatever the request says. -/
theorem getPath_mergeStructs_of_holds {v : Value} (hv : v.IsScalar) {managed : Struct}
    {path : List String} (h : Holds v managed path) (request : Struct) :
    getPath (mergeStructs managed request) path = v := by
  induction path generalizing managed request with
  | nil => exact h.elim
  | cons key path ih =>
      by_cases hpath : path = []
      · subst hpath
        rw [getPath, lookup_mergeStructs h, mergeValue_of_isScalar hv]
        rfl
      · obtain ⟨sub, hsub, hheld⟩ := (holds_cons hpath).mp h
        rw [getPath_cons _ _ hpath, lookup_mergeStructs hsub]
        rcases mergeValue_struct sub (request.lookup key) with ⟨rs, -, hmerge⟩ | ⟨-, hmerge⟩
        · rw [hmerge]
          exact ih hheld rs
        · rw [hmerge]
          exact getPath_of_holds hheld

theorem getPath_of_free {s : Struct} {path : List String} (h : Free s path) :
    getPath s path = .unset := by
  induction path generalizing s with
  | nil => exact h.elim
  | cons key path ih =>
      rcases h with habsent | ⟨sub, hsub, hfree⟩
      · cases path <;> rw [getPath, lookup_eq_head?, habsent] <;> first | rfl | simp
      · have hpath : path ≠ [] := fun hnil => by simp [hnil, Free] at hfree
        rw [getPath_cons _ _ hpath, lookup_eq_head?, hsub]
        exact ih hfree

/-- Where the managed side is free, the merged struct answers as the request. -/
theorem getPath_mergeStructs_of_free {managed : Struct} {path : List String}
    (h : Free managed path) (request : Struct) :
    getPath (mergeStructs managed request) path = getPath request path := by
  induction path generalizing managed request with
  | nil => exact h.elim
  | cons key path ih =>
      rcases h with habsent | ⟨sub, hsub, hfree⟩
      · have hlookup := lookup_mergeStructs_of_absent habsent request
        by_cases hpath : path = []
        · subst hpath
          rw [getPath, getPath, hlookup]
        · rw [getPath_cons _ _ hpath, getPath_cons _ _ hpath, hlookup]
      · have hpath : path ≠ [] := fun hnil => by simp [hnil, Free] at hfree
        rw [getPath_cons _ _ hpath, getPath_cons _ _ hpath, lookup_mergeStructs hsub]
        rcases mergeValue_struct sub (request.lookup key) with ⟨rs, hreq, hmerge⟩ | ⟨hreq, hmerge⟩
        · rw [hmerge, hreq]
          exact ih hfree rs
        · -- the request has no struct here, so neither side has anything below
          rw [hmerge]
          refine (getPath_of_free hfree).trans ?_
          split
          · rename_i fields hfields
            exact absurd hfields (hreq fields)
          · rfl

/-! ### The resolver's context -/

theorem merge_authoritative {managed : SortedMap String Value}
    (hscalar : ∀ e ∈ managed.entries, e.2.IsScalar) (request : Struct) :
    (∀ e ∈ managed.entries,
      (∀ e' ∈ managed.entries, split '.' e.1 <+: split '.' e'.1 → e'.1 = e.1) →
      getPath (merge managed request) (split '.' e.1) = e.2) ∧
    ∀ path, (∀ e ∈ managed.entries, Apart (split '.' path) (split '.' e.1)) →
      getPath (merge managed request) (split '.' path) = getPath request (split '.' path) := by
  constructor
  · intro e he hmax
    have hne : managed.entries.isEmpty = false := List.isEmpty_eq_false_iff_exists_mem.mpr ⟨e, he⟩
    rw [merge, if_neg (by rw [hne]; exact Bool.false_ne_true)]
    exact getPath_mergeStructs_of_holds (hscalar e he) (holds_unflatten he hmax) request
  · intro path hapart
    rw [merge]
    split
    · rfl
    · exact getPath_mergeStructs_of_free (free_unflatten hapart) request

/-- **The managed context is authoritative.**  For the client of a secret, a managed path that no
other managed path extends leads to the managed value, and a path apart from every managed path
leads where it leads in the request. -/
theorem managed_authoritative {state : ResolverState} {clientSecret : String} {client : Client}
    (hclient : state.secrets.get? clientSecret = some client)
    (hscalar : ∀ e ∈ client.managedContext, e.2.IsScalar)
    (natives : Natives) (request : Struct) (canEncrypt : Bool) :
    ∃ r, state.getResolver natives clientSecret request canEncrypt = some (.ok r) ∧
      (∀ path v, client.managedContext.lookup path = some v →
        (∀ e ∈ client.managedContext, split '.' path <+: split '.' e.1 → e.1 = path) →
        r.getAttributeValue path = v) ∧
      ∀ path, (∀ e ∈ client.managedContext, Apart (split '.' path) (split '.' e.1)) →
        r.getAttributeValue path = getPath request (split '.' path) := by
  obtain ⟨hmanaged, hrest⟩ := @merge_authoritative (SortedMap.ofPairs client.managedContext)
    (fun e he => hscalar e (SortedMap.mem_ofPairs he)) request
  refine ⟨{ natives, client, state, canEncrypt
            context := merge (SortedMap.ofPairs client.managedContext) request
            disableExposureCollection := false },
    by rw [ResolverState.getResolver, hclient], fun path v hv hmax => ?_,
    fun path hapart => hrest path fun e he => hapart e (SortedMap.mem_ofPairs he)⟩
  have hentry : (path, v) ∈ (SortedMap.ofPairs client.managedContext).entries := by
    rw [SortedMap.mem_entries_iff, SortedMap.lookup_ofPairs, hv]
  have hvalue := hmanaged (path, v) hentry fun e he => hmax e (SortedMap.mem_ofPairs he)
  exact hvalue

namespace Sample

/-- A client that manages one attribute of the account. -/
def managing : Client where
  account := ⟨"accounts/1"⟩
  clientName := "clients/a"
  clientCredentialName := "clients/a/clientCredentials/k"
  environments := []
  managedContext := [("account.tier", .string "gold")]

def managingState : ResolverState where
  secrets := HashMap.empty.insert "s" managing
  flags := .empty
  segments := .empty
  bitsets := ∅
  bloomFilters := ∅
  sdk := none

end Sample

theorem managed_authoritative_sample :
    ∃ r, Sample.managingState.getResolver Sample.natives "s"
        [("account", .struct [("tier", .string "free"), ("id", .string "7")])] true =
          some (.ok r) ∧
      r.getAttributeValue "account.tier" = .string "gold" ∧
      r.getAttributeValue "account.id" = .string "7" := by
  have hclient : Sample.managingState.secrets.get? "s" = some Sample.managing := rfl
  have hscalar : ∀ e ∈ Sample.managing.managedContext, e.2.IsScalar := by
    simp [Sample.managing, Value.IsScalar]
  obtain ⟨r, hr, hmanaged, hrest⟩ := managed_authoritative hclient hscalar Sample.natives
    [("account", .struct [("tier", .string "free"), ("id", .string "7")])] true
  refine ⟨r, hr, hmanaged "account.tier" (.string "gold") rfl ?_, ?_⟩
  · simp [Sample.managing]
  · rw [hrest "account.id" (by simp [Sample.managing, Apart]; decide)]
    rfl

end ConfidenceResolver
