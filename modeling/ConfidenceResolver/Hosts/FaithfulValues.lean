import ConfidenceResolver.Hosts.UnmarshalProto

/-!
# Hosts — faithful values

* `Faithful.int_iff`, `Faithful.struct_iff`, `Faithful.map_iff` and others: what is faithful, by the
  type.
* `At`: where a value is put; `At.assert`: it is as faithful there.
* `Comes`: what a result says about what is wrong.
-/

namespace ConfidenceResolver

namespace UnmarshalProto

open Go (elem? field? entries? mapIndex deleteEntry setEntry)

variable {Ty : Type} {go : Go Ty}

/-! ### Faithful values -/

section Inversion

variable {v : ProtoValue} {t : Ty} {d : Option (GoValue Ty)}

theorem Faithful.typeOf {w : GoValue Ty} (h : Faithful go v t d w) (htyped : go.HasType t d) :
    w.typeOf = t := by
  cases h with
  | default => exact (htyped _ rfl).1
  | zero => exact go.typeOf_zero t
  | _ => rfl

theorem Faithful.typeOf_of_notNull {w : GoValue Ty} (h : Faithful go v t d w)
    (hnull : v.isNull = false) : w.typeOf = t := by
  cases h with
  | default null => cases hnull.symm.trans null
  | zero null => cases hnull.symm.trans null
  | _ => rfl

/-- Where the value is null, the default is. -/
theorem Faithful.null_iff {default w : GoValue Ty} (hnull : v.isNull = true) :
    Faithful go v t (some default) w ↔ w = default := by
  constructor
  · intro h
    cases h with
    | default => rfl
    | pointer notNull | guided notNull | natural notNull => cases notNull.symm.trans hnull
    | _ => cases hnull
  · rintro rfl
    exact .default hnull

/-- A value in an interface is what the one in its default asks for. -/
theorem Faithful.guided_iff {dynamic raw : GoValue Ty} (hnull : v.isNull = false)
    (hshape : go.shape t = .interface) (hfound : elem? d = some dynamic) :
    Faithful go v t d (.interface t (some raw)) ↔
      Faithful go v dynamic.typeOf (some dynamic) raw := by
  constructor
  · intro h
    generalize hw : GoValue.interface t (some raw) = w at h
    cases h with
    | default null => cases hnull.symm.trans null
    | zero null => cases hnull.symm.trans null
    | guided _ _ found part =>
        cases hw
        cases hfound.symm.trans found
        exact part
    | natural _ _ absent => cases hfound.symm.trans absent
    | _ => cases hw
  · exact .guided hnull hshape hfound

theorem Faithful.pointer_iff {elem : Ty} {w : GoValue Ty} (hnull : v.isNull = false)
    (hshape : go.shape t = .pointer elem) :
    Faithful go v t d (.pointer t (some w)) ↔ Faithful go v elem (elem? d) w := by
  constructor
  · intro h
    generalize hp : GoValue.pointer t (some w) = p at h
    cases h with
    | default null => cases hnull.symm.trans null
    | zero null => cases hnull.symm.trans null
    | pointer _ shape part =>
        cases hp
        cases hshape.symm.trans shape
        exact part
    | _ => cases hp
  · exact .pointer hnull hshape

theorem Faithful.int_iff {w : Width} {q : ℚ} {n : Int} (hshape : go.shape t = .int w) :
    Faithful go (.number q) t d (.int t n) ↔ w.Signed n ∧ (n : ℚ) = q := by
  constructor
  · intro h
    generalize hi : GoValue.int t n = i at h
    cases h with
    | default null => cases null
    | zero null => cases null
    | int shape range eq =>
        cases hi
        cases hshape.symm.trans shape
        exact ⟨range, eq⟩
    | _ => cases hi
  · rintro ⟨range, eq⟩
    exact .int hshape range eq

theorem Faithful.uint_iff {w : Width} {q : ℚ} {n : Int} (hshape : go.shape t = .uint w) :
    Faithful go (.number q) t d (.uint t n) ↔ w.Unsigned n ∧ (n : ℚ) = q := by
  constructor
  · intro h
    generalize hi : GoValue.uint t n = i at h
    cases h with
    | default null => cases null
    | zero null => cases null
    | uint shape range eq =>
        cases hi
        cases hshape.symm.trans shape
        exact ⟨range, eq⟩
    | _ => cases hi
  · rintro ⟨range, eq⟩
    exact .uint hshape range eq

theorem asInterface_concrete {w : GoValue Ty} (h : asInterface go v = some w) :
    go.shape w.typeOf ≠ .interface := by
  cases v with
  | nil | unset | null => cases h
  | number => cases h; rw [GoValue.typeOf, go.shape_float64]; simp
  | string => cases h; rw [GoValue.typeOf, go.shape_string]; simp
  | bool => cases h; rw [GoValue.typeOf, go.shape_bool]; simp
  | list => cases h; rw [GoValue.typeOf, go.shape_sliceAny]; simp
  | struct | nilStruct => cases h; rw [GoValue.typeOf, go.shape_mapStringAny]; simp

/-! Of a whole number. -/

theorem intCast_eq_iff {q : ℚ} (hden : q.den = 1) (n : Int) : (n : ℚ) = q ↔ n = q.num := by
  conv_lhs => rw [← Rat.coe_int_num_of_den_eq_one hden]
  exact Int.cast_inj

theorem Faithful.convertInt_iff {w : Width} {q : ℚ} (hshape : go.shape t = .int w)
    (hden : q.den = 1) :
    Faithful go (.number q) t d (.int t (go.convertInt w q.num)) ↔ w.Signed q.num := by
  rw [Faithful.int_iff hshape, intCast_eq_iff hden, go.convertInt_eq_iff]
  exact and_iff_right (go.signed_convertInt w q.num)

theorem Faithful.convertUint_iff {w : Width} {q : ℚ} (hshape : go.shape t = .uint w)
    (hden : q.den = 1) :
    Faithful go (.number q) t d (.uint t (go.convertUint w q.num)) ↔ w.Unsigned q.num := by
  rw [Faithful.uint_iff hshape, intCast_eq_iff hden, go.convertUint_eq_iff]
  exact and_iff_right (go.unsigned_convertUint w q.num)

/-- What a field has to be, the `i`th. -/
def FieldFaithful (go : Go Ty) (protoFields : List (String × ProtoValue)) (d : Option (GoValue Ty))
    (i : Nat) (f : StructField Ty) (w : GoValue Ty) : Prop :=
  if f.exported then
    ∃ v, protoFields.lookup (getFieldName go f) = some v ∧ Faithful go v f.type (field? d i) w
  else w = go.zero f.type

/-- What the fields have to be, from the `i`th on. -/
def FieldsFaithful (go : Go Ty) (protoFields : List (String × ProtoValue)) (d : Option (GoValue Ty))
    (i : Nat) (fields : List (StructField Ty)) (values : List (GoValue Ty)) : Prop :=
  values.length = fields.length ∧ ∀ k f w, fields[k]? = some f → values[k]? = some w →
    FieldFaithful go protoFields d (i + k) f w

theorem fieldsFaithful_cons {protoFields : List (String × ProtoValue)} {i : Nat}
    {f : StructField Ty} {fields : List (StructField Ty)} {w : GoValue Ty}
    {values : List (GoValue Ty)} : FieldsFaithful go protoFields d i (f :: fields) (w :: values) ↔
      FieldFaithful go protoFields d i f w ∧
        FieldsFaithful go protoFields d (i + 1) fields values := by
  have hsucc : ∀ k, i + (k + 1) = i + 1 + k := fun k => by omega
  constructor
  · rintro ⟨hlength, hparts⟩
    refine ⟨hparts 0 f w rfl rfl, Nat.succ.inj hlength, fun k f' w' hf hw => ?_⟩
    rw [← hsucc k]
    exact hparts (k + 1) f' w' hf hw
  · rintro ⟨hhead, hlength, hparts⟩
    refine ⟨congrArg Nat.succ hlength, fun k f' w' hf hw => ?_⟩
    cases k with
    | zero =>
        cases hf
        cases hw
        exact hhead
    | succ k =>
        rw [hsucc k]
        exact hparts k f' w' hf hw

theorem Faithful.struct_iff {protoFields : List (String × ProtoValue)}
    {fields : List (StructField Ty)} {values : List (GoValue Ty)}
    (hshape : go.shape t = .struct fields) :
    Faithful go (.struct protoFields) t d (.struct t values) ↔
      FieldsFaithful go protoFields d 0 fields values := by
  constructor
  · intro h
    generalize hs : GoValue.struct t values = s at h
    cases h with
    | default null => cases null
    | zero null => cases null
    | struct shape length present parts hidden =>
        cases hs
        cases hshape.symm.trans shape
        refine ⟨length, fun k f w hf hw => ?_⟩
        rw [Nat.zero_add, FieldFaithful]
        split
        · next hexported =>
            obtain ⟨v, hv⟩ := Option.isSome_iff_exists.mp (present k f hf hexported)
            exact ⟨v, hv, parts k f v w hf hexported hv hw⟩
        · next hexported =>
            have hzero := hidden k f hf (Bool.eq_false_of_not_eq_true hexported)
            exact Option.some.inj (hw.symm.trans hzero)
    | _ => cases hs
  · rintro ⟨hlength, hparts⟩
    -- every field has a value, as there are as many
    have hvalue : ∀ (i : Nat) f, fields[i]? = some f → ∃ w, values[i]? = some w := by
      intro i f hf
      have hi : i < values.length := hlength ▸ (List.getElem?_eq_some_iff.mp hf).1
      exact ⟨values[i], List.getElem?_eq_getElem hi⟩
    have hfield : ∀ (i : Nat) f w, fields[i]? = some f → values[i]? = some w →
        FieldFaithful go protoFields d i f w := by
      intro i f w hf hw
      have h := hparts i f w hf hw
      rwa [Nat.zero_add] at h
    refine .struct hshape hlength ?_ ?_ ?_
    · intro i f hf hexported
      obtain ⟨w, hw⟩ := hvalue i f hf
      have h := hfield i f w hf hw
      rw [FieldFaithful, if_pos hexported] at h
      obtain ⟨v, hv, -⟩ := h
      rw [hv, Option.isSome_some]
    · intro i f v w hf hexported hv hw
      have h := hfield i f w hf hw
      rw [FieldFaithful, if_pos hexported] at h
      obtain ⟨v', hv', h⟩ := h
      cases hv.symm.trans hv'
      exact h
    · intro i f hf hexported
      obtain ⟨w, hw⟩ := hvalue i f hf
      have h := hfield i f w hf hw
      rw [FieldFaithful, hexported] at h
      exact hw.trans (congrArg some h)

/-- What the entries have to be, over those of a map. -/
def EntriesFaithful (go : Go Ty) (protoFields : List (String × ProtoValue)) (elem : Ty)
    (d : Option (GoValue Ty)) (entries result : List (String × GoValue Ty)) : Prop :=
  (∀ name v, protoFields.lookup name = some v →
    ∃ w, result.lookup name = some w ∧ Faithful go v elem (mapIndex d name) w) ∧
  ∀ name, protoFields.lookup name = none → result.lookup name = entries.lookup name

theorem lookup_entries (name : String) : ((entries? d).getD []).lookup name = mapIndex d name := by
  rw [mapIndex]
  cases entries? d <;> rfl

theorem Faithful.map_iff {protoFields : List (String × ProtoValue)} {key elem : Ty}
    {entries : List (String × GoValue Ty)} (hshape : go.shape t = .map key elem) :
    Faithful go (.struct protoFields) t d (.map t (some entries)) ↔
      EntriesFaithful go protoFields elem d ((entries? d).getD []) entries := by
  constructor
  · intro h
    generalize hm : GoValue.map t (some entries) = m at h
    cases h with
    | default null => cases null
    | zero null => cases null
    | map shape present parts others =>
        cases hm
        cases hshape.symm.trans shape
        refine ⟨fun name v hv => ?_, fun name hname => ?_⟩
        · have hsome : (protoFields.lookup name).isSome = true := by rw [hv, Option.isSome_some]
          obtain ⟨w, hw⟩ := Option.isSome_iff_exists.mp (present name hsome)
          exact ⟨w, hw, parts name v w hv hw⟩
        · rw [lookup_entries]
          exact others name hname
    | _ => cases hm
  · rintro ⟨hparts, hothers⟩
    refine .map hshape ?_ ?_ ?_
    · intro name hsome
      obtain ⟨v, hv⟩ := Option.isSome_iff_exists.mp hsome
      obtain ⟨w, hw, -⟩ := hparts name v hv
      rw [hw, Option.isSome_some]
    · intro name v w hv hw
      obtain ⟨w', hw', h⟩ := hparts name v hv
      cases hw.symm.trans hw'
      exact h
    · intro name hname
      rw [hothers name hname, lookup_entries]

end Inversion

/-! ### Locations -/

section Locations

/-- Where a value of type `t` is put, `s` with the default `d'` there: at a location of the type, or
in the interface that has the default. -/
inductive At (go : Go Ty) (v : ProtoValue) (s : Ty) (d' : Option (GoValue Ty)) (t : Ty)
    (d : Option (GoValue Ty)) : Prop where
  | own (type : s = t) (default : d' = d)
  | within (dynamic : GoValue Ty) (notNull : v.isNull = false) (shape : go.shape s = .interface)
      (found : elem? d' = some dynamic) (default : d = some dynamic) (type : dynamic.typeOf = t)
      (concrete : go.shape t ≠ .interface) (implements : go.implements t s = true)

variable {v : ProtoValue} {s t : Ty} {d' d : Option (GoValue Ty)}

theorem At.refl : At go v t d t d := .own rfl rfl

/-- An interface is a location of its own type only. -/
theorem At.own_of_interface (hat : At go v s d' t d) (hshape : go.shape t = .interface) :
    s = t ∧ d' = d := by
  cases hat with
  | own type default => exact ⟨type, default⟩
  | within _ _ _ _ _ _ concrete => exact absurd hshape concrete

variable [DecidableEq Ty]

/-- A value of the type can be asserted to have that of the location, and is as faithful there. -/
theorem At.assert (h : At go v s d' t d) {raw : GoValue Ty} (hraw : raw.typeOf = t) :
    ∃ w, go.assert s raw = some w ∧ (Faithful go v s d' w ↔ Faithful go v t d raw) := by
  cases h with
  | own type default =>
      subst type default hraw
      exact ⟨raw, go.assert_self raw, Iff.rfl⟩
  | within dynamic notNull shape found default type concrete implements =>
      subst hraw default
      refine ⟨.interface s (some raw), ?_, ?_⟩
      · rw [Go.assert_interface shape concrete, if_pos implements]
      · rw [Faithful.guided_iff notNull shape found, type]

/-- It is set to what is asserted. -/
theorem At.store (h : At go v s d' t d) {raw : GoValue Ty} (hraw : raw.typeOf = t) :
    go.store s (some raw) = go.assert s raw := by
  cases h with
  | own type =>
      subst type hraw
      rw [go.store_self, go.assert_self]
  | within _ _ shape => exact Go.store_of_location fun elem => ne_of_eq_of_ne shape (by simp)

/-- A value of another type goes into an interface only, and there it is not what the default asks
for. -/
theorem At.assert_other (h : At go v s d' t d) (hnull : v.isNull = false) {raw : GoValue Ty}
    (ht : go.shape t ≠ .interface) (hconcrete : go.shape raw.typeOf ≠ .interface)
    (hraw : raw.typeOf ≠ t) : if go.isInterface s ∧ go.implements raw.typeOf s then
      ∃ w, go.assert s raw = some w ∧ ¬ Faithful go v s d' w
    else go.assert s raw = none := by
  cases h with
  | own type default =>
      subst type
      have hinterface : ¬ (go.isInterface s = true ∧ go.implements raw.typeOf s = true) := by
        rw [Go.isInterface_iff]
        exact fun h => ht h.1
      rw [if_neg hinterface]
      exact Go.assert_concrete ht hraw
  | within dynamic notNull shape found default type concrete implements =>
      have hinterface : go.isInterface s = true := Go.isInterface_iff.mpr shape
      rw [Go.assert_interface shape hconcrete]
      by_cases himplements : go.implements raw.typeOf s = true
      · rw [if_pos ⟨hinterface, himplements⟩, if_pos himplements]
        refine ⟨_, rfl, fun h => ?_⟩
        rw [Faithful.guided_iff notNull shape found, type] at h
        exact hraw (h.typeOf_of_notNull hnull)
      · rw [if_neg fun h => himplements h.2, if_neg himplements]

end Locations

/-! ### Results -/

section Results

/-- An error comes of a mismatch, a panic of what makes it panic, and the value is good exactly if
nothing is wrong. -/
def Comes {α : Type} (problems : List Mark) (Good : α → Prop) : Except Failure α → Prop
  | .ok w => firstStop problems = none ∧ (problems = [] ↔ Good w)
  | .error (.error _) => firstStop problems = some .mismatch
  | .error .panic => firstStop problems = some .hazard

variable {α β γ : Type} {ms ms' : List Mark} {Good : α → Prop}

theorem firstStop_append : firstStop (ms ++ ms') = (firstStop ms).or (firstStop ms') :=
  List.find?_append

theorem firstStop_append_hazard (h : firstStop ms = none) :
    firstStop (ms ++ [.hazard]) = some .hazard := by
  rw [firstStop_append, h]
  rfl

/-- What is passed over leaves a value that is not good. -/
theorem comes_append_lossy {w : α} (h : firstStop ms = none) (hbad : ¬ Good w) :
    Comes (ms ++ [.lossy]) Good (.ok w) := by
  refine ⟨?_, iff_of_false (List.append_ne_nil_of_right_ne_nil ms (List.cons_ne_nil _ _)) hbad⟩
  rw [firstStop_append, h]
  rfl

/-- Where the code stops, what comes after does not matter. -/
theorem Comes.error_append {Good' : β → Prop} {e : Failure}
    (h : Comes ms Good (.error e : Except Failure α)) :
    Comes (ms ++ ms') Good' (.error e : Except Failure β) := by
  cases e with
  | error message =>
      have hms : firstStop ms = some .mismatch := h
      exact firstStop_append.trans (by rw [hms, Option.some_or])
  | panic =>
      have hms : firstStop ms = some .hazard := h
      exact firstStop_append.trans (by rw [hms, Option.some_or])

theorem Comes.error_of {Good' : β → Prop} {e : Failure}
    (h : Comes ms Good (.error e : Except Failure α)) :
    Comes ms Good' (.error e : Except Failure β) := by
  cases e <;> exact h

/-- Where it does not stop, the rest decides. -/
theorem Comes.ok_append_error {Good' : β → Prop} {Good'' : γ → Prop} {w : α} {e : Failure}
    (h : Comes ms Good (.ok w)) (hrest : Comes ms' Good' (.error e : Except Failure β)) :
    Comes (ms ++ ms') Good'' (.error e : Except Failure γ) := by
  have happend : firstStop (ms ++ ms') = firstStop ms' := by
    rw [firstStop_append, h.1, Option.none_or]
  cases e with
  | error message => exact happend.trans hrest
  | panic => exact happend.trans hrest

theorem Comes.ok_append_ok {Good' : β → Prop} {Good'' : γ → Prop} {w : α} {b : β} {c : γ}
    (h : Comes ms Good (.ok w)) (hrest : Comes ms' Good' (.ok b))
    (hgood : Good'' c ↔ Good w ∧ Good' b) : Comes (ms ++ ms') Good'' (.ok c) := by
  refine ⟨?_, ?_⟩
  · rw [firstStop_append, h.1, hrest.1, Option.none_or]
  · rw [List.append_eq_nil_iff, h.2, hrest.2, hgood]

end Results

end UnmarshalProto

end ConfidenceResolver
