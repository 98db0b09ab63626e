import ConfidenceResolver.Hosts.FaithfulValues

/-!
# Hosts — when the typed values are faithful

* `branch`: what the code makes of a value, beside what is wrong with it.
* `comes_unmarshalProtoValue`, `comes_unmarshalFields`, `comes_unmarshalEntries`: the result comes
  of what is wrong, and the value is faithful exactly if nothing is.
* `unmarshalProto_iff`: the code does neither panic nor return anything else if and only if nothing
  is wrong, or it comes to a mismatch before it comes to what makes it panic.
-/

namespace ConfidenceResolver

namespace UnmarshalProto

open Go (elem? field? entries? mapIndex deleteEntry setEntry)

variable {Ty : Type} {go : Go Ty}

/-! ### One value -/

section Value

variable [DecidableEq Ty]

/-- The value, at a location of type `s`. -/
def placed (go : Go Ty) (s : Ty) (v : ProtoValue) (t : Ty) (d : Option (GoValue Ty))
    (path : List String) : Except Failure (GoValue Ty) :=
  match unmarshalProtoValue go v t d path with
  | .ok w => set go s w
  | .error e => .error e

variable {v : ProtoValue} {s t : Ty} {d' d : Option (GoValue Ty)} {path : List String}

theorem comes_formatError {α : Type} {Good : α → Prop} (msg : String) (path : List String) :
    Comes [.mismatch] Good (.error (formatError msg path)) := by
  rw [formatError]
  split <;> rfl

theorem set_of_store {w : GoValue Ty} {x : Option (GoValue Ty)} (h : go.store s x = some w) :
    set go s x = .ok w := by rw [set, h]

theorem set_of_none {x : Option (GoValue Ty)} (h : go.store s x = none) :
    set go s x = .error .panic := by rw [set, h]

theorem assertTo_of_some {raw w : GoValue Ty} (h : go.assert s raw = some w) :
    assertTo go s (some raw) = .ok w := by rw [assertTo, Option.bind_some, h]

theorem assertTo_of_none {raw : GoValue Ty} (h : go.assert s raw = none) :
    assertTo go s (some raw) = .error .panic := by rw [assertTo, Option.bind_some, h]

theorem set_eq_assertTo {raw : GoValue Ty} (h : go.store s (some raw) = go.assert s raw) :
    set go s (some raw) = assertTo go s (some raw) := by rw [set, assertTo, Option.bind_some, h]

/-- A value of the type is put there, so that it is its own faithfulness that decides. -/
theorem comes_asserted {ms : List Mark} (hat : At go v s d' t d) {raw : GoValue Ty}
    (hraw : raw.typeOf = t) (hstop : firstStop ms = none)
    (hgood : ms = [] ↔ Faithful go v t d raw) :
    Comes ms (Faithful go v s d') (assertTo go s (some raw)) := by
  obtain ⟨w, hassert, hw⟩ := hat.assert hraw
  rw [assertTo_of_some hassert]
  exact ⟨hstop, hgood.trans hw.symm⟩

theorem comes_own {ms : List Mark} (hat : At go v s d' t d) {raw : GoValue Ty}
    (hraw : raw.typeOf = t) (hstop : firstStop ms = none)
    (hgood : ms = [] ↔ Faithful go v t d raw) :
    Comes ms (Faithful go v s d') (set go s (some raw)) := by
  rw [set_eq_assertTo (hat.store hraw)]
  exact comes_asserted hat hraw hstop hgood

/-- A value of the type `u`, where that has to be the type. -/
theorem comes_typeMark {ms : List Mark} (hat : At go v s d' t d) (hnull : v.isNull = false)
    (ht : go.shape t ≠ .interface) {u : Ty} (hu : go.shape u ≠ .interface) (raw : Ty → GoValue Ty)
    (hraw : ∀ t, (raw t).typeOf = t) (hstop : firstStop ms = none)
    (hgood : ms = [] ↔ Faithful go v t d (raw t)) :
    Comes (ms ++ typeMark go s u t) (Faithful go v s d') (assertTo go s (some (raw u))) := by
  rw [typeMark]
  split
  · next heq =>
      subst heq
      rw [List.append_nil]
      exact comes_asserted hat (hraw u) hstop hgood
  · next hne =>
      have hother := hat.assert_other hnull ht (by rwa [hraw u]) (by rwa [hraw u])
      rw [hraw u] at hother
      split
      · next hinterface =>
          rw [if_pos hinterface] at hother
          obtain ⟨w, hassert, hw⟩ := hother
          rw [assertTo_of_some hassert]
          exact comes_append_lossy hstop hw
      · next hinterface =>
          rw [if_neg hinterface] at hother
          rw [assertTo_of_none hother]
          exact firstStop_append_hazard hstop

/-- A new pointer, where the type is one of pointers. -/
theorem comes_pointerMark {ms : List Mark} {elem : Ty} {w : GoValue Ty} (hat : At go v s d' t d)
    (hnull : v.isNull = false) (shape : go.shape t = .pointer elem) (hstop : firstStop ms = none)
    (hgood : ms = [] ↔ Faithful go v elem (elem? d) w) :
    Comes (ms ++ pointerMark go s elem t) (Faithful go v s d')
      (set go s (some (.pointer (go.pointerTo elem) (some w)))) := by
  have hgood' : ms = [] ↔ Faithful go v t d (.pointer t (some w)) :=
    hgood.trans (Faithful.pointer_iff hnull shape).symm
  rw [pointerMark]
  cases hat with
  | own type default =>
      subst type default
      rw [if_pos rfl, List.append_nil, set_of_store (Go.store_pointerTo shape (some w))]
      exact ⟨hstop, hgood'⟩
  | within dynamic notNull hshape found default type concrete implements =>
      have hne : s ≠ t := by
        rintro rfl
        exact concrete hshape
      have hpointer : go.shape (go.pointerTo elem) ≠ .interface :=
        ne_of_eq_of_ne (go.shape_pointerTo elem) (by simp)
      have hlocation : ∀ elem, go.shape s ≠ .pointer elem :=
        fun elem => ne_of_eq_of_ne hshape (by simp)
      rw [if_neg hne, set_eq_assertTo (Go.store_of_location hlocation)]
      have hat : At go v s d' t d := .within dynamic notNull hshape found default type concrete
        implements
      exact comes_typeMark hat hnull concrete hpointer (.pointer · (some w)) (fun _ => rfl) hstop
        hgood'

theorem unmarshalProtoValue_null (hnull : v.isNull = true) :
    unmarshalProtoValue go v t d path = .ok (some (d.getD (go.zero t))) := by
  rw [unmarshalProtoValue.eq_def, if_pos hnull]

theorem comes_null (hnull : v.isNull = true) (hd : go.HasType t d) (hat : At go v s d' t d) :
    Comes (marks go v s t d) (Faithful go v s d') (placed go s v t d path) := by
  rw [placed, unmarshalProtoValue_null hnull, marks.eq_def, if_pos hnull]
  cases d with
  | none => exact comes_own hat (go.typeOf_zero t) rfl (iff_of_true rfl (.zero hnull))
  | some default => exact comes_own hat (hd _ rfl).1 rfl (iff_of_true rfl (.default hnull))

/-- What is wrong with a value that is not null, beside what the code makes of it. -/
inductive Branch (go : Go Ty) (v : ProtoValue) (s t : Ty) (d : Option (GoValue Ty))
    (path : List String) : List Mark → Except Failure (Option (GoValue Ty)) → Prop where
  | mismatch (msg : String) : Branch go v s t d path [.mismatch] (.error (formatError msg path))
  | fields {fields protoFields} (shape : go.shape t = .struct fields)
      (hv : v = .struct protoFields) :
      Branch go v s t d path (fieldMarks go protoFields d 0 fields)
        (match unmarshalFields go protoFields d path 0 fields with
          | .ok values => .ok (some (.struct t values))
          | .error e => .error e)
  | entries {key elem protoFields} (shape : go.shape t = .map key elem)
      (hv : v = .struct protoFields) :
      Branch go v s t d path (entryMarks go key elem d protoFields)
        (match unmarshalEntries go key elem d path ((entries? d).getD []) protoFields with
          | .ok entries => .ok (some (.map t (some entries)))
          | .error e => .error e)
  | predeclared {u} (raw : Ty → GoValue Ty) (typeOf : ∀ t, (raw t).typeOf = t)
      (type : go.shape t ≠ .interface) (concrete : go.shape u ≠ .interface)
      (leaf : ∀ elem, go.shape u ≠ .pointer elem) (good : Faithful go v t d (raw t)) :
      Branch go v s t d path (typeMark go s u t) (.ok (some (raw u)))
  | converted {raw} {inRange : Prop} [Decidable inRange] (type : raw.typeOf = t)
      (good : Faithful go v t d raw ↔ inRange) :
      Branch go v s t d path (if inRange then [] else [.lossy]) (.ok (some raw))
  | guided {dynamic} (shape : go.shape t = .interface) (found : elem? d = some dynamic) :
      Branch go v s t d path (marks go v t dynamic.typeOf (some dynamic))
        (unmarshalProtoValue go v dynamic.typeOf (some dynamic) path)
  | natural {w} (shape : go.shape t = .interface) (absent : elem? d = none)
      (value : asInterface go v = some w) :
      Branch go v s t d path (if go.implements w.typeOf t then [] else [.hazard]) (.ok (some w))
  | nothing (shape : go.shape t = .interface) (absent : elem? d = none)
      (value : asInterface go v = none) : Branch go v s t d path [.hazard] (.ok none)
  | pointer {elem} (shape : go.shape t = .pointer elem) :
      Branch go v s t d path (marks go v elem elem (elem? d) ++ pointerMark go s elem t)
        (match unmarshalProtoValue go v elem (elem? d) path with
          | .ok elemValue =>
              match set go elem elemValue with
              | .ok w => .ok (some (.pointer (go.pointerTo elem) (some w)))
              | .error e => .error e
          | .error e => .error e)

/-- Both go by the shape of the type. -/
theorem branch (hnull : v.isNull = false) :
    Branch go v s t d path (marks go v s t d) (unmarshalProtoValue go v t d path) := by
  have hnot : ¬ v.isNull = true := by
    rw [hnull]
    exact Bool.false_ne_true
  generalize hcode : unmarshalProtoValue go v t d path = code
  rw [unmarshalProtoValue.eq_def, if_neg hnot] at hcode
  rw [marks.eq_def, if_neg hnot]
  -- the two are in the branch of one shape, in the order of the code
  split at hcode <;> rename_i hshape <;> split <;> rename_i heq <;> try cases hshape.symm.trans heq
  all_goals subst hcode
  · cases v with
    | struct protoFields => exact .fields hshape rfl
    | _ => exact .mismatch _
  · next key elem =>
      cases v with
      | struct protoFields =>
          dsimp only
          cases hkey : go.shape key with
          | string => exact .entries hshape rfl
          | _ => exact .mismatch _
      | _ => exact .mismatch _
  · exact .mismatch _
  · have ht : go.shape t ≠ .interface := ne_of_eq_of_ne hshape (by simp)
    cases v with
    | string text =>
        exact .predeclared (.string · text) (fun _ => rfl) ht
          (ne_of_eq_of_ne go.shape_string (by simp))
          (fun _ => ne_of_eq_of_ne go.shape_string (by simp)) (.string hshape)
    | _ => exact .mismatch _
  · have ht : go.shape t ≠ .interface := ne_of_eq_of_ne hshape (by simp)
    cases v with
    | bool b =>
        exact .predeclared (.bool · b) (fun _ => rfl) ht
          (ne_of_eq_of_ne go.shape_bool (by simp))
          (fun _ => ne_of_eq_of_ne go.shape_bool (by simp)) (.bool hshape)
    | _ => exact .mismatch _
  · have ht : go.shape t ≠ .interface := ne_of_eq_of_ne hshape (by simp)
    cases v with
    | number q =>
        exact .predeclared (.float · q) (fun _ => rfl) ht
          (ne_of_eq_of_ne go.shape_float64 (by simp))
          (fun _ => ne_of_eq_of_ne go.shape_float64 (by simp)) (.float64 hshape)
    | _ => exact .mismatch _
  · have ht : go.shape t ≠ .interface := ne_of_eq_of_ne hshape (by simp)
    cases v with
    | number q =>
        exact .predeclared (.float · (go.round32 q)) (fun _ => rfl) ht
          (ne_of_eq_of_ne go.shape_float32 (by simp))
          (fun _ => ne_of_eq_of_ne go.shape_float32 (by simp)) (.float32 hshape)
    | _ => exact .mismatch _
  · cases v with
    | number q =>
        dsimp only
        by_cases hden : q.den = 1
        · rw [if_neg (not_not.mpr hden), if_neg (not_not.mpr hden)]
          exact .converted rfl (Faithful.convertInt_iff hshape hden)
        · rw [if_pos hden, if_pos hden]
          exact .mismatch _
    | _ => exact .mismatch _
  · cases v with
    | number q =>
        dsimp only
        by_cases hneg : q < 0
        · rw [if_pos hneg, if_pos (.inl hneg)]
          exact .mismatch _
        · by_cases hden : q.den = 1
          · have hneither : ¬ (q < 0 ∨ q.den ≠ 1) := not_or.mpr ⟨hneg, not_not.mpr hden⟩
            rw [if_neg hneg, if_neg (not_not.mpr hden), if_neg hneither]
            exact .converted rfl (Faithful.convertUint_iff hshape hden)
          · rw [if_neg hneg, if_pos hden, if_pos (.inr hden)]
            exact .mismatch _
    | _ => exact .mismatch _
  · split
    · next hfound => exact .guided hshape hfound
    · next hfound =>
        cases hvalue : asInterface go v with
        | none => exact .nothing hshape hfound hvalue
        | some w => exact .natural hshape hfound hvalue
  · exact .pointer hshape
  · exact .mismatch _

/-- What holds of the parts holds of the value. -/
theorem comes_of_parts (hnull : v.isNull = false) (hat : At go v s d' t d)
    (hfields : ∀ fields protoFields, go.shape t = .struct fields → v = .struct protoFields →
      Comes (fieldMarks go protoFields d 0 fields) (FieldsFaithful go protoFields d 0 fields)
        (unmarshalFields go protoFields d path 0 fields))
    (hentries : ∀ key elem protoFields, go.shape t = .map key elem → v = .struct protoFields →
      Comes (entryMarks go key elem d protoFields)
        (EntriesFaithful go protoFields elem d ((entries? d).getD []))
        (unmarshalEntries go key elem d path ((entries? d).getD []) protoFields))
    (hguided : ∀ dynamic, go.shape t = .interface → elem? d = some dynamic →
      Comes (marks go v t dynamic.typeOf (some dynamic)) (Faithful go v t d)
        (placed go t v dynamic.typeOf (some dynamic) path))
    (hpointer : ∀ elem, go.shape t = .pointer elem →
      Comes (marks go v elem elem (elem? d)) (Faithful go v elem (elem? d))
        (placed go elem v elem (elem? d) path)) :
    Comes (marks go v s t d) (Faithful go v s d') (placed go s v t d path) := by
  rw [placed]
  have hbranch : Branch go v s t d path (marks go v s t d) (unmarshalProtoValue go v t d path) :=
    branch hnull
  generalize marks go v s t d = ms at hbranch ⊢
  generalize unmarshalProtoValue go v t d path = code at hbranch ⊢
  -- by the branch that the code takes; the parts are what the callers have by their own recursion
  cases hbranch with
  | mismatch msg => exact comes_formatError msg path
  | @fields fields protoFields shape hv =>
      have hcomes := hfields fields protoFields shape hv
      cases hresult : unmarshalFields go protoFields d path 0 fields with
      | error e =>
          rw [hresult] at hcomes
          exact hcomes.error_of
      | ok values =>
          rw [hresult] at hcomes
          subst hv
          exact comes_own hat rfl hcomes.1 (hcomes.2.trans (Faithful.struct_iff shape).symm)
  | @entries key elem protoFields shape hv =>
      have hcomes := hentries key elem protoFields shape hv
      cases hresult : unmarshalEntries go key elem d path ((entries? d).getD []) protoFields with
      | error e =>
          rw [hresult] at hcomes
          exact hcomes.error_of
      | ok entries =>
          rw [hresult] at hcomes
          subst hv
          exact comes_own hat rfl hcomes.1 (hcomes.2.trans (Faithful.map_iff shape).symm)
  | @predeclared u raw typeOf type concrete leaf good =>
      have hstore : go.store s (some (raw u)) = go.assert s (raw u) :=
        Go.store_of_value (by rwa [typeOf])
      rw [← List.nil_append (typeMark go s u t)]
      simp only [set_eq_assertTo hstore]
      exact comes_typeMark hat hnull type concrete raw typeOf rfl (iff_of_true rfl good)
  | @converted raw inRange _ type good =>
      refine comes_own hat type ?_ ?_
      · split <;> rfl
      · rw [good]
        split
        · next h => exact iff_of_true rfl h
        · next h => exact iff_of_false (List.cons_ne_nil _ _) h
  | @guided dynamic shape found =>
      obtain ⟨rfl, rfl⟩ := hat.own_of_interface shape
      exact hguided dynamic shape found
  | @natural w shape absent value =>
      obtain ⟨rfl, rfl⟩ := hat.own_of_interface shape
      have hstore := Go.store_interface shape (asInterface_concrete value)
      split
      · next himplements =>
          rw [if_pos himplements] at hstore
          have hgood : Faithful go v s d' (.interface s (some w)) :=
            value ▸ .natural hnull shape absent
          exact (congrArg (Comes [] _) (set_of_store hstore)).mpr ⟨rfl, iff_of_true rfl hgood⟩
      · next himplements =>
          rw [if_neg himplements] at hstore
          exact (congrArg (Comes [.hazard] _) (set_of_none hstore)).mpr rfl
  | nothing => exact rfl
  | @pointer elem shape =>
      have hcomes := hpointer elem shape
      rw [placed] at hcomes
      cases hresult : unmarshalProtoValue go v elem (elem? d) path with
      | error e =>
          rw [hresult] at hcomes
          exact hcomes.error_append
      | ok elemValue =>
          rw [hresult] at hcomes
          -- the element is set before the pointer to it is
          cases hset : set go elem elemValue with
          | error e =>
              have herror : Comes (marks go v elem elem (elem? d)) (Faithful go v elem (elem? d))
                (.error e) := hset ▸ hcomes
              simp only [hset]
              exact herror.error_append
          | ok w =>
              have hok : Comes (marks go v elem elem (elem? d)) (Faithful go v elem (elem? d))
                (.ok w) := hset ▸ hcomes
              simp only [hset]
              exact comes_pointerMark hat hnull shape hok.1 hok.2

end Value

/-! ### Structs -/

section Structs

variable {protoFields : List (String × ProtoValue)} {d : Option (GoValue Ty)} {path : List String}
  {i : Nat} {f : StructField Ty} {fields : List (StructField Ty)}

theorem fieldFaithful_exported {v : ProtoValue} {w : GoValue Ty} (hexported : f.exported = true)
    (hv : protoFields.lookup (getFieldName go f) = some v) :
    FieldFaithful go protoFields d i f w ↔ Faithful go v f.type (field? d i) w := by
  rw [FieldFaithful, if_pos hexported]
  constructor
  · rintro ⟨v', hv', h⟩
    cases hv.symm.trans hv'
    exact h
  · exact fun h => ⟨v, hv, h⟩

theorem fieldFaithful_hidden {w : GoValue Ty} (hexported : ¬ f.exported = true) :
    FieldFaithful go protoFields d i f w ↔ w = go.zero f.type := by
  rw [FieldFaithful, if_neg hexported]

variable [DecidableEq Ty]

theorem comes_nil_fields : Comes (fieldMarks go protoFields d i [])
    (FieldsFaithful go protoFields d i []) (unmarshalFields go protoFields d path i []) := by
  rw [fieldMarks, unmarshalFields]
  refine ⟨rfl, iff_of_true rfl ⟨rfl, ?_⟩⟩
  intro k f w hf
  rw [List.getElem?_nil] at hf
  cases hf

theorem comes_cons_fields
    (hhead : ∀ v, protoFields.lookup (getFieldName go f) = some v →
      Comes (marks go v f.type f.type (field? d i)) (Faithful go v f.type (field? d i))
        (placed go f.type v f.type (field? d i) (path ++ [getFieldName go f])))
    (htail : Comes (fieldMarks go protoFields d (i + 1) fields)
      (FieldsFaithful go protoFields d (i + 1) fields)
      (unmarshalFields go protoFields d path (i + 1) fields)) :
    Comes (fieldMarks go protoFields d i (f :: fields))
      (FieldsFaithful go protoFields d i (f :: fields))
      (unmarshalFields go protoFields d path i (f :: fields)) := by
  rw [fieldMarks.eq_def, unmarshalFields.eq_def]
  dsimp only
  -- a field that is not exported is skipped, and is faithful as it is
  by_cases hexported : f.exported = true
  · rw [if_pos hexported, if_pos hexported]
    split
    · exact rfl
    · next v hv =>
        have hcomes := hhead v hv
        rw [placed] at hcomes
        generalize path ++ [getFieldName go f] = path' at hcomes ⊢
        cases hvalue : unmarshalProtoValue go v f.type (field? d i) path' with
        | error e =>
            rw [hvalue] at hcomes
            exact hcomes.error_append
        | ok r =>
            rw [hvalue] at hcomes
            dsimp only at hcomes ⊢
            cases hset : set go f.type r with
            | error e =>
                rw [hset] at hcomes
                exact hcomes.error_append
            | ok w =>
                rw [hset] at hcomes
                dsimp only
                cases hrest : unmarshalFields go protoFields d path (i + 1) fields with
                | error e =>
                    rw [hrest] at htail
                    exact hcomes.ok_append_error htail
                | ok values =>
                    rw [hrest] at htail
                    refine hcomes.ok_append_ok htail ?_
                    rw [fieldsFaithful_cons, fieldFaithful_exported hexported hv]
  · rw [if_neg hexported, if_neg hexported]
    cases hrest : unmarshalFields go protoFields d path (i + 1) fields with
    | error e =>
        rw [hrest] at htail
        exact htail.error_of
    | ok values =>
        rw [hrest] at htail
        refine ⟨htail.1, htail.2.trans ?_⟩
        rw [fieldsFaithful_cons, fieldFaithful_hidden hexported]
        exact (and_iff_right rfl).symm

end Structs

/-! ### Maps -/

section Maps

variable {v : ProtoValue} {protoFields : List (String × ProtoValue)} {key elem t : Ty}
  {d : Option (GoValue Ty)} {path : List String} {name : String} {w : GoValue Ty}
  {entries result : List (String × GoValue Ty)}

theorem lookup_cons_of_ne {other : String} (h : other ≠ name) :
    ((name, v) :: protoFields).lookup other = protoFields.lookup other := by
  rw [List.lookup_cons, beq_false_of_ne h]

theorem lookup_cons_self : ((name, v) :: protoFields).lookup name = some v := by
  rw [List.lookup_cons, beq_self_eq_true]

/-- The entry that is set stays what it is. -/
theorem entriesFaithful_cons (hfresh : protoFields.lookup name = none)
    (hw : result.lookup name = some w) :
    EntriesFaithful go ((name, v) :: protoFields) elem d entries result ↔
      Faithful go v elem (mapIndex d name) w ∧
        EntriesFaithful go protoFields elem d (setEntry entries name w) result := by
  have hne : ∀ other v', protoFields.lookup other = some v' → other ≠ name := by
    rintro other v' hv' rfl
    cases hfresh.symm.trans hv'
  constructor
  · rintro ⟨hparts, hothers⟩
    refine ⟨?_, fun other v' hv' => ?_, fun other hother => ?_⟩
    · obtain ⟨w', hw', h⟩ := hparts name v lookup_cons_self
      cases hw.symm.trans hw'
      exact h
    · exact hparts other v' ((lookup_cons_of_ne (hne other v' hv')).trans hv')
    · by_cases heq : other = name
      · rw [heq, hw, Go.lookup_setEntry_self]
      · rw [Go.lookup_setEntry_of_ne heq]
        exact hothers other ((lookup_cons_of_ne heq).trans hother)
  · rintro ⟨hhead, hparts, hothers⟩
    refine ⟨fun other v' hv' => ?_, fun other hother => ?_⟩
    · by_cases heq : other = name
      · subst heq
        cases lookup_cons_self.symm.trans hv'
        exact ⟨w, hw, hhead⟩
      · exact hparts other v' ((lookup_cons_of_ne heq).symm.trans hv')
    · have heq : other ≠ name := by
        rintro rfl
        cases lookup_cons_self.symm.trans hother
      rw [hothers other ((lookup_cons_of_ne heq).symm.trans hother), Go.lookup_setEntry_of_ne heq]

variable [DecidableEq Ty]

/-- Only at an interface is there no value. -/
theorem Branch.of_none {s : Ty} {ms : List Mark} {code : Except Failure (Option (GoValue Ty))}
    (h : Branch go v s t d path ms code) (hcode : code = .ok none) :
    go.shape t = .interface ∧ ((∃ dynamic, elem? d = some dynamic ∧
        unmarshalProtoValue go v dynamic.typeOf (some dynamic) path = .ok none) ∨
      elem? d = none ∧ asInterface go v = none) := by
  cases h with
  | mismatch | predeclared | converted | natural => cases hcode
  | fields => split at hcode <;> cases hcode
  | entries => split at hcode <;> cases hcode
  | guided shape found => exact ⟨shape, .inl ⟨_, found, hcode⟩⟩
  | nothing shape absent value => exact ⟨shape, .inr ⟨absent, value⟩⟩
  | pointer =>
      split at hcode
      · split at hcode <;> cases hcode
      · cases hcode

theorem unmarshalProtoValue_concrete (ht : go.shape t ≠ .interface) :
    unmarshalProtoValue go v t d path ≠ .ok none := by
  intro h
  cases hnull : v.isNull with
  | true => cases (unmarshalProtoValue_null hnull).symm.trans h
  | false => exact ht ((branch (s := t) hnull).of_none h).1

theorem unmarshalProtoValue_eq_none (hd : go.HasType t d)
    (h : unmarshalProtoValue go v t d path = .ok none) :
    go.isInterface t ∧ elem? d = none ∧ v.isNull = false ∧ asInterface go v = none := by
  cases hnull : v.isNull with
  | true => cases (unmarshalProtoValue_null hnull).symm.trans h
  | false =>
      obtain ⟨hshape, ⟨dynamic, hfound, hcode⟩ | ⟨habsent, hvalue⟩⟩ :=
        (branch (s := t) hnull).of_none h
      · obtain ⟨-, -, hconcrete, -⟩ := hd.interface hshape hfound
        exact absurd hcode (unmarshalProtoValue_concrete hconcrete)
      · exact ⟨Go.isInterface_iff.mpr hshape, habsent, rfl, hvalue⟩

/-- An interface without a default is left with none, if there is none of the value. -/
theorem unmarshalProtoValue_of_none (hinterface : go.isInterface t) (habsent : elem? d = none)
    (hnull : v.isNull = false) (hvalue : asInterface go v = none) :
    unmarshalProtoValue go v t d path = .ok none := by
  rw [unmarshalProtoValue.eq_def, if_neg (ne_of_eq_of_ne hnull Bool.false_ne_true)]
  split <;> rename_i heq <;> try cases (Go.isInterface_iff.mp hinterface).symm.trans heq
  split
  · next found => cases habsent.symm.trans found
  · rw [hvalue]

/-- The entries that are not in the value stay what they are. -/
theorem lookup_unmarshalEntries (protoFields : List (String × ProtoValue)) :
    ∀ {entries result : List (String × GoValue Ty)},
      unmarshalEntries go key elem d path entries protoFields = .ok result →
      protoFields.lookup name = none → result.lookup name = entries.lookup name := by
  induction protoFields with
  | nil =>
      intro entries result h _
      rw [unmarshalEntries] at h
      cases h
      rfl
  | cons field protoFields ih =>
      obtain ⟨name', v'⟩ := field
      intro entries result h hname
      have hne : name ≠ name' := by
        rintro rfl
        cases lookup_cons_self.symm.trans hname
      have hrest : protoFields.lookup name = none := (lookup_cons_of_ne hne).symm.trans hname
      rw [unmarshalEntries.eq_def] at h
      dsimp only at h
      split at h
      · cases h
      · split at h
        · split at h
          · cases h
          · split at h
            · exact (ih h hrest).trans (Go.lookup_deleteEntry_of_ne hne)
            · split at h
              · exact (ih h hrest).trans (Go.lookup_setEntry_of_ne hne)
              · cases h
        · cases h

theorem comes_nil_entries : Comes (entryMarks go key elem d [])
    (EntriesFaithful go [] elem d entries) (unmarshalEntries go key elem d path entries []) := by
  rw [entryMarks, unmarshalEntries]
  refine ⟨rfl, iff_of_true rfl ⟨?_, fun _ _ => rfl⟩⟩
  intro name v hv
  rw [List.lookup_nil] at hv
  cases hv

/-- What is wrong with an entry. -/
def entryMark (go : Go Ty) (v : ProtoValue) (elem : Ty) (d : Option (GoValue Ty)) : List Mark :=
  if go.isInterface elem ∧ elem? d = none ∧ v.isNull = false ∧ asInterface go v = none then [.lossy]
  else marks go v elem elem d

theorem entryMarks_cons : entryMarks go key elem d ((name, v) :: protoFields) =
    (if (entries? d).isSome ∧ key ≠ go.string then [.hazard] else []) ++
      entryMark go v elem (mapIndex d name) ++ (if key ≠ go.string then [.hazard] else []) ++
        entryMarks go key elem d protoFields := by
  rw [entryMarks]
  rfl

/-- What becomes of an entry: an error, no value, or one that is put there. -/
theorem entry_cases (hd : go.HasType elem d)
    (h : Comes (marks go v elem elem d) (Faithful go v elem d) (placed go elem v elem d path)) :
    (∃ e, unmarshalProtoValue go v elem d path = .error e ∧
      Comes (entryMark go v elem d) (Faithful go v elem d) (.error e)) ∨
    (unmarshalProtoValue go v elem d path = .ok none ∧ entryMark go v elem d = [.lossy]) ∨
    ∃ r, unmarshalProtoValue go v elem d path = .ok (some r) ∧
      Comes (entryMark go v elem d) (Faithful go v elem d) (set go elem (some r)) := by
  by_cases hnone : unmarshalProtoValue go v elem d path = .ok none
  · refine .inr (.inl ⟨hnone, ?_⟩)
    rw [entryMark, if_pos (unmarshalProtoValue_eq_none hd hnone)]
  · have hmark : entryMark go v elem d = marks go v elem elem d := by
      rw [entryMark]
      refine if_neg ?_
      rintro ⟨hinterface, habsent, hnull, hvalue⟩
      exact hnone (unmarshalProtoValue_of_none hinterface habsent hnull hvalue)
    rw [placed] at h
    rw [hmark]
    cases hvalue : unmarshalProtoValue go v elem d path with
    | error e =>
        rw [hvalue] at h
        exact .inl ⟨e, rfl, h⟩
    | ok r =>
        rw [hvalue] at h
        cases r with
        | none => exact absurd hvalue hnone
        | some r => exact .inr (.inr ⟨r, rfl, h⟩)

/-- A key of a named type makes the code panic at the first entry, unless that is an error. -/
theorem comes_named_key (hkey : key ≠ go.string) (hd : go.HasType elem (mapIndex d name))
    (hhead : Comes (marks go v elem elem (mapIndex d name)) (Faithful go v elem (mapIndex d name))
      (placed go elem v elem (mapIndex d name) (path ++ [name]))) :
    Comes (entryMarks go key elem d ((name, v) :: protoFields))
      (EntriesFaithful go ((name, v) :: protoFields) elem d entries)
      (unmarshalEntries go key elem d path entries ((name, v) :: protoFields)) := by
  rw [entryMarks_cons, unmarshalEntries.eq_def, if_pos hkey]
  dsimp only
  by_cases hsome : (entries? d).isSome = true
  · rw [if_pos ⟨hsome, hkey⟩, if_pos ⟨hsome, hkey⟩]
    exact rfl
  · have hnot : ¬ ((entries? d).isSome = true ∧ key ≠ go.string) := fun h => hsome h.1
    rw [if_neg hnot, if_neg hnot, List.nil_append, List.append_assoc]
    -- what makes it panic comes at the latest after the entry
    have hpanic : Comes (Mark.hazard :: entryMarks go key elem d protoFields)
        (fun _ : GoValue Ty => False) (.error .panic) := rfl
    obtain ⟨e, hvalue, hcomes⟩ | ⟨hvalue, hlossy⟩ | ⟨r, hvalue, hcomes⟩ := entry_cases hd hhead
    · rw [hvalue]
      exact hcomes.error_append
    · rw [hvalue, hlossy]
      dsimp only
      rw [if_pos hkey]
      exact rfl
    · rw [hvalue]
      dsimp only
      rw [if_pos hkey]
      rw [set] at hcomes
      split at hcomes
      · exact hcomes.ok_append_error hpanic
      · exact hcomes.error_append

/-- An entry is set, or deleted, before the others. -/
theorem comes_string_key (hkey : key = go.string) (hfresh : protoFields.lookup name = none)
    (hd : go.HasType elem (mapIndex d name))
    (hhead : Comes (marks go v elem elem (mapIndex d name)) (Faithful go v elem (mapIndex d name))
      (placed go elem v elem (mapIndex d name) (path ++ [name])))
    (htail : ∀ entries, Comes (entryMarks go key elem d protoFields)
      (EntriesFaithful go protoFields elem d entries)
      (unmarshalEntries go key elem d path entries protoFields)) :
    Comes (entryMarks go key elem d ((name, v) :: protoFields))
      (EntriesFaithful go ((name, v) :: protoFields) elem d entries)
      (unmarshalEntries go key elem d path entries ((name, v) :: protoFields)) := by
  have hnot : ¬ key ≠ go.string := not_not.mpr hkey
  have hneither : ¬ ((entries? d).isSome = true ∧ key ≠ go.string) := fun h => hnot h.2
  rw [entryMarks_cons, unmarshalEntries.eq_def]
  dsimp only
  rw [if_neg hneither, if_neg hneither, if_neg hnot, List.nil_append, List.append_nil]
  obtain ⟨e, hvalue, hcomes⟩ | ⟨hvalue, hlossy⟩ | ⟨r, hvalue, hcomes⟩ := entry_cases hd hhead
  · rw [hvalue]
    exact hcomes.error_append
  · rw [hvalue, hlossy]
    dsimp only
    rw [if_neg hnot, if_pos Option.isNone_none]
    have hlost : Comes [.lossy] (fun _ : Unit => False) (.ok ()) :=
      ⟨rfl, iff_of_false (List.cons_ne_nil _ _) not_false⟩
    have hrest := htail (deleteEntry entries name)
    cases hresult : unmarshalEntries go key elem d path (deleteEntry entries name) protoFields with
    | error e =>
        rw [hresult] at hrest
        exact hlost.ok_append_error hrest
    | ok result =>
        rw [hresult] at hrest
        refine hlost.ok_append_ok hrest (iff_of_false ?_ fun h => h.1)
        -- the entry of the name is not there
        rintro ⟨hparts, -⟩
        obtain ⟨w, hw, -⟩ := hparts name v lookup_cons_self
        rw [lookup_unmarshalEntries protoFields hresult hfresh, Go.lookup_deleteEntry_self] at hw
        cases hw
  · rw [hvalue]
    dsimp only
    rw [if_neg hnot, if_neg (Option.isNone_some ▸ Bool.false_ne_true)]
    cases hset : set go elem (some r) with
    | error e =>
        rw [hset] at hcomes
        exact hcomes.error_append
    | ok w =>
        rw [hset] at hcomes
        dsimp only
        have hrest := htail (setEntry entries name w)
        generalize hset : setEntry entries name w = entries' at hrest ⊢
        cases hresult : unmarshalEntries go key elem d path entries' protoFields with
        | error e =>
            rw [hresult] at hrest
            exact hcomes.ok_append_error hrest
        | ok result =>
            rw [hresult] at hrest
            have hw : result.lookup name = some w := by
              rw [lookup_unmarshalEntries protoFields hresult hfresh, ← hset,
                Go.lookup_setEntry_self]
            subst hset
            exact hcomes.ok_append_ok hrest (entriesFaithful_cons hfresh hw)

end Maps

/-! ### Every value -/

section Values

variable [DecidableEq Ty]

theorem mem_of_lookup {protoFields : List (String × ProtoValue)} {name : String} {v : ProtoValue}
    (h : protoFields.lookup name = some v) : (name, v) ∈ protoFields := by
  obtain ⟨before, after, rfl, -⟩ := List.lookup_eq_some_iff.mp h
  exact List.mem_append_right before List.mem_cons_self

theorem lookup_eq_none_of_notMem {protoFields : List (String × ProtoValue)} {name : String}
    (h : name ∉ protoFields.map Prod.fst) : protoFields.lookup name = none := by
  rw [List.lookup_eq_none_iff]
  intro field hfield
  rw [bne_iff_ne]
  rintro rfl
  exact h (List.mem_map_of_mem hfield)

theorem ProtoValue.Keyed.of_struct {v : ProtoValue} {protoFields : List (String × ProtoValue)}
    (h : v.Keyed) (hv : v = .struct protoFields) :
    (protoFields.map Prod.fst).Nodup ∧ ∀ name v, (name, v) ∈ protoFields → v.Keyed := by
  subst hv
  cases h with
  | struct distinct parts => exact ⟨distinct, parts⟩

mutual

theorem comes_unmarshalProtoValue (go : Go Ty) (v : ProtoValue) (hv : v.Keyed) (s t : Ty)
    (d' d : Option (GoValue Ty)) (path : List String) (hd : go.HasType t d)
    (hat : At go v s d' t d) :
    Comes (marks go v s t d) (Faithful go v s d') (placed go s v t d path) := by
  cases hnull : v.isNull with
  | true => exact comes_null hnull hd hat
  | false =>
      refine comes_of_parts hnull hat ?_ ?_ ?_ ?_
      · intro fields protoFields hshape hstruct
        obtain ⟨-, hparts⟩ := hv.of_struct hstruct
        refine comes_unmarshalFields go protoFields hparts d path 0 fields fun k f hf => ?_
        rw [Nat.zero_add]
        exact hd.field hshape hf
      · intro key elem protoFields hshape hstruct
        obtain ⟨hdistinct, hparts⟩ := hv.of_struct hstruct
        exact comes_unmarshalEntries go key elem protoFields hdistinct hparts d path _
          (hd.mapIndex hshape)
      · intro dynamic hshape hfound
        obtain ⟨-, htyped, hconcrete, himplements⟩ := hd.interface hshape hfound
        refine comes_unmarshalProtoValue go v hv t dynamic.typeOf d (some dynamic) path ?_ ?_
        · intro w hw
          cases hw
          exact ⟨rfl, htyped⟩
        · exact .within dynamic hnull hshape hfound rfl rfl hconcrete himplements
      · intro elem hshape
        exact comes_unmarshalProtoValue go v hv elem elem (elem? d) (elem? d) path
          (hd.pointer hshape) .refl
termination_by (sizeOf v, sizeOf d, go.depth t)
decreasing_by
  · exact .left _ _ (by simp [hstruct])
  · exact .left _ _ (by simp [hstruct])
  · exact .right _ (.left _ _ (sizeOf_dynamic hfound))
  · exact .right _ (lex_elem hshape)

theorem comes_unmarshalFields (go : Go Ty) (protoFields : List (String × ProtoValue))
    (hparts : ∀ name v, (name, v) ∈ protoFields → v.Keyed) (d : Option (GoValue Ty))
    (path : List String) (i : Nat) (fields : List (StructField Ty))
    (hd : ∀ k f, fields[k]? = some f → go.HasType f.type (field? d (i + k))) :
    Comes (fieldMarks go protoFields d i fields) (FieldsFaithful go protoFields d i fields)
      (unmarshalFields go protoFields d path i fields) := by
  match fields with
  | [] => exact comes_nil_fields
  | f :: fields =>
      refine comes_cons_fields (fun v hv => ?_) ?_
      · exact comes_unmarshalProtoValue go v (hparts _ v (mem_of_lookup hv)) f.type f.type _ _ _
          (hd 0 f rfl) .refl
      · refine comes_unmarshalFields go protoFields hparts d path (i + 1) fields fun k f' hf => ?_
        rw [Nat.add_right_comm]
        exact hd (k + 1) f' hf
termination_by (sizeOf protoFields, fields.length, 0)
decreasing_by
  · exact .left _ _ (sizeOf_lookup hv)
  · exact .right _ (.left _ _ (by simp))

theorem comes_unmarshalEntries (go : Go Ty) (key elem : Ty)
    (protoFields : List (String × ProtoValue)) (hdistinct : (protoFields.map Prod.fst).Nodup)
    (hparts : ∀ name v, (name, v) ∈ protoFields → v.Keyed) (d : Option (GoValue Ty))
    (path : List String) (entries : List (String × GoValue Ty))
    (hd : ∀ name, go.HasType elem (mapIndex d name)) :
    Comes (entryMarks go key elem d protoFields) (EntriesFaithful go protoFields elem d entries)
      (unmarshalEntries go key elem d path entries protoFields) := by
  match protoFields with
  | [] => exact comes_nil_entries
  | (name, v) :: protoFields =>
      obtain ⟨hnew, hdistinct'⟩ := List.nodup_cons.mp hdistinct
      have hhead := comes_unmarshalProtoValue go v (hparts name v List.mem_cons_self) elem elem
        (mapIndex d name) (mapIndex d name) (path ++ [name]) (hd name) .refl
      by_cases hkey : key = go.string
      · have hfresh := lookup_eq_none_of_notMem hnew
        refine comes_string_key hkey hfresh (hd name) hhead fun entries' => ?_
        exact comes_unmarshalEntries go key elem protoFields hdistinct'
          (fun name' v' h => hparts name' v' (List.mem_cons_of_mem _ h)) d path entries' hd
      · exact comes_named_key hkey (hd name) hhead
termination_by (sizeOf protoFields, 0, 0)
decreasing_by
  · exact .left _ _ (sizeOf_cons _ _ _).1
  · exact .left _ _ (sizeOf_cons _ _ _).2

end

end Values

/-! ### The result -/

section Result

variable [DecidableEq Ty] {v : ProtoValue} {T : Ty} {path : List String}

/-- `reflect.ValueOf(defaultValue)`: where there is one, its type is none of an interface. -/
theorem valueOf_cases (default : go.Of T) :
    (if go.isInterface T then elem? (some default.value) else some default.value) = none ∧
        go.shape T = .interface ∧ elem? (some default.value) = none ∨
    ∃ rv, (if go.isInterface T then elem? (some default.value) else some default.value) = some rv ∧
      go.HasType rv.typeOf (some rv) ∧ (v.isNull = false →
        At go v T (some default.value) rv.typeOf (some rv)) ∧
      go.assert T rv = some default.value := by
  by_cases hinterface : go.isInterface T = true
  · have hshape := Go.isInterface_iff.mp hinterface
    rw [if_pos hinterface]
    cases hfound : elem? (some default.value) with
    | none => exact .inl ⟨rfl, hshape, rfl⟩
    | some rv =>
        obtain ⟨hdefault, htyped, hconcrete, himplements⟩ := default.hasType.interface hshape hfound
        refine .inr ⟨rv, rfl, ?_, fun hnull => ?_, ?_⟩
        · intro w hw
          cases hw
          exact ⟨rfl, htyped⟩
        · exact .within rv hnull hshape hfound rfl rfl hconcrete himplements
        · rw [Go.assert_interface hshape hconcrete, if_pos himplements, hdefault]
  · rw [if_neg hinterface]
    refine .inr ⟨default.value, rfl, ?_, fun _ => ?_, ?_⟩
    · rw [default.typeOf]
      exact default.hasType
    · exact .own default.typeOf.symm rfl
    · have hself := go.assert_self default.value
      rwa [default.typeOf] at hself

/-- A pointer is made for a null value too: it is not the default where that is nil. -/
theorem null_pointer {rv : GoValue Ty} {elem : Ty} (path : List String) (hnull : v.isNull = true)
    (hrv : go.HasType rv.typeOf (some rv)) (hshape : go.shape rv.typeOf = .pointer elem) :
    ∃ x, unmarshalProtoValue go v elem (elem? (some rv)) path = .ok (some x) ∧
      set go elem (some x) = .ok x ∧
      (elem? (some rv) = none ↔ GoValue.pointer rv.typeOf (some x) ≠ rv) := by
  refine ⟨(elem? (some rv)).getD (go.zero elem), unmarshalProtoValue_null hnull,
    set_of_store ?_, ?_⟩
  · cases helem : elem? (some rv) with
    | none =>
        have hself := go.store_self (go.zero elem)
        rwa [go.typeOf_zero] at hself
    | some x =>
        have hself := go.store_self x
        rwa [(hrv.pointer hshape x helem).1] at hself
  · cases helem : elem? (some rv) with
    | none =>
        refine iff_of_true rfl fun heq => ?_
        rw [← heq] at helem
        cases helem
    | some x =>
        refine iff_of_false (Option.some_ne_none x) (not_not.mpr ?_)
        exact (Option.some.inj (hrv.pointer_value hshape helem)).symm

theorem comes_null_pointer {rv : GoValue Ty} {default : go.Of T} {elem : Ty}
    (hnull : v.isNull = true) (hrv : go.HasType rv.typeOf (some rv))
    (hassert : go.assert T rv = some default.value)
    (hshape : go.shape rv.typeOf = .pointer elem) :
    Comes ((if elem? (some rv) = none then [.lossy] else []) ++
        typeMark go T (go.pointerTo elem) rv.typeOf)
      (Faithful go v T (some default.value))
      (match unmarshalProtoValue go v elem (elem? (some rv)) path with
        | .ok result =>
            match set go elem result with
            | .ok w => assertTo go T (some (.pointer (go.pointerTo elem) (some w)))
            | .error e => .error e
        | .error e => .error e) := by
  obtain ⟨x, hvalue, hset, hlost⟩ := null_pointer path hnull hrv hshape
  have hstop : firstStop (if elem? (some rv) = none then [.lossy] else []) = none := by
    split <;> rfl
  rw [hvalue]
  dsimp only
  rw [hset]
  dsimp only
  rw [typeMark]
  -- the new pointer is of the unnamed type, which is that of the default or not
  by_cases htype : go.pointerTo elem = rv.typeOf
  · rw [if_pos htype, List.append_nil, htype]
    have htype' : (GoValue.pointer rv.typeOf (some x)).typeOf = rv.typeOf := rfl
    obtain ⟨w, hw, hapart⟩ := Go.assert_of_typeOf htype' hassert
    rw [assertTo_of_some hw]
    refine ⟨hstop, ?_⟩
    rw [Faithful.null_iff hnull]
    by_cases hnone : elem? (some rv) = none
    · rw [if_pos hnone]
      exact iff_of_false (List.cons_ne_nil _ _) fun h => hlost.mp hnone (hapart h)
    · rw [if_neg hnone]
      have heq : GoValue.pointer rv.typeOf (some x) = rv := not_not.mp fun h => hnone (hlost.mpr h)
      rw [heq, hassert] at hw
      exact iff_of_true rfl (Option.some.inj hw).symm
  · have hrvConcrete : go.shape rv.typeOf ≠ .interface := ne_of_eq_of_ne hshape (by simp)
    have hconcrete : go.shape (go.pointerTo elem) ≠ .interface :=
      ne_of_eq_of_ne (go.shape_pointerTo elem) (by simp)
    have htype' : (GoValue.pointer (go.pointerTo elem) (some x)).typeOf ≠ rv.typeOf := htype
    have hother := Go.assert_of_typeOf_ne htype' hrvConcrete hconcrete hassert
    rw [if_neg htype]
    rw [GoValue.typeOf] at hother
    generalize (if elem? (some rv) = none then [Mark.lossy] else []) = ms at hstop ⊢
    by_cases hinterface : go.isInterface T = true ∧ go.implements (go.pointerTo elem) T = true
    · rw [if_pos hinterface] at hother ⊢
      obtain ⟨hw, hdefault⟩ := hother
      rw [assertTo_of_some hw]
      refine comes_append_lossy hstop fun h => ?_
      rw [Faithful.null_iff hnull, hdefault] at h
      cases h
      exact htype rfl
    · rw [if_neg hinterface] at hother ⊢
      rw [assertTo_of_none hother]
      exact firstStop_append_hazard hstop

/-- A new pointer at the top has to have the type itself. -/
theorem comes_top_pointer {rv : GoValue Ty} {default : go.Of T} {elem : Ty} (hv : v.Keyed)
    (hnull : v.isNull = false) (hrv : go.HasType rv.typeOf (some rv))
    (hat : At go v T (some default.value) rv.typeOf (some rv))
    (hshape : go.shape rv.typeOf = .pointer elem) :
    Comes (marks go v elem elem (elem? (some rv)) ++ typeMark go T (go.pointerTo elem) rv.typeOf)
      (Faithful go v T (some default.value))
      (match unmarshalProtoValue go v elem (elem? (some rv)) path with
        | .ok result =>
            match set go elem result with
            | .ok w => assertTo go T (some (.pointer (go.pointerTo elem) (some w)))
            | .error e => .error e
        | .error e => .error e) := by
  have hpart := comes_unmarshalProtoValue go v hv elem elem (elem? (some rv)) (elem? (some rv)) path
    (hrv.pointer hshape) .refl
  rw [placed] at hpart
  cases hvalue : unmarshalProtoValue go v elem (elem? (some rv)) path with
  | error e =>
      rw [hvalue] at hpart
      exact hpart.error_append
  | ok r =>
      rw [hvalue] at hpart
      dsimp only at hpart ⊢
      cases hset : set go elem r with
      | error e =>
          rw [hset] at hpart
          exact hpart.error_append
      | ok w =>
          rw [hset] at hpart
          have ht : go.shape rv.typeOf ≠ .interface := ne_of_eq_of_ne hshape (by simp)
          have hpointer : go.shape (go.pointerTo elem) ≠ .interface :=
            ne_of_eq_of_ne (go.shape_pointerTo elem) (by simp)
          exact comes_typeMark hat hnull ht hpointer (.pointer · (some w)) (fun _ => rfl) hpart.1
            (hpart.2.trans (Faithful.pointer_iff hnull hshape).symm)

/-- Of every other type, what can be set at the top can be asserted there. -/
theorem comes_top {rv : GoValue Ty} {default : go.Of T} (hv : v.Keyed)
    (hrv : go.HasType rv.typeOf (some rv))
    (hat : At go v T (some default.value) rv.typeOf (some rv))
    (hshape : ∀ elem, go.shape rv.typeOf ≠ .pointer elem) :
    Comes (marks go v T rv.typeOf (some rv)) (Faithful go v T (some default.value))
      (match unmarshalProtoValue go v rv.typeOf (some rv) path with
        | .ok result => assertTo go T result
        | .error e => .error e) := by
  have hlocation : ∀ elem, go.shape T ≠ .pointer elem := by
    cases hat with
    | own type => rwa [type]
    | within _ _ hT => exact fun elem => ne_of_eq_of_ne hT (by simp)
  have hcomes := comes_unmarshalProtoValue go v hv T rv.typeOf (some default.value) (some rv) path
    hrv hat
  rw [placed] at hcomes
  cases hvalue : unmarshalProtoValue go v rv.typeOf (some rv) path with
  | error e =>
      rw [hvalue] at hcomes
      exact hcomes
  | ok r =>
      rw [hvalue] at hcomes
      cases r with
      | none => exact hcomes
      | some raw =>
          dsimp only at hcomes ⊢
          rwa [set_eq_assertTo (Go.store_of_location hlocation)] at hcomes

theorem comes_unmarshalTo (hv : v.Keyed) (default : go.Of T) :
    Comes (problems go T v default.value) (Faithful go v T (some default.value))
      (unmarshalTo go T v default.value path) := by
  rw [unmarshalTo.eq_def, problems.eq_def]
  split
  · exact ⟨rfl, iff_of_true rfl (.default rfl)⟩
  · -- without a default to go by, the type is an interface and the value has its natural form
    obtain ⟨hnone, hshape, habsent⟩ | ⟨rv, hsome, hrv, hat, hassert⟩ :=
      valueOf_cases default (v := v)
    · rw [hnone]
      dsimp only
      cases hvalue : asInterface go v with
      | none =>
          refine ⟨rfl, iff_of_true rfl ?_⟩
          cases hnull : v.isNull with
          | true => exact .default hnull
          | false =>
              have hdefault := default.hasType.nil_interface hshape habsent
              have hnatural :
                  Faithful go v T (some default.value) (.interface T (asInterface go v)) :=
                .natural hnull hshape habsent
              rwa [hvalue, ← hdefault] at hnatural
      | some w =>
          have hassert := Go.assert_interface hshape (asInterface_concrete hvalue)
          have hnull : v.isNull = false := by
            cases v with
            | nil | null => cases hvalue
            | _ => rfl
          have hnatural : Faithful go v T (some default.value) (.interface T (asInterface go v)) :=
            .natural hnull hshape habsent
          rw [hvalue] at hnatural
          dsimp only
          split
          · next himplements =>
              rw [if_pos himplements] at hassert
              rw [assertTo_of_some hassert]
              exact ⟨rfl, iff_of_true rfl hnatural⟩
          · next himplements =>
              rw [if_neg himplements] at hassert
              rw [assertTo_of_none hassert]
              exact rfl
    · rw [hsome]
      dsimp only
      cases hnull : v.isNull with
      | true =>
          have hmarks : ∀ s t d, marks go v s t d = [] := fun s t d => by
            rw [marks.eq_def, if_pos hnull]
          simp only [hmarks, true_and]
          split
          · next elem hshape => exact comes_null_pointer hnull hrv hassert hshape
          · rw [unmarshalProtoValue_null hnull]
            dsimp only
            rw [Option.getD_some, assertTo_of_some hassert]
            exact ⟨rfl, iff_of_true rfl (.default hnull)⟩
      | false =>
          split
          · next elem hshape =>
              rw [if_neg fun h => Bool.false_ne_true h.1]
              exact comes_top_pointer hv hnull hrv (hat hnull) hshape
          · next hshape => exact comes_top hv hrv (hat hnull) hshape

/-- No panic, and an error with the default, or the value that it has to be. -/
def Lawful (go : Go Ty) (T : Ty) (v : ProtoValue) (default : GoValue Ty) :
    Option (GoValue Ty × Option String) → Prop
  | none => False
  | some (value, some _) => value = default
  | some (value, none) => value.typeOf = T ∧ Faithful go v T (some default) value

/-- The code is faithful exactly where nothing is wrong, or a mismatch is the first that it does not
pass over: an integer that the type does not have is passed over, and so is the type of a string,
bool, float or pointer in an interface; elsewhere a named type makes it panic, of pointers only at
the top. -/
theorem unmarshalProto_iff (go : Go Ty) (T : Ty) (v : { v : ProtoValue // v.Keyed })
    (default : go.Of T) (path : List String) :
    Lawful go T v default.value (unmarshalProto go T v default.value path) ↔
      problems go T v default.value = [] ∨
        firstStop (problems go T v default.value) = some .mismatch := by
  have hcomes : Comes (problems go T v default.value) (Faithful go v T (some default.value))
      (unmarshalTo go T v default.value path) := comes_unmarshalTo v.2 default
  rw [unmarshalProto]
  generalize unmarshalTo go T v default.value path = result at hcomes ⊢
  match result, hcomes with
  | .ok value, ⟨hstop, hgood⟩ =>
      rw [hgood, hstop]
      have htype (h : Faithful go v T (some default.value) value) : value.typeOf = T :=
        h.typeOf default.hasType
      constructor
      · exact fun h => .inl h.2
      · rintro (h | h)
        · exact ⟨htype h, h⟩
        · cases h
  | .error (.error message), hstop => exact iff_of_true rfl (.inr hstop)
  | .error .panic, hstop =>
      have hstop' : firstStop (problems go T v default.value) = some .hazard := hstop
      refine iff_of_false id ?_
      rw [hstop']
      rintro (hnil | hmismatch)
      · rw [hnil] at hstop'
        cases hstop'
      · cases hmismatch

end Result

/-- The types of a program with a named string and a named pointer. -/
inductive SampleType where
  | int8
  | label
  | handle
  | string
  | bool
  | float64
  | float32
  | any
  | mapStringAny
  | sliceAny
  | pointer (elem : SampleType)
deriving DecidableEq

def SampleType.depth : SampleType → Nat
  | .handle => 1
  | .pointer elem => elem.depth + 1
  | _ => 0

def SampleType.name : SampleType → String
  | .int8 => "int8"
  | .label => "main.Label"
  | .handle => "main.Handle"
  | .string => "string"
  | .bool => "bool"
  | .float64 => "float64"
  | .float32 => "float32"
  | .any => "interface {}"
  | .mapStringAny => "map[string]interface {}"
  | .sliceAny => "[]interface {}"
  | .pointer elem => "*" ++ elem.name

/-- A platform on which a float beyond the range becomes the least integer, as on amd64. -/
def sample : Go SampleType where
  shape
    | .int8 => .int .w8
    | .label | .string => .string
    | .handle => .pointer .int8
    | .bool => .bool
    | .float64 => .float64
    | .float32 => .float32
    | .any => .interface
    | .mapStringAny => .map .string .any
    | .sliceAny => .slice
    | .pointer elem => .pointer elem
  typeString := SampleType.name
  string := .string
  bool := .bool
  float64 := .float64
  float32 := .float32
  any := .any
  mapStringAny := .mapStringAny
  sliceAny := .sliceAny
  shape_string := rfl
  shape_bool := rfl
  shape_float64 := rfl
  shape_float32 := rfl
  shape_any := rfl
  shape_mapStringAny := rfl
  shape_sliceAny := rfl
  pointerTo := .pointer
  shape_pointerTo _ := rfl
  implements _ _ := true
  implements_any _ := rfl
  depth := SampleType.depth
  depth_elem t elem h := by
    cases t with
    | handle =>
        cases h
        exact Nat.zero_lt_one
    | pointer elem' =>
        cases h
        exact Nat.lt_succ_self _
    | _ => cases h
  size _ := 0
  size_field t fields h := by cases t <;> cases h
  wideInt _ := -2 ^ 63
  wideUint _ := 2 ^ 63
  round32 q := q
  showNumber q := toString q
  toLower := String.toLower

/-- `int8(0)`, `Label("")` and `Handle(nil)`. -/
def zeroInt8 : sample.Of .int8 := ⟨.int .int8 0, rfl, .int rfl (by decide)⟩

def emptyLabel : sample.Of .label := ⟨.string .label "", rfl, .string rfl⟩

def nilHandle : sample.Of .handle := ⟨.pointer .handle none, rfl, .nilPointer rfl⟩

theorem unmarshalProtoValue_int8 (d : Option (GoValue SampleType)) (q : ℚ) (hq : q.den = 1) :
    unmarshalProtoValue sample (.number q) .int8 d [] =
      .ok (some (.int .int8 (sample.convertInt .w8 q.num))) := by
  rw [unmarshalProtoValue.eq_def, if_neg (show ¬ (ProtoValue.number q).isNull = true by nofun)]
  exact if_neg (not_not.mpr hq)

/-- 300 becomes 44, a string for a named type makes the code panic, and so does a pointer at the
top. -/
theorem narrow_and_named_values :
    unmarshalProto sample .int8 (.number 300) zeroInt8.value [] = some (.int .int8 44, none) ∧
    ¬ Lawful sample .int8 (.number 300) zeroInt8.value
      (unmarshalProto sample .int8 (.number 300) zeroInt8.value []) ∧
    unmarshalProto sample .label (.string "red") emptyLabel.value [] = none ∧
    ¬ Lawful sample .label (.string "red") emptyLabel.value
      (unmarshalProto sample .label (.string "red") emptyLabel.value []) ∧
    unmarshalProto sample .handle (.number 3) nilHandle.value [] = none ∧
    ¬ Lawful sample .handle (.number 3) nilHandle.value
      (unmarshalProto sample .handle (.number 3) nilHandle.value []) := by
  have hnarrow : unmarshalProto sample .int8 (.number 300) zeroInt8.value [] =
      some (.int .int8 44, none) := by
    rw [unmarshalProto, unmarshalTo.eq_def]
    dsimp only
    rw [if_neg (show ¬ sample.isInterface .int8 = true from Bool.false_ne_true)]
    dsimp only
    rw [zeroInt8.typeOf, unmarshalProtoValue_int8 _ 300 rfl]
    rfl
  have hnamed : unmarshalProto sample .label (.string "red") emptyLabel.value [] = none := by
    have hvalue : unmarshalProtoValue sample (.string "red") .label (some emptyLabel.value) [] =
        .ok (some (.string .string "red")) := by
      rw [unmarshalProtoValue.eq_def]
      rfl
    rw [unmarshalProto, unmarshalTo.eq_def]
    dsimp only
    rw [if_neg (show ¬ sample.isInterface .label = true from Bool.false_ne_true)]
    dsimp only
    rw [emptyLabel.typeOf, hvalue]
    rfl
  have hpointer : unmarshalProto sample .handle (.number 3) nilHandle.value [] = none := by
    rw [unmarshalProto, unmarshalTo.eq_def]
    dsimp only
    rw [if_neg (show ¬ sample.isInterface .handle = true from Bool.false_ne_true)]
    dsimp only
    rw [nilHandle.typeOf, show sample.shape .handle = .pointer .int8 from rfl]
    dsimp only
    rw [unmarshalProtoValue_int8 _ 3 rfl]
    rfl
  refine ⟨hnarrow, ?_, hnamed, ?_, hpointer, ?_⟩
  · rw [hnarrow]
    rintro ⟨-, h⟩
    rw [Faithful.int_iff (w := .w8) rfl] at h
    exact absurd h.2 (by decide)
  · rw [hnamed]
    exact id
  · rw [hpointer]
    exact id

end UnmarshalProto

end ConfidenceResolver
