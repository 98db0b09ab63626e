import ConfidenceResolver.Evaluation.ManagedContext

/-!
# Resolver — the nulls of a flag's schema

`fill_schema_nulls` completes the value of a variant with the fields its flag's schema names.  A
map has no order, so a value is compared by what stands at each path of field names
(`Value.read`); a struct stands for itself there, and its fields are the longer paths.

Filling *extends* a value (`Extends`): every reading stays, and a new one is a null at a path of
the schema.  Afterwards the value is *full* (`Full`): below every struct the schema's fields can
be read.  That a second filling changes nothing follows from these two alone.

The recursion goes through structs only.  A list stays as it is, whatever the schema says about
its elements.
-/

namespace ConfidenceResolver

/-! ### Reading along a path -/

/-- What stands at a path of field names; a struct is read as a struct without fields. -/
def Value.read : Value → List String → Option Value
  | .struct _, [] => some (.struct [])
  | v, [] => some v
  | .struct fields, key :: path => (fields.lookup key).bind fun v => v.read path
  | _, _ :: _ => none

/-- The schema has a field at the path. -/
def FlagSchema.covers : FlagSchema → List String → Prop
  | _, [] => True
  | .structSchema fields, key :: path => ∃ schema, (key, schema) ∈ fields ∧ schema.covers path
  | _, _ :: _ => False

theorem read_cons (s : Struct) (key : String) (path : List String) :
    (Value.struct s).read (key :: path) = (s.lookup key).bind fun v => v.read path := rfl

theorem read_insert (s : Struct) (key key' : String) (v : Value) (path : List String) :
    (Value.struct (Struct.insert s key v)).read (key' :: path) =
      if key = key' then v.read path else (Value.struct s).read (key' :: path) := by
  rw [read_cons, lookup_insert, read_cons]
  split <;> rfl

theorem read_isSome_nil (v : Value) : (v.read []).isSome := by
  cases v <;> rfl

/-- Only a struct is read as one, or at a longer path. -/
theorem read_of_not_struct {v : Value} (h : ∀ fields, v ≠ .struct fields) :
    ∀ path, v.read path ≠ some (.struct []) := by
  intro path hread
  cases path with
  | nil => cases v <;> cases hread; exact h _ rfl
  | cons key path =>
      cases v with
      | struct fields => exact h fields rfl
      | _ => cases hread

theorem covers_nil (schema : FlagSchema) : schema.covers [] := by
  cases schema <;> trivial

theorem covers_cons {name : String} {schema : FlagSchema} {rest : StructFlagSchema}
    {path : List String} (h : (FlagSchema.structSchema ((name, schema) :: rest)).covers path) :
    (∃ q, path = name :: q ∧ schema.covers q) ∨ (FlagSchema.structSchema rest).covers path := by
  cases path with
  | nil => exact .inr trivial
  | cons key path =>
      obtain ⟨sc, hmem, hsc⟩ := h
      rcases List.mem_cons.mp hmem with heq | hmem
      · cases heq
        exact .inl ⟨path, rfl, hsc⟩
      · exact .inr ⟨sc, hmem, hsc⟩

theorem covers_head {name : String} {schema : FlagSchema} {rest : StructFlagSchema}
    {path : List String} (h : schema.covers path) :
    (FlagSchema.structSchema ((name, schema) :: rest)).covers (name :: path) :=
  ⟨schema, List.mem_cons_self, h⟩

theorem covers_tail {field : String × FlagSchema} {rest : StructFlagSchema} {path : List String}
    (h : (FlagSchema.structSchema rest).covers path) :
    (FlagSchema.structSchema (field :: rest)).covers path := by
  cases path with
  | nil => trivial
  | cons key path =>
      obtain ⟨sc, hmem, hsc⟩ := h
      exact ⟨sc, List.mem_cons_of_mem _ hmem, hsc⟩

/-- What can be read at a longer path lies in a struct. -/
theorem read_parent {v x : Value} {path : List String} {name : String}
    (h : v.read (path ++ [name]) = some x) : v.read path = some (.struct []) := by
  induction path generalizing v with
  | nil =>
      cases v with
      | struct fields => rfl
      | _ => cases h
  | cons key path ih =>
      cases v with
      | struct fields =>
          rw [List.cons_append, read_cons] at h
          obtain ⟨sub, hsub, hread⟩ := Option.bind_eq_some_iff.mp h
          rw [read_cons, hsub]
          exact ih hread
      | _ => cases h

/-! ### Extending and filling -/

/-- `w` reads as `v` does, apart from new nulls at paths of `H`. -/
structure Extends (H : List String → Prop) (v w : Value) : Prop where
  kept : ∀ {path u}, v.read path = some u → w.read path = some u
  added : ∀ {path u}, v.read path = none → w.read path = some u → u = .null ∧ H path

/-- Below a struct every path of `H` can be read. -/
def Full (H : List String → Prop) (w : Value) : Prop :=
  ∀ path name, w.read path = some (.struct []) → H (path ++ [name]) →
    (w.read (path ++ [name])).isSome

variable {H H' : List String → Prop} {u v w : Value}

namespace Extends

theorem refl (v : Value) : Extends H v v where
  kept h := h
  added h h' := by
    rw [h] at h'
    cases h'

theorem mono (h : Extends H v w) (hH : ∀ path, H path → H' path) : Extends H' v w where
  kept := h.kept
  added hv hw := (h.added hv hw).imp_right (hH _)

theorem trans (h : Extends H u v) (h' : Extends H v w) : Extends H u w where
  kept hu := h'.kept (h.kept hu)
  added {path x} hu hw := by
    cases hv : v.read path with
    | none => exact h'.added hv hw
    | some y =>
        obtain rfl : y = x := Option.some.inj ((h'.kept hv).symm.trans hw)
        exact h.added hu hv

/-- What is new is no struct. -/
theorem struct (h : Extends H v w) {path : List String} (hw : w.read path = some (.struct [])) :
    v.read path = some (.struct []) := by
  cases hv : v.read path with
  | none => cases (h.added hv hw).1
  | some x => rw [← h.kept hv, hw]

theorem full (h : Extends H v w) (hv : Full H' v) : Full H' w := by
  intro path name hw hH
  obtain ⟨x, hx⟩ := Option.isSome_iff_exists.mp (hv path name (h.struct hw) hH)
  rw [h.kept hx]
  rfl

end Extends

/-- A field that was missing. -/
theorem extends_insert_null {s : Struct} {key : String} (hs : s.lookup key = none)
    (hH : H [key]) : Extends H (.struct s) (.struct (Struct.insert s key .null)) where
  kept {path x} h := by
    cases path with
    | nil => exact h
    | cons key' path =>
        rw [read_insert]
        split
        · rename_i heq
          rw [read_cons, ← heq, hs] at h
          cases h
        · exact h
  added {path x} h h' := by
    cases path with
    | nil => cases h
    | cons key' path =>
        rw [read_insert] at h'
        split at h'
        · rename_i heq
          subst heq
          cases path with
          | nil => cases h'; exact ⟨rfl, hH⟩
          | cons _ _ => cases h'
        · rw [h] at h'
          cases h'

/-- A field whose struct is extended. -/
theorem extends_insert_struct {s fields fields' : Struct} {key : String}
    (hs : s.lookup key = some (.struct fields))
    (hf : Extends H' (.struct fields) (.struct fields')) (hH : ∀ path, H' path → H (key :: path)) :
    Extends H (.struct s) (.struct (Struct.insert s key (.struct fields'))) where
  kept {path x} h := by
    cases path with
    | nil => exact h
    | cons key' path =>
        rw [read_insert]
        split
        · rename_i heq
          rw [read_cons, ← heq, hs] at h
          exact hf.kept h
        · exact h
  added {path x} h h' := by
    cases path with
    | nil => cases h
    | cons key' path =>
        rw [read_insert] at h'
        split at h'
        · rename_i heq
          subst heq
          rw [read_cons, hs] at h
          exact (hf.added h h').imp_right (hH path)
        · rw [h] at h'
          cases h'

/-- Filling one field, or all of them: the value is extended, and full. -/
structure Fills (H : List String → Prop) (v w : Value) : Prop extends Extends H v w where
  full : Full H w

/-- Below a field that can be read, the paths are full when the field's value is. -/
theorem full_field {s : Struct} {key : String} {schema : FlagSchema} {v : Value}
    (hs : s.lookup key = some v) (hv : Full schema.covers v) :
    Full (fun path => ∃ q, path = key :: q ∧ schema.covers q) (.struct s) := by
  intro path name hstruct hpath
  obtain ⟨q, hq, hcov⟩ := hpath
  cases path with
  | nil =>
      cases hq
      rw [List.nil_append, read_cons, hs]
      exact read_isSome_nil v
  | cons key' path =>
      obtain ⟨rfl, rfl⟩ := List.cons.inj hq
      rw [read_cons, hs] at hstruct
      rw [List.cons_append, read_cons, hs]
      exact hv path name hstruct hcov

/-- A value that is no struct, or whose schema is none, is full. -/
theorem full_of_not_struct {schema : FlagSchema} (h : ∀ fields, v ≠ .struct fields) :
    Full schema.covers v := fun path _ hstruct _ =>
  absurd hstruct (read_of_not_struct h path)

theorem full_of_not_schema {schema : FlagSchema} (h : ∀ fields, schema ≠ .structSchema fields) :
    Full schema.covers v := by
  intro path name _ hcov
  cases schema with
  | structSchema fields => exact absurd rfl (h fields)
  | _ => cases path <;> exact hcov.elim

/-- A field the schema has nothing to say about, beyond its name. -/
theorem fills_leaf {s : Struct} {name : String} {schema : FlagSchema}
    (h : ∀ fields, schema ≠ .structSchema fields) :
    Fills (fun path => ∃ q, path = name :: q ∧ schema.covers q) (.struct s)
      (.struct (fillSchemaNull s name schema)) := by
  cases hs : s.lookup name with
  | none =>
      have heq : fillSchemaNull s name schema = Struct.insert s name .null := by
        cases schema with
        | structSchema fields => exact absurd rfl (h fields)
        | _ => simp only [fillSchemaNull, hs]
      rw [heq]
      refine ⟨extends_insert_null hs ⟨[], rfl, covers_nil schema⟩, full_field ?_
        (full_of_not_schema (v := .null) h)⟩
      rw [lookup_insert, if_pos rfl]
  | some v =>
      have heq : fillSchemaNull s name schema = s := by
        cases schema with
        | structSchema fields => exact absurd rfl (h fields)
        | _ => simp only [fillSchemaNull, hs]
      rw [heq]
      exact ⟨.refl _, full_field hs (full_of_not_schema h)⟩

mutual

theorem fillSchemaNulls_fills : ∀ (schema : StructFlagSchema) (s : Struct),
    Fills (FlagSchema.structSchema schema).covers (.struct s) (.struct (fillSchemaNulls s schema))
  | [], s => by
      rw [fillSchemaNulls]
      refine ⟨.refl _, fun path name _ hcov => ?_⟩
      cases path <;> obtain ⟨_, hmem, -⟩ := hcov <;> cases hmem
  | (name, schema) :: rest, s => by
      rw [fillSchemaNulls]
      have hone := fillSchemaNull_fills schema s name
      have hrest := fillSchemaNulls_fills rest (fillSchemaNull s name schema)
      refine ⟨(hone.toExtends.mono ?_).trans (hrest.toExtends.mono fun _ => covers_tail), ?_⟩
      · rintro _ ⟨q, rfl, hq⟩
        exact covers_head hq
      · -- the later fields keep what the first one filled
        intro path n hstruct hcov
        rcases covers_cons hcov with h | h
        · exact hrest.toExtends.full hone.full path n hstruct h
        · exact hrest.full path n hstruct h

theorem fillSchemaNull_fills : ∀ (schema : FlagSchema) (s : Struct) (name : String),
    Fills (fun path => ∃ q, path = name :: q ∧ schema.covers q) (.struct s)
      (.struct (fillSchemaNull s name schema))
  | .structSchema sub, s, name => by
      cases hs : s.lookup name with
      | none =>
          rw [fillSchemaNull, hs]
          refine ⟨extends_insert_null hs ⟨[], rfl, covers_nil _⟩, full_field ?_
            (full_of_not_struct (v := .null) fun _ h => by cases h)⟩
          rw [lookup_insert, if_pos rfl]
      | some v =>
          cases v with
          | struct fields =>
              rw [fillSchemaNull, hs]
              have hsub := fillSchemaNulls_fills sub fields
              refine ⟨extends_insert_struct hs hsub.toExtends fun q hq => ⟨q, rfl, hq⟩,
                full_field ?_ hsub.full⟩
              rw [lookup_insert, if_pos rfl]
          | _ =>
              rw [fillSchemaNull, hs]
              · exact ⟨.refl _, full_field hs (full_of_not_struct fun _ h => by cases h)⟩
  | .unset, _, _ => fills_leaf fun _ h => by cases h
  | .listSchema _, _, _ => fills_leaf fun _ h => by cases h
  | .intSchema, _, _ => fills_leaf fun _ h => by cases h
  | .doubleSchema, _, _ => fills_leaf fun _ h => by cases h
  | .stringSchema, _, _ => fills_leaf fun _ h => by cases h
  | .boolSchema, _, _ => fills_leaf fun _ h => by cases h

end

/-- Filling a full value again. -/
theorem read_fill_full {s : Struct} {schema : StructFlagSchema}
    (h : Full (FlagSchema.structSchema schema).covers (.struct s)) (path : List String) :
    (Value.struct (fillSchemaNulls s schema)).read path = (Value.struct s).read path := by
  have hfill := (fillSchemaNulls_fills schema s).toExtends
  cases hs : (Value.struct s).read path with
  | some v => exact hfill.kept hs
  | none =>
      cases hr : (Value.struct (fillSchemaNulls s schema)).read path with
      | none => rfl
      | some v =>
          -- the reading is new, so it lies below a struct, which was full already
          rcases List.eq_nil_or_concat path with rfl | ⟨parent, name, rfl⟩
          · cases hs
          · rw [List.concat_eq_append] at hs hr
            have hstruct := hfill.struct (read_parent hr)
            have hfull := h parent name hstruct (hfill.added hs hr).2
            rw [hs] at hfull
            cases hfull

/-- A struct inside the value, with the schema for it: through fields, and through elements of
lists. -/
inductive NestedIn : Value → FlagSchema → Struct → StructFlagSchema → Prop where
  | here (fields : Struct) (sub : StructFlagSchema) :
      NestedIn (.struct fields) (.structSchema sub) fields sub
  | field {fields : Struct} {sub : StructFlagSchema} {key : String} {v : Value}
      {schema : FlagSchema} {inner : Struct} {innerSchema : StructFlagSchema}
      (hv : fields.lookup key = some v) (hschema : sub.lookup key = some schema)
      (h : NestedIn v schema inner innerSchema) :
      NestedIn (.struct fields) (.structSchema sub) inner innerSchema
  | element {values : List Value} {v : Value} {schema : FlagSchema} {inner : Struct}
      {innerSchema : StructFlagSchema} (hv : v ∈ values)
      (h : NestedIn v schema inner innerSchema) :
      NestedIn (.list values) (.listSchema (some schema)) inner innerSchema

/-- **Schema nulls.**  In the filled value every field of the schema can be read below every
struct that the value holds along its fields; every reading of the value is kept, a list whole;
what is new is a null at a path of the schema; and filling again changes no reading. -/
theorem schema_nulls_filled (value : Struct) (schema : StructFlagSchema) :
    (∀ path name, (Value.struct value).read path = some (.struct []) →
      (FlagSchema.structSchema schema).covers (path ++ [name]) →
      ((Value.struct (fillSchemaNulls value schema)).read (path ++ [name])).isSome) ∧
    (∀ path v, (Value.struct value).read path = some v →
      (Value.struct (fillSchemaNulls value schema)).read path = some v) ∧
    (∀ path v, (Value.struct value).read path = none →
      (Value.struct (fillSchemaNulls value schema)).read path = some v →
      v = .null ∧ (FlagSchema.structSchema schema).covers path) ∧
    ∀ path, (Value.struct (fillSchemaNulls (fillSchemaNulls value schema) schema)).read path =
      (Value.struct (fillSchemaNulls value schema)).read path := by
  have hfill := fillSchemaNulls_fills schema value
  refine ⟨?_, ?_, ?_, ?_⟩
  · intro path name hstruct hcov
    exact hfill.full path name (hfill.kept hstruct) hcov
  · intro path v hv
    exact hfill.kept hv
  · intro path v hnone hv
    exact hfill.added hnone hv
  · intro path
    exact read_fill_full hfill.full path

/-- A struct that is an element of a list is left without the schema's field. -/
theorem schema_nulls_skip_lists :
    ¬ ∀ (value : Struct) (schema : StructFlagSchema) (inner : Struct)
        (innerSchema : StructFlagSchema),
      NestedIn (.struct (fillSchemaNulls value schema)) (.structSchema schema) inner innerSchema →
      ∀ name ∈ innerSchema.map Prod.fst, (inner.lookup name).isSome := by
  intro h
  have hfield : NestedIn
      (.struct (fillSchemaNulls [("steps", .list [.struct []])]
        [("steps", .listSchema (some (.structSchema [("title", .stringSchema)])))]))
      (.structSchema [("steps", .listSchema (some (.structSchema [("title", .stringSchema)])))])
      [] [("title", .stringSchema)] :=
    .field (show List.lookup "steps" _ = some _ from rfl) rfl
      (.element List.mem_cons_self (.here _ _))
  cases h _ _ _ _ hfield "title" List.mem_cons_self

end ConfidenceResolver
