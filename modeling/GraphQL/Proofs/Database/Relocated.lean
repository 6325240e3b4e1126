import GraphQL.Proofs.Inference.Relocated

/-! # Indexes of relocated documents

An index of relocated documents files under every name what the index of the documents files there,
relocated: `Index.build_files`. So the definitions of the documents are resolved through the same
types in both, `Index.Files.moved`. -/

namespace GraphQL

set_option autoImplicit false

open Recovery (Slot)

variable {α δ : Type} {f : Span → Span}

/-! ## Members of types -/

/-- The same members under the same names, up to spans. -/
def Bindings.Moved (part : α → α) (b b' : Bindings (Located α)) : Prop :=
  ∀ type name, (b'.membersByName type name).map Located.value =
    (b.membersByName type name).map fun a => part a.value

structure LayeredBindings.Moved (part : α → α) (b b' : LayeredBindings (Located α)) : Prop where
  definitions : b.definitions.Moved part b'.definitions
  extensions : b.extensions.Moved part b'.extensions

/-- The first of two lists of constructs that are the same up to spans. -/
theorem Located.Moved.head {part : α → α} {list list' : List (Located α)}
    (h : list'.map Located.value = list.map fun a => part a.value) :
    Located.Moved part list.head? list'.head? := by
  cases list with
  | nil =>
    obtain rfl := List.map_eq_nil_iff.1 h
    exact .neither
  | cons a rest =>
    cases list' with
    | nil => cases h
    | cons a' rest' =>
      obtain ⟨revision', value'⟩ := a'
      obtain rfl : value' = part a.value := (List.cons.inj h).1
      exact .both a.revision revision' a.value

namespace Bindings

variable {part : α → α} {b b' : Bindings (Located α)}

theorem Moved.insert (h : b.Moved part b') (type name : Text) (revision revision' : Nat) (a : α) :
    (b.insert type name ⟨revision, a⟩).Moved part (b'.insert type name ⟨revision', part a⟩) := by
  intro t n
  rw [membersByName_insert, membersByName_insert]
  by_cases same : t = type ∧ n = name
  · rw [if_pos same, if_pos same, List.map_append, List.map_append, h t n]
    rfl
  · rw [if_neg same, if_neg same, h t n]

end Bindings

namespace LayeredBindings

variable {part : α → α} {b b' : LayeredBindings (Located α)}

theorem Moved.insert (h : b.Moved part b') (layer : Layer) (type name : Text)
    (revision revision' : Nat) (a : α) :
    (b.insert layer type name ⟨revision, a⟩).Moved part
      (b'.insert layer type name ⟨revision', part a⟩) := by
  cases layer with
  | definition => exact { h with definitions := h.definitions.insert type name revision revision' a }
  | extension => exact { h with extensions := h.extensions.insert type name revision revision' a }

theorem Moved.bindMembers (h : b.Moved part b') (layer : Layer) (revision revision' : Nat)
    (type : Text) (name : α → Text) (same : ∀ a, name (part a) = name a) (members : List α) :
    (bindMembers layer revision type name members b).Moved part
      (bindMembers layer revision' type name (members.map part) b') := by
  unfold GraphQL.bindMembers
  induction members generalizing b b' with
  | nil => exact h
  | cons a members ih =>
    rw [List.map_cons, List.foldl_cons, List.foldl_cons, same]
    exact ih (h.insert layer type (name a) revision revision' a)

theorem Moved.head (h : b.Moved part b') (type name : Text) :
    Located.Moved part (b.membersByName type name).head? (b'.membersByName type name).head? := by
  refine Located.Moved.head ?_
  unfold LayeredBindings.membersByName
  rw [List.map_append, List.map_append, h.definitions, h.extensions]

end LayeredBindings

theorem itemsOf_mapSpans (part : α → α) (items : Option (Delimited α)) :
    itemsOf (items.map (Delimited.mapSpans f part)) = (itemsOf items).map part := by
  cases items <;> rfl

/-! ## Indexes -/

namespace Index

/-- What a walk asks an index for is filed alike, up to spans. -/
structure Files (f : Span → Span) (i i' : Index) : Prop where
  schemas : i'.schemas.map Located.value = i.schemas.map fun s => s.value.mapSpans f
  schemaExtensions :
    i'.schemaExtensions.map Located.value = i.schemaExtensions.map fun s => s.value.mapSpans f
  fields : i.fields.Moved (FieldDefinition.mapSpans f) i'.fields
  inputFields : i.inputFields.Moved (InputValueDefinition.mapSpans f) i'.inputFields
  directives : ∀ name, (i'.directives.get name).map Located.value =
    (i.directives.get name).map fun d => d.value.mapSpans f

variable {i i' : Index}

theorem files_empty : Files f {} {} where
  schemas := rfl
  schemaExtensions := rfl
  fields := ⟨fun _ _ => rfl, fun _ _ => rfl⟩
  inputFields := ⟨fun _ _ => rfl, fun _ _ => rfl⟩
  directives _ := rfl

theorem Files.addMembers (h : Files f i i') (layer : Layer) (revision revision' : Nat)
    {name name' : Option Text} (same : name' = name) (body : TypeBody δ) (scalar : δ → δ) :
    Files f (i.addMembers layer revision name body)
      (i'.addMembers layer revision' name' (body.mapSpans f scalar)) := by
  subst same
  have fielded (type : Text) (body : FieldedBody) :
      Files f (i.addFields layer revision type body)
        (i'.addFields layer revision' type (body.mapSpans f)) := by
    have fields := h.fields.bindMembers layer revision revision' type (fun d => d.name.text)
      (fun _ => rfl) (itemsOf body.fields)
    rw [← itemsOf_mapSpans (f := f)] at fields
    exact { h with fields := fields }
  cases name' with
  | none => exact h
  | some type =>
    cases body with
    | object body => exact fielded type body
    | interface body => exact fielded type body
    | input directives list =>
      have inputFields := h.inputFields.bindMembers layer revision revision' type
        (fun d => d.name.text) (fun _ => rfl) (itemsOf list)
      rw [← itemsOf_mapSpans (f := f)] at inputFields
      exact { h with inputFields := inputFields }
    | scalar directives => exact { h with }
    | union directives members => exact { h with }
    | enum directives values => exact { h with }

theorem Files.add (h : Files f i i') (revision revision' : Nat) (d : Definition) :
    Files f (i.add revision d) (i'.add revision' (d.mapSpans f)) := by
  cases d with
  | operation d =>
    obtain ⟨type, name, variableDefinitions, directives, set⟩ := d
    cases name with
    | none => exact { h with }
    | some name => exact { h with }
  | fragment d => exact { h with }
  | schema d =>
    refine { h with schemas := ?_ }
    show (i'.schemas ++ [_]).map _ = (i.schemas ++ [_]).map _
    rw [List.map_append, List.map_append, h.schemas]
    rfl
  | schemaExtension d =>
    refine { h with schemaExtensions := ?_ }
    show (i'.schemaExtensions ++ [_]).map _ = (i.schemaExtensions ++ [_]).map _
    rw [List.map_append, List.map_append, h.schemaExtensions]
    rfl
  | directive d =>
    refine { h with directives := fun name => ?_ }
    show ((fileUnder (textOf? (mapTokenSlot f d.name)) _ i'.directives).get name).map _ =
      ((fileUnder (textOf? d.name) _ i.directives).get name).map _
    rw [textOf?_mapTokenSlot, get_fileUnder, get_fileUnder]
    by_cases own : textOf? d.name = some name
    · rw [if_pos own, if_pos own, List.map_append, List.map_append, h.directives]
      rfl
    · rw [if_neg own, if_neg own, h.directives]
  | type d =>
    have filed (types types' : MultiMap Text (Located TypeDefinition)) :
        Files f { i with types } { i' with types := types' } := { h with }
    exact (filed _ _).addMembers .definition revision revision' (textOf?_mapTokenSlot f d.name)
      d.body (Option.map (Directives.mapSpans f))
  | typeExtension d =>
    have filed (typeExtensions typeExtensions' : MultiMap Text (Located TypeExtension)) :
        Files f { i with typeExtensions } { i' with typeExtensions := typeExtensions' } :=
      { h with }
    exact (filed _ _).addMembers .extension revision revision' (textOf?_mapTokenSlot f d.name)
      d.body (mapSlot f (Directives.mapSpans f))

theorem Files.addRevision (h : Files f i i') (revision : Revision) (number : Nat) :
    Files f (i.addRevision revision) (i'.addRevision ⟨number, revision.tree.mapSpans f⟩) := by
  show Files f (revision.tree.definitions.foldl _ i)
    ((revision.tree.definitions.map (Definition.mapSpans f)).foldl _ i')
  induction revision.tree.definitions generalizing i i' with
  | nil => exact h
  | cons d definitions ih => exact ih (h.add revision.id number d)

theorem build_files (revisions : List Revision) (number : Revision → Nat) :
    Files f (build revisions)
      (build (revisions.map fun r => ⟨number r, r.tree.mapSpans f⟩)) := by
  have from_files (i i' : Index) (h : Files f i i') : Files f (revisions.foldl addRevision i)
      ((revisions.map fun r => (⟨number r, r.tree.mapSpans f⟩ : Revision)).foldl addRevision i') := by
    induction revisions generalizing i i' with
    | nil => exact h
    | cons r revisions ih => exact ih _ _ (h.addRevision r (number r))
  exact from_files {} {} files_empty

/-! ### Root types -/

theorem rootEntries_mapSpans (roots : Option RootOperationTypes) :
    rootEntries (roots.map (RootOperationTypes.mapSpans f)) =
      (rootEntries roots).map (RootOperationType.mapSpans f) := by
  cases roots with
  | none => rfl
  | some roots =>
    obtain ⟨opening, entries, closing⟩ := roots
    cases entries <;> rfl

theorem Files.rootTypes (h : Files f i i') :
    i'.rootTypes = i.rootTypes.map (RootOperationType.mapSpans f) := by
  have definitions := congrArg
    (List.flatMap fun s : SchemaDefinition => rootEntries s.roots.value?) h.schemas
  have extensions := congrArg (List.flatMap fun s : SchemaExtension => rootEntries s.roots)
    h.schemaExtensions
  have roots (s : SchemaDefinition) :
      (s.mapSpans f).roots.value? = s.roots.value?.map (RootOperationTypes.mapSpans f) :=
    Slot.value?_mapSlot _ _ _
  have roots' (s : SchemaExtension) :
      (s.mapSpans f).roots = s.roots.map (RootOperationTypes.mapSpans f) := rfl
  simp only [List.flatMap_map, roots, rootEntries_mapSpans] at definitions
  simp only [List.flatMap_map, roots', rootEntries_mapSpans] at extensions
  rw [Index.rootTypes, Index.rootTypes, List.map_append, List.map_flatMap, List.map_flatMap]
  exact congr (congrArg _ definitions) extensions

theorem isEmpty_eq_of_map_eq {β γ : Type} {list : List α} {list' : List β} {g : α → γ} {g' : β → γ}
    (h : list'.map g' = list.map g) : list'.isEmpty = list.isEmpty := by
  rw [← List.isEmpty_map (f := g'), h, List.isEmpty_map]

theorem Files.rootType (h : Files f i i') (kind : OperationKind) :
    i'.rootType? kind = i.rootType? kind := by
  have types (entry : RootOperationType) :
      (entry.mapSpans f).type.value?.map (fun type => type.name.text) =
        entry.type.value?.map fun type => type.name.text := by
    obtain ⟨operation, colon, type⟩ := entry
    cases type <;> rfl
  have kinds (entry : RootOperationType) :
      (entry.mapSpans f).operation.kind = entry.operation.kind := rfl
  rw [rootType?, rootType?, h.rootTypes, List.findSome?_map, isEmpty_eq_of_map_eq h.schemas,
    isEmpty_eq_of_map_eq h.schemaExtensions]
  simp only [Function.comp_def, types, kinds]

theorem Files.moved (h : Files f i i') : Moved f i i' where
  rootType := h.rootType
  field := h.fields.head
  inputField := h.inputFields.head
  directive name := .head (h.directives name)

end Index

end GraphQL
