import GraphQL.Database
import GraphQL.Proofs.Database.Filing

/-! # What lookups give

Lookups by name give the definitions of a kind in the order of the documents and there in source
order, as often as their document is listed. Members of a type are those of its definitions,
followed by those of its extensions.

* `Index.add_filled` says table by table what one definition adds to an index,
* `Index.build_filled`: and so what all definitions of some revisions add,
* `Database.build_lists`: what every lookup of a snapshot is. -/

namespace GraphQL

set_option autoImplicit false

variable {α δ τ : Type}

/-! ## Definitions by kind -/

namespace Definition

def operation? : Definition → Option OperationDefinition
  | .operation d => some d
  | _ => none

def fragment? : Definition → Option FragmentDefinition
  | .fragment d => some d
  | _ => none

def schema? : Definition → Option SchemaDefinition
  | .schema d => some d
  | _ => none

def schemaExtension? : Definition → Option SchemaExtension
  | .schemaExtension d => some d
  | _ => none

def type? : Definition → Option TypeDefinition
  | .type d => some d
  | _ => none

def typeExtension? : Definition → Option TypeExtension
  | .typeExtension d => some d
  | _ => none

def directive? : Definition → Option DirectiveDefinition
  | .directive d => some d
  | _ => none

end Definition

namespace TypeBody

/-- The interfaces that an object or interface type implements; missing ones are left out. -/
def interfaces : TypeBody δ → List NamedType
  | .object body => membersOf body.interfaces
  | .interface body => membersOf body.interfaces
  | _ => []

def fields : TypeBody δ → List FieldDefinition
  | .object body => itemsOf body.fields
  | .interface body => itemsOf body.fields
  | _ => []

/-- The members of a union; missing ones are left out. -/
def unionMembers : TypeBody δ → List NamedType
  | .union _ members => membersOf members
  | _ => []

def enumValues : TypeBody δ → List EnumValueDefinition
  | .enum _ values => itemsOf values
  | _ => []

def inputFields : TypeBody δ → List InputValueDefinition
  | .input _ fields => itemsOf fields
  | _ => []

end TypeBody

/-- The definitions of one kind, each with the number of its revision. -/
def located (pick : Definition → Option δ) (entries : List (Nat × Definition)) :
    List (Located δ) :=
  entries.filterMap fun entry => (pick entry.2).map (Located.mk entry.1)

theorem located_append (pick : Definition → Option δ) (entries rest : List (Nat × Definition)) :
    located pick (entries ++ rest) = located pick entries ++ located pick rest :=
  List.filterMap_append

theorem mem_located {pick : Definition → Option δ} {entries : List (Nat × Definition)}
    {d : Located δ} : d ∈ located pick entries ↔
      ∃ entry ∈ entries, ∃ value, pick entry.2 = some value ∧ ⟨entry.1, value⟩ = d := by
  simp only [located, List.mem_filterMap, Option.map_eq_some_iff]

/-! ## Members of a type -/

/-- What some definitions give to one type: the members of those that have its name, in turn. -/
def membersFor (name : τ → Option Text) (parts : τ → List α) (type : Text)
    (list : List (Located τ)) : List (Located α) :=
  (list.filter fun d => name d.value == some type).flatMap fun d =>
    (parts d.value).map (Located.mk d.revision)

theorem membersFor_append (name : τ → Option Text) (parts : τ → List α) (type : Text)
    (list rest : List (Located τ)) : membersFor name parts type (list ++ rest) =
      membersFor name parts type list ++ membersFor name parts type rest := by
  rw [membersFor, List.filter_append, List.flatMap_append]
  rfl

theorem membersFor_singleton (name : τ → Option Text) (parts : τ → List α) (type : Text)
    (d : Located τ) : membersFor name parts type [d] =
      if name d.value = some type then (parts d.value).map (Located.mk d.revision) else [] := by
  rw [membersFor, List.filter_singleton]
  by_cases own : name d.value = some type
  · simp [own]
  · simp [own, beq_false_of_ne own]

section

variable (name : α → Text) (parts : (δ : Type) → TypeBody δ → List α)

/-- The members that a type has in one layer: of its definitions or of its extensions. -/
def membersIn (entries : List (Nat × Definition)) (type : Text) : Layer → List (Located α)
  | .definition =>
    membersFor (fun d => textOf? d.name) (fun d => parts _ d.body) type
      (located Definition.type? entries)
  | .extension =>
    membersFor (fun d => textOf? d.name) (fun d => parts _ d.body) type
      (located Definition.typeExtension? entries)

/-- A table of members lists those of some definitions: all of a type, those of its definitions
first, and by name the part that has the name. -/
structure LayeredBindings.Lists (entries : List (Nat × Definition))
    (b : LayeredBindings (Located α)) : Prop where
  members : ∀ type, b.members type =
    membersIn parts entries type .definition ++ membersIn parts entries type .extension
  part : ∀ type n,
    b.membersByName type n = (b.members type).filter fun member => name member.value == n

/-- Binds the members of a body to a type, if it has a name. -/
def bindOwn (into : Layer) (revision : Nat) (type : Option Text) (members : List α)
    (b : LayeredBindings (Located α)) : LayeredBindings (Located α) :=
  match type with
  | none => b
  | some type => bindMembers into revision type name members b

/-- Binds what a definition has of some kind of members. -/
def bindPart (b : LayeredBindings (Located α)) (entry : Nat × Definition) :
    LayeredBindings (Located α) :=
  match entry.2 with
  | .type d => bindOwn name .definition entry.1 (textOf? d.name) (parts _ d.body) b
  | .typeExtension d => bindOwn name .extension entry.1 (textOf? d.name) (parts _ d.body) b
  | _ => b

end

namespace LayeredBindings

variable {name : α → Text} {b : LayeredBindings (Located α)}

theorem Coherent.bindOwn (h : b.Coherent fun member => name member.value) (into : Layer)
    (revision : Nat) (type : Option Text) (members : List α) :
    (bindOwn name into revision type members b).Coherent fun member => name member.value := by
  cases type with
  | none => exact h
  | some type => exact h.bindMembers into revision type members

theorem members_bindOwn (into : Layer) (revision : Nat) (type : Option Text) (members : List α)
    (l : Layer) (t : Text) : ((bindOwn name into revision type members b).layer l).members t =
      (b.layer l).members t ++
        if l = into ∧ type = some t then members.map (Located.mk revision) else [] := by
  cases type with
  | none => simp [GraphQL.bindOwn]
  | some type =>
    rw [GraphQL.bindOwn, members_bindMembers]
    simp only [Option.some.injEq, eq_comm (a := t)]

variable {parts : (δ : Type) → TypeBody δ → List α}

theorem Coherent.bindPart (h : b.Coherent fun member => name member.value)
    (entry : Nat × Definition) :
    (bindPart name parts b entry).Coherent fun member => name member.value := by
  obtain ⟨revision, d⟩ := entry
  cases d with
  | type d => exact h.bindOwn .definition revision _ _
  | typeExtension d => exact h.bindOwn .extension revision _ _
  | _ => exact h

theorem members_bindPart (entry : Nat × Definition) (l : Layer) (t : Text) :
    ((bindPart name parts b entry).layer l).members t =
      (b.layer l).members t ++ membersIn parts [entry] t l := by
  obtain ⟨revision, d⟩ := entry
  cases d with
  | type d =>
    rw [GraphQL.bindPart, members_bindOwn]
    cases l with
    | definition => simp [membersIn, located, Definition.type?, membersFor_singleton]
    | extension => simp [membersIn, located, Definition.typeExtension?, membersFor]
  | typeExtension d =>
    rw [GraphQL.bindPart, members_bindOwn]
    cases l with
    | definition => simp [membersIn, located, Definition.type?, membersFor]
    | extension => simp [membersIn, located, Definition.typeExtension?, membersFor_singleton]
  | _ => cases l <;> exact (List.append_nil _).symm

theorem membersIn_append (entries rest : List (Nat × Definition)) (t : Text) (l : Layer) :
    membersIn parts (entries ++ rest) t l =
      membersIn parts entries t l ++ membersIn parts rest t l := by
  cases l <;> simp only [membersIn, located_append, membersFor_append]

theorem members_bindParts (entries : List (Nat × Definition)) (b : LayeredBindings (Located α))
    (l : Layer) (t : Text) : ((entries.foldl (bindPart name parts) b).layer l).members t =
      (b.layer l).members t ++ membersIn parts entries t l := by
  induction entries generalizing b with
  | nil => cases l <;> exact (List.append_nil _).symm
  | cons entry entries ih =>
    rw [List.foldl_cons, ih, members_bindPart, List.append_assoc, ← membersIn_append,
      List.singleton_append]

theorem Coherent.bindParts (h : b.Coherent fun member => name member.value)
    (entries : List (Nat × Definition)) :
    (entries.foldl (GraphQL.bindPart name parts) b).Coherent fun member => name member.value := by
  induction entries generalizing b with
  | nil => exact h
  | cons entry entries ih => exact ih (h.bindPart entry)

/-- A table that the members of some definitions are bound in lists them. -/
theorem lists_bindParts (name : α → Text) (parts : (δ : Type) → TypeBody δ → List α)
    (entries : List (Nat × Definition)) :
    (entries.foldl (bindPart name parts) {}).Lists name parts entries where
  members type := by
    have all (l : Layer) : ((entries.foldl (bindPart name parts) {}).layer l).members type =
        membersIn parts entries type l :=
      (members_bindParts entries {} l type).trans (by cases l <;> rfl)
    exact congr (congrArg _ (all .definition)) (all .extension)
  part := (coherent_empty.bindParts entries).membersByName

end LayeredBindings

/-! ## Indexes, table by table -/

namespace Index

/-- The second index has all of the first and, in every table, what some definitions file there. -/
structure Filled (entries : List (Nat × Definition)) (i j : Index) : Prop where
  types : j.types =
    i.types.fileAll (fun d => textOf? d.value.name) (located Definition.type? entries)
  typeExtensions : j.typeExtensions =
    i.typeExtensions.fileAll (fun d => textOf? d.value.name)
      (located Definition.typeExtension? entries)
  directives : j.directives =
    i.directives.fileAll (fun d => textOf? d.value.name) (located Definition.directive? entries)
  namedOperations : j.namedOperations =
    i.namedOperations.fileAll (fun d => d.value.name.map Token.text)
      (located Definition.operation? entries)
  anonymousOperations : j.anonymousOperations = i.anonymousOperations ++
    (located Definition.operation? entries).filter fun d => d.value.name.isNone
  fragments : j.fragments =
    i.fragments.fileAll (fun d => textOf? d.value.name) (located Definition.fragment? entries)
  schemas : j.schemas = i.schemas ++ located Definition.schema? entries
  schemaExtensions : j.schemaExtensions =
    i.schemaExtensions ++ located Definition.schemaExtension? entries
  fields : j.fields = entries.foldl (bindPart (fun f => f.name.text) @TypeBody.fields) i.fields
  inputFields : j.inputFields =
    entries.foldl (bindPart (fun f => f.name.text) @TypeBody.inputFields) i.inputFields
  enumValues : j.enumValues =
    entries.foldl (bindPart (fun v => v.value.text) @TypeBody.enumValues) i.enumValues
  unionMembers : j.unionMembers =
    entries.foldl (bindPart (fun m => m.name.text) @TypeBody.unionMembers) i.unionMembers
  interfaces : j.interfaces =
    entries.foldl (bindPart (fun m => m.name.text) @TypeBody.interfaces) i.interfaces

variable {i j k : Index} {entries rest : List (Nat × Definition)}

theorem Filled.refl (i : Index) : Filled [] i i :=
  ⟨rfl, rfl, rfl, rfl, (List.append_nil _).symm, rfl, (List.append_nil _).symm,
    (List.append_nil _).symm, rfl, rfl, rfl, rfl, rfl⟩

theorem Filled.trans (h : Filled entries i j) (h' : Filled rest j k) :
    Filled (entries ++ rest) i k where
  types := by rw [h'.types, h.types, located_append, MultiMap.fileAll_append]
  typeExtensions := by
    rw [h'.typeExtensions, h.typeExtensions, located_append, MultiMap.fileAll_append]
  directives := by rw [h'.directives, h.directives, located_append, MultiMap.fileAll_append]
  namedOperations := by
    rw [h'.namedOperations, h.namedOperations, located_append, MultiMap.fileAll_append]
  anonymousOperations := by
    rw [h'.anonymousOperations, h.anonymousOperations, located_append, List.filter_append,
      List.append_assoc]
  fragments := by rw [h'.fragments, h.fragments, located_append, MultiMap.fileAll_append]
  schemas := by rw [h'.schemas, h.schemas, located_append, List.append_assoc]
  schemaExtensions := by
    rw [h'.schemaExtensions, h.schemaExtensions, located_append, List.append_assoc]
  fields := by rw [h'.fields, h.fields, List.foldl_append]
  inputFields := by rw [h'.inputFields, h.inputFields, List.foldl_append]
  enumValues := by rw [h'.enumValues, h.enumValues, List.foldl_append]
  unionMembers := by rw [h'.unionMembers, h.unionMembers, List.foldl_append]
  interfaces := by rw [h'.interfaces, h.interfaces, List.foldl_append]

/-- The members of a body are bound in the tables of members; none of the others changes. -/
theorem addMembers_eq (into : Layer) (revision : Nat) (type : Option Text) (body : TypeBody δ)
    (i : Index) : i.addMembers into revision type body =
      { i with
        fields := bindOwn (fun f => f.name.text) into revision type body.fields i.fields
        inputFields :=
          bindOwn (fun f => f.name.text) into revision type body.inputFields i.inputFields
        enumValues :=
          bindOwn (fun v => v.value.text) into revision type body.enumValues i.enumValues
        unionMembers :=
          bindOwn (fun m => m.name.text) into revision type body.unionMembers i.unionMembers
        interfaces :=
          bindOwn (fun m => m.name.text) into revision type body.interfaces i.interfaces
        implementations := (i.addMembers into revision type body).implementations } := by
  cases type with
  | none => rfl
  | some type => cases body <;> rfl

/-- A definition is filed in the tables of its kind. -/
theorem add_filled (i : Index) (revision : Nat) (d : Definition) :
    Filled [(revision, d)] i (i.add revision d) := by
  -- a table of another kind is as before, or has an empty list behind it
  have same {τ : Type} {list : List (Located τ)} : list = list ++ [] := (List.append_nil list).symm
  cases d with
  | operation d =>
    obtain ⟨type, name, vars, directives, set⟩ := d
    cases name <;> constructor <;> first | rfl | exact same
  | fragment d => constructor <;> first | rfl | exact same
  | schema d => constructor <;> first | rfl | exact same
  | schemaExtension d => constructor <;> first | rfl | exact same
  | directive d => constructor <;> first | rfl | exact same
  | type d =>
    rw [add, addMembers_eq]
    constructor <;> first | rfl | exact same
  | typeExtension d =>
    rw [add, addMembers_eq]
    constructor <;> first | rfl | exact same

theorem foldl_add_filled (entries : List (Nat × Definition)) (i : Index) :
    Filled entries i (entries.foldl (fun i entry => i.add entry.1 entry.2) i) := by
  induction entries generalizing i with
  | nil => exact .refl i
  | cons entry entries ih => exact (add_filled i entry.1 entry.2).trans (ih _)

/-- The index of some revisions has what their definitions file. -/
theorem build_filled (revisions : List Revision) :
    Filled (filed revisions) {} (build revisions) := by
  rw [build, addRevision_foldl]
  exact foldl_add_filled (filed revisions) {}

/-! ## Lookups -/

/-- Every lookup of an index gives what a list of definitions has of it. -/
structure Lists (entries : List (Nat × Definition)) (index : Index) : Prop where
  types :
    index.types.Lists (fun d => textOf? d.value.name) (located Definition.type? entries)
  typeExtensions : index.typeExtensions.Lists (fun d => textOf? d.value.name)
    (located Definition.typeExtension? entries)
  directives :
    index.directives.Lists (fun d => textOf? d.value.name) (located Definition.directive? entries)
  namedOperations : index.namedOperations.Lists (fun d => d.value.name.map Token.text)
    (located Definition.operation? entries)
  /-- Operations without a name stand apart -/
  anonymousOperations : index.anonymousOperations =
    (located Definition.operation? entries).filter fun d => d.value.name.isNone
  operations : index.operations =
    grouped (fun d => d.value.name.map Token.text) (located Definition.operation? entries) ++
      (located Definition.operation? entries).filter fun d => d.value.name.isNone
  allOperations : index.operations.Perm (located Definition.operation? entries)
  operationsByName : ∀ name, index.namedOperations.get name =
    index.operations.filter fun d => d.value.name.map Token.text == some name
  fragments :
    index.fragments.Lists (fun d => textOf? d.value.name) (located Definition.fragment? entries)
  schemas : index.schemas = located Definition.schema? entries
  schemaExtensions : index.schemaExtensions = located Definition.schemaExtension? entries
  fields : index.fields.Lists (fun f => f.name.text) @TypeBody.fields entries
  inputFields : index.inputFields.Lists (fun f => f.name.text) @TypeBody.inputFields entries
  enumValues : index.enumValues.Lists (fun v => v.value.text) @TypeBody.enumValues entries
  unionMembers : index.unionMembers.Lists (fun m => m.name.text) @TypeBody.unionMembers entries
  interfaces : index.interfaces.Lists (fun m => m.name.text) @TypeBody.interfaces entries

/-- An index that some definitions were filed in lists them. -/
theorem Filled.lists (h : Filled entries {} j) : j.Lists entries := by
  have named : j.namedOperations.Lists (fun d => d.value.name.map Token.text)
      (located Definition.operation? entries) := h.namedOperations ▸ MultiMap.lists_fileAll _ _
  have anonymous : j.anonymousOperations =
      (located Definition.operation? entries).filter fun d => d.value.name.isNone :=
    h.anonymousOperations.trans (List.nil_append _)
  have unnamed (name : Text) :
      (j.anonymousOperations.filter fun d => d.value.name.map Token.text == some name) = [] := by
    rw [anonymous, List.filter_filter, List.filter_eq_nil_iff]
    intro d _ both
    cases own : d.value.name <;> simp [own] at both
  exact {
    types := h.types ▸ MultiMap.lists_fileAll _ _
    typeExtensions := h.typeExtensions ▸ MultiMap.lists_fileAll _ _
    directives := h.directives ▸ MultiMap.lists_fileAll _ _
    namedOperations := named
    anonymousOperations := anonymous
    operations := by rw [Index.operations, named.values, anonymous]
    allOperations := by
      rw [Index.operations, anonymous]
      refine (named.complete.append_right _).trans ?_
      simpa only [Option.isSome_map, Option.not_isSome] using List.filter_append_perm
        (fun d : Located OperationDefinition => d.value.name.isSome)
        (located Definition.operation? entries)
    operationsByName := fun name => by
      rw [Index.operations, List.filter_append, ← named.part, unnamed name, List.append_nil]
    fragments := h.fragments ▸ MultiMap.lists_fileAll _ _
    schemas := h.schemas.trans (List.nil_append _)
    schemaExtensions := h.schemaExtensions.trans (List.nil_append _)
    fields := h.fields ▸ LayeredBindings.lists_bindParts _ _ _
    inputFields := h.inputFields ▸ LayeredBindings.lists_bindParts _ _ _
    enumValues := h.enumValues ▸ LayeredBindings.lists_bindParts _ _ _
    unionMembers := h.unionMembers ▸ LayeredBindings.lists_bindParts _ _ _
    interfaces := h.interfaces ▸ LayeredBindings.lists_bindParts _ _ _ }

end Index

/-- The lookups of a snapshot give what the documents that it is of have, document by document and
there in source order. -/
theorem Database.build_lists (revisions : List Revision) (reuse : Table Nat Inference) :
    (Database.build revisions reuse).index.Lists (Index.filed revisions) :=
  (Index.build_filled revisions).lists

end GraphQL
