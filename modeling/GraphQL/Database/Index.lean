import GraphQL.Database.Located
import GraphQL.Dependency
import GraphQL.MultiMap.Bindings

/-! # The index

An `Index` files the definitions of some revisions under their names, and the members of types under
their types. The first entry of a name is the one in effect. `Index.build` files whole revisions,
`Index.add` one definition; the rest are questions that an index answers. -/

namespace GraphQL

set_option autoImplicit false

variable {α δ : Type}

/-- Definitions by name, in the order of their revisions and there in source order. -/
structure Index where
  types : MultiMap Text (Located TypeDefinition) := {}
  typeExtensions : MultiMap Text (Located TypeExtension) := {}
  directives : MultiMap Text (Located DirectiveDefinition) := {}
  namedOperations : MultiMap Text (Located OperationDefinition) := {}
  anonymousOperations : List (Located OperationDefinition) := []
  fragments : MultiMap Text (Located FragmentDefinition) := {}
  schemas : List (Located SchemaDefinition) := []
  schemaExtensions : List (Located SchemaExtension) := []
  fields : LayeredBindings (Located FieldDefinition) := {}
  inputFields : LayeredBindings (Located InputValueDefinition) := {}
  enumValues : LayeredBindings (Located EnumValueDefinition) := {}
  unionMembers : LayeredBindings (Located NamedType) := {}
  interfaces : LayeredBindings (Located NamedType) := {}
  implementations : MultiMap Text Text := {}

/-! ## Filing definitions -/

/-- Files something under a name that may be lacking. -/
def fileUnder (name : Option Text) (a : α) (m : MultiMap Text α) : MultiMap Text α :=
  match name with
  | none => m
  | some name => m.insert name a

def bindMembers (layer : Layer) (revision : Nat) (type : Text) (name : α → Text)
    (members : List α) (b : LayeredBindings (Located α)) : LayeredBindings (Located α) :=
  members.foldl (fun b member => b.insert layer type (name member) ⟨revision, member⟩) b

/-- The items between delimiters, none where there are no delimiters. -/
def itemsOf (items : Option (Delimited α)) : List α := (items.map Delimited.items).getD []

/-- The members of a list that are there, none where there is no list. -/
def membersOf (members : Option (MemberList α)) : List α :=
  (members.map MemberList.present).getD []

namespace Index

def addFields (layer : Layer) (revision : Nat) (type : Text) (body : FieldedBody)
    (index : Index) : Index :=
  let interfaces := membersOf body.interfaces
  { index with
    interfaces := bindMembers layer revision type (fun i => i.name.text) interfaces index.interfaces
    implementations := interfaces.foldl (fun m i => m.insert i.name.text type) index.implementations
    fields :=
      bindMembers layer revision type (fun f => f.name.text) (itemsOf body.fields) index.fields }

def addBody (layer : Layer) (revision : Nat) (type : Text) (body : TypeBody δ) (index : Index) :
    Index :=
  match body with
  | .scalar _ => index
  | .object body => index.addFields layer revision type body
  | .interface body => index.addFields layer revision type body
  | .union _ members =>
    { index with
      unionMembers := bindMembers layer revision type (fun m => m.name.text) (membersOf members)
        index.unionMembers }
  | .enum _ values =>
    { index with
      enumValues := bindMembers layer revision type (fun v => v.value.text) (itemsOf values)
        index.enumValues }
  | .input _ fields =>
    { index with
      inputFields := bindMembers layer revision type (fun f => f.name.text) (itemsOf fields)
        index.inputFields }

def addMembers (layer : Layer) (revision : Nat) (name : Option Text) (body : TypeBody δ)
    (index : Index) : Index :=
  match name with
  | none => index
  | some type => index.addBody layer revision type body

def add (index : Index) (revision : Nat) (definition : Definition) : Index :=
  let name := definition.name?
  match definition with
  | .operation d =>
    match name with
    | none =>
      { index with anonymousOperations := index.anonymousOperations ++ [⟨revision, d⟩] }
    | some _ => { index with namedOperations := fileUnder name ⟨revision, d⟩ index.namedOperations }
  | .fragment d => { index with fragments := fileUnder name ⟨revision, d⟩ index.fragments }
  | .schema d => { index with schemas := index.schemas ++ [⟨revision, d⟩] }
  | .schemaExtension d =>
    { index with schemaExtensions := index.schemaExtensions ++ [⟨revision, d⟩] }
  | .directive d => { index with directives := fileUnder name ⟨revision, d⟩ index.directives }
  | .type d =>
    { index with types := fileUnder name ⟨revision, d⟩ index.types }.addMembers .definition
      revision name d.body
  | .typeExtension d =>
    { index with
      typeExtensions := fileUnder name ⟨revision, d⟩ index.typeExtensions }.addMembers .extension
      revision name d.body

def addRevision (index : Index) (revision : Revision) : Index :=
  revision.tree.definitions.foldl (fun index d => index.add revision.id d) index

/-- The index of some revisions. A revision that is listed twice is filed twice. -/
def build (revisions : List Revision) : Index := revisions.foldl addRevision {}

/-! ## Operations, schemas and root types -/

/-- Every operation, those with a name first. -/
def operations (index : Index) : List (Located OperationDefinition) :=
  index.namedOperations.values ++ index.anonymousOperations

/-- The directives of the schema definitions, then those of their extensions. -/
def schemaDirectives (index : Index) : List (Located Directive) :=
  let located (revision : Nat) (directives : Option Directives) : List (Located Directive) :=
    (directives.getD []).map fun d => ⟨revision, d⟩
  (index.schemas.flatMap fun s => located s.revision s.value.directives) ++
    index.schemaExtensions.flatMap fun s => located s.revision s.value.directives

def rootEntries (roots : Option RootOperationTypes) : List RootOperationType :=
  (roots.bind fun roots => roots.entries.value?).getD []

/-- The entries of all schema definitions, then those of all their extensions. -/
def rootTypes (index : Index) : List RootOperationType :=
  (index.schemas.flatMap fun s => rootEntries s.value.roots.value?) ++
    index.schemaExtensions.flatMap fun s => rootEntries s.value.roots

/-- The root type of a kind of operations: the first entry that names one. Without any schema it is
the type of the conventional name. -/
def rootType? (index : Index) (kind : OperationKind) : Option Text :=
  if index.schemas.isEmpty && index.schemaExtensions.isEmpty then some kind.typeName
  else index.rootTypes.findSome? fun entry =>
    if entry.operation.kind = kind then entry.type.value?.map fun type => type.name.text else none

/-! ## Types -/

/-- The kind of the first definition of a type, or else of its first extension. -/
def typeKind? (index : Index) (type : Text) : Option TypeKind :=
  ((index.types.first? type).map fun d => d.value.body.kind).or
    ((index.typeExtensions.first? type).map fun d => d.value.body.kind)

def typeExists (index : Index) (type : Text) : Bool := index.types.contains type

def isObjectType (index : Index) (type : Text) : Bool := index.typeKind? type == some .object

/-- Scalars, enums and input objects. -/
def isInputType (index : Index) (type : Text) : Bool :=
  match index.typeKind? type with
  | some .scalar | some .enum | some .input => true
  | _ => false

/-- Every kind but input objects. -/
def isOutputType (index : Index) (type : Text) : Bool :=
  match index.typeKind? type with
  | none | some .input => false
  | some _ => true

/-- Objects, interfaces and unions. -/
def isCompositeType (index : Index) (type : Text) : Bool :=
  match index.typeKind? type with
  | some .object | some .interface | some .union => true
  | _ => false

def isUnionMember (index : Index) (type union : Text) : Bool :=
  !(index.unionMembers.membersByName union type).isEmpty

def implementsInterface (index : Index) (type interface : Text) : Bool :=
  !(index.interfaces.membersByName type interface).isEmpty

def implementationsOf (index : Index) (interface : Text) : List Text :=
  index.implementations.get interface

/-- The object types that a value of a type can be of. -/
def possibleTypes (index : Index) (type : Text) : List Text :=
  match index.typeKind? type with
  | some .object => [type]
  | some .union => ((index.unionMembers.members type).map fun m => m.value.name.text).eraseDups
  | some .interface => ((index.implementationsOf type).filter index.isObjectType).eraseDups
  | _ => []

end Index

end GraphQL
