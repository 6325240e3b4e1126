import GraphQL.Proofs.Document.Genuine

/-! # What nodes hold

`Node.constituents` lists what a node holds, told by the fields of its construct in the order of the
grammar: tokens, nodes, and slots that are filled or lack something. `Node.roleOf` says what one
node stands for in another.

* `Node.outline_eq_constituents`: the outline of a node shows these and nothing else,
* `Node.tokens_children`: its tokens are those of its children. -/

namespace GraphQL

set_option autoImplicit false

open Recovery (Slot Gap)

variable {α : Type}

/-- A token or a node that a node holds. -/
inductive Child where
  | token (token : Token)
  | node (node : Node)

/-- What a node holds in one of its fields. -/
inductive Constituent where
  | plain (child : Child)
  /-- A slot, and what it holds -/
  | filled (content : List Child)
  /-- A slot that lacks what it should hold -/
  | lacking (gap : Gap Expectation)

namespace Constituent

def token (t : Token) : Constituent := .plain (.token t)

def node (n : Node) : Constituent := .plain (.node n)

def optionalToken (t : Option Token) : List Constituent := t.toList.map token

def optionalNode (construct : α → Node) (a : Option α) : List Constituent :=
  a.toList.map fun a => node (construct a)

def nodes (construct : α → Node) (items : List α) : List Constituent :=
  items.map fun a => node (construct a)

def slot (content : α → List Child) : Required α → Constituent
  | .present a => .filled (content a)
  | .missing gap => .lacking gap

def tokenSlot : Required Token → Constituent := slot fun t => [.token t]

def nodeSlot (construct : α → Node) : Required α → Constituent :=
  slot fun a => [.node (construct a)]

/-- Items between delimiters, the closing one in a slot. -/
def delimited (construct : α → Node) (items : Delimited α) : List Constituent :=
  token items.opening :: (nodes construct items.items ++ [tokenSlot items.closing])

/-- Members in slots, with separators between them. -/
def members (construct : α → Node) (list : MemberList α) : List Constituent :=
  token list.intro :: (optionalToken list.leading ++ nodeSlot construct list.first ::
    list.rest.flatMap fun m => [token m.1, nodeSlot construct m.2])

def directives : Option Directives → List Constituent := optionalNode .directives

def description : Option Token → List Constituent := optionalNode .description

end Constituent

/-! ## Constructs -/

def NamedType.node (type : NamedType) : Node := .type (.nullable (.named type))

open Constituent

def FieldedBody.constituents (body : FieldedBody) : List Constituent :=
  optionalNode .interfaces body.interfaces ++ Constituent.directives body.directives ++
    optionalNode .fieldDefinitions body.fields

/-- What the body of a type holds, given what the directives of a scalar are. -/
def TypeBody.constituents {δ : Type} (scalar : δ → List Constituent) :
    TypeBody δ → List Constituent
  | .scalar directives => scalar directives
  | .object body => body.constituents
  | .interface body => body.constituents
  | .union directives members =>
    Constituent.directives directives ++ optionalNode .unionMembers members
  | .enum directives values =>
    Constituent.directives directives ++ optionalNode .enumValueDefinitions values
  | .input directives fields =>
    Constituent.directives directives ++ optionalNode .inputFields fields

def Value.constituents : Value → List Constituent
  | .var v => [token v.dollar, tokenSlot v.name]
  | .int t => [token t]
  | .float t => [token t]
  | .string t => [token t]
  | .boolean t _ => [token t]
  | .null t => [token t]
  | .enum t => [token t]
  | .list items => delimited .value items
  | .object fields => delimited .objectField fields

def ObjectField.constituents : ObjectField → List Constituent
  | .mk name colon value => [token name, tokenSlot colon, nodeSlot .value value]

def TypeRef.constituents : TypeRef → List Constituent
  | .nullable (.named type) => [token type.name]
  | .nullable (.list opening item closing) =>
    [token opening, nodeSlot .type item, tokenSlot closing]
  | .nonNull type bang => [node (.type (.nullable type)), token bang]

def Node.constituents : Node → List Constituent
  | .document d => nodes Definition.node d.definitions
  | .operation d => optionalNode .operationType d.type ++ optionalToken d.name ++
    optionalNode .variableDefinitions d.variableDefinitions ++
    Constituent.directives d.directives ++ [nodeSlot .selectionSet d.selectionSet]
  | .operationType t => [token t.keyword]
  | .selectionSet s => delimited Selection.node s
  | .field f => optionalNode .fieldAlias f.fieldAlias ++ tokenSlot f.name ::
    (optionalNode .arguments f.arguments ++ Constituent.directives f.directives ++
      optionalNode .selectionSet f.selectionSet)
  | .fieldAlias a => [token a.name, token a.colon]
  | .arguments a => delimited .argument a
  | .argument a => [token a.name, tokenSlot a.colon, nodeSlot .value a.value]
  | .spread s => token s.dots :: token s.name :: Constituent.directives s.directives
  | .inline f => token f.dots :: (optionalNode .typeCondition f.condition ++
    Constituent.directives f.directives ++ [nodeSlot .selectionSet f.selectionSet])
  | .fragment d => token d.keyword :: tokenSlot d.name :: nodeSlot .typeCondition d.condition ::
    (Constituent.directives d.directives ++ [nodeSlot .selectionSet d.selectionSet])
  | .typeCondition c => [token c.keyword, nodeSlot NamedType.node c.type]
  | .value v => v.constituents
  | .objectField f => f.constituents
  | .variableDefinitions d => delimited .variableDefinition d
  | .variableDefinition d => node (.value (.var d.var)) :: tokenSlot d.colon ::
    nodeSlot .type d.type ::
    (optionalNode .defaultValue d.default ++ Constituent.directives d.directives)
  | .defaultValue d => [token d.eq, nodeSlot .value d.value]
  | .type t => t.constituents
  | .directives d => nodes .directive d
  | .directive d => token d.sign :: tokenSlot d.name :: optionalNode .arguments d.arguments
  | .description t => [token t]
  | .schema d => Constituent.description d.description ++ token d.keyword ::
    (Constituent.directives d.directives ++ [nodeSlot .rootOperationTypes d.roots])
  | .schemaExtension d => token d.extend :: token d.keyword ::
    (Constituent.directives d.directives ++ optionalNode .rootOperationTypes d.roots)
  | .rootOperationTypes r => [token r.opening,
    slot (List.map fun root => .node (.rootOperationType root)) r.entries, tokenSlot r.closing]
  | .rootOperationType r =>
    [node (.operationType r.operation), tokenSlot r.colon, nodeSlot NamedType.node r.type]
  | .typeDefinition d => Constituent.description d.description ++ token d.keyword ::
    tokenSlot d.name :: d.body.constituents Constituent.directives
  | .typeExtension d => token d.extend :: token d.keyword :: tokenSlot d.name ::
    d.body.constituents fun directives => [nodeSlot .directives directives]
  | .interfaces i => members NamedType.node i
  | .fieldDefinitions d => delimited .fieldDefinition d
  | .fieldDefinition d => Constituent.description d.description ++ token d.name ::
    (optionalNode .argumentDefinitions d.arguments ++ tokenSlot d.colon ::
      nodeSlot .type d.type :: Constituent.directives d.directives)
  | .argumentDefinitions d => delimited .inputValueDefinition d
  | .inputValueDefinition d => Constituent.description d.description ++ token d.name ::
    tokenSlot d.colon :: nodeSlot .type d.type ::
    (optionalNode .defaultValue d.default ++ Constituent.directives d.directives)
  | .unionMembers m => members NamedType.node m
  | .enumValueDefinitions d => delimited .enumValueDefinition d
  | .enumValueDefinition d => Constituent.description d.description ++
    node (.value (.enum d.value)) :: Constituent.directives d.directives
  | .inputFields f => delimited .inputValueDefinition f
  | .directiveDefinition d => Constituent.description d.description ++ token d.keyword ::
    tokenSlot d.sign :: tokenSlot d.name :: (optionalNode .argumentDefinitions d.arguments ++
      optionalToken d.repeatable ++ [nodeSlot .directiveLocations d.locations])
  | .directiveLocations l => members .directiveLocation l
  | .directiveLocation l => [token l.name]

/-- What a node stands for in another one. A document holds definitions, and a selection set
selections. Values and types stand in slots and lists of their class, but for the variable that is
defined, the value that an enum defines, and types that must be named. -/
def Node.roleOf (parent child : Node) : Role :=
  match parent, child with
  | .document _, _ => .definition
  | .selectionSet _, _ => .selection
  | .variableDefinition _, .value _ => .plain
  | .enumValueDefinition _, .value _ => .plain
  | _, .value _ => .value
  | .typeCondition _, .type _ => .plain
  | .interfaces _, .type _ => .plain
  | .unionMembers _, .type _ => .plain
  | .rootOperationType _, .type _ => .plain
  | _, .type _ => .type
  | _, _ => .plain

/-! ## Outlines of constituents -/

/-- How a node shows its child. -/
def Child.outline (parent : Node) : Child → Outline
  | .token t => .token t
  | .node n => .node (parent.roleOf n) n n.parts

namespace Constituent

def outline (parent : Node) : Constituent → Outline
  | .plain child => child.outline parent
  | .filled content => .present (content.map (Child.outline parent))
  | .lacking gap => .missing gap

variable {parent : Node}

@[simp] theorem outline_token (t : Token) : outline parent (token t) = .token t := rfl

theorem outline_node (n : Node) :
    outline parent (node n) = .node (parent.roleOf n) n n.parts := rfl

@[simp] theorem outlines_optionalToken (t : Option Token) :
    (optionalToken t).map (outline parent) = Outline.optionalToken t := by
  cases t <;> rfl

@[simp] theorem outlines_optionalNode (construct : α → Node) (a : Option α) :
    (optionalNode construct a).map (outline parent) =
      Outline.optional (fun a => outline parent (node (construct a))) a := by
  cases a <;> rfl

@[simp] theorem outlines_nodes (construct : α → Node) (items : List α) :
    (nodes construct items).map (outline parent) =
      items.map fun a => outline parent (node (construct a)) := by
  rw [nodes, List.map_map]
  rfl

theorem outline_slot (content : α → List Child) (a : Required α) :
    outline parent (slot content a) =
      Outline.slot (fun a => (content a).map (Child.outline parent)) a := by
  cases a <;> rfl

@[simp] theorem outline_tokenSlot (t : Required Token) :
    outline parent (tokenSlot t) = Outline.tokenSlot t := outline_slot _ t

@[simp] theorem outline_nodeSlot (construct : α → Node) (a : Required α) :
    outline parent (nodeSlot construct a) =
      Outline.single (fun a => outline parent (node (construct a))) a := outline_slot _ a

@[simp] theorem outlines_delimited (construct : α → Node) (items : Delimited α) :
    (delimited construct items).map (outline parent) =
      Outline.delimited (fun a => outline parent (node (construct a))) items := by
  simp [delimited, Outline.delimited]

@[simp] theorem outlines_members (construct : α → Node) (list : MemberList α) :
    (members construct list).map (outline parent) =
      Outline.members (fun a => outline parent (node (construct a))) list := by
  simp [members, Outline.members, List.map_flatMap]

/-! What is shown tells the constituent. -/

theorem of_outline_token {c : Constituent} {t : Token} (h : outline parent c = .token t) :
    c = token t := by
  rcases c with (u | n) | content | gap <;> simp only [outline, Child.outline] at h
  · cases h
    rfl
  all_goals cases h

theorem of_outline_missing {c : Constituent} {gap : Gap Expectation}
    (h : outline parent c = .missing gap) : c = .lacking gap := by
  rcases c with (u | n) | content | gap' <;> simp only [outline, Child.outline] at h
  case lacking => rw [Outline.missing.inj h]
  all_goals cases h

theorem of_outline_node {c : Constituent} {role : Role} {n : Node} {parts : List Outline}
    (h : outline parent c = .node role n parts) :
    c = node n ∧ parent.roleOf n = role ∧ n.parts = parts := by
  rcases c with (u | m) | content | gap <;> simp only [outline, Child.outline] at h
  case plain.node =>
    obtain ⟨role, rfl, own⟩ := Outline.node.inj h
    exact ⟨rfl, role, own⟩
  all_goals cases h

theorem of_outline_present {c : Constituent} {content : List Outline}
    (h : outline parent c = .present content) :
    ∃ children : List Child, c = .filled children ∧
      (children.map Constituent.plain).map (outline parent) = content := by
  rcases c with (u | n) | children | gap <;> simp only [outline, Child.outline] at h
  case filled => exact ⟨children, rfl, List.map_map.trans (Outline.present.inj h)⟩
  all_goals cases h

end Constituent

theorem Selection.outline_eq (s : Selection) :
    s.outline = .node .selection s.node s.node.parts := by
  cases s with
  | field f => cases f; rfl
  | spread s => rfl
  | inline f => cases f; rfl

theorem TypeRef.outline_named (role : Role) (type : NamedType) :
    (TypeRef.nullable (.named type)).outline role = type.outline role := rfl

attribute [local simp] Node.outline Node.constituents Constituent.directives
  Constituent.description outline_node Node.roleOf

-- What is shown of a child folds back into the outline of the child.
attribute [local simp ←] TypeRef.outline_eq Value.outline_eq Selection.outline_eq Node.outline_eq

/-- A node shows just what it holds. -/
theorem Node.outline_eq_constituents (n : Node) :
    n.outline = .node .plain n (n.constituents.map (Constituent.outline n)) := by
  cases n with
  | document d => simp [Document.outline, Definition.outline_eq]
  | operation d => simp [OperationDefinition.outline]
  | operationType t => simp [OperationType.outline]
  | selectionSet s => simp [SelectionSet.outline_eq]
  | field f => simp [Field.outline_eq]
  | fieldAlias a => simp [Alias.outline]
  | arguments a => simp [Arguments.outline]
  | argument a => simp [Argument.outline]
  | spread s => simp [FragmentSpread.outline]
  | inline f => simp [InlineFragment.outline_eq]
  | fragment d => simp [FragmentDefinition.outline]
  | typeCondition c => simp [TypeCondition.outline, NamedType.node, TypeRef.outline_named]
  | value v =>
    cases v with
    | list items => simp [Value.outline_list, Value.constituents]
    | object fields => simp [Value.outline_object, Value.constituents]
    | _ => simp [Value.outline, Value.constituents]
  | objectField f => cases f with | mk => simp [ObjectField.outline_mk, ObjectField.constituents]
  | variableDefinitions d => simp [VariableDefinition.listOutline]
  | variableDefinition d => simp [VariableDefinition.outline]
  | defaultValue d => simp [DefaultValue.outline]
  | type t =>
    cases t with
    | nullable t =>
      cases t with
      | named t => simp [TypeRef.outline_named, NamedType.outline, TypeRef.constituents]
      | list => simp [TypeRef.outline, NullableType.outline_list, TypeRef.constituents]
    | nonNull => simp [TypeRef.outline, TypeRef.constituents]
  | directives d => simp [Directives.outline]
  | directive d => simp [Directive.outline]
  | description t => simp [descriptionOutline]
  | schema d => simp [SchemaDefinition.outline]
  | schemaExtension d => simp [SchemaExtension.outline]
  | rootOperationTypes r =>
    simp [RootOperationTypes.outline, outline_slot, Child.outline, Function.comp_def]
  | rootOperationType r =>
    simp [RootOperationType.outline, NamedType.node, TypeRef.outline_named]
  | typeDefinition d =>
    obtain ⟨description, keyword, name, body⟩ := d
    cases body <;> simp [TypeDefinition.outline, TypeBody.outlines, TypeBody.constituents,
      FieldedBody.outlines, FieldedBody.constituents]
  | typeExtension d =>
    obtain ⟨extend, keyword, name, body⟩ := d
    cases body <;> simp [TypeExtension.outline, TypeBody.outlines, TypeBody.constituents,
      FieldedBody.outlines, FieldedBody.constituents]
  | interfaces i => simp [interfacesOutline, NamedType.node, TypeRef.outline_named]
  | fieldDefinitions d => simp [FieldDefinition.listOutline]
  | fieldDefinition d => simp [FieldDefinition.outline]
  | argumentDefinitions d => simp [InputValueDefinition.argumentsOutline]
  | inputValueDefinition d => simp [InputValueDefinition.outline]
  | unionMembers m => simp [unionMembersOutline, NamedType.node, TypeRef.outline_named]
  | enumValueDefinitions d => simp [EnumValueDefinition.listOutline]
  | enumValueDefinition d => simp [EnumValueDefinition.outline]
  | inputFields f => simp [InputValueDefinition.fieldsOutline]
  | directiveDefinition d => simp [DirectiveDefinition.outline]
  | directiveLocations l => simp [DirectiveLocation.listOutline]
  | directiveLocation l => simp [DirectiveLocation.outline]

theorem Node.parts_eq_constituents (n : Node) :
    n.parts = n.constituents.map (Constituent.outline n) := Node.parts_eq n.outline_eq_constituents

/-! ## Children -/

def Child.tokens : Child → List Token
  | .token t => [t]
  | .node n => n.outline.tokens

/-- What a constituent holds; a slot that lacks something holds nothing. -/
def Constituent.children : Constituent → List Child
  | .plain child => [child]
  | .filled content => content
  | .lacking _ => []

/-- What a node holds, in slots or not. -/
def Node.children (n : Node) : List Child := n.constituents.flatMap Constituent.children

theorem Child.tokens_outline (parent : Node) (c : Child) : (c.outline parent).tokens = c.tokens := by
  cases c with
  | token t => exact Outline.tokens_token t
  | node n => rw [Child.outline, Outline.tokens_node, Child.tokens, Node.tokens_outline]

theorem Constituent.tokens_outline (parent : Node) (c : Constituent) :
    (c.outline parent).tokens = c.children.flatMap Child.tokens := by
  cases c with
  | plain child => rw [Constituent.outline, Child.tokens_outline, children, List.flatMap_singleton]
  | filled content =>
    rw [Constituent.outline, Outline.tokens, Outline.tokensOf_map, children]
    simp only [Child.tokens_outline]
  | lacking gap => rw [Constituent.outline, Outline.tokens, children, List.flatMap_nil]

/-- The tokens of a node are those of its children. -/
theorem Node.tokens_children (n : Node) : n.outline.tokens = n.children.flatMap Child.tokens := by
  rw [n.tokens_outline, n.parts_eq_constituents, Outline.tokensOf_map, Node.children,
    List.flatMap_assoc]
  simp only [Constituent.tokens_outline]

end GraphQL
