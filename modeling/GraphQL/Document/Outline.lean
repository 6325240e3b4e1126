import GraphQL.Document.Node

/-! # Outlines

The `Outline` of a node is the tree of its parts in source order: tokens, slots that are present or
missing, and nodes. It is defined once for every kind of node, and everything that walks over
documents is a function of it.

A node has a *role* where it stands for any member of its class: a definition of a document, a
selection of a selection set, a value in a value slot or list, a type in a type slot or under a
bang. -/

namespace GraphQL

set_option autoImplicit false

open Recovery (Slot Gap)

variable {α : Type}

/-- What a node stands for where it stands. -/
inductive Role where
  | plain
  | definition
  | selection
  | value
  | type
deriving DecidableEq, Repr

/-- A node and its parts, in source order. -/
inductive Outline where
  | token (token : Token)
  | missing (gap : Gap Expectation)
  | present (content : List Outline)
  | node (role : Role) (node : Node) (parts : List Outline)

namespace Outline

/-- A part that may be lacking. -/
def optional (outline : α → Outline) : Option α → List Outline
  | none => []
  | some a => [outline a]

def optionalToken : Option Token → List Outline := optional .token

def slot (content : α → List Outline) : Required α → Outline
  | .present a => .present (content a)
  | .missing gap => .missing gap

/-- A required part that is one token or node. -/
def single (outline : α → Outline) : Required α → Outline := slot fun a => [outline a]

def tokenSlot : Required Token → Outline := single .token

def delimited (outline : α → Outline) (items : Delimited α) : List Outline :=
  .token items.opening :: (items.items.map outline ++ [tokenSlot items.closing])

def members (outline : α → Outline) (list : MemberList α) : List Outline :=
  .token list.intro :: (optionalToken list.leading ++ single outline list.first ::
    list.rest.flatMap fun (separator, member) => [.token separator, single outline member])

end Outline

open Outline

/-! ## Types -/

def NamedType.outline (role : Role) (type : NamedType) : Outline :=
  .node role (.type (.nullable (.named type))) [.token type.name]

mutual
def NullableType.outline (role : Role) : NullableType → Outline
  | .named type => type.outline role
  | .list opening item closing =>
    .node role (.type (.nullable (.list opening item closing))) [.token opening,
      match item with
      | .present item => .present [item.outline .type]
      | .missing gap => .missing gap,
      tokenSlot closing]
def TypeRef.outline (role : Role) : TypeRef → Outline
  | .nullable type => type.outline role
  | .nonNull type bang =>
    .node role (.type (.nonNull type bang)) [type.outline .type, .token bang]
end

/-! ## Values -/

mutual
def Value.outline (role : Role) : Value → Outline
  | .var v => .node role (.value (.var v)) [.token v.dollar, tokenSlot v.name]
  | .int t => .node role (.value (.int t)) [.token t]
  | .float t => .node role (.value (.float t)) [.token t]
  | .string t => .node role (.value (.string t)) [.token t]
  | .boolean t value => .node role (.value (.boolean t value)) [.token t]
  | .null t => .node role (.value (.null t)) [.token t]
  | .enum t => .node role (.value (.enum t)) [.token t]
  | .list ⟨opening, items, closing⟩ =>
    .node role (.value (.list ⟨opening, items, closing⟩))
      (.token opening :: (Value.outlines items ++ [tokenSlot closing]))
  | .object ⟨opening, fields, closing⟩ =>
    .node role (.value (.object ⟨opening, fields, closing⟩))
      (.token opening :: (ObjectField.outlines fields ++ [tokenSlot closing]))
def Value.outlines : List Value → List Outline
  | [] => []
  | v :: rest => v.outline .value :: Value.outlines rest
def ObjectField.outline : ObjectField → Outline
  | .mk name colon value =>
    .node .plain (.objectField (.mk name colon value)) [.token name, tokenSlot colon,
      match value with
      | .present value => .present [value.outline .value]
      | .missing gap => .missing gap]
def ObjectField.outlines : List ObjectField → List Outline
  | [] => []
  | field :: rest => field.outline :: ObjectField.outlines rest
end

def DefaultValue.outline (default : DefaultValue) : Outline :=
  .node .plain (.defaultValue default)
    [.token default.eq, single (Value.outline .value) default.value]

/-! ## Arguments and directives -/

def Argument.outline (argument : Argument) : Outline :=
  .node .plain (.argument argument) [.token argument.name, tokenSlot argument.colon,
    single (Value.outline .value) argument.value]

def Arguments.outline (arguments : Arguments) : Outline :=
  .node .plain (.arguments arguments) (delimited Argument.outline arguments)

def Directive.outline (directive : Directive) : Outline :=
  .node .plain (.directive directive) (.token directive.sign :: tokenSlot directive.name ::
    optional Arguments.outline directive.arguments)

def Directives.outline (directives : Directives) : Outline :=
  .node .plain (.directives directives) (directives.map Directive.outline)

/-! ## Selections -/

def Alias.outline (fieldAlias : Alias) : Outline :=
  .node .plain (.fieldAlias fieldAlias) [.token fieldAlias.name, .token fieldAlias.colon]

def TypeCondition.outline (condition : TypeCondition) : Outline :=
  .node .plain (.typeCondition condition)
    [.token condition.keyword, single (NamedType.outline .plain) condition.type]

def FragmentSpread.outline (role : Role) (spread : FragmentSpread) : Outline :=
  .node role (.spread spread) (.token spread.dots :: .token spread.name ::
    optional Directives.outline spread.directives)

mutual
def Selection.outline : Selection → Outline
  | .field f => f.outline .selection
  | .spread s => s.outline .selection
  | .inline f => f.outline .selection
def Selection.outlines : List Selection → List Outline
  | [] => []
  | selection :: rest => selection.outline :: Selection.outlines rest
def Field.outline (role : Role) : Field (Delimited Selection) → Outline
  | ⟨fieldAlias, name, arguments, directives, set⟩ =>
    .node role (.field ⟨fieldAlias, name, arguments, directives, set⟩)
      (optional Alias.outline fieldAlias ++ tokenSlot name :: (optional Arguments.outline arguments ++
        (optional Directives.outline directives ++
          match set with
          | none => []
          | some set => [SelectionSet.outline set])))
def InlineFragment.outline (role : Role) : InlineFragment (Delimited Selection) → Outline
  | ⟨dots, condition, directives, set⟩ =>
    .node role (.inline ⟨dots, condition, directives, set⟩)
      (.token dots :: (optional TypeCondition.outline condition ++
        (optional Directives.outline directives ++
          [match set with
          | .present set => .present [SelectionSet.outline set]
          | .missing gap => .missing gap])))
def SelectionSet.outline : Delimited Selection → Outline
  | ⟨opening, selections, closing⟩ =>
    .node .plain (.selectionSet ⟨opening, selections, closing⟩)
      (.token opening :: (Selection.outlines selections ++ [tokenSlot closing]))
end

/-! ## Operations and fragments -/

def OperationType.outline (type : OperationType) : Outline :=
  .node .plain (.operationType type) [.token type.keyword]

def VariableDefinition.outline (definition : VariableDefinition) : Outline :=
  .node .plain (.variableDefinition definition) (Value.outline .plain (.var definition.var) ::
    tokenSlot definition.colon :: single (TypeRef.outline .type) definition.type ::
    (optional DefaultValue.outline definition.default ++
      optional Directives.outline definition.directives))

def VariableDefinition.listOutline (definitions : Delimited VariableDefinition) : Outline :=
  .node .plain (.variableDefinitions definitions)
    (delimited VariableDefinition.outline definitions)

def OperationDefinition.outline (role : Role) (definition : OperationDefinition) : Outline :=
  .node role (.operation definition) (optional OperationType.outline definition.type ++
    (optionalToken definition.name ++
      (optional VariableDefinition.listOutline definition.variableDefinitions ++
        (optional Directives.outline definition.directives ++
          [single SelectionSet.outline definition.selectionSet]))))

def FragmentDefinition.outline (role : Role) (definition : FragmentDefinition) : Outline :=
  .node role (.fragment definition) (.token definition.keyword :: tokenSlot definition.name ::
    single TypeCondition.outline definition.condition ::
    (optional Directives.outline definition.directives ++
      [single SelectionSet.outline definition.selectionSet]))

/-! ## Parts of the type system -/

def descriptionOutline (token : Token) : Outline := .node .plain (.description token) [.token token]

def InputValueDefinition.outline (definition : InputValueDefinition) : Outline :=
  .node .plain (.inputValueDefinition definition)
    (optional descriptionOutline definition.description ++ .token definition.name ::
      tokenSlot definition.colon :: single (TypeRef.outline .type) definition.type ::
      (optional DefaultValue.outline definition.default ++
        optional Directives.outline definition.directives))

def InputValueDefinition.argumentsOutline (definitions : Delimited InputValueDefinition) :
    Outline :=
  .node .plain (.argumentDefinitions definitions)
    (delimited InputValueDefinition.outline definitions)

def InputValueDefinition.fieldsOutline (definitions : Delimited InputValueDefinition) : Outline :=
  .node .plain (.inputFields definitions) (delimited InputValueDefinition.outline definitions)

def FieldDefinition.outline (definition : FieldDefinition) : Outline :=
  .node .plain (.fieldDefinition definition)
    (optional descriptionOutline definition.description ++ .token definition.name ::
      (optional InputValueDefinition.argumentsOutline definition.arguments ++
        tokenSlot definition.colon :: single (TypeRef.outline .type) definition.type ::
        optional Directives.outline definition.directives))

def FieldDefinition.listOutline (definitions : Delimited FieldDefinition) : Outline :=
  .node .plain (.fieldDefinitions definitions) (delimited FieldDefinition.outline definitions)

def EnumValueDefinition.outline (definition : EnumValueDefinition) : Outline :=
  .node .plain (.enumValueDefinition definition)
    (optional descriptionOutline definition.description ++
      Value.outline .plain (.enum definition.value) ::
      optional Directives.outline definition.directives)

def EnumValueDefinition.listOutline (definitions : Delimited EnumValueDefinition) : Outline :=
  .node .plain (.enumValueDefinitions definitions)
    (delimited EnumValueDefinition.outline definitions)

def interfacesOutline (interfaces : MemberList NamedType) : Outline :=
  .node .plain (.interfaces interfaces) (members (NamedType.outline .plain) interfaces)

def unionMembersOutline (list : MemberList NamedType) : Outline :=
  .node .plain (.unionMembers list) (members (NamedType.outline .plain) list)

def FieldedBody.outlines (body : FieldedBody) : List Outline :=
  optional interfacesOutline body.interfaces ++ (optional Directives.outline body.directives ++
    optional FieldDefinition.listOutline body.fields)

/-- The parts of a body, given those of the directives of a scalar. -/
def TypeBody.outlines {δ : Type} (scalar : δ → List Outline) : TypeBody δ → List Outline
  | .scalar directives => scalar directives
  | .object body => body.outlines
  | .interface body => body.outlines
  | .union directives members =>
    optional Directives.outline directives ++ optional unionMembersOutline members
  | .enum directives values =>
    optional Directives.outline directives ++ optional EnumValueDefinition.listOutline values
  | .input directives fields =>
    optional Directives.outline directives ++ optional InputValueDefinition.fieldsOutline fields

/-! ## The type system -/

def TypeDefinition.outline (role : Role) (definition : TypeDefinition) : Outline :=
  .node role (.typeDefinition definition)
    (optional descriptionOutline definition.description ++ .token definition.keyword ::
      tokenSlot definition.name :: definition.body.outlines (optional Directives.outline))

def TypeExtension.outline (role : Role) (definition : TypeExtension) : Outline :=
  .node role (.typeExtension definition) (.token definition.extend :: .token definition.keyword ::
    tokenSlot definition.name ::
    definition.body.outlines fun directives => [single Directives.outline directives])

def RootOperationType.outline (root : RootOperationType) : Outline :=
  .node .plain (.rootOperationType root) [root.operation.outline, tokenSlot root.colon,
    single (NamedType.outline .plain) root.type]

def RootOperationTypes.outline (roots : RootOperationTypes) : Outline :=
  .node .plain (.rootOperationTypes roots) [.token roots.opening,
    slot (List.map RootOperationType.outline) roots.entries, tokenSlot roots.closing]

def SchemaDefinition.outline (role : Role) (definition : SchemaDefinition) : Outline :=
  .node role (.schema definition) (optional descriptionOutline definition.description ++
    .token definition.keyword :: (optional Directives.outline definition.directives ++
      [single RootOperationTypes.outline definition.roots]))

def SchemaExtension.outline (role : Role) (definition : SchemaExtension) : Outline :=
  .node role (.schemaExtension definition) (.token definition.extend :: .token definition.keyword ::
    (optional Directives.outline definition.directives ++
      optional RootOperationTypes.outline definition.roots))

def DirectiveLocation.outline (location : DirectiveLocation) : Outline :=
  .node .plain (.directiveLocation location) [.token location.name]

def DirectiveLocation.listOutline (locations : MemberList DirectiveLocation) : Outline :=
  .node .plain (.directiveLocations locations) (members DirectiveLocation.outline locations)

def DirectiveDefinition.outline (role : Role) (definition : DirectiveDefinition) : Outline :=
  .node role (.directiveDefinition definition)
    (optional descriptionOutline definition.description ++ .token definition.keyword ::
      tokenSlot definition.sign :: tokenSlot definition.name ::
      (optional InputValueDefinition.argumentsOutline definition.arguments ++
        (optionalToken definition.repeatable ++
          [single DirectiveLocation.listOutline definition.locations])))

/-! ## Documents -/

def Definition.outline (role : Role) : Definition → Outline
  | .operation d => d.outline role
  | .fragment d => d.outline role
  | .schema d => d.outline role
  | .schemaExtension d => d.outline role
  | .type d => d.outline role
  | .typeExtension d => d.outline role
  | .directive d => d.outline role

def Document.outline (document : Document) : Outline :=
  .node .plain (.document document) (document.definitions.map (Definition.outline .definition))

/-- The outline of any node, in no role. -/
def Node.outline : Node → Outline
  | .document d => d.outline
  | .operation d => d.outline .plain
  | .operationType t => t.outline
  | .selectionSet s => SelectionSet.outline s
  | .field f => f.outline .plain
  | .fieldAlias a => a.outline
  | .arguments a => Arguments.outline a
  | .argument a => a.outline
  | .spread s => s.outline .plain
  | .inline f => f.outline .plain
  | .fragment d => d.outline .plain
  | .typeCondition c => c.outline
  | .value v => v.outline .plain
  | .objectField f => f.outline
  | .variableDefinitions d => VariableDefinition.listOutline d
  | .variableDefinition d => d.outline
  | .defaultValue d => d.outline
  | .type t => t.outline .plain
  | .directives d => Directives.outline d
  | .directive d => d.outline
  | .description t => descriptionOutline t
  | .schema d => d.outline .plain
  | .schemaExtension d => d.outline .plain
  | .rootOperationTypes r => r.outline
  | .rootOperationType r => r.outline
  | .typeDefinition d => d.outline .plain
  | .typeExtension d => d.outline .plain
  | .interfaces i => interfacesOutline i
  | .fieldDefinitions d => FieldDefinition.listOutline d
  | .fieldDefinition d => d.outline
  | .argumentDefinitions d => InputValueDefinition.argumentsOutline d
  | .inputValueDefinition d => d.outline
  | .unionMembers m => unionMembersOutline m
  | .enumValueDefinitions d => EnumValueDefinition.listOutline d
  | .enumValueDefinition d => d.outline
  | .inputFields f => InputValueDefinition.fieldsOutline f
  | .directiveDefinition d => d.outline .plain
  | .directiveLocations l => DirectiveLocation.listOutline l
  | .directiveLocation l => l.outline

end GraphQL
