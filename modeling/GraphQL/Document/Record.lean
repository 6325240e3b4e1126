import GraphQL.Document.Node

/-! # Nodes as records

A `Record` is a node spelled out as its kind and its named fields, down to the tokens: the form in
which trees are handed to other programs. A part that may be lacking has a field all the same. -/

namespace GraphQL

set_option autoImplicit false

open Recovery (Slot Gap)

variable {α δ : Type}

/-- A part of a tree, spelled out. -/
inductive Record where
  /-- An optional part that is not there -/
  | absent
  | flag (value : Bool)
  | text (text : Text)
  | token (token : Token)
  | missing (gap : Gap Expectation)
  | list (items : List Record)
  | node (kind : NodeKind) (fields : List (String × Record))

namespace Record

def optional (record : α → Record) : Option α → Record
  | none => .absent
  | some a => record a

def slot (record : α → Record) : Required α → Record
  | .present a => record a
  | .missing gap => .missing gap

def tokenSlot : Required Token → Record := slot .token

def each (record : α → Record) (items : List α) : Record := .list (items.map record)

def ends (items : Delimited α) : Record := .list [.token items.opening, tokenSlot items.closing]

/-- Members with their separators, under the names of the introducing and the leading token. -/
def members (kind : NodeKind) (intro leading : String) (record : α → Record)
    (list : MemberList α) : Record :=
  .node kind [(intro, .token list.intro), (leading, optional .token list.leading),
    ("first", slot record list.first),
    ("rest", each (fun (separator, member) => .list [.token separator, slot record member])
      list.rest)]

end Record

open Record

/-! ## Types and values -/

def NamedType.record (type : NamedType) : Record := .node .namedType [("name", .token type.name)]

mutual
def NullableType.record : NullableType → Record
  | .named type => type.record
  | .list opening item closing =>
    .node .listType [("brackets", .list [.token opening, tokenSlot closing]),
      ("type", match item with
        | .present item => item.record
        | .missing gap => .missing gap)]
def TypeRef.record : TypeRef → Record
  | .nullable type => type.record
  | .nonNull type bang => .node .nonNullType [("type", type.record), ("bang", .token bang)]
end

def Variable.record (v : Variable) : Record :=
  .node .variableValue [("dollar", .token v.dollar), ("name", tokenSlot v.name)]

mutual
def Value.record : Value → Record
  | .var v => v.record
  | .int t => .node .intValue [("token", .token t)]
  | .float t => .node .floatValue [("token", .token t)]
  | .string t => .node .stringValue [("token", .token t)]
  | .boolean t value => .node .booleanValue [("token", .token t), ("value", .flag value)]
  | .null t => .node .nullValue [("token", .token t)]
  | .enum t => .node .enumValue [("token", .token t)]
  | .list ⟨opening, items, closing⟩ =>
    .node .listValue [("brackets", .list [.token opening, tokenSlot closing]),
      ("values", .list (Value.records items))]
  | .object ⟨opening, fields, closing⟩ =>
    .node .objectValue [("braces", .list [.token opening, tokenSlot closing]),
      ("fields", .list (ObjectField.records fields))]
def Value.records : List Value → List Record
  | [] => []
  | v :: rest => v.record :: Value.records rest
def ObjectField.record : ObjectField → Record
  | .mk name colon value =>
    .node .objectField [("name", .token name), ("colon", tokenSlot colon),
      ("value", match value with
        | .present value => value.record
        | .missing gap => .missing gap)]
def ObjectField.records : List ObjectField → List Record
  | [] => []
  | field :: rest => field.record :: ObjectField.records rest
end

def DefaultValue.record (default : DefaultValue) : Record :=
  .node .defaultValue [("eq", .token default.eq), ("value", slot Value.record default.value)]

/-! ## Arguments and directives -/

def Argument.record (argument : Argument) : Record :=
  .node .argument [("name", .token argument.name), ("colon", tokenSlot argument.colon),
    ("value", slot Value.record argument.value)]

def Arguments.record (arguments : Arguments) : Record :=
  .node .arguments [("parens", ends arguments), ("items", each Argument.record arguments.items)]

def Directive.record (directive : Directive) : Record :=
  .node .directive [("at", .token directive.sign), ("name", tokenSlot directive.name),
    ("arguments", optional Arguments.record directive.arguments)]

def Directives.record (directives : Directives) : Record :=
  .node .directives [("directives", each Directive.record directives)]

/-! ## Selections -/

def Alias.record (fieldAlias : Alias) : Record :=
  .node .fieldAlias [("name", .token fieldAlias.name), ("colon", .token fieldAlias.colon)]

def TypeCondition.record (condition : TypeCondition) : Record :=
  .node .typeCondition [("on", .token condition.keyword),
    ("namedType", slot NamedType.record condition.type)]

def FragmentSpread.record (spread : FragmentSpread) : Record :=
  .node .fragmentSpread [("dots", .token spread.dots), ("fragmentName", .token spread.name),
    ("directives", optional Directives.record spread.directives)]

mutual
def Selection.record : Selection → Record
  | .field f => f.record
  | .spread s => s.record
  | .inline f => f.record
def Selection.records : List Selection → List Record
  | [] => []
  | selection :: rest => selection.record :: Selection.records rest
def Field.record : Field (Delimited Selection) → Record
  | ⟨fieldAlias, name, arguments, directives, set⟩ =>
    .node .field [("alias", optional Alias.record fieldAlias), ("name", tokenSlot name),
      ("arguments", optional Arguments.record arguments),
      ("directives", optional Directives.record directives),
      ("selectionSet", match set with
        | none => .absent
        | some set => SelectionSet.record set)]
def InlineFragment.record : InlineFragment (Delimited Selection) → Record
  | ⟨dots, condition, directives, set⟩ =>
    .node .inlineFragment [("dots", .token dots),
      ("typeCondition", optional TypeCondition.record condition),
      ("directives", optional Directives.record directives),
      ("selectionSet", match set with
        | .present set => SelectionSet.record set
        | .missing gap => .missing gap)]
def SelectionSet.record : Delimited Selection → Record
  | ⟨opening, selections, closing⟩ =>
    .node .selectionSet [("braces", .list [.token opening, tokenSlot closing]),
      ("selections", .list (Selection.records selections))]
end

/-! ## Operations and fragments -/

def OperationType.record (type : OperationType) : Record :=
  .node .operationType [("keyword", .token type.keyword), ("operation", .text type.kind.keyword)]

def VariableDefinition.record (definition : VariableDefinition) : Record :=
  .node .variableDefinition [("variable", definition.var.record),
    ("colon", tokenSlot definition.colon), ("type", slot TypeRef.record definition.type),
    ("defaultValue", optional DefaultValue.record definition.default),
    ("directives", optional Directives.record definition.directives)]

def VariableDefinition.listRecord (definitions : Delimited VariableDefinition) : Record :=
  .node .variableDefinitions [("parens", ends definitions),
    ("definitions", each VariableDefinition.record definitions.items)]

def OperationDefinition.record (definition : OperationDefinition) : Record :=
  .node .operationDefinition [("operationType", optional OperationType.record definition.type),
    ("name", optional .token definition.name),
    ("variableDefinitions", optional VariableDefinition.listRecord definition.variableDefinitions),
    ("directives", optional Directives.record definition.directives),
    ("selectionSet", slot SelectionSet.record definition.selectionSet)]

def FragmentDefinition.record (definition : FragmentDefinition) : Record :=
  .node .fragmentDefinition [("keyword", .token definition.keyword),
    ("fragmentName", tokenSlot definition.name),
    ("typeCondition", slot TypeCondition.record definition.condition),
    ("directives", optional Directives.record definition.directives),
    ("selectionSet", slot SelectionSet.record definition.selectionSet)]

/-! ## Parts of the type system -/

def descriptionRecord (token : Token) : Record := .node .description [("token", .token token)]

def InputValueDefinition.record (definition : InputValueDefinition) : Record :=
  .node .inputValueDefinition [("description", optional descriptionRecord definition.description),
    ("name", .token definition.name), ("colon", tokenSlot definition.colon),
    ("type", slot TypeRef.record definition.type),
    ("defaultValue", optional DefaultValue.record definition.default),
    ("directives", optional Directives.record definition.directives)]

def InputValueDefinition.argumentsRecord (definitions : Delimited InputValueDefinition) : Record :=
  .node .argumentsDefinition [("parens", ends definitions),
    ("definitions", each InputValueDefinition.record definitions.items)]

def InputValueDefinition.fieldsRecord (definitions : Delimited InputValueDefinition) : Record :=
  .node .inputFieldsDefinition [("braces", ends definitions),
    ("definitions", each InputValueDefinition.record definitions.items)]

def FieldDefinition.record (definition : FieldDefinition) : Record :=
  .node .fieldDefinition [("description", optional descriptionRecord definition.description),
    ("name", .token definition.name),
    ("arguments", optional InputValueDefinition.argumentsRecord definition.arguments),
    ("colon", tokenSlot definition.colon), ("type", slot TypeRef.record definition.type),
    ("directives", optional Directives.record definition.directives)]

def FieldDefinition.listRecord (definitions : Delimited FieldDefinition) : Record :=
  .node .fieldsDefinition [("braces", ends definitions),
    ("definitions", each FieldDefinition.record definitions.items)]

def EnumValueDefinition.record (definition : EnumValueDefinition) : Record :=
  .node .enumValueDefinition [("description", optional descriptionRecord definition.description),
    ("enumValue", Value.record (.enum definition.value)),
    ("directives", optional Directives.record definition.directives)]

def EnumValueDefinition.listRecord (definitions : Delimited EnumValueDefinition) : Record :=
  .node .enumValuesDefinition [("braces", ends definitions),
    ("definitions", each EnumValueDefinition.record definitions.items)]

def interfacesRecord (interfaces : MemberList NamedType) : Record :=
  members .implementsInterfaces "keyword" "ampersand" NamedType.record interfaces

def unionMembersRecord (list : MemberList NamedType) : Record :=
  members .unionMemberTypes "eq" "pipe" NamedType.record list

def FieldedBody.parts (body : FieldedBody) : List (String × Record) :=
  [("interfaces", optional interfacesRecord body.interfaces),
    ("directives", optional Directives.record body.directives),
    ("fields", optional FieldDefinition.listRecord body.fields)]

/-- The fields of a body, given the record of the directives of a scalar. -/
def TypeBody.parts (scalar : δ → Record) : TypeBody δ → List (String × Record)
  | .scalar directives => [("directives", scalar directives)]
  | .object body => body.parts
  | .interface body => body.parts
  | .union directives members =>
    [("directives", optional Directives.record directives),
      ("members", optional unionMembersRecord members)]
  | .enum directives values =>
    [("directives", optional Directives.record directives),
      ("values", optional EnumValueDefinition.listRecord values)]
  | .input directives fields =>
    [("directives", optional Directives.record directives),
      ("fields", optional InputValueDefinition.fieldsRecord fields)]

/-! ## The type system -/

def TypeDefinition.record (definition : TypeDefinition) : Record :=
  .node definition.body.kind.definitionKind
    (("description", optional descriptionRecord definition.description) ::
      ("keyword", .token definition.keyword) :: ("name", tokenSlot definition.name) ::
      definition.body.parts (optional Directives.record))

def TypeExtension.record (definition : TypeExtension) : Record :=
  .node definition.body.kind.extensionKind
    (("extend", .token definition.extend) :: ("keyword", .token definition.keyword) ::
      ("name", tokenSlot definition.name) :: definition.body.parts (slot Directives.record))

def RootOperationType.record (root : RootOperationType) : Record :=
  .node .rootOperationTypeDefinition [("operationType", root.operation.record),
    ("colon", tokenSlot root.colon), ("namedType", slot NamedType.record root.type)]

def RootOperationTypes.record (roots : RootOperationTypes) : Record :=
  .node .rootOperationTypeDefinitions
    [("braces", .list [.token roots.opening, tokenSlot roots.closing]),
      ("definitions", slot (each RootOperationType.record) roots.entries)]

def SchemaDefinition.record (definition : SchemaDefinition) : Record :=
  .node .schemaDefinition [("description", optional descriptionRecord definition.description),
    ("keyword", .token definition.keyword),
    ("directives", optional Directives.record definition.directives),
    ("rootOperationTypes", slot RootOperationTypes.record definition.roots)]

def SchemaExtension.record (definition : SchemaExtension) : Record :=
  .node .schemaExtension [("extend", .token definition.extend),
    ("keyword", .token definition.keyword),
    ("directives", optional Directives.record definition.directives),
    ("rootOperationTypes", optional RootOperationTypes.record definition.roots)]

def DirectiveLocation.record (location : DirectiveLocation) : Record :=
  .node .directiveLocation [("token", .token location.name)]

def DirectiveLocation.listRecord (locations : MemberList DirectiveLocation) : Record :=
  members .directiveLocations "on" "pipe" DirectiveLocation.record locations

def DirectiveDefinition.record (definition : DirectiveDefinition) : Record :=
  .node .directiveDefinition [("description", optional descriptionRecord definition.description),
    ("keyword", .token definition.keyword), ("at", tokenSlot definition.sign),
    ("name", tokenSlot definition.name),
    ("arguments", optional InputValueDefinition.argumentsRecord definition.arguments),
    ("repeatable", optional .token definition.repeatable),
    ("locations", slot DirectiveLocation.listRecord definition.locations)]

/-! ## Documents -/

def Definition.record : Definition → Record
  | .operation d => d.record
  | .fragment d => d.record
  | .schema d => d.record
  | .schemaExtension d => d.record
  | .type d => d.record
  | .typeExtension d => d.record
  | .directive d => d.record

def Document.record (document : Document) : Record :=
  .node .document [("definitions", each Definition.record document.definitions)]

def Node.record : Node → Record
  | .document d => d.record
  | .operation d => d.record
  | .operationType t => t.record
  | .selectionSet s => SelectionSet.record s
  | .field f => f.record
  | .fieldAlias a => a.record
  | .arguments a => Arguments.record a
  | .argument a => a.record
  | .spread s => s.record
  | .inline f => f.record
  | .fragment d => d.record
  | .typeCondition c => c.record
  | .value v => v.record
  | .objectField f => f.record
  | .variableDefinitions d => VariableDefinition.listRecord d
  | .variableDefinition d => d.record
  | .defaultValue d => d.record
  | .type t => t.record
  | .directives d => Directives.record d
  | .directive d => d.record
  | .description t => descriptionRecord t
  | .schema d => d.record
  | .schemaExtension d => d.record
  | .rootOperationTypes r => r.record
  | .rootOperationType r => r.record
  | .typeDefinition d => d.record
  | .typeExtension d => d.record
  | .interfaces i => interfacesRecord i
  | .fieldDefinitions d => FieldDefinition.listRecord d
  | .fieldDefinition d => d.record
  | .argumentDefinitions d => InputValueDefinition.argumentsRecord d
  | .inputValueDefinition d => d.record
  | .unionMembers m => unionMembersRecord m
  | .enumValueDefinitions d => EnumValueDefinition.listRecord d
  | .enumValueDefinition d => d.record
  | .inputFields f => InputValueDefinition.fieldsRecord f
  | .directiveDefinition d => d.record
  | .directiveLocations l => DirectiveLocation.listRecord l
  | .directiveLocation l => l.record

end GraphQL
