import GraphQL.Document.Node
import GraphQL.Layout.Basic

/-! # Layout of definitions and documents

`Document.layout` separates definitions by a blank line and ends in a line feed. `Node.layout` lays
out any node as if it stood at the start of a line. -/

namespace GraphQL

set_option autoImplicit false

open Layout

variable {α δ : Type}

/-! ## Operations and fragments -/

def VariableDefinition.layout (definition : VariableDefinition) : Text :=
  words [definition.var.layout ++ ": " ++ slot TypeRef.layout definition.type,
    optional DefaultValue.layout definition.default, Layout.directives definition.directives]

def VariableDefinition.listLayout (definitions : Delimited VariableDefinition) : Text :=
  "(" ++ listed (definitions.items.map VariableDefinition.layout) ++ ")"

def OperationDefinition.layout (indent : Text) (definition : OperationDefinition) : Text :=
  let selectionSet := slot (SelectionSet.layout indent) definition.selectionSet
  match definition.type with
  | none => selectionSet
  | some type =>
    words [type.kind.keyword,
      optional Token.text definition.name ++
        optional VariableDefinition.listLayout definition.variableDefinitions,
      Layout.directives definition.directives, selectionSet]

def FragmentDefinition.layout (indent : Text) (definition : FragmentDefinition) : Text :=
  words ["fragment", tokenSlot definition.name, slot TypeCondition.layout definition.condition,
    Layout.directives definition.directives,
    slot (SelectionSet.layout indent) definition.selectionSet]

/-! ## Parts of the type system -/

def InputValueDefinition.layout (indent : Text) (definition : InputValueDefinition) : Text :=
  described definition.description indent (words
    [definition.name.text ++ ": " ++ slot TypeRef.layout definition.type,
      optional DefaultValue.layout definition.default, Layout.directives definition.directives])

/-- Arguments stand on one line unless one of them has a description. -/
def InputValueDefinition.argumentsLayout (indent : Text)
    (definitions : Delimited InputValueDefinition) : Text :=
  if definitions.items.any fun definition => definition.description.isSome then
    "(\n" ++ separated "\n" (definitions.items.map fun definition =>
      indent ++ step ++ definition.layout (indent ++ step)) ++ "\n" ++ indent ++ ")"
  else "(" ++ listed (definitions.items.map (InputValueDefinition.layout indent)) ++ ")"

def InputValueDefinition.fieldsLayout (indent : Text)
    (definitions : Delimited InputValueDefinition) : Text :=
  block indent (definitions.items.map (InputValueDefinition.layout (indent ++ step)))

def FieldDefinition.layout (indent : Text) (definition : FieldDefinition) : Text :=
  described definition.description indent (words
    [definition.name.text ++
        optional (InputValueDefinition.argumentsLayout indent) definition.arguments ++ ": " ++
        slot TypeRef.layout definition.type,
      Layout.directives definition.directives])

def FieldDefinition.listLayout (indent : Text) (definitions : Delimited FieldDefinition) : Text :=
  block indent (definitions.items.map (FieldDefinition.layout (indent ++ step)))

def EnumValueDefinition.layout (indent : Text) (definition : EnumValueDefinition) : Text :=
  described definition.description indent
    (words [definition.value.text, Layout.directives definition.directives])

def EnumValueDefinition.listLayout (indent : Text) (definitions : Delimited EnumValueDefinition) :
    Text :=
  block indent (definitions.items.map (EnumValueDefinition.layout (indent ++ step)))

def MemberList.layout (intro separator : Text) (layout : α → Text) (list : MemberList α) : Text :=
  let names := list.present.map layout
  intro ++ " " ++ separated (" " ++ separator ++ " ") (names.filter fun name => !name.isEmpty)

def interfacesLayout (interfaces : MemberList NamedType) : Text :=
  interfaces.layout "implements" "&" NamedType.layout

def unionMembersLayout (members : MemberList NamedType) : Text :=
  members.layout "=" "|" NamedType.layout

def DirectiveLocation.listLayout (locations : MemberList DirectiveLocation) : Text :=
  locations.layout "on" "|" fun location => location.name.text

/-! ## The type system -/

def FieldedBody.layouts (indent : Text) (body : FieldedBody) : List Text :=
  [optional interfacesLayout body.interfaces, Layout.directives body.directives,
    optional (FieldDefinition.listLayout indent) body.fields]

/-- The parts of a body, given the text of the directives of a scalar. -/
def TypeBody.layouts (scalar : δ → Text) (indent : Text) : TypeBody δ → List Text
  | .scalar directives => [scalar directives]
  | .object body => body.layouts indent
  | .interface body => body.layouts indent
  | .union directives members => [Layout.directives directives, optional unionMembersLayout members]
  | .enum directives values =>
    [Layout.directives directives, optional (EnumValueDefinition.listLayout indent) values]
  | .input directives fields =>
    [Layout.directives directives, optional (InputValueDefinition.fieldsLayout indent) fields]

def TypeDefinition.layout (indent : Text) (definition : TypeDefinition) : Text :=
  described definition.description indent (words (definition.body.kind.keyword ::
    tokenSlot definition.name :: definition.body.layouts Layout.directives indent))

def TypeExtension.layout (indent : Text) (definition : TypeExtension) : Text :=
  words ("extend" :: definition.body.kind.keyword :: tokenSlot definition.name ::
    definition.body.layouts (slot Directives.layout) indent)

def RootOperationType.layout (root : RootOperationType) : Text :=
  root.operation.kind.keyword ++ ": " ++ slot NamedType.layout root.type

def RootOperationTypes.layout (indent : Text) (roots : RootOperationTypes) : Text :=
  block indent ((roots.entries.value?.getD []).map RootOperationType.layout)

def SchemaDefinition.layout (indent : Text) (definition : SchemaDefinition) : Text :=
  described definition.description indent (words ["schema", Layout.directives definition.directives,
    slot (RootOperationTypes.layout indent) definition.roots])

def SchemaExtension.layout (indent : Text) (definition : SchemaExtension) : Text :=
  words ["extend schema", Layout.directives definition.directives,
    optional (RootOperationTypes.layout indent) definition.roots]

def DirectiveDefinition.layout (indent : Text) (definition : DirectiveDefinition) : Text :=
  described definition.description indent (words ["directive",
    "@" ++ tokenSlot definition.name ++
      optional (InputValueDefinition.argumentsLayout indent) definition.arguments,
    optional Token.text definition.repeatable,
    slot DirectiveLocation.listLayout definition.locations])

/-! ## Documents -/

def Definition.layout (indent : Text) : Definition → Text
  | .operation d => d.layout indent
  | .fragment d => d.layout indent
  | .schema d => d.layout indent
  | .schemaExtension d => d.layout indent
  | .type d => d.layout indent
  | .typeExtension d => d.layout indent
  | .directive d => d.layout indent

def Document.layout (document : Document) : Text :=
  if document.definitions.isEmpty then []
  else separated "\n\n" (document.definitions.map (Definition.layout [])) ++ "\n"

def Node.layout : Node → Text
  | .document d => d.layout
  | .operation d => d.layout []
  | .operationType t => t.kind.keyword
  | .selectionSet s => SelectionSet.layout [] s
  | .field f => f.layout []
  | .fieldAlias a => a.layout
  | .arguments a => Arguments.layout a
  | .argument a => a.layout
  | .spread s => s.layout
  | .inline f => f.layout []
  | .fragment d => d.layout []
  | .typeCondition c => c.layout
  | .value v => v.layout
  | .objectField f => f.layout
  | .variableDefinitions d => VariableDefinition.listLayout d
  | .variableDefinition d => d.layout
  | .defaultValue d => d.layout
  | .type t => t.layout
  | .directives d => Directives.layout d
  | .directive d => d.layout
  | .description t => t.text
  | .schema d => d.layout []
  | .schemaExtension d => d.layout []
  | .rootOperationTypes r => r.layout []
  | .rootOperationType r => r.layout
  | .typeDefinition d => d.layout []
  | .typeExtension d => d.layout []
  | .interfaces i => interfacesLayout i
  | .fieldDefinitions d => FieldDefinition.listLayout [] d
  | .fieldDefinition d => d.layout []
  | .argumentDefinitions d => InputValueDefinition.argumentsLayout [] d
  | .inputValueDefinition d => d.layout []
  | .unionMembers m => unionMembersLayout m
  | .enumValueDefinitions d => EnumValueDefinition.listLayout [] d
  | .enumValueDefinition d => d.layout []
  | .inputFields f => InputValueDefinition.fieldsLayout [] f
  | .directiveDefinition d => d.layout []
  | .directiveLocations l => DirectiveLocation.listLayout l
  | .directiveLocation l => l.name.text

end GraphQL
