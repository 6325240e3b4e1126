import GraphQL.Document.Definition

/-! # Nodes

A `Node` is any construct of a document that has a kind of its own. Kinds are finer than Lean types:
one type serves for all values, and another for the definitions of all kinds of types. -/

namespace GraphQL

set_option autoImplicit false

/-- The kinds of nodes. -/
inductive NodeKind where
  | document
  | operationDefinition
  | operationType
  | selectionSet
  | field
  | fieldAlias
  | arguments
  | argument
  | fragmentSpread
  | inlineFragment
  | fragmentDefinition
  | typeCondition
  | variableValue
  | intValue
  | floatValue
  | stringValue
  | booleanValue
  | nullValue
  | enumValue
  | listValue
  | objectValue
  | objectField
  | variableDefinitions
  | variableDefinition
  | defaultValue
  | namedType
  | listType
  | nonNullType
  | directives
  | directive
  | description
  | schemaDefinition
  | schemaExtension
  | rootOperationTypeDefinitions
  | rootOperationTypeDefinition
  | scalarTypeDefinition
  | scalarTypeExtension
  | objectTypeDefinition
  | objectTypeExtension
  | interfaceTypeDefinition
  | interfaceTypeExtension
  | implementsInterfaces
  | fieldsDefinition
  | fieldDefinition
  | argumentsDefinition
  | inputValueDefinition
  | unionTypeDefinition
  | unionTypeExtension
  | unionMemberTypes
  | enumTypeDefinition
  | enumTypeExtension
  | enumValuesDefinition
  | enumValueDefinition
  | inputObjectTypeDefinition
  | inputObjectTypeExtension
  | inputFieldsDefinition
  | directiveDefinition
  | directiveLocations
  | directiveLocation
deriving DecidableEq, Repr

def NodeKind.name : NodeKind → String
  | .document => "Document"
  | .operationDefinition => "OperationDefinition"
  | .operationType => "OperationType"
  | .selectionSet => "SelectionSet"
  | .field => "Field"
  | .fieldAlias => "Alias"
  | .arguments => "Arguments"
  | .argument => "Argument"
  | .fragmentSpread => "FragmentSpread"
  | .inlineFragment => "InlineFragment"
  | .fragmentDefinition => "FragmentDefinition"
  | .typeCondition => "TypeCondition"
  | .variableValue => "Variable"
  | .intValue => "IntValue"
  | .floatValue => "FloatValue"
  | .stringValue => "StringValue"
  | .booleanValue => "BooleanValue"
  | .nullValue => "NullValue"
  | .enumValue => "EnumValue"
  | .listValue => "ListValue"
  | .objectValue => "ObjectValue"
  | .objectField => "ObjectField"
  | .variableDefinitions => "VariableDefinitions"
  | .variableDefinition => "VariableDefinition"
  | .defaultValue => "DefaultValue"
  | .namedType => "NamedType"
  | .listType => "ListType"
  | .nonNullType => "NonNullType"
  | .directives => "Directives"
  | .directive => "Directive"
  | .description => "Description"
  | .schemaDefinition => "SchemaDefinition"
  | .schemaExtension => "SchemaExtension"
  | .rootOperationTypeDefinitions => "RootOperationTypeDefinitions"
  | .rootOperationTypeDefinition => "RootOperationTypeDefinition"
  | .scalarTypeDefinition => "ScalarTypeDefinition"
  | .scalarTypeExtension => "ScalarTypeExtension"
  | .objectTypeDefinition => "ObjectTypeDefinition"
  | .objectTypeExtension => "ObjectTypeExtension"
  | .interfaceTypeDefinition => "InterfaceTypeDefinition"
  | .interfaceTypeExtension => "InterfaceTypeExtension"
  | .implementsInterfaces => "ImplementsInterfaces"
  | .fieldsDefinition => "FieldsDefinition"
  | .fieldDefinition => "FieldDefinition"
  | .argumentsDefinition => "ArgumentsDefinition"
  | .inputValueDefinition => "InputValueDefinition"
  | .unionTypeDefinition => "UnionTypeDefinition"
  | .unionTypeExtension => "UnionTypeExtension"
  | .unionMemberTypes => "UnionMemberTypes"
  | .enumTypeDefinition => "EnumTypeDefinition"
  | .enumTypeExtension => "EnumTypeExtension"
  | .enumValuesDefinition => "EnumValuesDefinition"
  | .enumValueDefinition => "EnumValueDefinition"
  | .inputObjectTypeDefinition => "InputObjectTypeDefinition"
  | .inputObjectTypeExtension => "InputObjectTypeExtension"
  | .inputFieldsDefinition => "InputFieldsDefinition"
  | .directiveDefinition => "DirectiveDefinition"
  | .directiveLocations => "DirectiveLocations"
  | .directiveLocation => "DirectiveLocation"

/-- A construct of a document. -/
inductive Node where
  | document (document : Document)
  | operation (definition : OperationDefinition)
  | operationType (type : OperationType)
  | selectionSet (set : SelectionSet)
  | field (field : Field SelectionSet)
  | fieldAlias (fieldAlias : Alias)
  | arguments (arguments : Arguments)
  | argument (argument : Argument)
  | spread (spread : FragmentSpread)
  | inline (fragment : InlineFragment SelectionSet)
  | fragment (definition : FragmentDefinition)
  | typeCondition (condition : TypeCondition)
  | value (value : Value)
  | objectField (field : ObjectField)
  | variableDefinitions (definitions : Delimited VariableDefinition)
  | variableDefinition (definition : VariableDefinition)
  | defaultValue (default : DefaultValue)
  | type (type : TypeRef)
  | directives (directives : Directives)
  | directive (directive : Directive)
  | description (token : Token)
  | schema (definition : SchemaDefinition)
  | schemaExtension (definition : SchemaExtension)
  | rootOperationTypes (roots : RootOperationTypes)
  | rootOperationType (root : RootOperationType)
  | typeDefinition (definition : TypeDefinition)
  | typeExtension (definition : TypeExtension)
  | interfaces (interfaces : MemberList NamedType)
  | fieldDefinitions (definitions : Delimited FieldDefinition)
  | fieldDefinition (definition : FieldDefinition)
  | argumentDefinitions (definitions : Delimited InputValueDefinition)
  | inputValueDefinition (definition : InputValueDefinition)
  | unionMembers (members : MemberList NamedType)
  | enumValueDefinitions (definitions : Delimited EnumValueDefinition)
  | enumValueDefinition (definition : EnumValueDefinition)
  | inputFields (fields : Delimited InputValueDefinition)
  | directiveDefinition (definition : DirectiveDefinition)
  | directiveLocations (locations : MemberList DirectiveLocation)
  | directiveLocation (location : DirectiveLocation)

def Value.kind : Value → NodeKind
  | .var _ => .variableValue
  | .int _ => .intValue
  | .float _ => .floatValue
  | .string _ => .stringValue
  | .boolean _ _ => .booleanValue
  | .null _ => .nullValue
  | .enum _ => .enumValue
  | .list _ => .listValue
  | .object _ => .objectValue

def TypeRef.kind : TypeRef → NodeKind
  | .nullable (.named _) => .namedType
  | .nullable (.list _ _ _) => .listType
  | .nonNull _ _ => .nonNullType

def TypeKind.definitionKind : TypeKind → NodeKind
  | .scalar => .scalarTypeDefinition
  | .object => .objectTypeDefinition
  | .interface => .interfaceTypeDefinition
  | .union => .unionTypeDefinition
  | .enum => .enumTypeDefinition
  | .input => .inputObjectTypeDefinition

def TypeKind.extensionKind : TypeKind → NodeKind
  | .scalar => .scalarTypeExtension
  | .object => .objectTypeExtension
  | .interface => .interfaceTypeExtension
  | .union => .unionTypeExtension
  | .enum => .enumTypeExtension
  | .input => .inputObjectTypeExtension

def Node.kind : Node → NodeKind
  | .document _ => .document
  | .operation _ => .operationDefinition
  | .operationType _ => .operationType
  | .selectionSet _ => .selectionSet
  | .field _ => .field
  | .fieldAlias _ => .fieldAlias
  | .arguments _ => .arguments
  | .argument _ => .argument
  | .spread _ => .fragmentSpread
  | .inline _ => .inlineFragment
  | .fragment _ => .fragmentDefinition
  | .typeCondition _ => .typeCondition
  | .value v => v.kind
  | .objectField _ => .objectField
  | .variableDefinitions _ => .variableDefinitions
  | .variableDefinition _ => .variableDefinition
  | .defaultValue _ => .defaultValue
  | .type t => t.kind
  | .directives _ => .directives
  | .directive _ => .directive
  | .description _ => .description
  | .schema _ => .schemaDefinition
  | .schemaExtension _ => .schemaExtension
  | .rootOperationTypes _ => .rootOperationTypeDefinitions
  | .rootOperationType _ => .rootOperationTypeDefinition
  | .typeDefinition d => d.body.kind.definitionKind
  | .typeExtension d => d.body.kind.extensionKind
  | .interfaces _ => .implementsInterfaces
  | .fieldDefinitions _ => .fieldsDefinition
  | .fieldDefinition _ => .fieldDefinition
  | .argumentDefinitions _ => .argumentsDefinition
  | .inputValueDefinition _ => .inputValueDefinition
  | .unionMembers _ => .unionMemberTypes
  | .enumValueDefinitions _ => .enumValuesDefinition
  | .enumValueDefinition _ => .enumValueDefinition
  | .inputFields _ => .inputFieldsDefinition
  | .directiveDefinition _ => .directiveDefinition
  | .directiveLocations _ => .directiveLocations
  | .directiveLocation _ => .directiveLocation

def Selection.node : Selection → Node
  | .field f => .field f
  | .spread s => .spread s
  | .inline f => .inline f

def Definition.node : Definition → Node
  | .operation d => .operation d
  | .fragment d => .fragment d
  | .schema d => .schema d
  | .schemaExtension d => .schemaExtension d
  | .type d => .typeDefinition d
  | .typeExtension d => .typeExtension d
  | .directive d => .directiveDefinition d

end GraphQL
