import GraphQL.Document.Basic

/-! # Definitions

A `Document` is a list of definitions: operations and fragments, which are executed, and the
definitions and extensions that make up a type system. -/

namespace GraphQL

set_option autoImplicit false

/-! ## Operations and fragments -/

inductive OperationKind where
  | query
  | mutation
  | subscription
deriving DecidableEq, Repr

namespace OperationKind

def keyword : OperationKind → Text
  | .query => "query"
  | .mutation => "mutation"
  | .subscription => "subscription"

def ofKeyword? (word : Text) : Option OperationKind :=
  if word = keyword .query then some .query
  else if word = keyword .mutation then some .mutation
  else if word = keyword .subscription then some .subscription
  else none

end OperationKind

structure OperationType where
  keyword : Token
  kind : OperationKind

structure VariableDefinition where
  var : Variable
  colon : Required Token
  type : Required TypeRef
  default : Option DefaultValue
  directives : Option Directives

/-- An operation; a selection set alone is a query without keyword. -/
structure OperationDefinition where
  type : Option OperationType
  name : Option Token
  variableDefinitions : Option (Delimited VariableDefinition)
  directives : Option Directives
  selectionSet : Required SelectionSet

/-- An operation without keyword is a query. -/
def OperationDefinition.kind (operation : OperationDefinition) : OperationKind :=
  (operation.type.map OperationType.kind).getD .query

structure FragmentDefinition where
  keyword : Token
  name : Required Token
  condition : Required TypeCondition
  directives : Option Directives
  selectionSet : Required SelectionSet

/-! ## Parts of type definitions -/

/-- An argument of a field or directive, or a field of an input object. -/
structure InputValueDefinition where
  description : Option Token
  name : Token
  colon : Required Token
  type : Required TypeRef
  default : Option DefaultValue
  directives : Option Directives

structure FieldDefinition where
  description : Option Token
  name : Token
  arguments : Option (Delimited InputValueDefinition)
  colon : Required Token
  type : Required TypeRef
  directives : Option Directives

structure EnumValueDefinition where
  description : Option Token
  value : Token
  directives : Option Directives

/-- What follows the name of an object or interface type. -/
structure FieldedBody where
  interfaces : Option (MemberList NamedType)
  directives : Option Directives
  fields : Option (Delimited FieldDefinition)

inductive TypeKind where
  | scalar
  | object
  | interface
  | union
  | enum
  | input
deriving DecidableEq, Repr

def TypeKind.keyword : TypeKind → Text
  | .scalar => "scalar"
  | .object => "type"
  | .interface => "interface"
  | .union => "union"
  | .enum => "enum"
  | .input => "input"

def TypeKind.name : TypeKind → Text
  | .scalar => "Scalar"
  | .object => "Object"
  | .interface => "Interface"
  | .union => "Union"
  | .enum => "Enum"
  | .input => "InputObject"

/-- What follows the name of a type. `δ` is how a scalar carries directives: it may in a
definition, and must in an extension. -/
inductive TypeBody (δ : Type) where
  | scalar (directives : δ)
  | object (body : FieldedBody)
  | interface (body : FieldedBody)
  | union (directives : Option Directives) (members : Option (MemberList NamedType))
  | enum (directives : Option Directives) (values : Option (Delimited EnumValueDefinition))
  | input (directives : Option Directives) (fields : Option (Delimited InputValueDefinition))

def TypeBody.kind {δ : Type} : TypeBody δ → TypeKind
  | .scalar _ => .scalar
  | .object _ => .object
  | .interface _ => .interface
  | .union _ _ => .union
  | .enum _ _ => .enum
  | .input _ _ => .input

/-! ## The type system -/

structure TypeDefinition where
  description : Option Token
  keyword : Token
  name : Required Token
  body : TypeBody (Option Directives)

structure TypeExtension where
  extend : Token
  keyword : Token
  name : Required Token
  body : TypeBody (Required Directives)

structure RootOperationType where
  operation : OperationType
  colon : Required Token
  type : Required NamedType

structure RootOperationTypes where
  opening : Token
  entries : Required (List RootOperationType)
  closing : Required Token

structure SchemaDefinition where
  description : Option Token
  keyword : Token
  directives : Option Directives
  roots : Required RootOperationTypes

structure SchemaExtension where
  extend : Token
  keyword : Token
  directives : Option Directives
  roots : Option RootOperationTypes

structure DirectiveLocation where
  name : Token

/-- The places in operations and fragments. -/
def DirectiveLocation.executable : List Text :=
  ["QUERY", "MUTATION", "SUBSCRIPTION", "FIELD", "FRAGMENT_DEFINITION", "FRAGMENT_SPREAD",
    "INLINE_FRAGMENT", "VARIABLE_DEFINITION"]

def DirectiveLocation.typeSystem : List Text :=
  ["SCHEMA", "SCALAR", "OBJECT", "FIELD_DEFINITION", "ARGUMENT_DEFINITION", "INTERFACE", "UNION",
    "ENUM", "ENUM_VALUE", "INPUT_OBJECT", "INPUT_FIELD_DEFINITION"]

/-- Every place. -/
def DirectiveLocation.names : List Text := executable ++ typeSystem

structure DirectiveDefinition where
  description : Option Token
  keyword : Token
  sign : Required Token
  name : Required Token
  arguments : Option (Delimited InputValueDefinition)
  repeatable : Option Token
  locations : Required (MemberList DirectiveLocation)

/-! ## Documents -/

inductive Definition where
  | operation (definition : OperationDefinition)
  | fragment (definition : FragmentDefinition)
  | schema (definition : SchemaDefinition)
  | schemaExtension (definition : SchemaExtension)
  | type (definition : TypeDefinition)
  | typeExtension (definition : TypeExtension)
  | directive (definition : DirectiveDefinition)

def textOf? (name : Required Token) : Option Text := name.value?.map Token.text

namespace Definition

/-- The name a definition is known by; schemas have none. -/
def name? : Definition → Option Text
  | .operation d => d.name.map Token.text
  | .fragment d => textOf? d.name
  | .schema _ => none
  | .schemaExtension _ => none
  | .type d => textOf? d.name
  | .typeExtension d => textOf? d.name
  | .directive d => textOf? d.name

def isType : Definition → Bool
  | .type _ => true
  | _ => false

def isTypeExtension : Definition → Bool
  | .typeExtension _ => true
  | _ => false

end Definition

structure Document where
  definitions : List Definition

end GraphQL
