import GraphQL.Document.Walk

/-! # Dependencies between definitions

A `Dependency` is a name that one definition provides and others refer to. `Definition.product?` is
what a definition provides, `Definition.consumed` what it refers to. -/

namespace GraphQL

set_option autoImplicit false

inductive Dependency where
  | root (kind : OperationKind)
  | schema
  | type (name : Text)
  | directive (name : Text)
  | fragment (name : Text)
deriving DecidableEq, Repr

def OperationKind.typeName : OperationKind → Text
  | .query => "Query"
  | .mutation => "Mutation"
  | .subscription => "Subscription"

/-- The dependency as text, such as `Type:User`. -/
def Dependency.key : Dependency → Text
  | .root kind => kind.typeName
  | .schema => "Schema"
  | .type name => "Type:" ++ name
  | .directive name => "Directive:" ++ name
  | .fragment name => "Fragment:" ++ name

def Node.references : Node → List Dependency
  | .directive d => (textOf? d.name).toList.map .directive
  | .spread s => [.fragment s.name.text]
  | .type (.nullable (.named t)) => [.type t.name.text]
  | .operation d => [.root d.kind, .schema]
  | _ => []

namespace Definition

/-- What a definition provides. Operations provide nothing, nor does a definition without a name. -/
def product? : Definition → Option Dependency
  | .operation _ => none
  | .schema _ => some .schema
  | .schemaExtension _ => some .schema
  | .fragment d => (textOf? d.name).map .fragment
  | .directive d => (textOf? d.name).map .directive
  | .type d => (textOf? d.name).map .type
  | .typeExtension d => (textOf? d.name).map .type

/-- Everything a definition refers to, in source order and each name once, without what it provides
itself. -/
def consumed (definition : Definition) : List Dependency :=
  ((definition.outline .definition).nodes.flatMap Node.references).eraseDups.filter
    fun dependency => some dependency != definition.product?

end Definition

end GraphQL
