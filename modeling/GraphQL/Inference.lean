import GraphQL.Database.Located
import GraphQL.MultiMap
import GraphQL.Table

/-! # Inferences

An `Inference` records what the nodes of one revision resolve to: the definitions they refer to,
the types that selection sets select from, and the types that values are written for. Tables are
filed by the identity of the resolved node. -/

namespace GraphQL

set_option autoImplicit false

/-- What the nodes of a revision resolve to. -/
structure Inference where
  fields : Table NodeId (Located FieldDefinition) := {}
  selections : Table NodeId Text := {}
  argumentLists : Table NodeId (Located (Delimited InputValueDefinition)) := {}
  arguments : Table NodeId (Located InputValueDefinition) := {}
  valueTypes : Table NodeId (Located TypeRef) := {}
  valueDefaults : Table NodeId (Located Value) := {}
  directives : Table NodeId (Located DirectiveDefinition) := {}
  fragments : Table NodeId (Located FragmentDefinition) := {}
  spreads : MultiMap NodeId (Located FragmentSpread) := {}
  /-- The types that definitions were resolved through -/
  referencedTypes : MultiMap NodeId Text := {}

end GraphQL
