import GraphQL.Document.Walk

/-! # Constructs and their identity

Documents are read again and again. A `Revision` is one reading of one document, under a number of
its own. `NodeId` says which node of which revision is meant: of the nodes of a revision that have
tokens, no two have both kind and span in common. A `Located` construct is one together with its
revision. -/

namespace GraphQL

set_option autoImplicit false

variable {α β : Type}

/-- One reading of a document. -/
structure Revision where
  id : Nat
  tree : Document

structure NodeId where
  revision : Nat
  kind : NodeKind
  span : Option Span
deriving DecidableEq, Repr

def Node.id (revision : Nat) (node : Node) : NodeId := ⟨revision, node.kind, node.span?⟩

/-- A construct of a revision. -/
structure Located (α : Type) where
  revision : Nat
  value : α

/-- A part of a construct is in the same revision. -/
def Located.map (f : α → β) (a : Located α) : Located β := ⟨a.revision, f a.value⟩

/-- Constructs that are nodes. -/
class HasNode (α : Type) where
  node : α → Node

/-- The identity of a construct. -/
def Located.id [HasNode α] (a : Located α) : NodeId := (HasNode.node a.value).id a.revision

/-- Constructs are the same if their identities are. -/
instance [HasNode α] : BEq (Located α) := ⟨fun a b => a.id == b.id⟩

instance : HasNode Node := ⟨id⟩

instance : HasNode Definition := ⟨Definition.node⟩

instance : HasNode OperationDefinition := ⟨.operation⟩

instance : HasNode FragmentDefinition := ⟨.fragment⟩

instance : HasNode FragmentSpread := ⟨.spread⟩

instance : HasNode Directive := ⟨.directive⟩

instance : HasNode Value := ⟨.value⟩

instance : HasNode TypeRef := ⟨.type⟩

instance : HasNode NamedType := ⟨fun type => .type (.nullable (.named type))⟩

instance : HasNode SelectionSet := ⟨.selectionSet⟩

instance : HasNode Arguments := ⟨.arguments⟩

instance : HasNode SchemaDefinition := ⟨.schema⟩

instance : HasNode SchemaExtension := ⟨.schemaExtension⟩

instance : HasNode TypeDefinition := ⟨.typeDefinition⟩

instance : HasNode TypeExtension := ⟨.typeExtension⟩

instance : HasNode DirectiveDefinition := ⟨.directiveDefinition⟩

instance : HasNode FieldDefinition := ⟨.fieldDefinition⟩

instance : HasNode InputValueDefinition := ⟨.inputValueDefinition⟩

instance : HasNode EnumValueDefinition := ⟨.enumValueDefinition⟩

/-- Of the lists of input values, those that arguments are given for. -/
instance : HasNode (Delimited InputValueDefinition) := ⟨.argumentDefinitions⟩

end GraphQL
