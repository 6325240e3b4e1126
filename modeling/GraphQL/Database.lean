import GraphQL.Inference.Resolver

/-! # Databases

A `Database` is a snapshot of some revisions: their index, and an inference for each. It does not
change. `Database.build` may reuse inferences that were made before. A lookup of a node asks the
inferences in turn. -/

namespace GraphQL

set_option autoImplicit false

/-- A snapshot of revisions. -/
structure Database where
  revisions : List Revision := []
  index : Index := {}
  /-- The inferences by revision, in the order of the first mention of each revision -/
  inferences : List (Nat × Inference) := []

/-- The revisions without repetitions, each at its first place. -/
def distinctRevisions : List Revision → List Revision
  | [] => []
  | r :: rest => r :: (distinctRevisions rest).filter fun other => other.id != r.id

namespace Database

/-- A snapshot of some revisions. Inferences in `reuse` are taken as they are, the others made. -/
def build (revisions : List Revision) (reuse : Table Nat Inference) : Database :=
  let index := Index.build revisions
  ⟨revisions, index, (distinctRevisions revisions).map fun revision =>
    (revision.id, (reuse.get? revision.id).getD (infer index revision))⟩

def inferenceOf? (database : Database) (revision : Nat) : Option Inference :=
  database.inferences.lookup revision

/-- What a node resolves to by the first inference that knows it. -/
def lookup? {α : Type} (database : Database) (table : Inference → Table NodeId α) (node : NodeId) :
    Option α :=
  database.inferences.findSome? fun (_, inference) => (table inference).get? node

variable (database : Database) (node : NodeId)

def field? : Option (Located FieldDefinition) := database.lookup? Inference.fields node

def selection? : Option Text := database.lookup? Inference.selections node

def argumentList? : Option (Located (Delimited InputValueDefinition)) :=
  database.lookup? Inference.argumentLists node

def argument? : Option (Located InputValueDefinition) := database.lookup? Inference.arguments node

def valueType? : Option (Located TypeRef) := database.lookup? Inference.valueTypes node

def valueDefault? : Option (Located Value) := database.lookup? Inference.valueDefaults node

def directive? : Option (Located DirectiveDefinition) := database.lookup? Inference.directives node

def fragment? : Option (Located FragmentDefinition) := database.lookup? Inference.fragments node

def spreads : List (Located FragmentSpread) :=
  database.inferences.flatMap fun (_, inference) => inference.spreads.get node

end Database

end GraphQL
