import GraphQL.Dependency
import GraphQL.Dependency.Graph

/-! # The registry of definitions

Every definition gets a number that is never given again. A `Registry` knows which document each
number belongs to, and what the definitions produce and consume. Registering and unregistering tell
which definitions are stale because of it: a stale one refers, directly or through others, to
something that changed. -/

namespace GraphQL

set_option autoImplicit false

/-- The definitions of all documents by number. -/
structure Registry where
  graph : Graph Nat Dependency := {}
  /-- The source numbers of the documents that definitions belong to -/
  owners : Table Nat Nat := {}
  next : Nat := 0

namespace Registry

def consumeAll (id : Nat) (names : List Dependency) (g : Graph Nat Dependency) :
    Graph Nat Dependency :=
  names.foldl (fun g name => g.consume id name) g

/-- What a new definition makes stale: the definitions that refer to its name already, and all that
depends on them. -/
def staleBy (g : Graph Nat Dependency) (product : Option Dependency) (stale : List Nat) :
    List Nat :=
  match product with
  | none => stale
  | some name => (g.consumersOf name).foldl (fun stale id => g.invalidate id stale) stale

def register (source : Nat) (definition : Definition) (r : Registry) (stale : List Nat) :
    Registry × List Nat :=
  let graph := match definition.product? with
    | none => r.graph
    | some name => r.graph.produce r.next name
  ({ graph := consumeAll r.next definition.consumed graph
     owners := r.owners.insert r.next source
     next := r.next + 1 },
    staleBy graph definition.product? stale)

/-- Gives consecutive numbers to the definitions of a document. -/
def registerAll (source : Nat) (definitions : List Definition) (r : Registry) (stale : List Nat) :
    Registry × List Nat :=
  definitions.foldl (fun (r, stale) d => r.register source d stale) (r, stale)

/-- Drops a definition. All that depends on it is stale. -/
def unregister (r : Registry) (stale : List Nat) (id : Nat) : Registry × List Nat :=
  ({ r with graph := r.graph.remove id, owners := r.owners.erase id }, r.graph.invalidate id stale)

/-- Drops definitions one after the other. -/
def unregisterAll (ids : List Nat) (r : Registry) : Registry × List Nat :=
  ids.foldl (fun (r, stale) id => r.unregister stale id) (r, [])

/-- Notes that a definition was resolved through some types. -/
def trackTypes (id : Nat) (types : List Text) (r : Registry) : Registry :=
  { r with graph := consumeAll id (types.map .type) r.graph }

end Registry

end GraphQL
