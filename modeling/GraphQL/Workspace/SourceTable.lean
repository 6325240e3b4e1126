import GraphQL.Text

/-! # Source numbers

A `SourceTable` numbers document keys from 1 in the order in which they were first seen. A key keeps
its number, also when its document is gone. -/

namespace GraphQL

set_option autoImplicit false

/-- Keys, in the order of their numbers. -/
structure SourceTable where
  keys : List Text := []

namespace SourceTable

def id? (t : SourceTable) (key : Text) : Option Nat := (t.keys.idxOf? key).map (· + 1)

def key? (t : SourceTable) (id : Nat) : Option Text :=
  if id = 0 then none else t.keys[id - 1]?

/-- The number of a key, given now if it has none. -/
def intern (key : Text) (t : SourceTable) : SourceTable × Nat :=
  match t.id? key with
  | some id => (t, id)
  | none => (⟨t.keys ++ [key]⟩, t.keys.length + 1)

def isValid (t : SourceTable) (id : Nat) : Bool := (t.key? id).isSome

def size (t : SourceTable) : Nat := t.keys.length

def entries (t : SourceTable) : List (Nat × Text) := t.keys.mapIdx fun i key => (i + 1, key)

end SourceTable

end GraphQL
