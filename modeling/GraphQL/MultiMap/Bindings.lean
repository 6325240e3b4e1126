import GraphQL.MultiMap
import GraphQL.Text

/-! # Bindings

What belongs to a type by name: its fields, input fields, enum values, union members and
interfaces. `Bindings` files a member twice, under its type and under type and name together.
`LayeredBindings` keeps what extensions add apart from what definitions give, so that it comes last
whatever was bound first. -/

namespace GraphQL

set_option autoImplicit false

variable {α : Type}

/-- Named members of types, by type and once more by type and name, in the order of insertion. -/
structure Bindings (α : Type) where
  byType : MultiMap Text α := {}
  byName : MultiMap (Text × Text) α := {}

namespace Bindings

def insert (type name : Text) (member : α) (b : Bindings α) : Bindings α :=
  ⟨b.byType.insert type member, b.byName.insert (type, name) member⟩

def members (b : Bindings α) (type : Text) : List α := b.byType.get type

def membersByName (b : Bindings α) (type name : Text) : List α := b.byName.get (type, name)

def types (b : Bindings α) : List Text := b.byType.keys

theorem members_insert (b : Bindings α) (type name : Text) (member : α) (t : Text) :
    (b.insert type name member).members t =
      if t = type then b.members t ++ [member] else b.members t :=
  MultiMap.get_insert b.byType type member t

theorem membersByName_insert (b : Bindings α) (type name : Text) (member : α) (t n : Text) :
    (b.insert type name member).membersByName t n =
      if t = type ∧ n = name then b.membersByName t n ++ [member] else b.membersByName t n := by
  simp only [membersByName, insert, MultiMap.get_insert, Prod.mk.injEq]

end Bindings

/-- Where a member comes from. -/
inductive Layer where
  | definition
  | extension
deriving DecidableEq, Repr

/-- Members from definitions, followed by members from extensions. -/
structure LayeredBindings (α : Type) where
  definitions : Bindings α := {}
  extensions : Bindings α := {}

namespace LayeredBindings

def insert (layer : Layer) (type name : Text) (member : α) (b : LayeredBindings α) :
    LayeredBindings α :=
  match layer with
  | .definition => { b with definitions := b.definitions.insert type name member }
  | .extension => { b with extensions := b.extensions.insert type name member }

def members (b : LayeredBindings α) (type : Text) : List α :=
  b.definitions.members type ++ b.extensions.members type

def membersByName (b : LayeredBindings α) (type name : Text) : List α :=
  b.definitions.membersByName type name ++ b.extensions.membersByName type name

end LayeredBindings

end GraphQL
