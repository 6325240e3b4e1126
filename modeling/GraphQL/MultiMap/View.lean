import GraphQL.MultiMap.Bindings

/-! # Views

What a lookup hands out may be read again after further insertions. A list of values that is there
grows with them; the empty list of an absent key does not, nor does a list that was put together
from two layers. -/

namespace GraphQL

set_option autoImplicit false

variable {κ σ τ α : Type}

/-- Values handed out by a container of type `σ`. -/
inductive View (σ α : Type) where
  | fixed (values : List α)
  | live (read : σ → List α)

namespace View

/-- The values of a view, once its container is `state`. -/
def read (state : σ) : View σ α → List α
  | .fixed values => values
  | .live read => read state

/-- The view, read through a container that holds the other. -/
def through (part : τ → σ) : View σ α → View τ α
  | .fixed values => .fixed values
  | .live read => .live fun state => read (part state)

/-- A view of values that are there grows, any other stays empty. -/
def ofLookup (lookup : σ → List α) (state : σ) : View σ α :=
  if (lookup state).isEmpty then .fixed [] else .live lookup

end View

def MultiMap.view [DecidableEq κ] (m : MultiMap κ α) (key : κ) : View (MultiMap κ α) α :=
  .ofLookup (fun m => m.get key) m

def Bindings.viewMembers (b : Bindings α) (type : Text) : View (Bindings α) α :=
  .ofLookup (fun b => b.members type) b

def Bindings.viewMembersByName (b : Bindings α) (type name : Text) : View (Bindings α) α :=
  .ofLookup (fun b => b.membersByName type name) b

namespace LayeredBindings

/-- Members of both layers: a view of the definitions, unless extensions add to them. -/
def layered (b : LayeredBindings α) (members : Bindings α → List α) :
    View (LayeredBindings α) α :=
  if (members b.extensions).isEmpty then
    (View.ofLookup members b.definitions).through LayeredBindings.definitions
  else .fixed (members b.definitions ++ members b.extensions)

def viewMembers (b : LayeredBindings α) (type : Text) : View (LayeredBindings α) α :=
  b.layered fun bindings => bindings.members type

def viewMembersByName (b : LayeredBindings α) (type name : Text) : View (LayeredBindings α) α :=
  b.layered fun bindings => bindings.membersByName type name

end LayeredBindings

/-- A view shows at first what the lookup gives. -/
theorem MultiMap.read_view [DecidableEq κ] (m : MultiMap κ α) (key : κ) :
    (m.view key).read m = m.get key := by
  simp only [view, View.ofLookup]
  split <;> simp_all [View.read]

theorem LayeredBindings.read_viewMembers (b : LayeredBindings α) (type : Text) :
    (b.viewMembers type).read b = b.members type := by
  simp only [viewMembers, layered, View.ofLookup, members]
  split
  · split <;> simp_all [View.read, View.through]
  · rfl

end GraphQL
