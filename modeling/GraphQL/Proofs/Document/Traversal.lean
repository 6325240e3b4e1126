import GraphQL.Proofs.Document.Pieces

/-! # Traversals

`Traverses` says which calls a visitor gets for what a node holds, in order: one for every token, one
for every slot, and a visit around all that a child holds, with a call for a group in front where
the child stands for one. `Node.callbacks_wellNested` is about any node at all:

* a walk that starts there makes just these calls,
* it closes the nodes it opens, the last one first,
* the nodes, tokens and gaps it meets are those of the node spelled out as a record. -/

namespace GraphQL

set_option autoImplicit false

open Outline
open Recovery (Gap)

/-! ## Calls for what a node holds -/

/-- The call in front of the visit of a node, by what the node stands for. -/
def Role.calls (n : Node) : Role → List Callback
  | .plain => []
  | role => [.group role n]

/-- The calls for constituents of a node. -/
inductive Traverses : Node → List Constituent → List Callback → Prop where
  | nil {parent : Node} : Traverses parent [] []
  | token {parent : Node} {t : Token} {cs : List Constituent} {rest : List Callback}
      (later : Traverses parent cs rest) :
      Traverses parent (.plain (.token t) :: cs) (.span t.span :: rest)
  | node {parent n : Node} {inner : List Callback} {cs : List Constituent} {rest : List Callback}
      (inside : Traverses n n.constituents inner) (later : Traverses parent cs rest) :
      Traverses parent (.plain (.node n) :: cs)
        ((parent.roleOf n).calls n ++ .visit n :: (inner ++ .postVisit n :: rest))
  | filled {parent : Node} {content : List Child} {inner : List Callback} {cs : List Constituent}
      {rest : List Callback} (inside : Traverses parent (content.map .plain) inner)
      (later : Traverses parent cs rest) :
      Traverses parent (.filled content :: cs) (.recoverable true :: (inner ++ rest))
  | lacking {parent : Node} {gap : Gap Expectation} {cs : List Constituent} {rest : List Callback}
      (later : Traverses parent cs rest) :
      Traverses parent (.lacking gap :: cs) (.recoverable false :: .missing gap :: rest)

/-- The calls for a node at which a traversal starts. -/
def Node.Traversal (root : Node) (calls : List Callback) : Prop :=
  ∃ inner, Traverses root root.constituents inner ∧
    calls = .visit root :: (inner ++ [.postVisit root])

/-! ## The calls of a walk -/

theorem Role.callbacks_announcement (role : Role) (n : Node) :
    (announcement role n).flatMap Event.callbacks = role.calls n := by
  cases role <;> rfl

def Outline.callbacksOf (os : List Outline) : List Callback :=
  (eventsOf os).flatMap Event.callbacks

theorem Outline.callbacksOf_cons (o : Outline) (os : List Outline) :
    callbacksOf (o :: os) = o.events.flatMap Event.callbacks ++ callbacksOf os := by
  rw [callbacksOf, eventsOf, List.flatMap_append, callbacksOf]

theorem Outline.callbacks_node (role : Role) (n : Node) (parts : List Outline) :
    (Outline.node role n parts).events.flatMap Event.callbacks =
      role.calls n ++ .visit n :: (callbacksOf parts ++ [.postVisit n]) := by
  rw [events, List.flatMap_append, Role.callbacks_announcement, List.flatMap_cons,
    List.flatMap_append]
  rfl

/-- A walk over outlines makes the calls for the constituents that they show. The recursion is on
the outlines, since a node is no part of the constituents it stands for. -/
theorem Outline.traverses : (os : List Outline) → (parent : Node) → (cs : List Constituent) →
    cs.map (Constituent.outline parent) = os → Traverses parent cs (callbacksOf os)
  | [], parent, cs, shown => by
    rw [List.map_eq_nil_iff.1 shown]
    exact .nil
  | .token t :: os, parent, cs, shown => by
    obtain ⟨c, cs, rfl, head, tail⟩ := List.map_eq_cons_iff.1 shown
    obtain rfl := Constituent.of_outline_token head
    rw [callbacksOf_cons]
    exact .token (Outline.traverses os parent cs tail)
  | .node role n parts :: os, parent, cs, shown => by
    obtain ⟨c, cs, rfl, head, tail⟩ := List.map_eq_cons_iff.1 shown
    obtain ⟨rfl, rfl, own⟩ := Constituent.of_outline_node head
    have inside : Traverses n n.constituents (callbacksOf parts) :=
      Outline.traverses parts n n.constituents (n.parts_eq_constituents.symm.trans own)
    rw [callbacksOf_cons, callbacks_node, List.append_assoc, List.cons_append, List.append_assoc]
    exact .node inside (Outline.traverses os parent cs tail)
  | .present content :: os, parent, cs, shown => by
    obtain ⟨c, cs, rfl, head, tail⟩ := List.map_eq_cons_iff.1 shown
    obtain ⟨children, rfl, own⟩ := Constituent.of_outline_present head
    have inside : Traverses parent (children.map .plain) (callbacksOf content) :=
      Outline.traverses content parent (children.map .plain) own
    rw [callbacksOf_cons]
    exact .filled inside (Outline.traverses os parent cs tail)
  | .missing gap :: os, parent, cs, shown => by
    obtain ⟨c, cs, rfl, head, tail⟩ := List.map_eq_cons_iff.1 shown
    obtain rfl := Constituent.of_outline_missing head
    rw [callbacksOf_cons]
    exact .lacking (Outline.traverses os parent cs tail)

theorem Node.traversal (root : Node) : root.Traversal root.callbacks := by
  refine ⟨callbacksOf root.parts, Outline.traverses root.parts root root.constituents
    root.parts_eq_constituents.symm, ?_⟩
  rw [Node.callbacks, Node.outline_eq, callbacks_node]
  rfl

/-- What a node holds fixes the calls. -/
theorem Traverses.unique {parent : Node} {cs : List Constituent} {calls calls' : List Callback}
    (h : Traverses parent cs calls) (h' : Traverses parent cs calls') : calls = calls' := by
  induction h generalizing calls' with
  | nil =>
    cases h'
    rfl
  | token _ later =>
    cases h' with
    | token rest' => rw [later rest']
  | node _ _ inside later =>
    cases h' with
    | node inner' rest' => rw [inside inner', later rest']
  | filled _ _ inside later =>
    cases h' with
    | filled inner' rest' => rw [inside inner', later rest']
  | lacking _ later =>
    cases h' with
    | lacking rest' => rw [later rest']

theorem Node.Traversal.unique {root : Node} {calls : List Callback} (h : root.Traversal calls) :
    calls = root.callbacks := by
  obtain ⟨inner, inside, rfl⟩ := h
  obtain ⟨inner', inside', same⟩ := root.traversal
  rw [same, inside.unique inside']

/-! ## Balance -/

namespace Callback

/-- Calls that neither open nor close a node. -/
def isInner : Callback → Bool
  | .visit _ => false
  | .postVisit _ => false
  | _ => true

/-- Every node that is opened is closed, after all the calls in between. -/
inductive Balanced : List Callback → Prop where
  | nil : Balanced []
  | call {c : Callback} {rest : List Callback} (inner : c.isInner = true)
      (later : Balanced rest) : Balanced (c :: rest)
  | node {n : Node} {inner rest : List Callback} (inside : Balanced inner)
      (later : Balanced rest) : Balanced (.visit n :: (inner ++ .postVisit n :: rest))

theorem Balanced.append {calls rest : List Callback} (h : Balanced calls) (later : Balanced rest) :
    Balanced (calls ++ rest) := by
  induction h with
  | nil => exact later
  | call inner _ ih => exact .call inner ih
  | node inside _ _ ih =>
    rw [List.cons_append, List.append_assoc]
    exact .node inside ih

end Callback

open Callback

theorem Role.calls_balanced (role : Role) (n : Node) : Balanced (role.calls n) := by
  cases role with
  | plain => exact .nil
  | _ => exact .call rfl .nil

theorem Traverses.balanced {parent : Node} {cs : List Constituent} {calls : List Callback}
    (h : Traverses parent cs calls) : Balanced calls := by
  induction h with
  | nil => exact .nil
  | token _ later => exact .call rfl later
  | node _ _ inside later => exact (Role.calls_balanced _ _).append (.node inside later)
  | filled _ _ inside later => exact .call rfl (inside.append later)
  | lacking _ later => exact .call rfl (.call rfl later)

/-! ## Completeness -/

/-- The piece that a call is about. -/
def Callback.piece? : Callback → Option Piece
  | .visit n => some (.node n.record)
  | .span s => some (.token s)
  | .missing gap => some (.gap gap)
  | _ => none

theorem Role.piece_calls (role : Role) (n : Node) : (role.calls n).filterMap piece? = [] := by
  cases role <;> rfl

/-- A visit meets the node and what is met inside. -/
theorem Callback.visit_perm {n : Node} {inner : List Callback} (rest : List Callback)
    (inside : (inner.filterMap piece?).Perm (n.constituents.flatMap Constituent.pieces)) :
    ((.visit n :: (inner ++ .postVisit n :: rest)).filterMap piece?).Perm
      (n.record.pieces ++ rest.filterMap piece?) := by
  have own : (Piece.node n.record :: inner.filterMap piece?).Perm n.record.pieces :=
    (inside.cons _).trans n.pieces_perm.symm
  have split : (Callback.visit n :: (inner ++ .postVisit n :: rest)).filterMap piece? =
      (Piece.node n.record :: inner.filterMap piece?) ++ rest.filterMap piece? := by
    simp [List.filterMap_cons, piece?]
  rw [split]
  exact own.append_right _

theorem Traverses.pieces_perm {parent : Node} {cs : List Constituent} {calls : List Callback}
    (h : Traverses parent cs calls) :
    (calls.filterMap piece?).Perm (cs.flatMap Constituent.pieces) := by
  induction h with
  | nil => exact .nil
  | token _ later => exact later.cons _
  | node _ _ inside later =>
    rw [List.filterMap_append, Role.piece_calls, List.nil_append]
    exact (visit_perm _ inside).trans (later.append_left _)
  | filled _ _ inside later =>
    rw [List.flatMap_map] at inside
    rw [List.filterMap_cons_none rfl, List.filterMap_append]
    exact inside.append later
  | lacking _ later => exact later.cons _

/-- A traversal is well nested and complete, whatever the node it starts at. -/
theorem Node.callbacks_wellNested (root : Node) :
    (∀ calls, root.Traversal calls ↔ calls = root.callbacks) ∧
      Balanced root.callbacks ∧
      (root.callbacks.filterMap piece?).Perm root.record.pieces := by
  obtain ⟨inner, inside, calls_eq⟩ := root.traversal
  refine ⟨fun calls => ⟨fun h => h.unique, fun h => h ▸ root.traversal⟩, ?_, ?_⟩
  · rw [calls_eq]
    exact .node inside.balanced .nil
  · rw [calls_eq]
    simpa using visit_perm [] inside.pieces_perm

end GraphQL
