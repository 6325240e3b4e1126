import GraphQL.Proofs.Inference.Simulation

/-! # Nodes that are looked up by name

A walk files a directive and a spread under their own identities only, so an inference resolves the
directives and spreads of a document by their names, `infer_directive` and `infer_spread`. -/

namespace GraphQL

set_option autoImplicit false

open Outline

/-! ## Meeting every node -/

/-- The node that an event enters. -/
def Event.entered? : Event → Option Node
  | .enter n => some n
  | _ => none

theorem announcement_entered (role : Role) (n : Node) :
    (announcement role n).filterMap Event.entered? = [] := by
  cases role <;> rfl

mutual
/-- A walk enters the nodes of an outline in their order. -/
theorem Outline.entered_events : (o : Outline) → o.events.filterMap Event.entered? = o.nodes
  | .token t => by simp [events, nodes, Event.entered?]
  | .missing gap => by simp [events, nodes, Event.entered?]
  | .present content => by
    rw [nodes, events, List.filterMap_cons_none rfl, Outline.entered_eventsOf]
  | .node role m parts => by
    rw [nodes, events, List.filterMap_append, announcement_entered, List.nil_append,
      List.filterMap_cons_some (f := Event.entered?) (a := .enter m) rfl, List.filterMap_append,
      Outline.entered_eventsOf]
    exact congrArg _ (List.append_nil _)
theorem Outline.entered_eventsOf : (os : List Outline) →
    (eventsOf os).filterMap Event.entered? = nodesOf os
  | [] => by rw [eventsOf, nodesOf, List.filterMap_nil]
  | o :: rest => by
    rw [eventsOf, nodesOf, List.filterMap_append, Outline.entered_events, Outline.entered_eventsOf]
end

theorem Outline.enter_mem_events (o : Outline) {n : Node} (hn : n ∈ o.nodes) :
    Event.enter n ∈ o.events := by
  rw [← o.entered_events, List.mem_filterMap] at hn
  obtain ⟨e, he, entered⟩ := hn
  cases e with
  | enter m => exact Option.some.inj entered ▸ he
  | _ => cases entered

/-- Of two nodes of a document with one identity, both are the same if one is headed. -/
theorem Document.node_unique {document : Document}
    (ordered : document.outline.tokens.Pairwise Token.Before) {revision : Nat} {n m : Node}
    (hn : n ∈ document.outline.nodes) (hm : m ∈ document.outline.nodes)
    (headed : n.kind.isHeaded = true) (same : n.id revision = m.id revision) : n = m := by
  rw [← document.map_node_sites] at hn hm
  obtain ⟨s, hs, rfl⟩ := List.mem_map.1 hn
  obtain ⟨s', hs', rfl⟩ := List.mem_map.1 hm
  rw [site_unique ordered hs hs' headed same]

namespace Resolver

variable (index : Index) (revision : Nat) (r : Resolver)

/-! ## The last write -/

/-- What a walk filed under an identity is what the last step wrote there. -/
theorem get_foldl {β : Type} (get : Resolver → Option β) {written : Event → Option β}
    (write : ∀ (r : Resolver) e, get (r.step index revision e) = (written e).or (get r))
    (events : List Event) (r : Resolver) :
    get (events.foldl (step index revision) r) =
      (events.reverse.findSome? written).or (get r) := by
  induction events generalizing r with
  | nil => rfl
  | cons e events ih =>
    rw [List.foldl_cons, ih, write, List.reverse_cons, List.findSome?_append, Option.or_assoc,
      List.findSome?_singleton]

/-! ## What is filed under names -/

/-- The tables that are filed by name. -/
def named : Table NodeId (Located DirectiveDefinition) × Table NodeId (Located FragmentDefinition) ×
    MultiMap NodeId (Located FragmentSpread) :=
  (r.inference.directives, r.inference.fragments, r.inference.spreads)

theorem reference_named (type : Text) : (r.reference type).named = r.named := by
  unfold reference
  cases r.definition <;> rfl

theorem enterScope_named (type : Option Text) (set : Option NodeId) :
    (r.enterScope type set).named = r.named := by
  unfold enterScope
  cases type with
  | none => rfl
  | some name =>
    have h := reference_named ({ r with scopes := some name :: r.scopes }) name
    cases set <;> exact h

theorem recordArguments_named (given : Option Arguments)
    (taken : Option (Located (Delimited InputValueDefinition))) :
    (r.recordArguments revision given taken).named = r.named := by
  unfold recordArguments
  cases given <;> cases taken <;> rfl

theorem enterObject_named : r.enterObject.named = r.named := by
  unfold enterObject
  dsimp only
  split
  · rfl
  · exact r.reference_named _

theorem enterField_named (f : Field SelectionSet) :
    (r.enterField index revision f).named = r.named := by
  unfold enterField
  dsimp only
  split
  · rfl
  · rw [enterScope_named, recordArguments_named]
    rfl

theorem enterArgument_named (a : Argument) : (r.enterArgument revision a).named = r.named := by
  unfold enterArgument
  dsimp only
  split <;> rfl

theorem leave_named (n : Node) : (r.leave n).named = r.named := by
  unfold named
  rw [leave_inference]

theorem meetValue_named (value : NodeId) : (r.meetValue value).named = r.named := by
  unfold meetValue
  split <;> rfl

def directiveNamed? (d : Directive) : Option (Located DirectiveDefinition) :=
  (textOf? d.name).bind index.directives.first?

def fragmentNamed? (s : FragmentSpread) : Option (Located FragmentDefinition) :=
  index.fragments.first? s.name.text

/-- What a step files under the identity of a directive. -/
def directiveWritten (id : NodeId) : Event → Option (Located DirectiveDefinition)
  | .enter (.directive d) =>
    if id = (Node.directive d).id revision then directiveNamed? index d else none
  | _ => none

/-- What a step files under the identity of a spread. -/
def fragmentWritten (id : NodeId) : Event → Option (Located FragmentDefinition)
  | .enter (.spread s) => if id = (Node.spread s).id revision then fragmentNamed? index s else none
  | _ => none

variable {index revision r}

theorem named_iff {s : Resolver} : r.named = s.named ↔
    r.inference.directives = s.inference.directives ∧
      r.inference.fragments = s.inference.fragments ∧
        r.inference.spreads = s.inference.spreads := by
  simp only [named, Prod.mk.injEq]

/-- No step but to a directive or a spread files anything by name. -/
theorem enter_named {n : Node} (directive : ∀ d, n ≠ .directive d) (spread : ∀ s, n ≠ .spread s) :
    (r.enter index revision n).named = r.named := by
  cases n with
  | operation d => exact enterScope_named r _ _
  | fragment d => exact enterScope_named r _ _
  | inline f => exact enterScope_named r _ _
  | field f => exact enterField_named index revision r f
  | directive d => exact absurd rfl (directive d)
  | spread s => exact absurd rfl (spread s)
  | argument a => exact enterArgument_named revision r a
  | value v =>
    cases v with
    | object fields => exact enterObject_named r
    | _ => rfl
  | objectField f => cases f; rfl
  | _ => rfl

theorem step_named {e : Event} (directive : ∀ d, e ≠ .enter (.directive d))
    (spread : ∀ s, e ≠ .enter (.spread s)) : (r.step index revision e).named = r.named := by
  cases e with
  | announce role n =>
    cases role with
    | value => exact meetValue_named r _
    | _ => rfl
  | enter n =>
    exact enter_named (fun d hd => directive d (congrArg _ hd)) fun s hs => spread s (congrArg _ hs)
  | leave n => exact leave_named r n
  | _ => rfl

theorem get_enterDirective (d : Directive) (id : NodeId) :
    (r.enterDirective index revision d).inference.directives.get? id =
      (directiveWritten index revision id (.enter (.directive d))).or
        (r.inference.directives.get? id) := by
  unfold enterDirective directiveWritten directiveNamed?
  dsimp only
  generalize (textOf? d.name).bind index.directives.first? = lookup
  cases lookup with
  | none => rw [ite_self, Option.none_or]
  | some found =>
    have same := (named_iff.1 (recordArguments_named revision (r.record fun i =>
      { i with directives := i.directives.insert ((Node.directive d).id revision) found })
      d.arguments (takenBy found.revision found.value.arguments))).1
    dsimp only
    rw [same]
    show Table.get? (Table.insert _ _ _) _ = _
    rw [Table.get?_insert]
    split <;> rfl

theorem get_enterSpread (s : FragmentSpread) (id : NodeId) :
    (r.enterSpread index revision s).inference.fragments.get? id =
      (fragmentWritten index revision id (.enter (.spread s))).or
        (r.inference.fragments.get? id) := by
  unfold enterSpread fragmentWritten fragmentNamed?
  dsimp only
  generalize index.fragments.first? s.name.text = lookup
  cases lookup with
  | none => rw [ite_self, Option.none_or]
  | some found =>
    show Table.get? (Table.insert _ _ _) _ = _
    rw [Table.get?_insert]
    split <;> rfl

theorem get_directives_step (id : NodeId) (r : Resolver) (e : Event) :
    (r.step index revision e).inference.directives.get? id =
      (directiveWritten index revision id e).or (r.inference.directives.get? id) := by
  by_cases hd : ∃ d, e = .enter (.directive d)
  · obtain ⟨d, rfl⟩ := hd
    exact get_enterDirective d id
  · have none : directiveWritten index revision id e = none := by
      unfold directiveWritten
      split
      · next d => exact absurd ⟨d, rfl⟩ hd
      · rfl
    rw [none, Option.none_or]
    by_cases hs : ∃ s, e = .enter (.spread s)
    · obtain ⟨s, rfl⟩ := hs
      show (r.enterSpread index revision s).inference.directives.get? id = _
      unfold enterSpread
      split <;> rfl
    · have same : (r.step index revision e).named = r.named :=
        step_named (fun d h => hd ⟨d, h⟩) fun s h => hs ⟨s, h⟩
      rw [(named_iff.1 same).1]

/-- No step but to a spread files anything about fragments. -/
theorem step_fragments {e : Event} (other : ∀ s, e ≠ .enter (.spread s)) :
    (r.step index revision e).inference.fragments = r.inference.fragments ∧
      (r.step index revision e).inference.spreads = r.inference.spreads := by
  by_cases hd : ∃ d, e = .enter (.directive d)
  · obtain ⟨d, rfl⟩ := hd
    show (r.enterDirective index revision d).inference.fragments = _ ∧
      (r.enterDirective index revision d).inference.spreads = _
    unfold enterDirective
    split
    · exact ⟨rfl, rfl⟩
    · exact (named_iff.1 (recordArguments_named revision _ _ _)).2
  · exact (named_iff.1 (step_named (fun d h => hd ⟨d, h⟩) other)).2

theorem get_fragments_step (id : NodeId) (r : Resolver) (e : Event) :
    (r.step index revision e).inference.fragments.get? id =
      (fragmentWritten index revision id e).or (r.inference.fragments.get? id) := by
  by_cases hs : ∃ s, e = .enter (.spread s)
  · obtain ⟨s, rfl⟩ := hs
    exact get_enterSpread s id
  · have none : fragmentWritten index revision id e = none := by
      unfold fragmentWritten
      split
      · next s => exact absurd ⟨s, rfl⟩ hs
      · rfl
    rw [none, Option.none_or, (step_fragments fun s h => hs ⟨s, h⟩).1]

end Resolver

/-! ## Whole documents -/

open Resolver

variable {index : Index} {revision : Revision}

/-- Directives are resolved by their names. -/
theorem infer_directive (ordered : revision.tree.outline.tokens.Pairwise Token.Before)
    {d : Directive} (hd : .directive d ∈ revision.tree.outline.nodes) :
    (infer index revision).directives.get? ((Node.directive d).id revision.id) =
      directiveNamed? index d := by
  unfold infer
  rw [get_foldl _ _ (fun r => r.inference.directives.get? _) (get_directives_step _)]
  refine (Option.or_none ..).trans (findSome_eq (a := .enter (.directive d)) ?_ ?_ fun e he => ?_)
  · exact List.mem_reverse.2 (Outline.enter_mem_events _ hd)
  · exact if_pos rfl
  · unfold directiveWritten
    split
    · next d' =>
      by_cases same : (Node.directive d).id revision.id = (Node.directive d').id revision.id
      · have hd' := node_of_mem_events _ _ (List.mem_reverse.1 he) _ rfl
        have e := Document.node_unique ordered hd hd' rfl same
        cases e
        exact .inr (if_pos rfl)
      · exact .inl (if_neg same)
    · exact .inl rfl

/-- Spreads are resolved by their names. -/
theorem infer_spread (ordered : revision.tree.outline.tokens.Pairwise Token.Before)
    {s : FragmentSpread} (hs : .spread s ∈ revision.tree.outline.nodes) :
    (infer index revision).fragments.get? ((Node.spread s).id revision.id) =
      fragmentNamed? index s := by
  unfold infer
  rw [get_foldl _ _ (fun r => r.inference.fragments.get? _) (get_fragments_step _)]
  refine (Option.or_none ..).trans (findSome_eq (a := .enter (.spread s)) ?_ ?_ fun e he => ?_)
  · exact List.mem_reverse.2 (Outline.enter_mem_events _ hs)
  · exact if_pos rfl
  · unfold fragmentWritten
    split
    · next s' =>
      by_cases same : (Node.spread s).id revision.id = (Node.spread s').id revision.id
      · have hs' := node_of_mem_events _ _ (List.mem_reverse.1 he) _ rfl
        have e := Document.node_unique ordered hs hs' rfl same
        cases e
        exact .inr (if_pos rfl)
      · exact .inl (if_neg same)
    · exact .inl rfl

theorem infer_directive_other {id : NodeId} (other : id.revision ≠ revision.id) :
    (infer index revision).directives.get? id = none := by
  unfold infer
  rw [get_foldl _ _ (fun r => r.inference.directives.get? _) (get_directives_step _)]
  refine (Option.or_none ..).trans (List.findSome?_eq_none_iff.2 fun e _ => ?_)
  unfold directiveWritten
  split
  · exact if_neg fun same => other (congrArg NodeId.revision same)
  · rfl

theorem infer_spread_other {id : NodeId} (other : id.revision ≠ revision.id) :
    (infer index revision).fragments.get? id = none := by
  unfold infer
  rw [get_foldl _ _ (fun r => r.inference.fragments.get? _) (get_fragments_step _)]
  refine (Option.or_none ..).trans (List.findSome?_eq_none_iff.2 fun e _ => ?_)
  unfold fragmentWritten
  split
  · exact if_neg fun same => other (congrArg NodeId.revision same)
  · rfl

end GraphQL
