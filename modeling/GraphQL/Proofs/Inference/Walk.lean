import GraphQL.Inference.Resolver
import GraphQL.Proofs.Table

/-! # What a resolving walk keeps

A walk over an outline takes off its stacks what it put on them, and never forgets a type that a
definition was resolved through:

* `Resolver.walk_surroundings` for the stacks,
* `Resolver.referenced_foldl` for the types. -/

namespace GraphQL

set_option autoImplicit false

open Outline

namespace Resolver

/-- What stands around the current node. -/
structure Surroundings where
  scopes : List (Option Text)
  expectations : List (Option ExpectedValue)
  argumentScopes : List (Option (Located (Delimited InputValueDefinition)))
  inputObjects : List (Option Text)

def Surroundings.pushScope (type : Option Text) (s : Surroundings) : Surroundings :=
  { s with scopes := type :: s.scopes }

def Surroundings.pushExpectation (expected : Option ExpectedValue) (s : Surroundings) :
    Surroundings := { s with expectations := expected :: s.expectations }

def surroundings (r : Resolver) : Surroundings :=
  ⟨r.scopes, r.expectations, r.argumentScopes, r.inputObjects⟩

theorem mem_of_innermost {β : Type} {stack : List (Option β)} {b : β}
    (h : innermost? stack = some b) : some b ∈ stack := by
  cases stack with
  | nil => cases h
  | cons top rest =>
    rw [innermost?, List.head?_cons, Option.join_some] at h
    rw [h]
    exact List.mem_cons_self

variable (index : Index) (revision : Nat) (r : Resolver)

/-! ## Recording -/

@[simp] theorem record_surroundings (change : Inference → Inference) :
    (r.record change).surroundings = r.surroundings := rfl

@[simp] theorem record_definition (change : Inference → Inference) :
    (r.record change).definition = r.definition := rfl

@[simp] theorem reference_surroundings (type : Text) :
    (r.reference type).surroundings = r.surroundings := by
  unfold reference
  cases r.definition <;> rfl

@[simp] theorem reference_definition (type : Text) :
    (r.reference type).definition = r.definition := by
  unfold reference
  cases h : r.definition with
  | none => exact h
  | some id => exact h

@[simp] theorem recordArguments_surroundings (given : Option Arguments)
    (taken : Option (Located (Delimited InputValueDefinition))) :
    (r.recordArguments revision given taken).surroundings = r.surroundings := by
  unfold recordArguments
  cases given <;> cases taken <;> rfl

@[simp] theorem recordArguments_definition (given : Option Arguments)
    (taken : Option (Located (Delimited InputValueDefinition))) :
    (r.recordArguments revision given taken).definition = r.definition := by
  unfold recordArguments
  cases given <;> cases taken <;> rfl

@[simp] theorem meetValue_surroundings (value : NodeId) :
    (r.meetValue value).surroundings = r.surroundings := by
  unfold meetValue
  cases innermost? r.expectations <;> rfl

@[simp] theorem meetValue_definition (value : NodeId) :
    (r.meetValue value).definition = r.definition := by
  unfold meetValue
  cases innermost? r.expectations <;> rfl

@[simp] theorem enterScope_surroundings (type : Option Text) (set : Option NodeId) :
    (r.enterScope type set).surroundings = r.surroundings.pushScope type := by
  unfold enterScope
  cases type with
  | none => rfl
  | some name =>
    cases set <;> simp only [record_surroundings, reference_surroundings] <;> rfl

@[simp] theorem enterScope_definition (type : Option Text) (set : Option NodeId) :
    (r.enterScope type set).definition = r.definition := by
  unfold enterScope
  cases type with
  | none => rfl
  | some name => cases set <;> simp only [record_definition, reference_definition]

/-! ## Entering and leaving -/

theorem enterField_surroundings (f : Field SelectionSet) :
    ∃ type, (r.enterField index revision f).surroundings = r.surroundings.pushScope type := by
  unfold enterField
  dsimp only
  split
  · exact ⟨none, rfl⟩
  · simp only [enterScope_surroundings, recordArguments_surroundings, record_surroundings]
    exact ⟨_, rfl⟩

theorem enterDirective_surroundings (d : Directive) :
    (r.enterDirective index revision d).surroundings = r.surroundings := by
  unfold enterDirective
  split
  · rfl
  · simp only [recordArguments_surroundings, record_surroundings]

theorem enterSpread_surroundings (s : FragmentSpread) :
    (r.enterSpread index revision s).surroundings = r.surroundings := by
  unfold enterSpread
  split <;> rfl

theorem enterArgument_surroundings (a : Argument) :
    ∃ expected, (r.enterArgument revision a).surroundings =
      r.surroundings.pushExpectation expected := by
  unfold enterArgument
  dsimp only
  split
  · exact ⟨none, rfl⟩
  · exact ⟨_, rfl⟩

theorem enterObject_surroundings :
    ∃ type, r.enterObject.surroundings =
      { r.surroundings with inputObjects := type :: r.surroundings.inputObjects } := by
  refine ⟨(innermost? r.expectations).bind fun expected => expected.type.value.innermostName?, ?_⟩
  unfold enterObject
  cases (innermost? r.expectations).bind fun expected => expected.type.value.innermostName? with
  | none => rfl
  | some name =>
    show ({ (r.reference name).surroundings with
      inputObjects := some name :: (r.reference name).surroundings.inputObjects } : Surroundings) = _
    rw [reference_surroundings]

theorem leave_surroundings_congr {r s : Resolver} (h : r.surroundings = s.surroundings) (n : Node) :
    (r.leave n).surroundings = (s.leave n).surroundings := by
  obtain ⟨i, scopes, expectations, argumentScopes, inputObjects, definition⟩ := r
  obtain ⟨i', scopes', expectations', argumentScopes', inputObjects', definition'⟩ := s
  cases h
  cases n with
  | value v => cases v <;> rfl
  | _ => rfl

theorem leave_enter_surroundings (n : Node) :
    ((r.enter index revision n).leave n).surroundings = r.surroundings := by
  -- what the stacks are after leaving depends on what they are before
  have scope {s : Resolver} (type : Option Text)
      (h : s.surroundings = r.surroundings.pushScope type) :
      s.leaveScope.surroundings = r.surroundings := by
    show ({ s.surroundings with scopes := s.surroundings.scopes.drop 1 } : Surroundings) = _
    rw [h]
    rfl
  have expectation {s : Resolver} (expected : Option ExpectedValue)
      (h : s.surroundings = r.surroundings.pushExpectation expected) :
      s.leaveExpectation.surroundings = r.surroundings := by
    show ({ s.surroundings with expectations := s.surroundings.expectations.drop 1 } : Surroundings) = _
    rw [h]
    rfl
  cases n with
  | operation d => exact scope _ (enterScope_surroundings r _ _)
  | fragment d => exact scope _ (enterScope_surroundings r _ _)
  | inline f => exact scope _ (enterScope_surroundings r _ _)
  | field f =>
    obtain ⟨type, h⟩ := r.enterField_surroundings index revision f
    exact scope type h
  | directive d => exact r.enterDirective_surroundings index revision d
  | spread s => exact r.enterSpread_surroundings index revision s
  | argument a =>
    obtain ⟨expected, h⟩ := r.enterArgument_surroundings revision a
    exact expectation expected h
  | value v =>
    cases v with
    | object fields =>
      obtain ⟨type, h⟩ := r.enterObject_surroundings
      show ({ r.enterObject.surroundings with
        inputObjects := r.enterObject.surroundings.inputObjects.drop 1 } : Surroundings) = _
      rw [h]
      rfl
    | _ => rfl
  | objectField f => cases f; rfl
  | _ => rfl

theorem announce_surroundings (role : Role) (n : Node) :
    ((announcement role n).foldl (step index revision) r).surroundings = r.surroundings := by
  cases role with
  | value => exact r.meetValue_surroundings _
  | _ => rfl

mutual
/-- A walk over an outline leaves the stacks as they were. -/
theorem walk_surroundings (r : Resolver) : (o : Outline) →
    (o.events.foldl (step index revision) r).surroundings = r.surroundings
  | .token t => rfl
  | .missing gap => rfl
  | .present content => by
    rw [events, List.foldl_cons]
    exact walkAll_surroundings r content
  | .node role n parts => by
    rw [events, List.foldl_append, List.foldl_cons, List.foldl_append]
    have entered := walkAll_surroundings
      (step index revision ((announcement role n).foldl (step index revision) r) (.enter n)) parts
    refine (leave_surroundings_congr entered n).trans ?_
    refine (leave_enter_surroundings index revision _ n).trans ?_
    exact r.announce_surroundings index revision role n
/-- A walk over several outlines leaves the stacks as they were. -/
theorem walkAll_surroundings (r : Resolver) : (os : List Outline) →
    ((eventsOf os).foldl (step index revision) r).surroundings = r.surroundings
  | [] => rfl
  | o :: rest => by
    rw [eventsOf, List.foldl_append, walkAll_surroundings _ rest, walk_surroundings r o]
end

theorem walk_node_surroundings (n : Node) (parts : List Outline) :
    ((eventsOf parts ++ [Event.leave n]).foldl (step index revision)
      (r.enter index revision n)).surroundings = r.surroundings := by
  rw [List.foldl_append]
  have entered := walkAll_surroundings index revision (r.enter index revision n) parts
  exact (leave_surroundings_congr entered n).trans (leave_enter_surroundings index revision r n)

/-! ## Types that definitions are resolved through -/

/-- The types that a definition was resolved through so far. -/
def referenced (definition : NodeId) : List Text := r.inference.referencedTypes.get definition

variable {r} {definition : NodeId} {type : Text}

theorem mem_referenced_reference (name : Text) :
    type ∈ (r.reference name).referenced definition ↔
      type ∈ r.referenced definition ∨ r.definition = some definition ∧ type = name := by
  unfold reference
  cases h : r.definition with
  | none => simp
  | some id =>
    show type ∈ (r.inference.referencedTypes.insertNew id name).get definition ↔ _
    rw [MultiMap.mem_get_insertNew]
    simp [referenced, eq_comm]

@[simp] theorem referenced_recordArguments (given : Option Arguments)
    (taken : Option (Located (Delimited InputValueDefinition))) :
    (r.recordArguments revision given taken).referenced definition = r.referenced definition := by
  unfold recordArguments
  cases given <;> cases taken <;> rfl

theorem mem_referenced_enterScope (scope : Option Text) (set : Option NodeId) :
    type ∈ (r.enterScope scope set).referenced definition ↔
      type ∈ r.referenced definition ∨ r.definition = some definition ∧ some type = scope := by
  unfold enterScope
  cases scope with
  | none => simp [referenced]
  | some name =>
    have h : type ∈ (({ r with scopes := some name :: r.scopes } : Resolver).reference name).referenced
        definition ↔ type ∈ r.referenced definition ∨ r.definition = some definition ∧ type = name :=
      mem_referenced_reference name
    simp only [Option.some.injEq]
    cases set <;> exact h

theorem referenced_enterField {f : Field SelectionSet} (h : type ∈ r.referenced definition) :
    type ∈ (r.enterField index revision f).referenced definition := by
  unfold enterField
  dsimp only
  split
  · exact h
  · rw [mem_referenced_enterScope, referenced_recordArguments]
    exact .inl h

theorem referenced_enter {n : Node} (h : type ∈ r.referenced definition) :
    type ∈ (r.enter index revision n).referenced definition := by
  cases n with
  | operation d => exact (mem_referenced_enterScope _ _).2 (.inl h)
  | fragment d => exact (mem_referenced_enterScope _ _).2 (.inl h)
  | inline f => exact (mem_referenced_enterScope _ _).2 (.inl h)
  | field f => exact referenced_enterField index revision h
  | directive d =>
    show type ∈ (r.enterDirective index revision d).referenced definition
    unfold enterDirective
    split
    · exact h
    · rw [referenced_recordArguments]
      exact h
  | spread s =>
    show type ∈ (r.enterSpread index revision s).referenced definition
    unfold enterSpread
    split <;> exact h
  | argument a =>
    show type ∈ (r.enterArgument revision a).referenced definition
    unfold enterArgument
    dsimp only
    split <;> exact h
  | value v =>
    cases v with
    | object fields =>
      show type ∈ r.enterObject.referenced definition
      unfold enterObject
      dsimp only
      split
      · exact h
      · exact (mem_referenced_reference _).2 (.inl h)
    | _ => exact h
  | objectField f => cases f; exact h
  | _ => exact h

@[simp] theorem referenced_leave (n : Node) :
    (r.leave n).referenced definition = r.referenced definition := by
  cases n with
  | value v => cases v <;> rfl
  | _ => rfl

@[simp] theorem referenced_meetValue (value : NodeId) :
    (r.meetValue value).referenced definition = r.referenced definition := by
  unfold meetValue
  split <;> rfl

theorem referenced_step {event : Event} (h : type ∈ r.referenced definition) :
    type ∈ (r.step index revision event).referenced definition := by
  cases event with
  | announce role n =>
    cases role with
    | value =>
      show type ∈ (r.meetValue _).referenced definition
      rwa [referenced_meetValue]
    | _ => exact h
  | enter n => exact referenced_enter index revision h
  | leave n =>
    show type ∈ (r.leave n).referenced definition
    rwa [referenced_leave]
  | _ => exact h

/-- No type is forgotten. -/
theorem referenced_foldl {events : List Event} (h : type ∈ r.referenced definition) :
    type ∈ (events.foldl (step index revision) r).referenced definition := by
  induction events generalizing r with
  | nil => exact h
  | cons event events ih => exact ih (referenced_step index revision h)

end Resolver

end GraphQL
