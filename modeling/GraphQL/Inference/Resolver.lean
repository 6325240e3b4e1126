import GraphQL.Database.Index
import GraphQL.Inference

/-! # Resolution

`infer` resolves the nodes of a revision in one walk over its tree. On the way a `Resolver` keeps
stacks of what stands around the current node:

* the types that selections select from; none where a lookup failed, so that what is nested there
  resolves to nothing,
* what is expected of the next value,
* the arguments that the innermost argument list may give,
* the type of the innermost object value. -/

namespace GraphQL

set_option autoImplicit false

structure ExpectedValue where
  type : Located TypeRef
  default : Option (Located Value)

/-- The state of a walk: what is resolved so far, and what stands around the current node. -/
structure Resolver where
  inference : Inference := {}
  scopes : List (Option Text) := []
  expectations : List (Option ExpectedValue) := []
  argumentScopes : List (Option (Located (Delimited InputValueDefinition))) := []
  inputObjects : List (Option Text) := []
  definition : Option NodeId := none

def innermost? {α : Type} (stack : List (Option α)) : Option α := stack.head?.join

/-- What an input value expects, if its type is there. -/
def expectedBy (definition : Located InputValueDefinition) : Option ExpectedValue :=
  definition.value.type.value?.map fun type =>
    ⟨⟨definition.revision, type⟩, definition.value.default.bind fun default =>
      default.value?.map fun value => ⟨definition.revision, value⟩⟩

/-- A value of a type of this revision is expected, if the type is there. -/
def expectedOf (revision : Nat) (type : Required TypeRef) : Option ExpectedValue :=
  type.value?.map fun type => ⟨⟨revision, type⟩, none⟩

def ExpectedValue.item? (expected : ExpectedValue) : Option ExpectedValue :=
  expected.type.value.item?.map fun item => ⟨⟨expected.type.revision, item⟩, none⟩

/-- Name of the type that a type condition asks for, if there is one. -/
def conditionType? (condition : Option TypeCondition) : Option Text :=
  condition.bind TypeCondition.typeName?

namespace Resolver

def record (change : Inference → Inference) (r : Resolver) : Resolver :=
  { r with inference := change r.inference }

def reference (type : Text) (r : Resolver) : Resolver :=
  match r.definition with
  | none => r
  | some id => r.record fun i =>
    { i with referencedTypes := i.referencedTypes.insertNew id type }

/-- Enters a construct whose selection set selects from a type. -/
def enterScope (type : Option Text) (set : Option NodeId) (r : Resolver) : Resolver :=
  let r := { r with scopes := type :: r.scopes }
  match type with
  | none => r
  | some name =>
    let r := r.reference name
    match set with
    | none => r
    | some set => r.record fun i => { i with selections := i.selections.insert set name }

def leaveScope (r : Resolver) : Resolver := { r with scopes := r.scopes.drop 1 }

/-- Enters a construct that expects something of the next value. -/
def expect (expected : Option ExpectedValue) (r : Resolver) : Resolver :=
  { r with expectations := expected :: r.expectations }

def leaveExpectation (r : Resolver) : Resolver :=
  { r with expectations := r.expectations.drop 1 }

/-- Resolves an argument list to the arguments it may give, if there are both. -/
def recordArguments (revision : Nat) (given : Option Arguments)
    (taken : Option (Located (Delimited InputValueDefinition))) (r : Resolver) : Resolver :=
  match given, taken with
  | some given, some taken =>
    r.record fun i =>
      { i with argumentLists := i.argumentLists.insert ((Node.arguments given).id revision) taken }
  | _, _ => r

/-- The arguments that a definition takes, with their revision. -/
def takenBy (revision : Nat) (arguments : Option (Delimited InputValueDefinition)) :
    Option (Located (Delimited InputValueDefinition)) :=
  arguments.map fun arguments => ⟨revision, arguments⟩

/-- The identity of a selection set of this revision, if it is there. -/
def setId (revision : Nat) (set : Option SelectionSet) : Option NodeId :=
  set.map fun set => (Node.selectionSet set).id revision

variable (index : Index) (revision : Nat)

/-- A field is looked up in the type around it. -/
def enterField (f : Field SelectionSet) (r : Resolver) : Resolver :=
  let definition := (innermost? r.scopes).bind fun type =>
    (textOf? f.name).bind fun name => (index.fields.membersByName type name).head?
  match definition with
  | none => { r with scopes := none :: r.scopes }
  | some d =>
    let r := r.record fun i =>
      { i with fields := i.fields.insert ((Node.field f).id revision) d }
    let r := r.recordArguments revision f.arguments (takenBy d.revision d.value.arguments)
    r.enterScope (d.value.type.value?.bind TypeRef.innermostName?) (setId revision f.selectionSet)

def enterDirective (directive : Directive) (r : Resolver) : Resolver :=
  match (textOf? directive.name).bind index.directives.first? with
  | none => r
  | some d =>
    let r := r.record fun i =>
      { i with directives := i.directives.insert ((Node.directive directive).id revision) d }
    r.recordArguments revision directive.arguments (takenBy d.revision d.value.arguments)

/-- A spread is looked up by its name, and counted among the spreads of its fragment. -/
def enterSpread (spread : FragmentSpread) (r : Resolver) : Resolver :=
  match index.fragments.first? spread.name.text with
  | none => r
  | some d => r.record fun i =>
    { i with
      fragments := i.fragments.insert ((Node.spread spread).id revision) d
      spreads := i.spreads.insertNew d.id ⟨revision, spread⟩ }

/-- An argument is looked up in what the list around it may give. -/
def enterArgument (argument : Argument) (r : Resolver) : Resolver :=
  let definition := (innermost? r.argumentScopes).bind fun taken =>
    (taken.value.items.find? fun d => d.name.text == argument.name.text).map fun d =>
      (⟨taken.revision, d⟩ : Located InputValueDefinition)
  match definition with
  | none => r.expect none
  | some d =>
    (r.record fun i =>
      { i with arguments := i.arguments.insert ((Node.argument argument).id revision) d }).expect
      (expectedBy d)

def meetValue (value : NodeId) (r : Resolver) : Resolver :=
  match innermost? r.expectations with
  | none => r
  | some expected =>
    r.record fun i =>
      { i with
        valueTypes := i.valueTypes.insert value expected.type
        valueDefaults := match expected.default with
          | none => i.valueDefaults
          | some default => i.valueDefaults.insert value default }

/-- An object value is of the type that is expected. -/
def enterObject (r : Resolver) : Resolver :=
  let type := (innermost? r.expectations).bind fun expected => expected.type.value.innermostName?
  let r := match type with
    | none => r
    | some name => r.reference name
  { r with inputObjects := type :: r.inputObjects }

/-- A field of an object value is looked up in the type of that object. -/
def enterObjectField (name : Token) (r : Resolver) : Resolver :=
  r.expect ((innermost? r.inputObjects).bind fun type =>
    (index.inputFields.membersByName type name.text).head?.bind expectedBy)

def enter (node : Node) (r : Resolver) : Resolver :=
  match node with
  | .operation d => r.enterScope (index.rootType? d.kind) (setId revision d.selectionSet.value?)
  | .fragment d =>
    r.enterScope (conditionType? d.condition.value?) (setId revision d.selectionSet.value?)
  | .inline f =>
    let type := match f.condition with
      | none => innermost? r.scopes
      | some condition => condition.typeName?
    r.enterScope type (setId revision f.selectionSet.value?)
  | .field f => r.enterField index revision f
  | .directive d => r.enterDirective index revision d
  | .spread s => r.enterSpread index revision s
  | .arguments a =>
    { r with
      argumentScopes :=
        r.inference.argumentLists.get? ((Node.arguments a).id revision) :: r.argumentScopes }
  | .argument a => r.enterArgument revision a
  | .value (.list _) => r.expect ((innermost? r.expectations).bind ExpectedValue.item?)
  | .value (.object _) => r.enterObject
  | .objectField (.mk name _ _) => r.enterObjectField index name
  | .variableDefinition d => r.expect (expectedOf revision d.type)
  | .inputValueDefinition d => r.expect (expectedOf revision d.type)
  | _ => r

/-- What leaving a node does: it takes off what entering it put on. -/
def leave (node : Node) (r : Resolver) : Resolver :=
  match node with
  | .operation _ => r.leaveScope
  | .fragment _ => r.leaveScope
  | .inline _ => r.leaveScope
  | .field _ => r.leaveScope
  | .arguments _ => { r with argumentScopes := r.argumentScopes.drop 1 }
  | .argument _ => r.leaveExpectation
  | .value (.list _) => r.leaveExpectation
  | .value (.object _) => { r with inputObjects := r.inputObjects.drop 1 }
  | .objectField _ => r.leaveExpectation
  | .variableDefinition _ => r.leaveExpectation
  | .inputValueDefinition _ => r.leaveExpectation
  | _ => r

def step (r : Resolver) : Event → Resolver
  | .announce .definition node => { r with definition := some (node.id revision) }
  | .announce .value node => r.meetValue (node.id revision)
  | .enter node => r.enter index revision node
  | .leave node => r.leave node
  | _ => r

end Resolver

def infer (index : Index) (revision : Revision) : Inference :=
  (revision.tree.outline.events.foldl (Resolver.step index revision.id) {}).inference

end GraphQL
