import GraphQL.Inference.Resolver

/-! # The entries of an inference, without a walk

What resolving records, by recursion over the constructs of a document. A construct is given what
stands around it as an `Environment`, and gives its parts an environment of their own; nothing else
is carried from one construct to the next.

* `Field.entries` and `SelectionSet.entries`: selections are resolved in the type around them,
* `Arguments.entries`: arguments are resolved in what their own field or directive takes,
* `Value.entries`: values are of the type that is expected where they stand,
* `Document.entries`: nothing stands around a definition but the definition itself. -/

namespace GraphQL

set_option autoImplicit false

/-! ## Entries -/

/-- An entry of one of the tables of an inference. -/
inductive Resolution where
  | field (node : NodeId) (definition : Located FieldDefinition)
  | selection (set : NodeId) (type : Text)
  | argumentList (list : NodeId) (taken : Located (Delimited InputValueDefinition))
  | argument (node : NodeId) (definition : Located InputValueDefinition)
  | valueType (value : NodeId) (type : Located TypeRef)
  | valueDefault (value : NodeId) (default : Located Value)
  | directive (node : NodeId) (definition : Located DirectiveDefinition)
  | fragment (spread : NodeId) (definition : Located FragmentDefinition)
  | spread (fragment : NodeId) (spread : Located FragmentSpread)
  | referencedType (definition : NodeId) (type : Text)

namespace Inference

/-- Files an entry in the table it belongs to. -/
def file (i : Inference) : Resolution → Inference
  | .field node d => { i with fields := i.fields.insert node d }
  | .selection set type => { i with selections := i.selections.insert set type }
  | .argumentList list taken => { i with argumentLists := i.argumentLists.insert list taken }
  | .argument node d => { i with arguments := i.arguments.insert node d }
  | .valueType value type => { i with valueTypes := i.valueTypes.insert value type }
  | .valueDefault value default => { i with valueDefaults := i.valueDefaults.insert value default }
  | .directive node d => { i with directives := i.directives.insert node d }
  | .fragment spread d => { i with fragments := i.fragments.insert spread d }
  | .spread fragment s => { i with spreads := i.spreads.insertNew fragment s }
  | .referencedType definition type =>
    { i with referencedTypes := i.referencedTypes.insertNew definition type }

def fileAll (i : Inference) (entries : List Resolution) : Inference := entries.foldl file i

variable (i : Inference)

@[simp] theorem fileAll_nil : i.fileAll [] = i := rfl

@[simp] theorem fileAll_cons (entry : Resolution) (entries : List Resolution) :
    i.fileAll (entry :: entries) = (i.file entry).fileAll entries := rfl

@[simp] theorem fileAll_append (entries rest : List Resolution) :
    i.fileAll (entries ++ rest) = (i.fileAll entries).fileAll rest := List.foldl_append

end Inference

/-! ## Environments -/

/-- What stands around a construct: the definition it is in, the type that selections select from,
what is expected of a value, what the argument list may give, and the type of the object value. -/
structure Environment where
  definition : Option NodeId := none
  scope : Option Text := none
  expected : Option ExpectedValue := none
  taken : Option (Located (Delimited InputValueDefinition)) := none
  object : Option Text := none

namespace Environment

variable (env : Environment)

/-- The definition is resolved through a type, if there is one. -/
def through (type : Option Text) : List Resolution :=
  match env.definition, type with
  | some definition, some type => [.referencedType definition type]
  | _, _ => []

/-- A construct whose selection set selects from a type. -/
def selecting (type : Option Text) (set : Option NodeId) : List Resolution :=
  env.through type ++
    match set, type with
    | some set, some type => [.selection set type]
    | _, _ => []

/-- A value is of the type that is expected, and stands for its default. -/
def meeting (value : NodeId) : List Resolution :=
  match env.expected with
  | none => []
  | some expected =>
    .valueType value expected.type :: expected.default.toList.map (.valueDefault value)

end Environment

variable (index : Index) (revision : Nat) (env : Environment)

/-! ## Values -/

/-- The type of the object value where an object value stands. -/
def Environment.objectType? : Option Text :=
  env.expected.bind fun expected => expected.type.value.innermostName?

/-- Inside a field of an object value, what that field of the type of the object expects. -/
def Environment.inField (name : Text) : Environment :=
  { env with expected := env.object.bind fun type =>
      (index.inputFields.membersByName type name).head?.bind expectedBy }

mutual
/-- A value where something is expected. Items of a list are of the item type, fields of an object
are those of its type. -/
def Value.entries (env : Environment) : Value → List Resolution
  | .list ⟨opening, items, closing⟩ =>
    env.meeting ((Node.value (.list ⟨opening, items, closing⟩)).id revision) ++
      Value.entriesOf { env with expected := env.expected.bind ExpectedValue.item? } items
  | .object ⟨opening, fields, closing⟩ =>
    env.meeting ((Node.value (.object ⟨opening, fields, closing⟩)).id revision) ++
      (env.through env.objectType? ++
        ObjectField.entriesOf { env with object := env.objectType? } fields)
  | .var v => env.meeting ((Node.value (.var v)).id revision)
  | .int t => env.meeting ((Node.value (.int t)).id revision)
  | .float t => env.meeting ((Node.value (.float t)).id revision)
  | .string t => env.meeting ((Node.value (.string t)).id revision)
  | .boolean t b => env.meeting ((Node.value (.boolean t b)).id revision)
  | .null t => env.meeting ((Node.value (.null t)).id revision)
  | .enum t => env.meeting ((Node.value (.enum t)).id revision)
def Value.entriesOf (env : Environment) : List Value → List Resolution
  | [] => []
  | v :: rest => v.entries env ++ Value.entriesOf env rest
def ObjectField.entries (env : Environment) : ObjectField → List Resolution
  | .mk name _ (.present value) => value.entries (env.inField index name.text)
  | .mk _ _ (.missing _) => []
def ObjectField.entriesOf (env : Environment) : List ObjectField → List Resolution
  | [] => []
  | field :: rest => field.entries env ++ ObjectField.entriesOf env rest
end

def DefaultValue.entries (default : DefaultValue) : List Resolution :=
  default.value.value?.toList.flatMap (Value.entries index revision env)

/-! ## Arguments and directives -/

/-- The definition of an argument among those that the list around it may give. -/
def Argument.definition? (argument : Argument) : Option (Located InputValueDefinition) :=
  env.taken.bind fun taken =>
    (taken.value.items.find? fun d => d.name.text == argument.name.text).map fun d =>
      ⟨taken.revision, d⟩

def Argument.entries (argument : Argument) : List Resolution :=
  (argument.definition? env).toList.map (.argument ((Node.argument argument).id revision)) ++
    argument.value.value?.toList.flatMap (Value.entries index revision
      { env with expected := (argument.definition? env).bind expectedBy })

/-- Arguments are resolved in what their own field or directive takes. -/
def Arguments.entries (taken : Option (Located (Delimited InputValueDefinition)))
    (arguments : Arguments) : List Resolution :=
  arguments.items.flatMap (Argument.entries index revision { env with taken := taken })

/-- An argument list, if there is one, and what its field or directive takes. -/
def listEntries (given : Option Arguments)
    (taken : Option (Located (Delimited InputValueDefinition))) : List Resolution :=
  match given, taken with
  | some given, some taken => [.argumentList ((Node.arguments given).id revision) taken]
  | _, _ => []

/-- The first definition of the name of a directive. -/
def Directive.definition? (directive : Directive) : Option (Located DirectiveDefinition) :=
  (textOf? directive.name).bind index.directives.first?

def Directive.taken? (directive : Directive) : Option (Located (Delimited InputValueDefinition)) :=
  (directive.definition? index).bind fun d => Resolver.takenBy d.revision d.value.arguments

/-- What a directive is resolved to itself. -/
def Directive.ownEntries (directive : Directive) : List Resolution :=
  (directive.definition? index).toList.map (.directive ((Node.directive directive).id revision)) ++
    listEntries revision directive.arguments (directive.taken? index)

def Directive.entries (directive : Directive) : List Resolution :=
  directive.ownEntries index revision ++
    directive.arguments.toList.flatMap
      (Arguments.entries index revision env (directive.taken? index))

def Directives.entries (directives : Directives) : List Resolution :=
  directives.flatMap (Directive.entries index revision env)

/-! ## Selections -/

/-- The first definition of the name of a field on the type around it. -/
def Field.definition? (field : Field SelectionSet) : Option (Located FieldDefinition) :=
  env.scope.bind fun type =>
    (textOf? field.name).bind fun name => (index.fields.membersByName type name).head?

def Field.taken? (field : Field SelectionSet) : Option (Located (Delimited InputValueDefinition)) :=
  (field.definition? index env).bind fun d => Resolver.takenBy d.revision d.value.arguments

/-- The type that the selection set of a field selects from, if the field is defined. -/
def Field.type? (field : Field SelectionSet) : Option Text :=
  (field.definition? index env).bind fun d => d.value.type.value?.bind TypeRef.innermostName?

/-- What a field is resolved to itself. -/
def Field.ownEntries (field : Field SelectionSet) : List Resolution :=
  (field.definition? index env).toList.map (.field ((Node.field field).id revision)) ++
    (listEntries revision field.arguments (field.taken? index env) ++
      env.selecting (field.type? index env) (Resolver.setId revision field.selectionSet))

/-- Inside a field, also where it is not defined. -/
def Field.inside (field : Field SelectionSet) : Environment :=
  { env with scope := field.type? index env }

/-- The first definition of the name of a fragment that is spread. -/
def FragmentSpread.definition? (spread : FragmentSpread) : Option (Located FragmentDefinition) :=
  index.fragments.first? spread.name.text

def FragmentSpread.ownEntries (spread : FragmentSpread) : List Resolution :=
  (spread.definition? index).toList.flatMap fun d =>
    [.fragment ((Node.spread spread).id revision) d, .spread d.id ⟨revision, spread⟩]

def FragmentSpread.entries (spread : FragmentSpread) : List Resolution :=
  spread.ownEntries index revision ++
    spread.directives.toList.flatMap (Directives.entries index revision env)

/-- An inline fragment selects from the type of its condition; without one, from the type around
it. -/
def InlineFragment.type? (fragment : InlineFragment SelectionSet) : Option Text :=
  match fragment.condition with
  | none => env.scope
  | some condition => condition.typeName?

def InlineFragment.inside (fragment : InlineFragment SelectionSet) : Environment :=
  { env with scope := fragment.type? env }

mutual
def Selection.entries (env : Environment) : Selection → List Resolution
  | .field f => Field.entries env f
  | .spread s => s.entries index revision env
  | .inline f => InlineFragment.entries env f
def Selection.entriesOf (env : Environment) : List Selection → List Resolution
  | [] => []
  | selection :: rest => selection.entries env ++ Selection.entriesOf env rest
/-- A field, its arguments and directives, and the set that selects from its type. -/
def Field.entries (env : Environment) : Field (Delimited Selection) → List Resolution
  | ⟨fieldAlias, name, arguments, directives, set⟩ =>
    let field : Field SelectionSet := ⟨fieldAlias, name, arguments, directives, set⟩
    field.ownEntries index revision env ++
      (arguments.toList.flatMap
          (Arguments.entries index revision (field.inside index env) (field.taken? index env)) ++
        (directives.toList.flatMap (Directives.entries index revision (field.inside index env)) ++
          match set with
          | none => []
          | some set => SelectionSet.entries (field.inside index env) set))
def InlineFragment.entries (env : Environment) : InlineFragment (Delimited Selection) → List Resolution
  | ⟨dots, condition, directives, set⟩ =>
    let fragment : InlineFragment SelectionSet := ⟨dots, condition, directives, set⟩
    env.selecting (fragment.type? env) (Resolver.setId revision set.value?) ++
      (directives.toList.flatMap (Directives.entries index revision (fragment.inside env)) ++
        match set with
        | .present set => SelectionSet.entries (fragment.inside env) set
        | .missing _ => [])
def SelectionSet.entries (env : Environment) : Delimited Selection → List Resolution
  | ⟨_, selections, _⟩ => Selection.entriesOf env selections
end

theorem Field.entries_eq (field : Field SelectionSet) :
    Field.entries index revision env field = field.ownEntries index revision env ++
      (field.arguments.toList.flatMap
          (Arguments.entries index revision (field.inside index env) (field.taken? index env)) ++
        (field.directives.toList.flatMap
            (Directives.entries index revision (field.inside index env)) ++
          field.selectionSet.toList.flatMap
            (SelectionSet.entries index revision (field.inside index env)))) := by
  obtain ⟨fieldAlias, name, arguments, directives, set⟩ := field
  cases set with
  | none => rfl
  | some set =>
    rw [Option.toList_some, List.flatMap_singleton]
    rfl

theorem InlineFragment.entries_eq (fragment : InlineFragment SelectionSet) :
    InlineFragment.entries index revision env fragment =
      env.selecting (fragment.type? env) (Resolver.setId revision fragment.selectionSet.value?) ++
        (fragment.directives.toList.flatMap
            (Directives.entries index revision (fragment.inside env)) ++
          fragment.selectionSet.value?.toList.flatMap
            (SelectionSet.entries index revision (fragment.inside env))) := by
  obtain ⟨dots, condition, directives, set⟩ := fragment
  cases set with
  | missing gap => rfl
  | present set =>
    rw [Recovery.Slot.value?, Option.toList_some, List.flatMap_singleton]
    rfl

/-! ## Operations and fragments -/

/-- A default is of the type of its variable. -/
def VariableDefinition.entries (definition : VariableDefinition) : List Resolution :=
  let inside := { env with expected := expectedOf revision definition.type }
  definition.default.toList.flatMap (DefaultValue.entries index revision inside) ++
    definition.directives.toList.flatMap (Directives.entries index revision inside)

/-- An operation selects from the root type of its kind. -/
def OperationDefinition.entries (definition : OperationDefinition) : List Resolution :=
  let type := index.rootType? definition.kind
  let inside := { env with scope := type }
  env.selecting type (Resolver.setId revision definition.selectionSet.value?) ++
    (definition.variableDefinitions.toList.flatMap
        (fun list => list.items.flatMap (VariableDefinition.entries index revision inside)) ++
      (definition.directives.toList.flatMap (Directives.entries index revision inside) ++
        definition.selectionSet.value?.toList.flatMap (SelectionSet.entries index revision inside)))

/-- A fragment selects from the type of its condition. -/
def FragmentDefinition.entries (definition : FragmentDefinition) : List Resolution :=
  let type := conditionType? definition.condition.value?
  let inside := { env with scope := type }
  env.selecting type (Resolver.setId revision definition.selectionSet.value?) ++
    (definition.directives.toList.flatMap (Directives.entries index revision inside) ++
      definition.selectionSet.value?.toList.flatMap (SelectionSet.entries index revision inside))

/-! ## The type system -/

/-- A default is of the type of its argument or input field. -/
def InputValueDefinition.entries (definition : InputValueDefinition) : List Resolution :=
  let inside := { env with expected := expectedOf revision definition.type }
  definition.default.toList.flatMap (DefaultValue.entries index revision inside) ++
    definition.directives.toList.flatMap (Directives.entries index revision inside)

def InputValueDefinition.listEntries (list : Delimited InputValueDefinition) : List Resolution :=
  list.items.flatMap (InputValueDefinition.entries index revision env)

def FieldDefinition.entries (definition : FieldDefinition) : List Resolution :=
  definition.arguments.toList.flatMap (InputValueDefinition.listEntries index revision env) ++
    definition.directives.toList.flatMap (Directives.entries index revision env)

def EnumValueDefinition.entries (definition : EnumValueDefinition) : List Resolution :=
  definition.directives.toList.flatMap (Directives.entries index revision env)

def FieldedBody.entries (body : FieldedBody) : List Resolution :=
  body.directives.toList.flatMap (Directives.entries index revision env) ++
    body.fields.toList.flatMap fun list =>
      list.items.flatMap (FieldDefinition.entries index revision env)

/-- The entries of a body, given those of the directives of a scalar. -/
def TypeBody.entries {δ : Type} (scalar : δ → List Resolution) : TypeBody δ → List Resolution
  | .scalar directives => scalar directives
  | .object body => body.entries index revision env
  | .interface body => body.entries index revision env
  | .union directives _ => directives.toList.flatMap (Directives.entries index revision env)
  | .enum directives values =>
    directives.toList.flatMap (Directives.entries index revision env) ++
      values.toList.flatMap fun list =>
        list.items.flatMap (EnumValueDefinition.entries index revision env)
  | .input directives fields =>
    directives.toList.flatMap (Directives.entries index revision env) ++
      fields.toList.flatMap (InputValueDefinition.listEntries index revision env)

/-! ## Definitions and documents -/

def Definition.entries (env : Environment) : Definition → List Resolution
  | .operation d => d.entries index revision env
  | .fragment d => d.entries index revision env
  | .schema d => d.directives.toList.flatMap (Directives.entries index revision env)
  | .schemaExtension d => d.directives.toList.flatMap (Directives.entries index revision env)
  | .type d => d.body.entries index revision env fun directives =>
      directives.toList.flatMap (Directives.entries index revision env)
  | .typeExtension d => d.body.entries index revision env fun directives =>
      directives.value?.toList.flatMap (Directives.entries index revision env)
  | .directive d =>
    d.arguments.toList.flatMap (InputValueDefinition.listEntries index revision env)

/-- Nothing stands around a definition but the definition itself. -/
def Document.entries (document : Document) : List Resolution :=
  document.definitions.flatMap fun d =>
    d.entries index revision { definition := some (d.node.id revision) }

end GraphQL
