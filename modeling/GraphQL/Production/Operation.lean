import GraphQL.Document.Definition
import GraphQL.Production.Type

/-! # Selections, operations and fragments

Selection sets nest through fields and inline fragments; see `Production.Type` for the levels. -/

namespace GraphQL.Production

set_option autoImplicit false

open Recovery (Chain Parser)

/-! ## Selections -/

/-- The name of a field, perhaps behind an alias. -/
def fieldHead : Parser Token (Option Alias × Required Token) :=
  .alt [(andSlot (Chain.of fieldAlias) name .fieldName).map fun (fieldAlias, name) => (some fieldAlias, name),
    name.map fun name => (none, .present name)]

def field (levels : Nat) (selectionSet : Parser Token SelectionSet) :
    Parser Token (Field SelectionSet) :=
  ((((Chain.of fieldHead).and (arguments levels).opt).and (directives levels).opt).and
    selectionSet.opt).map
    fun ((((fieldAlias, name), arguments), directives), selectionSet) =>
      ⟨fieldAlias, name, arguments, directives, selectionSet⟩

def typeCondition : Parser Token TypeCondition :=
  (andSlot (Chain.of (keyword "on")) namedType .typeConditionType).map
    fun (keyword, type) => ⟨keyword, type⟩

def fragmentSpread (levels : Nat) : Parser Token FragmentSpread :=
  (((Chain.of spreadDots).and name).and (directives levels).opt).map
    fun ((dots, name), directives) => ⟨dots, name, directives⟩

def inlineFragment (levels : Nat) (selectionSet : Parser Token SelectionSet) :
    Parser Token (InlineFragment SelectionSet) :=
  (andSlot (((Chain.of (punctuator "...")).and typeCondition.opt).and (directives levels).opt)
    selectionSet .inlineFragmentSelectionSet).map
    fun (((dots, condition), directives), selectionSet) =>
      ⟨dots, condition, directives, selectionSet⟩

/-- Dots start a spread where a fragment name follows and an inline fragment elsewhere. -/
def selection (levels : Nat) (selectionSet : Parser Token SelectionSet) : Parser Token Selection :=
  .alt [(fragmentSpread levels).map .spread, (inlineFragment levels selectionSet).map .inline,
    (field levels selectionSet).map .field]

/-- A selection set with `levels` levels left. -/
def selectionSet : Nat → Parser Token SelectionSet
  | 0 => .tooDeep (punctuator "\x7b").recognize
  | levels + 1 =>
    delimited "\x7b" "\x7d" (selection levels (selectionSet levels)) .selectionSetClosing

/-! ## Operations -/

def operationType : Parser Token OperationType :=
  .token "operation type" fun t =>
    if t.kind == .name then (OperationKind.ofKeyword? t.text).map (⟨t, ·⟩) else none

def variableDefinition : Parser Token VariableDefinition :=
  (((andSlot (andSlot (Chain.of var) (punctuator ":") .variableColon) (type maxNesting)
    .variableType).and defaultValue.opt).and (directives maxNesting).opt).map
    fun ((((var, colon), type), default), directives) => ⟨var, colon, type, default, directives⟩

def variableDefinitions : Parser Token (Delimited VariableDefinition) :=
  delimited "(" ")" variableDefinition .variablesClosing

def namedOperation : Parser Token OperationDefinition :=
  (andSlot ((((Chain.of operationType).and name.opt).and variableDefinitions.opt).and
    (directives maxNesting).opt) (selectionSet maxNesting) .operationSelectionSet).map
    fun ((((type, name), variableDefinitions), directives), selectionSet) =>
      ⟨some type, name, variableDefinitions, directives, selectionSet⟩

/-- A selection set alone. -/
def shorthand : Parser Token OperationDefinition :=
  (selectionSet maxNesting).map fun set => ⟨none, none, none, none, .present set⟩

def operationDefinition : Parser Token OperationDefinition := .alt [namedOperation, shorthand]

/-! ## Fragments -/

def fragmentDefinition : Parser Token FragmentDefinition :=
  (andSlot ((andSlot (andSlot (Chain.of (keyword "fragment")) (nameExcept ["on"]) .fragmentName)
    typeCondition .fragmentTypeCondition).and (directives maxNesting).opt)
    (selectionSet maxNesting) .fragmentSelectionSet).map
    fun ((((keyword, name), condition), directives), selectionSet) =>
      ⟨keyword, name, condition, directives, selectionSet⟩

def executableDefinition : Parser Token Definition :=
  .alt [operationDefinition.map .operation, fragmentDefinition.map .fragment]

end GraphQL.Production
