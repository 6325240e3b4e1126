import GraphQL.Production.Operation
import GraphQL.Proofs.Nesting.Counter

/-! # Executable definitions, counted

The productions up to fragments, with one counter for list types, list values, object fields and
selection sets in place of the levels that are left. Each is built for calls up to a depth; where
nothing nests the production is as it was.

The productions that are told their levels are followed from every count, with the levels that the
count leaves; the others restore the counter from every count. -/

namespace GraphQL.Nesting

set_option autoImplicit false

open Production (lacking unclosed maxNesting name keyword punctuator nameExcept ofKind stringToken
  boolean enumName namedType var fieldHead typeCondition spreadDots operationType)
open Recovery (Counted CountedChain Parser Chain)

variable {α β : Type} {depth count : Nat}

/-- The count leaves no level, or one more than the next count. -/
theorem levels_cases (count : Nat) :
    (maxNesting ≤ count ∧ maxNesting - count = 0) ∨
      (count < maxNesting ∧ maxNesting - count = maxNesting - (count + 1) + 1) := by
  omega

/-! ## Shared shapes -/

def andSlot (chain : CountedChain Token α) (next : Counted Token β) (code : SyntaxCode) :
    CountedChain Token (α × Required β) :=
  chain.andRecover next fun _ => lacking code

def delimited (opening closing : Text) (item : Counted Token α) (code : SyntaxCode) :
    Counted Token (Delimited α) :=
  (CountedChain.delimited (.ofParser (punctuator opening)) item.many0
    (.ofParser (punctuator closing)) (unclosed code)).map
    fun ((opening, items), closing) => ⟨opening, items, closing⟩

theorem delimited_follows {item : Counted Token α} {plain : Parser Token α}
    (hi : item.Follows count plain) (opening closing : Text) (code : SyntaxCode) :
    (delimited opening closing item code).Follows count
      (Production.delimited opening closing plain code) :=
  (((CountedChain.of_follows (Counted.ofParser_follows _)).and hi.many0).andRecover
    (Counted.ofParser_follows _) _).map _

theorem delimited_restores {item : Counted Token α} {plain : Parser Token α}
    (hi : item.Restores count plain) (opening closing : Text) (code : SyntaxCode) :
    (delimited opening closing item code).Restores count
      (Production.delimited opening closing plain code) := by
  obtain ⟨r, hr, same⟩ := hi
  exact ⟨_, delimited_follows hr opening closing code, fun none => by rw [same none]⟩

/-! ## Types -/

def listType (item : Counted Token TypeRef) : Counted Token NullableType :=
  (CountedChain.delimited (.ofParser (punctuator "[")) (item.recover (lacking .listTypeItem))
    (.ofParser (punctuator "]")) (unclosed .listTypeClosing)).map
    fun ((opening, item), closing) => .list opening item closing

def typeWith (list : Counted Token NullableType) : Counted Token TypeRef :=
  ((Counted.alt [.ofParser (namedType.map .named), list]).suffixed
    (.ofParser (punctuator "!"))).map fun
    | (base, none) => .nullable base
    | (base, some bang) => .nonNull base bang

def type : Nat → Counted Token TypeRef
  | 0 => typeWith (.unanswered (punctuator "[").recognize)
  | depth + 1 => typeWith ((listType (type depth)).nested maxNesting)

theorem listType_follows {item : Counted Token TypeRef} {plain : Parser Token TypeRef}
    (hi : item.Follows count plain) : (listType item).Follows count (Production.listType plain) :=
  (((CountedChain.of_follows (Counted.ofParser_follows _)).and (hi.recover _)).andRecover
    (Counted.ofParser_follows _) _).map _

theorem typeWith_follows {list : Counted Token NullableType} {plain : Parser Token NullableType}
    (hl : list.Follows count plain) : (typeWith list).Follows count (Production.typeWith plain) :=
  ((Counted.Follows.alt (.cons (Counted.ofParser_follows _) (.cons hl .nil))).suffixed
    (Counted.ofParser_follows _)).map _

theorem type_follows {depth count : Nat} (deep : maxNesting - count < depth) :
    (type depth).Follows count (Production.type (maxNesting - count)) := by
  induction depth generalizing count with
  | zero => omega
  | succ depth ih =>
    rcases levels_cases count with ⟨full, levels⟩ | ⟨room, levels⟩
    · rw [levels]
      exact typeWith_follows (Counted.nested_refuses full _)
    · rw [levels]
      exact typeWith_follows ((listType_follows (ih (by omega))).nested room)

/-! ## Values -/

def listValue (item : Counted Token Value) : Counted Token Value :=
  (delimited "[" "]" item .listValueClosing).map .list

def objectField (value : Counted Token Value) : Counted Token ObjectField :=
  (andSlot (andSlot (.of (.ofParser name)) (.ofParser (punctuator ":")) .objectFieldColon) value
    .objectFieldValue).map fun ((name, colon), value) => .mk name colon value

def valueWith (list : Counted Token Value) (field : Counted Token ObjectField) :
    Counted Token Value :=
  .alt [.ofParser (var.map .var), .ofParser ((ofKind "int" .int).map .int),
    .ofParser ((ofKind "float" .float).map .float), .ofParser (stringToken.map .string),
    .ofParser boolean, .ofParser ((keyword "null").map .null), .ofParser (enumName.map .enum), list,
    (delimited "\x7b" "\x7d" field .objectValueClosing).map .object]

def value : Nat → Counted Token Value
  | 0 => valueWith (.unanswered (punctuator "[").recognize) (.unanswered name.recognize)
  | depth + 1 =>
    let inner := value depth
    valueWith ((listValue inner).nested maxNesting) ((objectField inner).nested maxNesting)

def defaultValue (depth : Nat) : Counted Token DefaultValue :=
  (andSlot (.of (.ofParser (punctuator "="))) (value depth) .defaultValue).map
    fun (eq, value) => ⟨eq, value⟩

theorem listValue_follows {item : Counted Token Value} {plain : Parser Token Value}
    (hi : item.Follows count plain) : (listValue item).Follows count (Production.listValue plain) :=
  (delimited_follows hi _ _ _).map _

theorem objectField_follows {value : Counted Token Value} {plain : Parser Token Value}
    (hv : value.Follows count plain) :
    (objectField value).Follows count (Production.objectField plain) :=
  (((CountedChain.of_follows (Counted.ofParser_follows _)).andRecover (Counted.ofParser_follows _)
    _).andRecover hv _).map _

theorem valueWith_follows {list : Counted Token Value} {plainList : Parser Token Value}
    (hl : list.Follows count plainList) {field : Counted Token ObjectField}
    {plainField : Parser Token ObjectField} (hf : field.Follows count plainField) :
    (valueWith list field).Follows count (Production.valueWith plainList plainField) :=
  have lift {α : Type} (q : Parser Token α) : (Counted.ofParser q).Follows count q :=
    Counted.ofParser_follows q
  .alt (.cons (lift _) (.cons (lift _) (.cons (lift _) (.cons (lift _) (.cons (lift _)
    (.cons (lift _) (.cons (lift _) (.cons hl (.cons ((delimited_follows hf _ _ _).map _)
      .nil)))))))))

theorem value_follows {depth count : Nat} (deep : maxNesting - count < depth) :
    (value depth).Follows count (Production.value (maxNesting - count)) := by
  induction depth generalizing count with
  | zero => omega
  | succ depth ih =>
    rcases levels_cases count with ⟨full, levels⟩ | ⟨room, levels⟩
    · rw [levels]
      exact valueWith_follows (Counted.nested_refuses full _) (Counted.nested_refuses full _)
    · rw [levels]
      have inner : (value depth).Follows (count + 1) (Production.value (maxNesting - (count + 1))) :=
        ih (by omega)
      exact valueWith_follows ((listValue_follows inner).nested room)
        ((objectField_follows inner).nested room)

/-! ## Arguments and directives -/

def argument (depth : Nat) : Counted Token Argument :=
  (andSlot (andSlot (.of (.ofParser name)) (.ofParser (punctuator ":")) .argumentColon)
    (value depth) .argumentValue).map fun ((name, colon), value) => ⟨name, colon, value⟩

def arguments (depth : Nat) : Counted Token Arguments :=
  delimited "(" ")" (argument depth) .argumentsClosing

def directive (depth : Nat) : Counted Token Directive :=
  ((andSlot (.of (.ofParser (punctuator "@"))) (.ofParser name) .directiveName).and
    (arguments depth).opt).map fun ((sign, name), arguments) => ⟨sign, name, arguments⟩

def directives (depth : Nat) : Counted Token Directives := (directive depth).many1

theorem argument_follows (deep : maxNesting - count < depth) :
    (argument depth).Follows count (Production.argument (maxNesting - count)) :=
  (((CountedChain.of_follows (Counted.ofParser_follows _)).andRecover (Counted.ofParser_follows _)
    _).andRecover (value_follows deep) _).map _

theorem arguments_follows (deep : maxNesting - count < depth) :
    (arguments depth).Follows count (Production.arguments (maxNesting - count)) :=
  delimited_follows (argument_follows deep) _ _ _

theorem directive_follows (deep : maxNesting - count < depth) :
    (directive depth).Follows count (Production.directive (maxNesting - count)) :=
  (((CountedChain.of_follows (Counted.ofParser_follows _)).andRecover (Counted.ofParser_follows _)
    _).and (arguments_follows deep).opt).map _

theorem directives_follows (deep : maxNesting - count < depth) :
    (directives depth).Follows count (Production.directives (maxNesting - count)) :=
  (directive_follows deep).many1

/-! ## Selections -/

def field (depth : Nat) (selectionSet : Counted Token SelectionSet) :
    Counted Token (Field SelectionSet) :=
  ((((CountedChain.of (.ofParser fieldHead)).and (arguments depth).opt).and
    (directives depth).opt).and selectionSet.opt).map
    fun ((((fieldAlias, name), arguments), directives), selectionSet) =>
      ⟨fieldAlias, name, arguments, directives, selectionSet⟩

def fragmentSpread (depth : Nat) : Counted Token FragmentSpread :=
  (((CountedChain.of (.ofParser spreadDots)).and (.ofParser name)).and (directives depth).opt).map
    fun ((dots, name), directives) => ⟨dots, name, directives⟩

def inlineFragment (depth : Nat) (selectionSet : Counted Token SelectionSet) :
    Counted Token (InlineFragment SelectionSet) :=
  (andSlot (((CountedChain.of (.ofParser (punctuator "..."))).and (.ofParser typeCondition.opt)).and
    (directives depth).opt) selectionSet .inlineFragmentSelectionSet).map
    fun (((dots, condition), directives), selectionSet) =>
      ⟨dots, condition, directives, selectionSet⟩

def selection (depth : Nat) (selectionSet : Counted Token SelectionSet) :
    Counted Token Selection :=
  .alt [(fragmentSpread depth).map .spread, (inlineFragment depth selectionSet).map .inline,
    (field depth selectionSet).map .field]

def selectionSet : Nat → Counted Token SelectionSet
  | 0 => .unanswered (punctuator "\x7b").recognize
  | depth + 1 =>
    (delimited "\x7b" "\x7d" (selection depth (selectionSet depth)) .selectionSetClosing).nested
      maxNesting

section Selections

variable {set : Counted Token SelectionSet} {plain : Parser Token SelectionSet}

theorem field_follows (deep : maxNesting - count < depth) (hs : set.Follows count plain) :
    (field depth set).Follows count (Production.field (maxNesting - count) plain) :=
  ((((CountedChain.of_follows (Counted.ofParser_follows _)).and (arguments_follows deep).opt).and
    (directives_follows deep).opt).and hs.opt).map _

theorem fragmentSpread_follows (deep : maxNesting - count < depth) :
    (fragmentSpread depth).Follows count (Production.fragmentSpread (maxNesting - count)) :=
  (((CountedChain.of_follows (Counted.ofParser_follows _)).and (Counted.ofParser_follows _)).and
    (directives_follows deep).opt).map _

theorem inlineFragment_follows (deep : maxNesting - count < depth) (hs : set.Follows count plain) :
    (inlineFragment depth set).Follows count
      (Production.inlineFragment (maxNesting - count) plain) :=
  ((((CountedChain.of_follows (Counted.ofParser_follows _)).and (Counted.ofParser_follows _)).and
    (directives_follows deep).opt).andRecover hs _).map _

theorem selection_follows (deep : maxNesting - count < depth) (hs : set.Follows count plain) :
    (selection depth set).Follows count (Production.selection (maxNesting - count) plain) :=
  .alt (.cons ((fragmentSpread_follows deep).map _)
    (.cons ((inlineFragment_follows deep hs).map _) (.cons ((field_follows deep hs).map _) .nil)))

end Selections

theorem selectionSet_follows {depth count : Nat} (deep : maxNesting - count < depth) :
    (selectionSet depth).Follows count (Production.selectionSet (maxNesting - count)) := by
  induction depth generalizing count with
  | zero => omega
  | succ depth ih =>
    rcases levels_cases count with ⟨full, levels⟩ | ⟨room, levels⟩
    · rw [levels]
      exact Counted.nested_refuses full _
    · rw [levels]
      have inner : maxNesting - (count + 1) < depth := by omega
      exact (delimited_follows (selection_follows inner (ih inner)) _ _ _).nested room

/-! ## All levels

With no level taken, a production reads what it reads when it is told that all are left. -/

section AllLevels

variable (deep : maxNesting < depth)

include deep

theorem type_restores : (type depth).Restores count (Production.type maxNesting) :=
  ⟨_, type_follows (by omega), by rintro rfl; rfl⟩

theorem value_restores : (value depth).Restores count (Production.value maxNesting) :=
  ⟨_, value_follows (by omega), by rintro rfl; rfl⟩

theorem arguments_restores : (arguments depth).Restores count (Production.arguments maxNesting) :=
  ⟨_, arguments_follows (by omega), by rintro rfl; rfl⟩

theorem directives_restores :
    (directives depth).Restores count (Production.directives maxNesting) :=
  ⟨_, directives_follows (by omega), by rintro rfl; rfl⟩

theorem selectionSet_restores :
    (selectionSet depth).Restores count (Production.selectionSet maxNesting) :=
  ⟨_, selectionSet_follows (by omega), by rintro rfl; rfl⟩

end AllLevels

/-- A production in which nothing nests. -/
theorem ofParser_restores (q : Parser Token α) : (Counted.ofParser q).Restores count q :=
  (Counted.ofParser_follows q).restores

theorem andSlot_restores {chain : CountedChain Token α} {plain : Chain Token α}
    (hc : chain.Restores count plain) {next : Counted Token β} {part : Parser Token β}
    (hn : next.Restores count part) (code : SyntaxCode) :
    (andSlot chain next code).Restores count (Production.andSlot plain part code) :=
  hc.andRecover hn _

theorem defaultValue_restores (deep : maxNesting < depth) :
    (defaultValue depth).Restores count Production.defaultValue :=
  (andSlot_restores (CountedChain.of_restores (ofParser_restores _)) (value_restores deep) _).map _

/-! ## Operations -/

def variableDefinition (depth : Nat) : Counted Token VariableDefinition :=
  (((andSlot (andSlot (.of (.ofParser var)) (.ofParser (punctuator ":")) .variableColon)
    (type depth) .variableType).and (defaultValue depth).opt).and (directives depth).opt).map
    fun ((((var, colon), type), default), directives) => ⟨var, colon, type, default, directives⟩

def variableDefinitions (depth : Nat) : Counted Token (Delimited VariableDefinition) :=
  delimited "(" ")" (variableDefinition depth) .variablesClosing

def namedOperation (depth : Nat) : Counted Token OperationDefinition :=
  (andSlot ((((CountedChain.of (.ofParser operationType)).and (.ofParser name.opt)).and
    (variableDefinitions depth).opt).and (directives depth).opt) (selectionSet depth)
    .operationSelectionSet).map
    fun ((((type, name), variableDefinitions), directives), selectionSet) =>
      ⟨some type, name, variableDefinitions, directives, selectionSet⟩

def shorthand (depth : Nat) : Counted Token OperationDefinition :=
  (selectionSet depth).map fun set => ⟨none, none, none, none, .present set⟩

def operationDefinition (depth : Nat) : Counted Token OperationDefinition :=
  .alt [namedOperation depth, shorthand depth]

def fragmentDefinition (depth : Nat) : Counted Token FragmentDefinition :=
  (andSlot ((andSlot (andSlot (.of (.ofParser (keyword "fragment")))
    (.ofParser (nameExcept ["on"])) .fragmentName) (.ofParser typeCondition)
    .fragmentTypeCondition).and (directives depth).opt) (selectionSet depth)
    .fragmentSelectionSet).map
    fun ((((keyword, name), condition), directives), selectionSet) =>
      ⟨keyword, name, condition, directives, selectionSet⟩

def executableDefinition (depth : Nat) : Counted Token Definition :=
  .alt [(operationDefinition depth).map .operation, (fragmentDefinition depth).map .fragment]

section Operations

variable (deep : maxNesting < depth)

include deep

theorem variableDefinition_restores :
    (variableDefinition depth).Restores count Production.variableDefinition :=
  (((andSlot_restores (andSlot_restores (CountedChain.of_restores (ofParser_restores _))
    (ofParser_restores _) _) (type_restores deep) _).and (defaultValue_restores deep).opt).and
    (directives_restores deep).opt).map _

theorem variableDefinitions_restores :
    (variableDefinitions depth).Restores count Production.variableDefinitions :=
  delimited_restores (variableDefinition_restores deep) _ _ _

theorem namedOperation_restores :
    (namedOperation depth).Restores count Production.namedOperation :=
  (andSlot_restores ((((CountedChain.of_restores (ofParser_restores _)).and
    (ofParser_restores _)).and (variableDefinitions_restores deep).opt).and
    (directives_restores deep).opt) (selectionSet_restores deep) _).map _

theorem shorthand_restores : (shorthand depth).Restores count Production.shorthand :=
  (selectionSet_restores deep).map _

theorem operationDefinition_restores :
    (operationDefinition depth).Restores count Production.operationDefinition :=
  .alt (.cons (namedOperation_restores deep) (.cons (shorthand_restores deep) .nil))

theorem fragmentDefinition_restores :
    (fragmentDefinition depth).Restores count Production.fragmentDefinition :=
  (andSlot_restores ((andSlot_restores (andSlot_restores
    (CountedChain.of_restores (ofParser_restores _)) (ofParser_restores _) _)
    (ofParser_restores _) _).and (directives_restores deep).opt) (selectionSet_restores deep) _).map _

theorem executableDefinition_restores :
    (executableDefinition depth).Restores count Production.executableDefinition :=
  .alt (.cons ((operationDefinition_restores deep).map _)
    (.cons ((fragmentDefinition_restores deep).map _) .nil))

end Operations

end GraphQL.Nesting
