import GraphQL.Production.Document
import GraphQL.Proofs.Nesting.Operation

/-! # The type system and documents, counted

The productions that hold types, default values and directives, and those that any parse starts
from. All of them restore the counter, from any count. -/

namespace GraphQL.Nesting

set_option autoImplicit false

open Production (unclosed maxNesting name keyword punctuator nameExcept stringToken enumName
  operationType namedType typeCondition var introduced rootOperationTypes extension interfaces
  unionMembers directiveLocations DefinitionHead ExtensionHead)
open Recovery (Counted CountedChain Parser Chain)

variable {α δ : Type} {depth count : Nat}

theorem ofChain_restores (plain : Chain Token α) :
    (CountedChain.ofChain plain).Restores count plain :=
  (CountedChain.ofChain_follows plain).restores

/-! ## Schemas -/

def schemaDefinition (depth : Nat) : Counted Token SchemaDefinition :=
  (andSlot ((CountedChain.ofChain (introduced "schema")).and (directives depth).opt)
    (.ofParser rootOperationTypes) .schemaRootTypes).map
    fun (((description, keyword), directives), roots) => ⟨description, keyword, directives, roots⟩

def schemaExtension (depth : Nat) : Counted Token SchemaExtension :=
  (((CountedChain.of (.ofParser (extension "schema"))).and (directives depth).opt).and
    (.ofParser rootOperationTypes.opt)).map
    fun (((extend, keyword), directives), roots) => ⟨extend, keyword, directives, roots⟩

/-! ## Input values and fields -/

def inputValueDefinition (depth : Nat) : Counted Token InputValueDefinition :=
  (((andSlot (andSlot (.ofChain ((Chain.of stringToken.opt).andRecognize name))
    (.ofParser (punctuator ":")) .inputValueColon) (type depth) .inputValueType).and
    (defaultValue depth).opt).and (directives depth).opt).map
    fun (((((description, name), colon), type), default), directives) =>
      ⟨description, name, colon, type, default, directives⟩

def argumentDefinitions (depth : Nat) : Counted Token (Delimited InputValueDefinition) :=
  delimited "(" ")" (inputValueDefinition depth) .argumentsDefinitionClosing

def fieldDefinition (depth : Nat) : Counted Token FieldDefinition :=
  ((andSlot (andSlot ((CountedChain.ofChain ((Chain.of stringToken.opt).andRecognize name)).and
    (argumentDefinitions depth).opt) (.ofParser (punctuator ":")) .fieldDefinitionColon)
    (type depth) .fieldDefinitionType).and (directives depth).opt).map
    fun (((((description, name), arguments), colon), type), directives) =>
      ⟨description, name, arguments, colon, type, directives⟩

def fieldDefinitions (depth : Nat) : Counted Token (Delimited FieldDefinition) :=
  delimited "\x7b" "\x7d" (fieldDefinition depth) .fieldsClosing

def inputFields (depth : Nat) : Counted Token (Delimited InputValueDefinition) :=
  delimited "\x7b" "\x7d" (inputValueDefinition depth) .inputFieldsClosing

def enumValueDefinition (depth : Nat) : Counted Token EnumValueDefinition :=
  ((CountedChain.ofChain ((Chain.of stringToken.opt).andRecognize enumName)).and
    (directives depth).opt).map
    fun ((description, value), directives) => ⟨description, value, directives⟩

def enumValues (depth : Nat) : Counted Token (Delimited EnumValueDefinition) :=
  delimited "\x7b" "\x7d" (enumValueDefinition depth) .enumValuesClosing

section Parts

variable (deep : maxNesting < depth)

include deep

theorem schemaDefinition_restores :
    (schemaDefinition depth).Restores count Production.schemaDefinition :=
  (andSlot_restores ((ofChain_restores _).and (directives_restores deep).opt)
    (ofParser_restores _) _).map _

theorem schemaExtension_restores :
    (schemaExtension depth).Restores count Production.schemaExtension :=
  (((CountedChain.of_restores (ofParser_restores _)).and (directives_restores deep).opt).and
    (ofParser_restores _)).map _

theorem inputValueDefinition_restores :
    (inputValueDefinition depth).Restores count Production.inputValueDefinition :=
  (((andSlot_restores (andSlot_restores (ofChain_restores _) (ofParser_restores _) _)
    (type_restores deep) _).and (defaultValue_restores deep).opt).and
    (directives_restores deep).opt).map _

theorem argumentDefinitions_restores :
    (argumentDefinitions depth).Restores count Production.argumentDefinitions :=
  delimited_restores (inputValueDefinition_restores deep) _ _ _

theorem fieldDefinition_restores :
    (fieldDefinition depth).Restores count Production.fieldDefinition :=
  ((andSlot_restores (andSlot_restores ((ofChain_restores _).and
    (argumentDefinitions_restores deep).opt) (ofParser_restores _) _) (type_restores deep) _).and
    (directives_restores deep).opt).map _

theorem fieldDefinitions_restores :
    (fieldDefinitions depth).Restores count Production.fieldDefinitions :=
  delimited_restores (fieldDefinition_restores deep) _ _ _

theorem inputFields_restores : (inputFields depth).Restores count Production.inputFields :=
  delimited_restores (inputValueDefinition_restores deep) _ _ _

theorem enumValueDefinition_restores :
    (enumValueDefinition depth).Restores count Production.enumValueDefinition :=
  ((ofChain_restores _).and (directives_restores deep).opt).map _

theorem enumValues_restores : (enumValues depth).Restores count Production.enumValues :=
  delimited_restores (enumValueDefinition_restores deep) _ _ _

end Parts

/-! ## Bodies -/

def scalarBody (depth : Nat) (chain : CountedChain Token α) :
    CountedChain Token (α × TypeBody (Option Directives)) :=
  (chain.and (directives depth).opt).onValue fun (head, directives) => (head, .scalar directives)

def scalarExtensionBody (depth : Nat) (chain : CountedChain Token α) :
    CountedChain Token (α × TypeBody (Required Directives)) :=
  (andSlot chain (directives depth) .scalarExtensionDirectives).onValue
    fun (head, directives) => (head, .scalar directives)

def fieldedBody (depth : Nat) (chain : CountedChain Token α) :
    CountedChain Token (α × FieldedBody) :=
  (((chain.and (.ofParser interfaces.opt)).and (directives depth).opt).and
    (fieldDefinitions depth).opt).onValue
    fun (((head, interfaces), directives), fields) => (head, ⟨interfaces, directives, fields⟩)

def objectBody (depth : Nat) (chain : CountedChain Token α) :
    CountedChain Token (α × TypeBody δ) :=
  (fieldedBody depth chain).onValue fun (head, body) => (head, .object body)

def interfaceBody (depth : Nat) (chain : CountedChain Token α) :
    CountedChain Token (α × TypeBody δ) :=
  (fieldedBody depth chain).onValue fun (head, body) => (head, .interface body)

def unionBody (depth : Nat) (chain : CountedChain Token α) : CountedChain Token (α × TypeBody δ) :=
  ((chain.and (directives depth).opt).and (.ofParser unionMembers.opt)).onValue
    fun ((head, directives), members) => (head, .union directives members)

def enumBody (depth : Nat) (chain : CountedChain Token α) : CountedChain Token (α × TypeBody δ) :=
  ((chain.and (directives depth).opt).and (enumValues depth).opt).onValue
    fun ((head, directives), values) => (head, .enum directives values)

def inputBody (depth : Nat) (chain : CountedChain Token α) : CountedChain Token (α × TypeBody δ) :=
  ((chain.and (directives depth).opt).and (inputFields depth).opt).onValue
    fun ((head, directives), fields) => (head, .input directives fields)

section Bodies

variable (deep : maxNesting < depth) {chain : CountedChain Token α} {plain : Chain Token α}
  (hc : chain.Restores count plain)

include deep hc

theorem scalarBody_restores :
    (scalarBody depth chain).Restores count (Production.scalarBody plain) :=
  (hc.and (directives_restores deep).opt).onValue _

theorem scalarExtensionBody_restores :
    (scalarExtensionBody depth chain).Restores count (Production.scalarExtensionBody plain) :=
  (andSlot_restores hc (directives_restores deep) _).onValue _

theorem fieldedBody_restores :
    (fieldedBody depth chain).Restores count (Production.fieldedBody plain) :=
  (((hc.and (ofParser_restores _)).and (directives_restores deep).opt).and
    (fieldDefinitions_restores deep).opt).onValue _

theorem objectBody_restores :
    (objectBody depth chain : CountedChain Token (α × TypeBody δ)).Restores count
      (Production.objectBody plain) :=
  (fieldedBody_restores deep hc).onValue _

theorem interfaceBody_restores :
    (interfaceBody depth chain : CountedChain Token (α × TypeBody δ)).Restores count
      (Production.interfaceBody plain) :=
  (fieldedBody_restores deep hc).onValue _

theorem unionBody_restores :
    (unionBody depth chain : CountedChain Token (α × TypeBody δ)).Restores count
      (Production.unionBody plain) :=
  ((hc.and (directives_restores deep).opt).and (ofParser_restores _)).onValue _

theorem enumBody_restores :
    (enumBody depth chain : CountedChain Token (α × TypeBody δ)).Restores count
      (Production.enumBody plain) :=
  ((hc.and (directives_restores deep).opt).and (enumValues_restores deep).opt).onValue _

theorem inputBody_restores :
    (inputBody depth chain : CountedChain Token (α × TypeBody δ)).Restores count
      (Production.inputBody plain) :=
  ((hc.and (directives_restores deep).opt).and (inputFields_restores deep).opt).onValue _

end Bodies

/-! ## Types and directives -/

def typeDefinition (kind : TypeKind) (code : SyntaxCode)
    (body : CountedChain Token DefinitionHead →
      CountedChain Token (DefinitionHead × TypeBody (Option Directives))) :
    Counted Token TypeDefinition :=
  (body (andSlot (.ofChain (introduced kind.keyword)) (.ofParser name) code)).map
    fun (((description, keyword), name), body) => ⟨description, keyword, name, body⟩

def typeExtension (kind : TypeKind) (code : SyntaxCode)
    (body : CountedChain Token ExtensionHead →
      CountedChain Token (ExtensionHead × TypeBody (Required Directives))) :
    Counted Token TypeExtension :=
  (body (andSlot (.of (.ofParser (extension kind.keyword))) (.ofParser name) code)).map
    fun (((extend, keyword), name), body) => ⟨extend, keyword, name, body⟩

def directiveDefinition (depth : Nat) : Counted Token DirectiveDefinition :=
  (andSlot (((andSlot (andSlot (.ofChain (introduced "directive")) (.ofParser (punctuator "@"))
    .directiveSign) (.ofParser (nameExcept ["on"])) .directiveDefinitionName).and
    (argumentDefinitions depth).opt).and (.ofParser (keyword "repeatable").opt))
    (.ofParser directiveLocations) .directiveLocations).map
    fun ((((((description, keyword), sign), name), arguments), repeatable), locations) =>
      ⟨description, keyword, sign, name, arguments, repeatable, locations⟩

theorem typeDefinition_restores {kind : TypeKind} {code : SyntaxCode}
    {body : CountedChain Token DefinitionHead →
      CountedChain Token (DefinitionHead × TypeBody (Option Directives))}
    {plain : Chain Token DefinitionHead →
      Chain Token (DefinitionHead × TypeBody (Option Directives))}
    (hb : ∀ {chain head}, chain.Restores count head → (body chain).Restores count (plain head)) :
    (typeDefinition kind code body).Restores count (Production.typeDefinition kind code plain) :=
  (hb (andSlot_restores (ofChain_restores _) (ofParser_restores _) _)).map _

theorem typeExtension_restores {kind : TypeKind} {code : SyntaxCode}
    {body : CountedChain Token ExtensionHead →
      CountedChain Token (ExtensionHead × TypeBody (Required Directives))}
    {plain : Chain Token ExtensionHead →
      Chain Token (ExtensionHead × TypeBody (Required Directives))}
    (hb : ∀ {chain head}, chain.Restores count head → (body chain).Restores count (plain head)) :
    (typeExtension kind code body).Restores count (Production.typeExtension kind code plain) :=
  (hb (andSlot_restores (CountedChain.of_restores (ofParser_restores _))
    (ofParser_restores _) _)).map _

theorem directiveDefinition_restores (deep : maxNesting < depth) :
    (directiveDefinition depth).Restores count Production.directiveDefinition :=
  (andSlot_restores (((andSlot_restores (andSlot_restores (ofChain_restores _)
    (ofParser_restores _) _) (ofParser_restores _) _).and
    (argumentDefinitions_restores deep).opt).and (ofParser_restores _)) (ofParser_restores _) _).map _

/-! ## Definitions -/

def typeSystemDefinition (depth : Nat) : Counted Token Definition :=
  .alt [(schemaDefinition depth).map .schema, (schemaExtension depth).map .schemaExtension,
    (typeDefinition .scalar .scalarName (scalarBody depth)).map .type,
    (typeExtension .scalar .scalarExtensionName (scalarExtensionBody depth)).map .typeExtension,
    (typeDefinition .object .objectName (objectBody depth)).map .type,
    (typeExtension .object .objectExtensionName (objectBody depth)).map .typeExtension,
    (typeDefinition .interface .interfaceName (interfaceBody depth)).map .type,
    (typeExtension .interface .interfaceExtensionName (interfaceBody depth)).map .typeExtension,
    (typeDefinition .union .unionName (unionBody depth)).map .type,
    (typeExtension .union .unionExtensionName (unionBody depth)).map .typeExtension,
    (typeDefinition .enum .enumName (enumBody depth)).map .type,
    (typeExtension .enum .enumExtensionName (enumBody depth)).map .typeExtension,
    (typeDefinition .input .inputName (inputBody depth)).map .type,
    (typeExtension .input .inputExtensionName (inputBody depth)).map .typeExtension,
    (directiveDefinition depth).map .directive]

def definition (depth : Nat) : Counted Token Definition :=
  .alt [executableDefinition depth, typeSystemDefinition depth]

def document (depth : Nat) : Counted Token Document := (definition depth).many0.map Document.mk

section Definitions

variable (deep : maxNesting < depth)

include deep

theorem typeSystemDefinition_restores :
    (typeSystemDefinition depth).Restores count Production.typeSystemDefinition :=
  .alt (.cons ((schemaDefinition_restores deep).map _)
    (.cons ((schemaExtension_restores deep).map _)
    (.cons ((typeDefinition_restores (scalarBody_restores deep)).map _)
    (.cons ((typeExtension_restores (scalarExtensionBody_restores deep)).map _)
    (.cons ((typeDefinition_restores (objectBody_restores deep)).map _)
    (.cons ((typeExtension_restores (objectBody_restores deep)).map _)
    (.cons ((typeDefinition_restores (interfaceBody_restores deep)).map _)
    (.cons ((typeExtension_restores (interfaceBody_restores deep)).map _)
    (.cons ((typeDefinition_restores (unionBody_restores deep)).map _)
    (.cons ((typeExtension_restores (unionBody_restores deep)).map _)
    (.cons ((typeDefinition_restores (enumBody_restores deep)).map _)
    (.cons ((typeExtension_restores (enumBody_restores deep)).map _)
    (.cons ((typeDefinition_restores (inputBody_restores deep)).map _)
    (.cons ((typeExtension_restores (inputBody_restores deep)).map _)
    (.cons ((directiveDefinition_restores deep).map _) .nil)))))))))))))))

theorem definition_restores : (definition depth).Restores count Production.definition :=
  .alt (.cons (executableDefinition_restores deep)
    (.cons (typeSystemDefinition_restores deep) .nil))

theorem document_restores : (document depth).Restores count Production.document :=
  (definition_restores deep).many0.map _

end Definitions

end GraphQL.Nesting

namespace GraphQL

open Production (maxNesting)
open Recovery (Counted)

/-- The counted production of a start symbol. -/
def StartSymbol.counted (depth : Nat) : StartSymbol → Counted Token Node
  | .arguments => (Nesting.arguments depth).map .arguments
  | .defaultValue => (Nesting.defaultValue depth).map .defaultValue
  | .definition => (Nesting.definition depth).map Definition.node
  | .directives => (Nesting.directives depth).map .directives
  | .document => (Nesting.document depth).map .document
  | .enumValue => .ofParser (Production.enumName.map fun token => .value (.enum token))
  | .executableDefinition => (Nesting.executableDefinition depth).map Definition.node
  | .fragmentDefinition => (Nesting.fragmentDefinition depth).map .fragment
  | .namedType => .ofParser (Production.namedType.map fun type => .type (.nullable (.named type)))
  | .operationDefinition => (Nesting.operationDefinition depth).map .operation
  | .operationType => .ofParser (Production.operationType.map .operationType)
  | .selectionSet => (Nesting.selectionSet depth).map .selectionSet
  | .type => (Nesting.type depth).map .type
  | .typeCondition => .ofParser (Production.typeCondition.map .typeCondition)
  | .typeSystemDefinition => (Nesting.typeSystemDefinition depth).map Definition.node
  | .value => (Nesting.value depth).map .value
  | .var => .ofParser (Production.var.map fun name => .value (.var name))

theorem StartSymbol.counted_restores {depth : Nat} (deep : maxNesting < depth) (count : Nat)
    (start : StartSymbol) : (start.counted depth).Restores count start.parser := by
  cases start with
  | arguments => exact (Nesting.arguments_restores deep).map _
  | defaultValue => exact (Nesting.defaultValue_restores deep).map _
  | definition => exact (Nesting.definition_restores deep).map _
  | directives => exact (Nesting.directives_restores deep).map _
  | document => exact (Nesting.document_restores deep).map _
  | executableDefinition => exact (Nesting.executableDefinition_restores deep).map _
  | fragmentDefinition => exact (Nesting.fragmentDefinition_restores deep).map _
  | operationDefinition => exact (Nesting.operationDefinition_restores deep).map _
  | selectionSet => exact (Nesting.selectionSet_restores deep).map _
  | type => exact (Nesting.type_restores deep).map _
  | typeSystemDefinition => exact (Nesting.typeSystemDefinition_restores deep).map _
  | value => exact (Nesting.value_restores deep).map _
  | enumValue | namedType | operationType | typeCondition | var => exact Nesting.ofParser_restores _

end GraphQL
