import GraphQL.Production.Operation

/-! # The type system

A definition begins with an optional description and a keyword, an extension with `extend` and a
keyword. What follows the name is the same in both, except that a scalar needs directives in an
extension. -/

namespace GraphQL.Production

set_option autoImplicit false

open Recovery (Chain Parser)

variable {α δ : Type}

/-- An optional description and a keyword; the chain is recognized by either. -/
def introduced (word : Text) : Chain Token (Option Token × Token) :=
  (Chain.of stringToken.opt).andRecognize (keyword word)

/-! ## Schemas -/

def rootOperationType : Parser Token RootOperationType :=
  (andSlot (andSlot (Chain.of operationType) (punctuator ":") .rootTypeColon) namedType
    .rootTypeName).map fun ((operation, colon), type) => ⟨operation, colon, type⟩

def rootOperationTypes : Parser Token RootOperationTypes :=
  ((andSlot (Chain.of (punctuator "\x7b")) rootOperationType.many1 .rootTypes).andRecover
    (punctuator "\x7d") fun (opening, _) => unclosed .rootTypesClosing opening).map
    fun ((opening, entries), closing) => ⟨opening, entries, closing⟩

def schemaDefinition : Parser Token SchemaDefinition :=
  (andSlot ((introduced "schema").and (directives maxNesting).opt) rootOperationTypes
    .schemaRootTypes).map
    fun (((description, keyword), directives), roots) => ⟨description, keyword, directives, roots⟩

def schemaExtension : Parser Token SchemaExtension :=
  (((Chain.of (extension "schema")).and (directives maxNesting).opt).and
    rootOperationTypes.opt).map
    fun (((extend, keyword), directives), roots) => ⟨extend, keyword, directives, roots⟩

/-! ## Input values and fields -/

def inputValueDefinition : Parser Token InputValueDefinition :=
  (((andSlot (andSlot ((Chain.of stringToken.opt).andRecognize name) (punctuator ":")
    .inputValueColon) (type maxNesting) .inputValueType).and defaultValue.opt).and
    (directives maxNesting).opt).map
    fun (((((description, name), colon), type), default), directives) =>
      ⟨description, name, colon, type, default, directives⟩

def argumentDefinitions : Parser Token (Delimited InputValueDefinition) :=
  delimited "(" ")" inputValueDefinition .argumentsDefinitionClosing

def fieldDefinition : Parser Token FieldDefinition :=
  ((andSlot (andSlot (((Chain.of stringToken.opt).andRecognize name).and argumentDefinitions.opt)
    (punctuator ":") .fieldDefinitionColon) (type maxNesting) .fieldDefinitionType).and
    (directives maxNesting).opt).map
    fun (((((description, name), arguments), colon), type), directives) =>
      ⟨description, name, arguments, colon, type, directives⟩

def fieldDefinitions : Parser Token (Delimited FieldDefinition) :=
  delimited "\x7b" "\x7d" fieldDefinition .fieldsClosing

def inputFields : Parser Token (Delimited InputValueDefinition) :=
  delimited "\x7b" "\x7d" inputValueDefinition .inputFieldsClosing

/-! ## Interfaces, members and enum values -/

def interfaces : Parser Token (MemberList NamedType) :=
  memberList (keyword "implements") (punctuator "&") namedType .firstInterface .nextInterface

def unionMembers : Parser Token (MemberList NamedType) :=
  memberList (punctuator "=") (punctuator "|") namedType .firstUnionMember .nextUnionMember

def enumValueDefinition : Parser Token EnumValueDefinition :=
  (((Chain.of stringToken.opt).andRecognize enumName).and (directives maxNesting).opt).map
    fun ((description, value), directives) => ⟨description, value, directives⟩

def enumValues : Parser Token (Delimited EnumValueDefinition) :=
  delimited "\x7b" "\x7d" enumValueDefinition .enumValuesClosing

/-! ## Bodies -/

def scalarBody (chain : Chain Token α) : Chain Token (α × TypeBody (Option Directives)) :=
  (chain.and (directives maxNesting).opt).onValue fun (head, directives) =>
    (head, .scalar directives)

def scalarExtensionBody (chain : Chain Token α) : Chain Token (α × TypeBody (Required Directives)) :=
  (andSlot chain (directives maxNesting) .scalarExtensionDirectives).onValue
    fun (head, directives) => (head, .scalar directives)

def fieldedBody (chain : Chain Token α) : Chain Token (α × FieldedBody) :=
  (((chain.and interfaces.opt).and (directives maxNesting).opt).and fieldDefinitions.opt).onValue
    fun (((head, interfaces), directives), fields) => (head, ⟨interfaces, directives, fields⟩)

def objectBody (chain : Chain Token α) : Chain Token (α × TypeBody δ) :=
  (fieldedBody chain).onValue fun (head, body) => (head, .object body)

def interfaceBody (chain : Chain Token α) : Chain Token (α × TypeBody δ) :=
  (fieldedBody chain).onValue fun (head, body) => (head, .interface body)

def unionBody (chain : Chain Token α) : Chain Token (α × TypeBody δ) :=
  ((chain.and (directives maxNesting).opt).and unionMembers.opt).onValue
    fun ((head, directives), members) => (head, .union directives members)

def enumBody (chain : Chain Token α) : Chain Token (α × TypeBody δ) :=
  ((chain.and (directives maxNesting).opt).and enumValues.opt).onValue
    fun ((head, directives), values) => (head, .enum directives values)

def inputBody (chain : Chain Token α) : Chain Token (α × TypeBody δ) :=
  ((chain.and (directives maxNesting).opt).and inputFields.opt).onValue
    fun ((head, directives), fields) => (head, .input directives fields)

/-! ## Types -/

/-- What the name of a definition stands behind: an optional description and the keyword. -/
abbrev DefinitionHead := (Option Token × Token) × Required Token

/-- What the name of an extension stands behind: `extend` and the keyword. -/
abbrev ExtensionHead := (Token × Token) × Required Token

def typeDefinition (kind : TypeKind) (code : SyntaxCode)
    (body : Chain Token DefinitionHead →
      Chain Token (DefinitionHead × TypeBody (Option Directives))) :
    Parser Token TypeDefinition :=
  (body (andSlot (introduced kind.keyword) name code)).map
    fun (((description, keyword), name), body) => ⟨description, keyword, name, body⟩

def typeExtension (kind : TypeKind) (code : SyntaxCode)
    (body : Chain Token ExtensionHead →
      Chain Token (ExtensionHead × TypeBody (Required Directives))) :
    Parser Token TypeExtension :=
  (body (andSlot (Chain.of (extension kind.keyword)) name code)).map
    fun (((extend, keyword), name), body) => ⟨extend, keyword, name, body⟩

/-! ## Directives -/

def directiveLocation : Parser Token DirectiveLocation :=
  .token "directive location" fun t =>
    if t.kind == .name && DirectiveLocation.names.contains t.text then some ⟨t⟩ else none

def directiveLocations : Parser Token (MemberList DirectiveLocation) :=
  memberList (keyword "on") (punctuator "|") directiveLocation .firstDirectiveLocation
    .nextDirectiveLocation

def directiveDefinition : Parser Token DirectiveDefinition :=
  (andSlot (((andSlot (andSlot (introduced "directive") (punctuator "@") .directiveSign)
    (nameExcept ["on"]) .directiveDefinitionName).and argumentDefinitions.opt).and
    (keyword "repeatable").opt) directiveLocations .directiveLocations).map
    fun ((((((description, keyword), sign), name), arguments), repeatable), locations) =>
      ⟨description, keyword, sign, name, arguments, repeatable, locations⟩

/-! ## Definitions -/

/-- Each description is tried in front of every keyword, in this order. -/
def typeSystemDefinition : Parser Token Definition :=
  .alt [schemaDefinition.map .schema, schemaExtension.map .schemaExtension,
    (typeDefinition .scalar .scalarName scalarBody).map .type,
    (typeExtension .scalar .scalarExtensionName scalarExtensionBody).map .typeExtension,
    (typeDefinition .object .objectName objectBody).map .type,
    (typeExtension .object .objectExtensionName objectBody).map .typeExtension,
    (typeDefinition .interface .interfaceName interfaceBody).map .type,
    (typeExtension .interface .interfaceExtensionName interfaceBody).map .typeExtension,
    (typeDefinition .union .unionName unionBody).map .type,
    (typeExtension .union .unionExtensionName unionBody).map .typeExtension,
    (typeDefinition .enum .enumName enumBody).map .type,
    (typeExtension .enum .enumExtensionName enumBody).map .typeExtension,
    (typeDefinition .input .inputName inputBody).map .type,
    (typeExtension .input .inputExtensionName inputBody).map .typeExtension,
    directiveDefinition.map .directive]

end GraphQL.Production
