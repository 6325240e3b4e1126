import GraphQL.Diagnostic.Entry
import GraphQL.Diagnostic.SyntaxCode

/-! # The syntax catalog

`SyntaxCode.entry` gives the texts of each syntax code. All of them are errors, and the labels of
unclosed constructs come in pairs: one for the gap, one for the opening delimiter. -/

namespace GraphQL

set_option autoImplicit false

def SyntaxCode.entry : SyntaxCode → Entry
  | .unrecognizedTokens =>
    { code := "FCPARSE001"
      severity := .error
      message := "syntax error"
      description := "These tokens don't fit anywhere in the surrounding definition, so they were skipped."
      label := some "couldn't recognize these tokens here"
      suggestion := some "Remove the tokens or check for a typo in the definition before them." }
  | .variableName =>
    { code := "FCPARSE002"
      severity := .error
      message := "variable must have a name"
      description := "A `$` starts a variable, and a variable needs a name right after it."
      label := some "expected a variable name here" }
  | .operationSelectionSet =>
    { code := "FCPARSE003"
      severity := .error
      message := "operation definition must have a selection set"
      description := "Every query, mutation or subscription selects at least one field inside `\x7b \x7d`."
      label := some "expected a selection set for this operation here" }
  | .selectionSetClosing =>
    { code := "FCPARSE004"
      severity := .error
      message := "selection set is missing a closing brace"
      description := "A selection set opened with `\x7b` has to be closed with `\x7d`."
      label := some "... should have a matching `\x7d` here"
      relatedLabel := some "this `\x7b` here ..." }
  | .fieldName =>
    { code := "FCPARSE005"
      severity := .error
      message := "field must have a name"
      description := "An alias is followed by the name of the field it renames."
      label := some "missing the name of this field here" }
  | .argumentsClosing =>
    { code := "FCPARSE006"
      severity := .error
      message := "arguments are missing a closing parenthesis"
      description := "An argument list opened with `(` has to be closed with `)`."
      label := some "... should have a matching `)` here"
      relatedLabel := some "this `(` here ..." }
  | .argumentColon =>
    { code := "FCPARSE007"
      severity := .error
      message := "argument is missing a colon"
      description := "Arguments are written as `name: value`."
      label := some "argument should have a colon here" }
  | .argumentValue =>
    { code := "FCPARSE008"
      severity := .error
      message := "argument is missing a value"
      description := "Arguments are written as `name: value`."
      label := some "argument should have a value here" }
  | .inlineFragmentSelectionSet =>
    { code := "FCPARSE009"
      severity := .error
      message := "inline fragment is missing a selection set"
      description := "An inline fragment selects fields inside `\x7b \x7d`."
      label := some "inline fragment here should have a selection set" }
  | .fragmentName =>
    { code := "FCPARSE010"
      severity := .error
      message := "fragment definition must have a name"
      description := "Fragments are referenced by name, so a fragment definition needs one."
      label := some "fragment definition here does not have a name" }
  | .fragmentTypeCondition =>
    { code := "FCPARSE011"
      severity := .error
      message := "fragment definition must have a type condition"
      description := "A fragment definition says which type it applies to with `on Type`."
      label := some "fragment definition here does not have a type condition" }
  | .fragmentSelectionSet =>
    { code := "FCPARSE012"
      severity := .error
      message := "fragment definition must have a selection set"
      description := "A fragment definition selects fields inside `\x7b \x7d`."
      label := some "fragment definition here does not have a selection set" }
  | .typeConditionType =>
    { code := "FCPARSE013"
      severity := .error
      message := "type condition must have a named type"
      description := "`on` is followed by the name of a type."
      label := some "type condition here does not have a named type" }
  | .listValueClosing =>
    { code := "FCPARSE014"
      severity := .error
      message := "list value is missing a closing bracket"
      description := "A list value opened with `[` has to be closed with `]`."
      label := some "... should have a matching `]` here"
      relatedLabel := some "this `[` here ..." }
  | .objectValueClosing =>
    { code := "FCPARSE015"
      severity := .error
      message := "object value is missing a closing brace"
      description := "An object value opened with `\x7b` has to be closed with `\x7d`."
      label := some "... should have a matching `\x7d` here"
      relatedLabel := some "this `\x7b` here ..." }
  | .objectFieldColon =>
    { code := "FCPARSE016"
      severity := .error
      message := "object field is missing a colon"
      description := "Object fields are written as `name: value`."
      label := some "this object field here is missing a colon" }
  | .objectFieldValue =>
    { code := "FCPARSE017"
      severity := .error
      message := "object field is missing a value"
      description := "Object fields are written as `name: value`."
      label := some "this object field here is missing a value" }
  | .variablesClosing =>
    { code := "FCPARSE018"
      severity := .error
      message := "variable definitions are missing a closing parenthesis"
      description := "Variable definitions opened with `(` have to be closed with `)`."
      label := some "... must have a matching `)` here"
      relatedLabel := some "this `(` here ..." }
  | .variableColon =>
    { code := "FCPARSE019"
      severity := .error
      message := "variable definition is missing a colon"
      description := "Variable definitions are written as `$name: Type`."
      label := some "this variable definition here is missing a colon" }
  | .variableType =>
    { code := "FCPARSE020"
      severity := .error
      message := "variable definition is missing a type"
      description := "Variable definitions are written as `$name: Type`."
      label := some "this variable definition here is missing a type" }
  | .defaultValue =>
    { code := "FCPARSE021"
      severity := .error
      message := "default value is missing a value"
      description := "`=` is followed by the default value."
      label := some "this default value here is missing a value" }
  | .listTypeClosing =>
    { code := "FCPARSE022"
      severity := .error
      message := "list type is missing a closing bracket"
      description := "A list type opened with `[` has to be closed with `]`."
      label := some "... must have a matching `]` here"
      relatedLabel := some "this `[` here ..." }
  | .listTypeItem =>
    { code := "FCPARSE023"
      severity := .error
      message := "list type must wrap another type"
      description := "A list type names the type of its items, as in `[String]`."
      label := some "this list type here is missing a wrapped type" }
  | .directiveName =>
    { code := "FCPARSE024"
      severity := .error
      message := "directive must have a name"
      description := "`@` is followed by the name of the directive."
      label := some "this directive here is missing a name" }
  | .schemaRootTypes =>
    { code := "FCPARSE025"
      severity := .error
      message := "schema definition must define one or more root operation types"
      description := "A schema definition lists its root operation types inside `\x7b \x7d`."
      label := some "this schema definition doesn't define any root operation types" }
  | .rootTypesClosing =>
    { code := "FCPARSE026"
      severity := .error
      message := "root operation type definitions are missing a closing brace"
      description := "Root operation type definitions opened with `\x7b` have to be closed with `\x7d`."
      label := some "... should have a matching `\x7d` here"
      relatedLabel := some "this `\x7b` here ..." }
  | .rootTypeColon =>
    { code := "FCPARSE027"
      severity := .error
      message := "root operation type definition is missing a colon"
      description := "Root operation types are written as `query: Query`."
      label := some "this root operation type definition here is missing a colon" }
  | .rootTypeName =>
    { code := "FCPARSE028"
      severity := .error
      message := "root operation type definition is missing a named type"
      description := "Root operation types are written as `query: Query`."
      label := some "this root operation type definition here is missing a named type" }
  | .scalarName =>
    { code := "FCPARSE029"
      severity := .error
      message := "scalar type definition must have a name"
      description := "`scalar` is followed by the name of the new scalar type."
      label := some "this scalar type definition here is missing a name" }
  | .scalarExtensionName =>
    { code := "FCPARSE030"
      severity := .error
      message := "scalar type extension must have a name"
      description := "`extend scalar` is followed by the name of the scalar being extended."
      label := some "this scalar type extension here is missing a name" }
  | .scalarExtensionDirectives =>
    { code := "FCPARSE031"
      severity := .error
      message := "scalar type extension must have one or more directives"
      description := "The only thing a scalar extension can add is directives."
      label := some "this scalar type extension here is missing directives" }
  | .objectName =>
    { code := "FCPARSE032"
      severity := .error
      message := "object type definition must have a name"
      description := "`type` is followed by the name of the new object type."
      label := some "this object type definition here is missing a name" }
  | .firstInterface =>
    { code := "FCPARSE033"
      severity := .error
      message := "implemented interfaces must not be empty"
      description := "`implements` is followed by at least one interface name."
      label := some "this type here implements an interface, but its name is missing" }
  | .nextInterface =>
    { code := "FCPARSE034"
      severity := .error
      message := "implemented interface name is missing"
      description := "Every `&` is followed by the name of another interface."
      label := some "this type here implements another interface, but its name is missing" }
  | .fieldsClosing =>
    { code := "FCPARSE035"
      severity := .error
      message := "fields definition is missing a closing brace"
      description := "A fields definition opened with `\x7b` has to be closed with `\x7d`."
      label := some "... must have a matching `\x7d` here"
      relatedLabel := some "this `\x7b` here ..." }
  | .fieldDefinitionColon =>
    { code := "FCPARSE036"
      severity := .error
      message := "field definition is missing a colon"
      description := "Field definitions are written as `name: Type`."
      label := some "this field definition here is missing a colon" }
  | .fieldDefinitionType =>
    { code := "FCPARSE037"
      severity := .error
      message := "field definition is missing a type"
      description := "Field definitions are written as `name: Type`."
      label := some "this field definition here is missing a type" }
  | .argumentsDefinitionClosing =>
    { code := "FCPARSE038"
      severity := .error
      message := "arguments definition is missing a closing parenthesis"
      description := "An arguments definition opened with `(` has to be closed with `)`."
      label := some "... must have a matching `)` here"
      relatedLabel := some "this `(` here ..." }
  | .inputValueColon =>
    { code := "FCPARSE039"
      severity := .error
      message := "input value definition is missing a colon"
      description := "Input value definitions are written as `name: Type`."
      label := some "this input value definition here is missing a colon" }
  | .inputValueType =>
    { code := "FCPARSE040"
      severity := .error
      message := "input value definition is missing a type"
      description := "Input value definitions are written as `name: Type`."
      label := some "this input value definition here is missing a type" }
  | .objectExtensionName =>
    { code := "FCPARSE041"
      severity := .error
      message := "object type extension must have a name"
      description := "`extend type` is followed by the name of the type being extended."
      label := some "this object type extension here is missing a name" }
  | .interfaceName =>
    { code := "FCPARSE042"
      severity := .error
      message := "interface type definition must have a name"
      description := "`interface` is followed by the name of the new interface."
      label := some "this interface type definition here is missing a name" }
  | .interfaceExtensionName =>
    { code := "FCPARSE043"
      severity := .error
      message := "interface type extension must have a name"
      description := "`extend interface` is followed by the name of the interface being extended."
      label := some "this interface type extension here is missing a name" }
  | .unionName =>
    { code := "FCPARSE044"
      severity := .error
      message := "union type definition must have a name"
      description := "`union` is followed by the name of the new union."
      label := some "this union type definition here is missing a name" }
  | .firstUnionMember =>
    { code := "FCPARSE045"
      severity := .error
      message := "union type definition must have one or more member types"
      description := "`=` is followed by at least one member type."
      label := some "this union type definition here is missing a member type" }
  | .nextUnionMember =>
    { code := "FCPARSE046"
      severity := .error
      message := "union member type must have a name"
      description := "Every `|` is followed by the name of another member type."
      label := some "this union type definition here defines another member type but its name is missing" }
  | .unionExtensionName =>
    { code := "FCPARSE047"
      severity := .error
      message := "union type extension must have a name"
      description := "`extend union` is followed by the name of the union being extended."
      label := some "this union type extension here is missing a name" }
  | .enumName =>
    { code := "FCPARSE048"
      severity := .error
      message := "enum type definition must have a name"
      description := "`enum` is followed by the name of the new enum."
      label := some "this enum type definition here is missing a name" }
  | .enumValuesClosing =>
    { code := "FCPARSE049"
      severity := .error
      message := "enum values are missing a closing brace"
      description := "Enum values opened with `\x7b` have to be closed with `\x7d`."
      label := some "... must have a matching `\x7d` here"
      relatedLabel := some "this `\x7b` here ..." }
  | .enumExtensionName =>
    { code := "FCPARSE050"
      severity := .error
      message := "enum type extension must have a name"
      description := "`extend enum` is followed by the name of the enum being extended."
      label := some "this enum type extension here is missing a name" }
  | .inputName =>
    { code := "FCPARSE051"
      severity := .error
      message := "input object type definition must have a name"
      description := "`input` is followed by the name of the new input object type."
      label := some "this input object type definition here is missing a name" }
  | .inputFieldsClosing =>
    { code := "FCPARSE052"
      severity := .error
      message := "input fields definition is missing a closing brace"
      description := "An input fields definition opened with `\x7b` has to be closed with `\x7d`."
      label := some "... must have a `\x7d` here"
      relatedLabel := some "this `\x7b` here ..." }
  | .inputExtensionName =>
    { code := "FCPARSE053"
      severity := .error
      message := "input object type extension must have a name"
      description := "`extend input` is followed by the name of the input object being extended."
      label := some "this input object type extension here is missing a name" }
  | .directiveSign =>
    { code := "FCPARSE054"
      severity := .error
      message := "directive's name must start with an `@`"
      description := "Directive definitions are written as `directive @name on LOCATION`."
      label := some "this directive's name here does not start with an `@`" }
  | .directiveDefinitionName =>
    { code := "FCPARSE055"
      severity := .error
      message := "directive definition must have a name"
      description := "Directive definitions are written as `directive @name on LOCATION`."
      label := some "this directive definition here is missing a name" }
  | .directiveLocations =>
    { code := "FCPARSE056"
      severity := .error
      message := "directive definition must have one or more locations"
      description := "`on` lists the places where the directive may be used."
      label := some "this directive definition here is missing locations" }
  | .firstDirectiveLocation =>
    { code := "FCPARSE057"
      severity := .error
      message := "directive definition must have one or more locations"
      description := "`on` is followed by at least one directive location."
      label := some "this directive definition here is missing a location" }
  | .nextDirectiveLocation =>
    { code := "FCPARSE058"
      severity := .error
      message := "directive location must be defined"
      description := "Every `|` is followed by another directive location."
      label := some "this directive definition here is missing a location" }
  | .rootTypes =>
    { code := "FCPARSE059"
      severity := .error
      message := "root operation type definitions must not be empty"
      description := "The braces after `schema` contain at least one entry such as `query: Query`."
      label := some "expected a root operation type definition here" }

end GraphQL
