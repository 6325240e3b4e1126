/-! # Syntax codes

`SyntaxCode` names what can be wrong with the syntax of a document: tokens that no construct holds,
or one part that a construct lacks. -/

namespace GraphQL

set_option autoImplicit false

/-- What is wrong: `unrecognizedTokens`, or the part that is lacking. -/
inductive SyntaxCode where
  | unrecognizedTokens
  | variableName
  | operationSelectionSet
  | selectionSetClosing
  | fieldName
  | argumentsClosing
  | argumentColon
  | argumentValue
  | inlineFragmentSelectionSet
  | fragmentName
  | fragmentTypeCondition
  | fragmentSelectionSet
  | typeConditionType
  | listValueClosing
  | objectValueClosing
  | objectFieldColon
  | objectFieldValue
  | variablesClosing
  | variableColon
  | variableType
  | defaultValue
  | listTypeClosing
  | listTypeItem
  | directiveName
  | schemaRootTypes
  | rootTypesClosing
  | rootTypeColon
  | rootTypeName
  | scalarName
  | scalarExtensionName
  | scalarExtensionDirectives
  | objectName
  | firstInterface
  | nextInterface
  | fieldsClosing
  | fieldDefinitionColon
  | fieldDefinitionType
  | argumentsDefinitionClosing
  | inputValueColon
  | inputValueType
  | objectExtensionName
  | interfaceName
  | interfaceExtensionName
  | unionName
  | firstUnionMember
  | nextUnionMember
  | unionExtensionName
  | enumName
  | enumValuesClosing
  | enumExtensionName
  | inputName
  | inputFieldsClosing
  | inputExtensionName
  | directiveSign
  | directiveDefinitionName
  | directiveLocations
  | firstDirectiveLocation
  | nextDirectiveLocation
  | rootTypes
deriving DecidableEq, Repr

namespace SyntaxCode

/-- Every code, in the order of the catalog. -/
def all : List SyntaxCode :=
  [.unrecognizedTokens, .variableName, .operationSelectionSet, .selectionSetClosing, .fieldName,
   .argumentsClosing, .argumentColon, .argumentValue, .inlineFragmentSelectionSet, .fragmentName,
   .fragmentTypeCondition, .fragmentSelectionSet, .typeConditionType, .listValueClosing,
   .objectValueClosing, .objectFieldColon, .objectFieldValue, .variablesClosing, .variableColon,
   .variableType, .defaultValue, .listTypeClosing, .listTypeItem, .directiveName, .schemaRootTypes,
   .rootTypesClosing, .rootTypeColon, .rootTypeName, .scalarName, .scalarExtensionName,
   .scalarExtensionDirectives, .objectName, .firstInterface, .nextInterface, .fieldsClosing,
   .fieldDefinitionColon, .fieldDefinitionType, .argumentsDefinitionClosing, .inputValueColon,
   .inputValueType, .objectExtensionName, .interfaceName, .interfaceExtensionName, .unionName,
   .firstUnionMember, .nextUnionMember, .unionExtensionName, .enumName, .enumValuesClosing,
   .enumExtensionName, .inputName, .inputFieldsClosing, .inputExtensionName, .directiveSign,
   .directiveDefinitionName, .directiveLocations, .firstDirectiveLocation, .nextDirectiveLocation,
   .rootTypes]

end SyntaxCode

end GraphQL
