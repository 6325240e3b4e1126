import GraphQL.Text

/-! # Built-in definitions

The scalars and directives that belong to the language. They make up a document of their own, under
a key that no file has. -/

namespace GraphQL.Builtins

set_option autoImplicit false

def key : Text := "<builtins>"

def lines : List String := [
  "\"The `String` scalar type represents textual data, represented as UTF-8 character sequences.\"",
  "scalar String",
  "",
  "\"The `Int` scalar type represents non-fractional signed whole numeric values.\"",
  "scalar Int",
  "",
  "\"The `Float` scalar type represents signed double-precision fractional values.\"",
  "scalar Float",
  "",
  "\"The `Boolean` scalar type represents `true` or `false`.\"",
  "scalar Boolean",
  "",
  "\"The `ID` scalar type represents a unique identifier, serialized as a string.\"",
  "scalar ID",
  "",
  "\"Directs the executor to skip this field or fragment when the `if` argument is true.\"",
  "directive @skip(",
  "  \"Skipped when true.\"",
  "  if: Boolean!",
  ") on FIELD | FRAGMENT_SPREAD | INLINE_FRAGMENT",
  "",
  "\"Directs the executor to include this field or fragment only when the `if` argument is true.\"",
  "directive @include(",
  "  \"Included when true.\"",
  "  if: Boolean!",
  ") on FIELD | FRAGMENT_SPREAD | INLINE_FRAGMENT",
  "",
  "\"Marks an element of a GraphQL schema as no longer supported.\"",
  "directive @deprecated(",
  "  \"Explains why this element was deprecated.\"",
  "  reason: String = \"No longer supported\"",
  ") on FIELD_DEFINITION | ARGUMENT_DEFINITION | INPUT_FIELD_DEFINITION | ENUM_VALUE",
  "",
  "\"Exposes a URL that specifies the behavior of this scalar.\"",
  "directive @specifiedBy(",
  "  \"The URL that specifies the behavior of this scalar.\"",
  "  url: String!",
  ") on SCALAR",
  ""]

/-- The built-in document. -/
def text : Text := Text.ofString ("\n".intercalate lines)

end GraphQL.Builtins
