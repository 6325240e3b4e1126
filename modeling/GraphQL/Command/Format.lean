import GraphQL.Diagnostic.Syntax
import GraphQL.Layout.Document

/-! # Formatting a document

Only a document without syntax errors has a canonical layout. -/

namespace GraphQL

set_option autoImplicit false

/-- The canonical layout of a document, or its syntax errors. -/
def formatSource (text : Text) : Except (List Diagnostic) Text :=
  let parsed := parse 1 text
  if parsed.diagnostics.isEmpty then .ok parsed.tree.layout else .error parsed.diagnostics

end GraphQL
