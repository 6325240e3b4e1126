import GraphQL.Text

/-! # Catalog entries

An `Entry` holds the texts of one kind of diagnostic. Messages and suggestions are templates. -/

namespace GraphQL

set_option autoImplicit false

inductive Severity where
  | error
  | warning
  | note
deriving DecidableEq, Repr

def Severity.word : Severity → Text
  | .error => "error"
  | .warning => "warning"
  | .note => "note"

/-- One kind of diagnostic. -/
structure Entry where
  code : Text
  severity : Severity
  message : Text
  description : Text
  label : Option Text := none
  /-- Text at a related place, such as an opening delimiter. -/
  relatedLabel : Option Text := none
  /-- How to help oneself. -/
  suggestion : Option Text := none

end GraphQL
