import GraphQL.Diagnostic.Entry

/-! # The command line catalog

What can go wrong with the files of a command. -/

namespace GraphQL

set_option autoImplicit false

inductive FileProblem where
  | notFound
  | unreadable
  | unwritable
  | unformattable
deriving DecidableEq, Repr

namespace FileProblem

/-- Every problem, in the order of the catalog. -/
def all : List FileProblem := [.notFound, .unreadable, .unwritable, .unformattable]

def entry : FileProblem → Entry
  | .notFound =>
    { code := "FCCLI001"
      severity := .error
      message := "file not found: \x7bpath\x7d"
      description := "There's no file at this path."
      suggestion := some "Double-check the path and make sure the file exists." }
  | .unreadable =>
    { code := "FCCLI002"
      severity := .error
      message := "cannot read file: \x7breason\x7d"
      description := "The file exists but it can't be opened."
      suggestion := some "Check that you have read permission for this file." }
  | .unwritable =>
    { code := "FCCLI003"
      severity := .error
      message := "cannot write file: \x7breason\x7d"
      description := "The formatted document couldn't be saved."
      suggestion := some "Check that you have write permission for this file." }
  | .unformattable =>
    { code := "FCCLI004"
      severity := .error
      message := "refusing to format \x7bpath\x7d: \x7bcount\x7d syntax error(s)"
      description := "Only documents without syntax errors have a canonical layout."
      suggestion := some "Run `facet check \x7bpath\x7d` and fix the reported errors first." }

end FileProblem

end GraphQL
