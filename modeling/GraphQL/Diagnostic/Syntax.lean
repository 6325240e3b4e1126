import GraphQL.Diagnostic.Report
import GraphQL.Diagnostic.SyntaxCatalog
import GraphQL.Document.Walk
import GraphQL.Production.Document

/-! # The syntax errors of a document

Every gap and every run of unrecognized tokens is one error. `Parsed.diagnostics` lists them by
where they start; of those that start together gaps come first, in source order. -/

namespace GraphQL

set_option autoImplicit false

open Recovery (Gap Run)

/-- The error of a gap. A closing delimiter that is lacking points at the opening one. -/
def Diagnostic.ofGap (gap : Gap Expectation) : Diagnostic :=
  let entry := gap.expected.code.entry
  let labels := match gap.expected.opening, entry.relatedLabel with
    | some span, some message => [⟨message, span⟩]
    | _, _ => []
  .make entry gap.span labels []

/-- The error of tokens that no construct holds. -/
def Diagnostic.ofRun (run : Run Token) : Diagnostic :=
  .make SyntaxCode.unrecognizedTokens.entry run.span [] []

/-- The errors of an outline and of what is unrecognized beside it, in order of their starts. -/
def syntaxErrors (outline : Outline) (unrecognized : List (Run Token)) : List Diagnostic :=
  (outline.gaps.map Diagnostic.ofGap ++ unrecognized.map Diagnostic.ofRun).mergeSort
    fun a b => decide (a.span.start ≤ b.span.start)

def Parsed.diagnostics (parsed : Parsed Document) : List Diagnostic :=
  syntaxErrors parsed.tree.outline parsed.unrecognized

end GraphQL
