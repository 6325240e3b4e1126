import GraphQL.Diagnostic.CommandCatalog
import GraphQL.Diagnostic.SyntaxCatalog

/-! # The catalog

Every kind of diagnostic by its code: the syntax codes first, then those of the command line. -/

namespace GraphQL.Catalog

set_option autoImplicit false

def syntaxEntries : List Entry := SyntaxCode.all.map SyntaxCode.entry

def commandEntries : List Entry := FileProblem.all.map FileProblem.entry

def find? (entries : List Entry) (code : Text) : Option Entry :=
  entries.find? fun entry => entry.code == code

def syntaxEntry? (code : Text) : Option Entry := find? syntaxEntries code

def commandEntry? (code : Text) : Option Entry := find? commandEntries code

def entries : List Entry := syntaxEntries ++ commandEntries

def entry? (code : Text) : Option Entry := find? entries code

end GraphQL.Catalog
