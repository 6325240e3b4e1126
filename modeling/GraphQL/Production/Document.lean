import GraphQL.Document.Node
import GraphQL.Production.TypeSystem
import GraphQL.Token.Lexer

/-! # Documents

`parse` reads a whole document and never fails: what the grammar cannot place is listed as
unrecognized. `parseWith` does the same from any `StartSymbol`. -/

namespace GraphQL

set_option autoImplicit false

open Recovery (Cursor Parser Run)
open Production (maxNesting)

namespace Production

/-- Operations and fragments are tried first. -/
def definition : Parser Token Definition := .alt [executableDefinition, typeSystemDefinition]

def document : Parser Token Document := definition.many0.map Document.mk

end Production

/-- The constructs that can be read on their own. -/
inductive StartSymbol where
  | arguments
  | defaultValue
  | definition
  | directives
  | document
  | enumValue
  | executableDefinition
  | fragmentDefinition
  | namedType
  | operationDefinition
  | operationType
  | selectionSet
  | type
  | typeCondition
  | typeSystemDefinition
  | value
  | var
deriving DecidableEq, Repr

def StartSymbol.parser : StartSymbol → Parser Token Node
  | .arguments => (Production.arguments maxNesting).map .arguments
  | .defaultValue => Production.defaultValue.map .defaultValue
  | .definition => Production.definition.map Definition.node
  | .directives => (Production.directives maxNesting).map .directives
  | .document => Production.document.map .document
  | .enumValue => Production.enumName.map fun token => .value (.enum token)
  | .executableDefinition => Production.executableDefinition.map Definition.node
  | .fragmentDefinition => Production.fragmentDefinition.map .fragment
  | .namedType => Production.namedType.map fun type => .type (.nullable (.named type))
  | .operationDefinition => Production.operationDefinition.map .operation
  | .operationType => Production.operationType.map .operationType
  | .selectionSet => (Production.selectionSet maxNesting).map .selectionSet
  | .type => (Production.type maxNesting).map .type
  | .typeCondition => Production.typeCondition.map .typeCondition
  | .typeSystemDefinition => Production.typeSystemDefinition.map Definition.node
  | .value => (Production.value maxNesting).map .value
  | .var => Production.var.map fun name => .value (.var name)

/-- What parsing a text gives: a tree, the tokens of the text, and those of them that the tree does
not hold. -/
structure Parsed (α : Type) where
  tree : α
  tokens : Array Token
  unrecognized : List (Run Token)

/-- Reads a text by a parser, unless the parser cannot begin. -/
def parseBy {α : Type} (parser : Parser Token α) (source : Int) (text : Text) :
    Option (Parsed α) :=
  let tokens := (lex source text).toArray
  (parser.parseAll tokens).map fun (tree, unrecognized) => ⟨tree, tokens, unrecognized⟩

/-- Reads a text from a start symbol, unless its production cannot begin. -/
def parseWith (start : StartSymbol) (source : Int) (text : Text) : Option (Parsed Node) :=
  parseBy start.parser source text

def parse (source : Int) (text : Text) : Parsed Document :=
  let tokens := (lex source text).toArray
  match Production.document.parseAll tokens with
  | some (tree, unrecognized) => ⟨tree, tokens, unrecognized⟩
  | none => ⟨⟨[]⟩, tokens, (Cursor.start tokens).runs []⟩

end GraphQL
