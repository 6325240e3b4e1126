import GraphQL.Span
import GraphQL.Text

/-! # Tokens

The lexemes of a document: a kind, the exact text and the span it was read from. -/

namespace GraphQL

set_option autoImplicit false

/-- What a lexeme is. `error` is a lexeme that is no token of the language. -/
inductive TokenKind where
  | name
  | punctuator
  | int
  | float
  | string
  | error
deriving DecidableEq, Repr, Inhabited

/-- A lexeme with its place. -/
structure Token where
  kind : TokenKind
  text : Text
  span : Span
deriving DecidableEq, Repr, Inhabited

instance : HasSpan Token := ⟨Token.span⟩

namespace Token

/-- The token is the name `word`. -/
def isName (t : Token) (word : Text) : Bool := t.kind == .name && t.text == word

/-- The token is the punctuator `mark`. -/
def isPunctuator (t : Token) (mark : Text) : Bool := t.kind == .punctuator && t.text == mark

end Token

end GraphQL
