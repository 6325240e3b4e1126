import GraphQL.Document.Basic
import GraphQL.Recovery.Chain

/-! # Terminals

The parsers of single tokens, the three readings that need a second token, and the shapes that
many productions share: a required part with the code of its gap, and a delimited list. -/

namespace GraphQL.Production

set_option autoImplicit false

open Recovery (Chain Cursor ParseError Parser)

variable {α β : Type}

/-! ## Single tokens -/

def ofKind (what : Text) (kind : TokenKind) : Parser Token Token :=
  .token what fun t => if t.kind == kind then some t else none

def name : Parser Token Token := ofKind "name" .name

def stringToken : Parser Token Token := ofKind "string" .string

/-- A name that is none of `reserved`. -/
def nameExcept (reserved : List Text) : Parser Token Token :=
  .token "name" fun t => if t.kind == .name && !reserved.contains t.text then some t else none

def keyword (word : Text) : Parser Token Token :=
  .token word fun t => if t.isName word then some t else none

def punctuator (mark : Text) : Parser Token Token :=
  .token mark fun t => if t.isPunctuator mark then some t else none

/-! ## Two tokens -/

def readToken (what : Text) (accept : Token → Bool) (c : Cursor Token) :
    Except ParseError (Token × Cursor Token) :=
  match c.peek with
  | none => .error .incomplete
  | some t => if accept t then .ok (t, c.advance) else .error (.expected what)

/-- `extend` and a keyword, read as one. -/
def extension (word : Text) : Parser Token (Token × Token) :=
  .terminal fun c =>
    match readToken "extend" (·.isName "extend") c with
    | .error e => .error e
    | .ok (extend, c) =>
      match readToken word (·.isName word) c with
      | .error e => .error e
      | .ok (keyword, c) => .ok ((extend, keyword), c)

/-- A name and a colon, the alias in front of a field. -/
def fieldAlias : Parser Token Alias :=
  .terminal fun c =>
    match readToken "alias" (·.kind == .name) c with
    | .error e => .error e
    | .ok (name, c) =>
      match readToken ":" (·.isPunctuator ":") c with
      | .error e => .error e
      | .ok (colon, c) => .ok (⟨name, colon⟩, c)

/-- Three dots in front of a fragment name, which is a name other than `on`. -/
def spreadDots : Parser Token Token :=
  .terminal fun c =>
    match readToken "..." (·.isPunctuator "...") c with
    | .error e => .error e
    | .ok (dots, c) =>
      if c.peek.any fun t => t.kind == .name && !t.isName "on" then .ok (dots, c)
      else .error (.expected "fragment name")

/-! ## Shared shapes -/

def lacking (code : SyntaxCode) : Expectation := ⟨code, none⟩

/-- A closing delimiter that is lacking behind `opening`. -/
def unclosed (code : SyntaxCode) (opening : Token) : Expectation := ⟨code, some opening.span⟩

/-- One more part of a chain, with the code of the gap it may leave. -/
def andSlot (chain : Chain Token α) (next : Parser Token β) (code : SyntaxCode) :
    Chain Token (α × Required β) :=
  chain.andRecover next fun _ => lacking code

/-- Any number of items between two punctuators. -/
def delimited (opening closing : Text) (item : Parser Token α) (code : SyntaxCode) :
    Parser Token (Delimited α) :=
  (Chain.delimited (punctuator opening) item.many0 (punctuator closing) (unclosed code)).map
    fun ((opening, items), closing) => ⟨opening, items, closing⟩

/-- Members behind `intro`, separated by a punctuator that may stand in front of the first too. -/
def memberList (intro separator : Parser Token Token) (member : Parser Token α)
    (first next : SyntaxCode) : Parser Token (MemberList α) :=
  ((andSlot ((Chain.of intro).and separator.opt) member first).and
      (andSlot (Chain.of separator) member next).toParser.many0).map
    fun (((intro, leading), first), rest) => ⟨intro, leading, first, rest⟩

end GraphQL.Production
