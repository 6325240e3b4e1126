import GraphQL.Span

/-! # Cursors

A `Cursor` is a place in a token buffer. Parsing moves it forward and records the positions of the
tokens that recovery passed over; `runs` turns what a parse left unaccounted for into maximal
blocks of neighbours. -/

namespace GraphQL.Recovery

set_option autoImplicit false

variable {τ : Type}

/-- A place in a token buffer: the next token is `tokens[position]`. -/
structure Cursor (τ : Type) where
  tokens : Array τ
  position : Nat

/-- Neighbouring tokens that no construct holds. -/
structure Run (τ : Type) where
  span : Span
  tokens : List τ

/-- A place where something was expected, and what it was. -/
structure Gap (μ : Type) where
  span : Span
  expected : μ

namespace Cursor

def start (tokens : Array τ) : Cursor τ := ⟨tokens, 0⟩

def peek (c : Cursor τ) : Option τ := c.tokens[c.position]?

def moveTo (c : Cursor τ) (position : Nat) : Cursor τ := ⟨c.tokens, position⟩

def advance (c : Cursor τ) : Cursor τ := c.moveTo (c.position + 1)

def atEnd (c : Cursor τ) : Bool := decide (c.tokens.size ≤ c.position)

def remaining (c : Cursor τ) : Nat := c.tokens.size - c.position

def previous (c : Cursor τ) : Option τ :=
  if c.position = 0 then none else c.tokens[c.position - 1]?

/-- What lies between the token before the cursor and the next one; where one of them is lacking,
the edge of the other. -/
def gapSpan [HasSpan τ] (c : Cursor τ) : Span :=
  match c.previous, c.peek with
  | some last, some next => Span.between (HasSpan.span last) (HasSpan.span next)
  | some last, none => (HasSpan.span last).atStop
  | none, some next => (HasSpan.span next).atStart
  | none, none => Span.nowhere

def gap [HasSpan τ] {μ : Type} (c : Cursor τ) (expected : μ) : Gap μ := ⟨c.gapSpan, expected⟩

/-- The positions a parse that stopped at the cursor did not account for: those it passed over and
those it never reached, in increasing order. -/
def unaccounted (c : Cursor τ) (skipped : List Nat) : List Nat :=
  (List.range c.tokens.size).filter fun p => decide (c.position ≤ p) || skipped.contains p

def run [HasSpan τ] (c : Cursor τ) (positions : List Nat) : Run τ :=
  let tokens := positions.filterMap (c.tokens[·]?)
  ⟨(Span.cover (tokens.map HasSpan.span)).getD Span.nowhere, tokens⟩

/-- The unaccounted tokens, in maximal blocks of consecutive positions. -/
def runs [HasSpan τ] (c : Cursor τ) (skipped : List Nat) : List (Run τ) :=
  ((c.unaccounted skipped).splitBy fun p q => q == p + 1).map c.run

end Cursor

end GraphQL.Recovery
