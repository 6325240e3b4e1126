import GraphQL.Document.Outline

/-! # Walks

A walk over an outline meets every part once, in source order.

* `Outline.events` is the whole walk: each node is entered and left around its parts, after a call
  for its role,
* `Node.callbacks` is the walk as a visitor sees it, call by call,
* `Outline.tokens`, `gaps` and `nodes` list what it meets of one sort,
* `Node.span?` covers the tokens of a node. -/

namespace GraphQL

set_option autoImplicit false

open Recovery (Gap)

/-- A step of a walk. -/
inductive Event where
  /-- A node about to be entered, for its role. -/
  | announce (role : Role) (node : Node)
  | enter (node : Node)
  | leave (node : Node)
  | token (token : Token)
  | present
  | missing (gap : Gap Expectation)

namespace Outline

/-- The call for the role of a node; a plain node has none. -/
def announcement (role : Role) (node : Node) : List Event :=
  match role with
  | .plain => []
  | role => [.announce role node]

mutual
def events : Outline → List Event
  | .token t => [.token t]
  | .missing gap => [.missing gap]
  | .present content => .present :: eventsOf content
  | .node role n parts => announcement role n ++ .enter n :: (eventsOf parts ++ [.leave n])
def eventsOf : List Outline → List Event
  | [] => []
  | outline :: rest => outline.events ++ eventsOf rest
end

end Outline

/-! ## Visitors -/

/-- A call that a visitor gets. -/
inductive Callback where
  /-- The call for all definitions, selections, values or types, by what the node stands for -/
  | group (role : Role) (node : Node)
  | visit (node : Node)
  | postVisit (node : Node)
  | span (span : Span)
  | recoverable (isPresent : Bool)
  | missing (gap : Gap Expectation)

/-- The calls for one step of a walk. A gap is met as a slot first. -/
def Event.callbacks : Event → List Callback
  | .announce role n => [.group role n]
  | .enter n => [.visit n]
  | .leave n => [.postVisit n]
  | .token t => [.span t.span]
  | .present => [.recoverable true]
  | .missing gap => [.recoverable false, .missing gap]

/-- The calls of a traversal that starts at a node. -/
def Node.callbacks (node : Node) : List Callback := node.outline.events.flatMap Event.callbacks

/-! ## What a walk meets -/

namespace Outline

mutual
def tokens : Outline → List Token
  | .token t => [t]
  | .missing _ => []
  | .present content => tokensOf content
  | .node _ _ parts => tokensOf parts
def tokensOf : List Outline → List Token
  | [] => []
  | outline :: rest => outline.tokens ++ tokensOf rest
end

mutual
def gaps : Outline → List (Gap Expectation)
  | .token _ => []
  | .missing gap => [gap]
  | .present content => gapsOf content
  | .node _ _ parts => gapsOf parts
def gapsOf : List Outline → List (Gap Expectation)
  | [] => []
  | outline :: rest => outline.gaps ++ gapsOf rest
end

mutual
/-- The nodes of an outline, each before its parts. -/
def nodes : Outline → List Node
  | .token _ => []
  | .missing _ => []
  | .present content => nodesOf content
  | .node _ n parts => n :: nodesOf parts
def nodesOf : List Outline → List Node
  | [] => []
  | outline :: rest => outline.nodes ++ nodesOf rest
end

end Outline

/-- The smallest span that covers the tokens of a node. An empty document has none. -/
def Node.span? (node : Node) : Option Span := Span.cover (node.outline.tokens.map Token.span)

end GraphQL
