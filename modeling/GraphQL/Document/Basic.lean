import GraphQL.Diagnostic.SyntaxCode
import GraphQL.Recovery.Parser
import GraphQL.Token

/-! # The parts of a document

Every construct keeps the tokens it was read from. A part that is optional in the language is an
`Option`; a part that must be there once its construct has begun is `Required`, and may be a gap
that says what is lacking. This file holds

* `Expectation`, `Required`, `Delimited` and `MemberList`, the shapes constructs are made of,
* values, arguments, directives and types,
* selections, which fields and inline fragments nest. -/

namespace GraphQL

set_option autoImplicit false

open Recovery (Slot Gap)

/-- What a gap lacks, and where the opening delimiter stands when a closing one is lacking. -/
structure Expectation where
  code : SyntaxCode
  opening : Option Span
deriving DecidableEq, Repr

/-- A part that must be there, or the gap it left. -/
abbrev Required (α : Type) := Slot Expectation α

/-- Items between an opening delimiter and a closing one. -/
structure Delimited (α : Type) where
  opening : Token
  items : List α
  closing : Required Token

/-- Members behind an introducing token, with a separator between them and perhaps one in front of
the first. -/
structure MemberList (α : Type) where
  intro : Token
  leading : Option Token
  first : Required α
  rest : List (Token × Required α)

def MemberList.present {α : Type} (members : MemberList α) : List α :=
  (members.first :: members.rest.map Prod.snd).filterMap Slot.value?

/-! ## Types -/

structure NamedType where
  name : Token

mutual
inductive NullableType where
  | named (type : NamedType)
  | list (opening : Token) (item : Slot Expectation TypeRef) (closing : Required Token)
/-- A reference to a type; a bang makes it non-null. -/
inductive TypeRef where
  | nullable (type : NullableType)
  | nonNull (type : NullableType) (bang : Token)
end

mutual
def NullableType.innermostName? : NullableType → Option Text
  | .named type => some type.name.text
  | .list _ (.present item) _ => item.innermostName?
  | .list _ (.missing _) _ => none
def TypeRef.innermostName? : TypeRef → Option Text
  | .nullable type => type.innermostName?
  | .nonNull type _ => type.innermostName?
end

/-- The type without its bang. -/
def TypeRef.base : TypeRef → NullableType
  | .nullable type => type
  | .nonNull type _ => type

def TypeRef.item? (type : TypeRef) : Option TypeRef :=
  match type.base with
  | .list _ item _ => item.value?
  | .named _ => none

/-! ## Values -/

structure Variable where
  dollar : Token
  name : Required Token

mutual
inductive Value where
  | var (name : Variable)
  | int (token : Token)
  | float (token : Token)
  | string (token : Token)
  | boolean (token : Token) (value : Bool)
  | null (token : Token)
  | enum (token : Token)
  | list (items : Delimited Value)
  | object (fields : Delimited ObjectField)
inductive ObjectField where
  | mk (name : Token) (colon : Required Token) (value : Slot Expectation Value)
end

structure Argument where
  name : Token
  colon : Required Token
  value : Required Value

abbrev Arguments := Delimited Argument

structure DefaultValue where
  eq : Token
  value : Required Value

def DefaultValue.value? (default : DefaultValue) : Option Value := default.value.value?

/-! ## Directives -/

structure Directive where
  sign : Token
  name : Required Token
  arguments : Option Arguments

abbrev Directives := List Directive

/-! ## Selections -/

structure Alias where
  name : Token
  colon : Token

structure TypeCondition where
  keyword : Token
  type : Required NamedType

def TypeCondition.typeName? (condition : TypeCondition) : Option Text :=
  condition.type.value?.map fun type => type.name.text

/-- A selected field; `σ` is the type of selection sets. -/
structure Field (σ : Type) where
  fieldAlias : Option Alias
  name : Required Token
  arguments : Option Arguments
  directives : Option Directives
  selectionSet : Option σ

/-- A fragment without a name; `σ` is the type of selection sets. -/
structure InlineFragment (σ : Type) where
  dots : Token
  condition : Option TypeCondition
  directives : Option Directives
  selectionSet : Slot Expectation σ

structure FragmentSpread where
  dots : Token
  name : Token
  directives : Option Directives

inductive Selection where
  | field (field : Field (Delimited Selection))
  | spread (spread : FragmentSpread)
  | inline (fragment : InlineFragment (Delimited Selection))

abbrev SelectionSet := Delimited Selection

end GraphQL
