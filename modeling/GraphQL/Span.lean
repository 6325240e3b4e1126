/-! # Spans

A `Span` is a range of UTF-16 offsets in one document. Spans of several documents live side by
side, so each names its document by a small number; document numbers start at 1. Reading a document
gives spans inside it, but a span can be made of any integers. -/

namespace GraphQL

set_option autoImplicit false

/-- The units from `start` up to but not including `stop` of the document `source`. -/
structure Span where
  source : Int
  start : Int
  stop : Int
deriving DecidableEq, Repr, Inhabited

namespace Span

/-- The span of nothing, in no document. -/
def nowhere : Span := ⟨0, 0, 0⟩

/-- The smallest span that covers both, in the document of the first. -/
def join (a b : Span) : Span := ⟨a.source, min a.start b.start, max a.stop b.stop⟩

/-- From the end of `a` to the start of `b`. -/
def between (a b : Span) : Span := ⟨a.source, a.stop, b.start⟩

/-- The empty span where `s` starts. -/
def atStart (s : Span) : Span := ⟨s.source, s.start, s.start⟩

/-- The empty span where `s` ends. -/
def atStop (s : Span) : Span := ⟨s.source, s.stop, s.stop⟩

/-- `s` ends before the offset. -/
def endsBefore (s : Span) (offset : Int) : Bool := decide (s.stop < offset)

/-- The offset is inside `s` or at one of its ends. -/
def touches (s : Span) (offset : Int) : Bool := decide (s.start ≤ offset ∧ offset ≤ s.stop)

/-- The smallest span that covers a list of spans; none for the empty list. -/
def cover : List Span → Option Span
  | [] => none
  | s :: rest => some (rest.foldl join s)

end Span

/-- Things that occupy a range of a document. -/
class HasSpan (τ : Type) where
  span : τ → Span

end GraphQL
