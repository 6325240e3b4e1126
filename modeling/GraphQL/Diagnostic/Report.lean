import GraphQL.Diagnostic.Entry
import GraphQL.Span
import GraphQL.Text.Lines
import GraphQL.Text.Number
import GraphQL.Text.Template

/-! # Diagnostics and their rendering

A `Diagnostic` is a catalog entry at a place, with labels at further places. `Diagnostic.render`
shows it over the lines of the document:

    error[CODE]: message
      --> file:2:5
       |
     2 | source line
       |     ^^^ label
       |
       = help: suggestion

The spans of a diagnostic may be any integers. `Diagnostic.obstacle?` tells which of them cannot be
marked, and why. -/

namespace GraphQL

set_option autoImplicit false

/-- A further place with a message of its own. -/
structure Label where
  message : Text
  span : Span

/-- An entry at a place, its message filled in. -/
structure Diagnostic where
  entry : Entry
  message : Text
  span : Span
  labels : List Label
  values : List (Text × Text)

namespace Diagnostic

/-- A diagnostic of an entry, with values for the placeholders of its templates. -/
def make (entry : Entry) (span : Span) (labels : List Label) (values : List (Text × Text)) :
    Diagnostic :=
  ⟨entry, Text.fill values entry.message, span, labels, values⟩

def isError (d : Diagnostic) : Bool := d.entry.severity == .error

def blanks (n : Nat) : Text := List.replicate n (unit ' ')

/-- How far the first mark of a span stands from the left end of its line. -/
def indent (source : Text) (span : Span) : Int := (source.position span.start).column - 1

/-- A source line and, under it, marks from the start of `span` on, with a message behind them. The
marks stay inside the line, but there is always one. `gutter` is the width of line numbers. -/
def annotate (source : Text) (gutter : Nat) (span : Span) (mark : CodeUnit)
    (message : Option Text) : List Text :=
  let place := source.position span.start
  match source.line? place.line with
  | none => []
  | some line =>
    let available := max 1 (line.length - place.column + 1)
    let width := max 1 (min (span.stop - span.start) available)
    let marks := blanks (indent source span).toNat ++ List.replicate width.toNat mark
    let note := match message with
      | none => marks
      | some message => marks ++ " " ++ message
    [" " ++ (Text.ofNat place.line).padLeft gutter ++ " | " ++ line,
      (" " ++ blanks gutter ++ " | " ++ note).trimRight]

def render (source filename : Text) (d : Diagnostic) : Text :=
  let place := source.position d.span.start
  let header := d.entry.severity.word ++ "[" ++ d.entry.code ++ "]: " ++ d.message
  let location :=
    "  --> " ++ filename ++ ":" ++ Text.ofNat place.line ++ ":" ++ Text.ofInt place.column
  let lastLine := (d.labels.map fun label => (source.position label.span.start).line).foldl max
    place.line
  let gutter := (Text.ofNat lastLine).length
  let separator := " " ++ blanks gutter ++ " |"
  let context := annotate source gutter d.span (unit '^') d.entry.label ++
    d.labels.flatMap fun label => annotate source gutter label.span (unit '-') (some label.message)
  let help := match d.entry.suggestion with
    | none => []
    | some suggestion =>
      [separator, blanks (gutter + 1) ++ " = help: " ++ Text.fill d.values suggestion]
  if context.isEmpty then header ++ "\n" ++ location
  else List.intercalate "\n" (header :: location :: separator :: (context ++ help))

/-- Why a span cannot be marked under its line. -/
inductive Obstacle where
  /-- The mark would stand to the left of the line, at this indent. -/
  | leftOfLine (indent : Int)
  /-- The line of marks would be longer than a text can be. -/
  | lineTooLong
deriving DecidableEq, Repr

def Obstacle.message : Obstacle → Text
  | .leftOfLine indent => "Invalid count value: " ++ Text.ofInt indent
  | .lineTooLong => "Invalid string length"

def maxLength : Nat := 0x1FFFFFE8

/-- What stands in the way of marking a span. -/
def obstacleAt? (source : Text) (span : Span) : Option Obstacle :=
  let indent := indent source span
  if indent < 0 then some (.leftOfLine indent)
  else if maxLength < indent then some .lineTooLong
  else none

/-- The first obstacle among the spans of a diagnostic, its own before those of its labels. -/
def obstacle? (source : Text) (d : Diagnostic) : Option Obstacle :=
  (d.span :: d.labels.map Label.span).findSome? (obstacleAt? source)

/-- Several diagnostics with a blank line between them. -/
def renderAll (source filename : Text) (diagnostics : List Diagnostic) : Text :=
  List.intercalate "\n\n" (diagnostics.map (render source filename))

end Diagnostic

end GraphQL
