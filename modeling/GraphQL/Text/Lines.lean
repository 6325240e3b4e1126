import GraphQL.Text

/-! # Lines

A line ends at a line feed, at a carriage return with a line feed, counted once, or at a lone
carriage return.

* `splitLines` gives the lines without their terminators,
* `lineStarts` gives the offset at which each line begins,
* `position` turns an offset into a line and a column, both counted from 1,
* `line?` looks a line up by its number. -/

namespace GraphQL.Text

set_option autoImplicit false

/-- A line ends behind the unit `u` that `rest` follows: at a line feed, and at a carriage return
that no line feed follows. -/
def endsLine (u : CodeUnit) (rest : Text) : Bool :=
  u == unit '\n' || (u == unit '\r' && rest.head? != some (unit '\n'))

/-- The lines of a text without their terminators; the empty text has one empty line. -/
def splitLines : Text → List Text
  | [] => [[]]
  | u :: rest =>
    if endsLine u rest then [] :: splitLines rest
    else if u == unit '\r' then splitLines rest
    else
      match splitLines rest with
      | [] => [[u]]
      | line :: lines => (u :: line) :: lines

/-- The offsets after each line terminator, in a text that starts at `offset`. -/
def startsAfter (offset : Nat) : Text → List Nat
  | [] => []
  | u :: rest =>
    if endsLine u rest then (offset + 1) :: startsAfter (offset + 1) rest
    else startsAfter (offset + 1) rest

/-- A place in a text, both parts counted from 1 and the column in code units. Columns below 1 lie
in front of the text. -/
structure Position where
  line : Nat
  column : Int
deriving DecidableEq, Repr

/-- The offsets at which the lines of a text start. -/
def lineStarts (t : Text) : List Nat := 0 :: startsAfter 0 t

/-- The last of the rows from `low` to `high` that starts at or before the offset, or else `low`. The
row in the middle tells in which half to go on. -/
def rowAt (starts : List Nat) (offset : Int) (low high : Nat) : Nat :=
  if low < high then
    let middle := (low + high + 1) / 2
    let start : Nat := starts[middle]?.getD 0
    if (start : Int) ≤ offset then rowAt starts offset middle high
    else rowAt starts offset low (middle - 1)
  else low
termination_by high - low
decreasing_by all_goals omega

/-- The place of an offset: its line is the last one that starts at or before it, or else the
first. -/
def position (t : Text) (offset : Int) : Position :=
  let starts := t.lineStarts
  let row := rowAt starts offset 0 (starts.length - 1)
  let start : Nat := starts[row]?.getD 0
  ⟨row + 1, offset - start + 1⟩

/-- The text without the line terminator it ends in. -/
def chomp (t : Text) : Text :=
  if [unit '\r', unit '\n'].isSuffixOf t then t.take (t.length - 2)
  else if t.getLast? == some (unit '\n') || t.getLast? == some (unit '\r') then t.dropLast
  else t

/-- The text of a line, counted from 1, without its terminator. -/
def line? (t : Text) (line : Nat) : Option Text :=
  if line = 0 then none
  else
    t.lineStarts[line - 1]?.map fun start =>
      chomp ((t.take (t.lineStarts[line]?.getD t.length)).drop start)

end GraphQL.Text
