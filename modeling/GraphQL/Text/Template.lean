import GraphQL.Token.Lexer

/-! # Templates

A placeholder is a name in braces. `fill` replaces each placeholder that has a value, once and from
left to right, and keeps the others as they are written. -/

namespace GraphQL.Text

set_option autoImplicit false

open Lexer (headIs isNameStart isNameContinue)

/-- The name of the placeholder whose opening brace stands in front of the text. -/
def placeholder? (t : Text) : Option Text :=
  let name := t.takeWhile isNameContinue
  if headIs isNameStart name && headIs (· == unit '}') (t.drop name.length) then some name else none

/-- Replaces the placeholders that have a value. -/
def fill (values : List (Text × Text)) : Text → Text
  | [] => []
  | u :: rest =>
    match if u == unit '{' then (placeholder? rest).bind fun name =>
        (values.lookup name).map fun value => (name, value) else none with
    | some (name, value) => value ++ fill values (rest.drop (name.length + 1))
    | none => u :: fill values rest
termination_by t => t.length
decreasing_by all_goals simp only [List.length_drop, List.length_cons]; omega

end GraphQL.Text
