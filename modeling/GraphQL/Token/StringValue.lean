import GraphQL.Text.Lines
import GraphQL.Token.Lexer

/-! # The value of a string token

* `unescape` resolves the escapes of an ordinary string,
* `blockStringValue` removes the common indentation of a block string and the blank lines around
  it,
* `stringValue` picks the one that a token needs. -/

namespace GraphQL

set_option autoImplicit false

/-! ## Ordinary strings -/

/-- What a one-letter escape stands for. -/
def simpleEscape? (u : CodeUnit) : Option CodeUnit :=
  if u == unit '"' || u == unit '/' || u == unit '\\' then some u
  else if u == unit 'b' then some 0x08
  else if u == unit 'f' then some 0x0C
  else if u == unit 'n' then some 0x0A
  else if u == unit 'r' then some 0x0D
  else if u == unit 't' then some 0x09
  else none

/-- The value of a hexadecimal digit of either case. -/
def hexDigit? (u : CodeUnit) : Option CodeUnit :=
  if unit '0' ≤ u && u ≤ unit '9' then some (u - unit '0')
  else if unit 'a' ≤ u && u ≤ unit 'f' then some (u - unit 'a' + 10)
  else if unit 'A' ≤ u && u ≤ unit 'F' then some (u - unit 'A' + 10)
  else none

/-- The unit written as four hexadecimal digits at the head. -/
def hexUnit? : Text → Option CodeUnit
  | a :: b :: c :: d :: _ =>
    match hexDigit? a, hexDigit? b, hexDigit? c, hexDigit? d with
    | some a, some b, some c, some d => some (a * 0x1000 + b * 0x100 + c * 0x10 + d)
    | _, _, _, _ => none
  | _ => none

/-- Resolves the escapes. A backslash that starts none stands for itself. -/
def unescape : Text → Text
  | [] => []
  | u :: rest =>
    if u == unit '\\' then
      match rest with
      | [] => [u]
      | e :: after =>
        match simpleEscape? e with
        | some value => value :: unescape after
        | none =>
          match if e == unit 'u' then hexUnit? after else none with
          | some value => value :: unescape (after.drop 4)
          | none => u :: unescape (e :: after)
    else u :: unescape rest
termination_by t => t.length
decreasing_by all_goals simp only [List.length_drop, List.length_cons]; omega

/-! ## Block strings -/

def unescapeFences : Text → Text
  | [] => []
  | u :: rest =>
    if Lexer.escapedFence.isPrefixOf (u :: rest) then Lexer.fence ++ unescapeFences (rest.drop 3)
    else u :: unescapeFences rest
termination_by t => t.length
decreasing_by all_goals simp only [List.length_drop, List.length_cons]; omega

def isIndent (u : CodeUnit) : Bool := u == unit ' ' || u == unit '\t'

def indentLength (line : Text) : Nat := (line.takeWhile isIndent).length

/-- The line holds nothing but indentation. -/
def isBlank (line : Text) : Bool := line.all isIndent

def commonIndent (lines : List Text) : Option Nat :=
  ((lines.filter (!isBlank ·)).map indentLength).min?

/-- Removes the common indentation from every line but the first. -/
def dedent : List Text → List Text
  | [] => []
  | first :: rest =>
    match commonIndent rest with
    | none => first :: rest
    | some indent => first :: rest.map (·.drop indent)

def trimBlank (lines : List Text) : List Text :=
  ((lines.dropWhile isBlank).reverse.dropWhile isBlank).reverse

def blockStringValue (raw : Text) : Text :=
  List.intercalate "\n" (trimBlank (dedent (Text.splitLines (unescapeFences raw))))

/-! ## Tokens -/

def isBlockString (t : Token) : Bool := Lexer.fence.isPrefixOf t.text

/-- The text without `n` units at each end. -/
def strip (n : Nat) (t : Text) : Text := (t.drop n).take (t.length - 2 * n)

def stringValue (t : Token) : Text :=
  if isBlockString t then blockStringValue (strip 3 t.text) else unescape (strip 1 t.text)

end GraphQL
