import GraphQL.Diagnostic.CommandCatalog
import GraphQL.Text.Number
import GraphQL.Text.Template

/-! # Failures

A `Failure` is how reading or writing a file ended badly. `Failure.whenReading`,
`Failure.whenWriting` and `unformattableMessage` are the lines that tell of it, filled in from the
catalog. -/

namespace GraphQL

set_option autoImplicit false

/-- A value that something failed with in place of an error. -/
inductive Bare where
  | null
  | flag (value : Bool)
  | number (value : Float)
  | text (content : Text)
  | list (items : List Bare)
  | record

mutual
/-- The text of a bare value. Items of a list stand between commas, and null among them is empty. -/
def Bare.show : Bare → Text
  | .null => "null"
  | .flag value => if value then "true" else "false"
  | .number value => Text.ofFloat value
  | .text content => content
  | .list items => List.intercalate "," (Bare.showItems items)
  | .record => "[object Object]"
def Bare.showItems : List Bare → List Text
  | [] => []
  | .null :: rest => [] :: Bare.showItems rest
  | item :: rest => item.show :: Bare.showItems rest
end

inductive Failure where
  /-- An error of the operating system, with its code -/
  | system (code message : Text)
  | error (message : Text)
  /-- Something that is no error -/
  | bare (value : Bare)

namespace Failure

def isSystem : Failure → Bool
  | .system _ _ => true
  | _ => false

def message : Failure → Text
  | .system _ message => message
  | .error message => message
  | .bare value => value.show

def isNotFound : Failure → Bool
  | .system code _ => code == ("ENOENT" : Text)
  | _ => false

end Failure

/-- A problem with its code, filled in. -/
def FileProblem.line (problem : FileProblem) (values : List (Text × Text)) : Text :=
  "[" ++ problem.entry.code ++ "] " ++ Text.fill values problem.entry.message

/-- What is said about a file that could not be read. -/
def Failure.whenReading (path : Text) (failure : Failure) : Text :=
  if failure.isNotFound then FileProblem.notFound.line [("path", path)]
  else FileProblem.unreadable.line [("reason", failure.message)]

/-- What is said about a file that could not be written. -/
def Failure.whenWriting (failure : Failure) : Text :=
  FileProblem.unwritable.line [("reason", failure.message)]

/-- What is said about a file that is to be formatted and has syntax errors; `count` is the numeral
of how many. -/
def unformattableMessage (path count : Text) : Text :=
  FileProblem.unformattable.line [("count", count), ("path", path)]

end GraphQL
