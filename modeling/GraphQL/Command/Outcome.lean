import GraphQL.Command.Check
import GraphQL.Command.Failure
import GraphQL.Command.Format

/-! # What the commands do

`runCheck` and `runFormat` take the contents of the files they are given, or the failures to read
them, and tell what to print, what to write and how to exit. `Invocation.ofWords` reads the words
behind the name of a command. -/

namespace GraphQL

set_option autoImplicit false

/-- Something to print. -/
inductive Message where
  | plain (text : Text)
  | success (text : Text)
  | error (text : Text)

structure Outcome where
  messages : List Message
  failed : Bool
  /-- The new content of the file -/
  written : Option Text := none

def Outcome.exitCode (outcome : Outcome) : Nat := if outcome.failed then 1 else 0

def Outcome.ofError (text : Text) : Outcome := ⟨[.error text], true, none⟩

/-- The content of a file, or why it could not be read. -/
abbrev Reading := Except Failure Text

/-! ## Checking -/

/-- The files, or what is said about the first that could not be read. -/
def sourceFiles : List (Text × Reading) → Except Text (List SourceFile)
  | [] => .ok []
  | (path, .error failure) :: _ => .error (failure.whenReading path)
  | (path, .ok text) :: rest => (sourceFiles rest).map (⟨path, text⟩ :: ·)

/-- A message and an empty line behind it. -/
def Message.block (text : Text) : Message := .plain (text ++ "\n")

/-- Checks files. A quiet check tells only the summary. -/
def runCheck (quiet : Bool) (readings : List (Text × Reading)) : Outcome :=
  match sourceFiles readings with
  | .error text => .ofError text
  | .ok files =>
    let report := checkFiles files
    let shown := if quiet then [] else report.reports.map Message.block
    let summary := checkSummary report.errorCount files.length
    if report.errorCount = 0 then ⟨shown ++ [.success summary], false, none⟩
    else ⟨shown ++ [.error summary], true, none⟩

/-! ## Formatting -/

/-- Formats a file, in place or to the output. -/
def runFormat (inPlace : Bool) (path : Text) (reading : Reading) : Outcome :=
  match reading with
  | .error failure => .ofError (failure.whenReading path)
  | .ok text =>
    match formatSource text with
    | .error diagnostics =>
      ⟨diagnostics.map (fun d => .block (d.render text path)) ++
        [.error (unformattableMessage path (Text.ofNat diagnostics.length))], true, none⟩
    | .ok output =>
      if inPlace then ⟨[.success ("Formatted " ++ path)], false, some output⟩
      else ⟨[.plain output.trimRight], false, none⟩

/-! ## Words of a command line -/

/-- The words behind a command: whether its flag is set, and the other words. -/
structure Invocation where
  flag : Bool
  operands : List Text

/-- A flag may stand anywhere, under either of its names. -/
def Invocation.ofWords (names : List Text) (words : List Text) : Invocation :=
  ⟨words.any names.contains, words.filter fun word => !names.contains word⟩

def quietFlag : List Text := ["-q", "--quiet"]

def writeFlag : List Text := ["-w", "--write"]

end GraphQL
