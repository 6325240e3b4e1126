import GraphQL.Command.Banner
import GraphQL.Command.Directory

/-! # The command line

`check` reports the syntax errors of files, `format` lays a file out anew. Without a command the
banner is shown. -/

namespace GraphQL.CommandLine

set_option autoImplicit false

def version : Text := "0.1.0"

/-- A text as it is printed; half of a surrogate pair cannot be. -/
def shown (text : Text) : String := text.toString?.getD "\uFFFD"

/-- A failure to reach the file of a path. Its error number, of either sign, is 20 where the path
leads through a file and 21 where it leads to a directory. -/
def failureOf (path : Text) (error : IO.Error) : Failure :=
  match error with
  | .noFileOrDirectory _ _ _ => PathFault.missing.failure path
  | .inappropriateType _ number _ =>
    if number == 20 || -number == 20 then PathFault.throughFile.failure path
    else if number == 21 || -number == 21 then PathFault.folder.failure path
    else .error (toString error)
  | _ => .error (toString error)

def read (path : Text) : IO Reading := do
  try
    return .ok (Text.ofString (← IO.FS.readFile (shown path)))
  catch error => return .error (failureOf path error)

def print (message : Message) : IO Unit :=
  match message with
  | .plain text => IO.println (shown text)
  | .success text => IO.println ("[ success ] " ++ shown text)
  | .error text => IO.eprintln ("[ error ] " ++ shown text)

/-- Prints an outcome and gives its exit code. -/
def finish (outcome : Outcome) : IO UInt32 := do
  outcome.messages.forM print
  return outcome.exitCode.toUInt32

def carryOut (path : Text) (outcome : Outcome) : IO UInt32 := do
  match outcome.written with
  | none => finish outcome
  | some text =>
    try
      IO.FS.writeFile (shown path) (shown text)
      finish outcome
    catch error => finish (.ofError (failureOf path error).whenWriting)

def run (words : List String) : IO UInt32 := do
  match words with
  | "check" :: rest =>
    let invocation := Invocation.ofWords quietFlag (rest.map Text.ofString)
    let readings ← invocation.operands.mapM fun path => return (path, ← read path)
    finish (runCheck invocation.flag readings)
  | "format" :: rest =>
    let invocation := Invocation.ofWords writeFlag (rest.map Text.ofString)
    match invocation.operands with
    | path :: _ => carryOut path (runFormat invocation.flag path (← read path))
    | [] => finish (.ofError "Missing required argument \"input\"")
  | _ =>
    (banner version commandSummaries).forM fun line => IO.println (shown line)
    return 0

end GraphQL.CommandLine

def main (words : List String) : IO UInt32 := GraphQL.CommandLine.run words
