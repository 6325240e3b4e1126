import GraphQL.Workspace

/-! # Checking files

`checkFiles` puts files into one workspace beside the built-in definitions and shows their syntax
errors, file by file. -/

namespace GraphQL

set_option autoImplicit false

structure SourceFile where
  path : Text
  text : Text

structure CheckReport where
  /-- The errors as they are shown, in the order of the files -/
  reports : List Text

def CheckReport.errorCount (report : CheckReport) : Nat := report.reports.length

/-- The workspace of some files. Of files with one path the last one stays. -/
def workspaceOf (files : List SourceFile) : Workspace :=
  let add (w : Workspace) (file : SourceFile) : Workspace := (w.add file.path file.text false).1
  (files.foldl add .withBuiltins).rebuild

/-- Shows the syntax errors of files, each over the text of its file. -/
def checkFiles (files : List SourceFile) : CheckReport :=
  let workspace := workspaceOf files
  ⟨files.flatMap fun file =>
    (workspace.diagnostics file.path).map (Diagnostic.render file.text file.path)⟩

/-- A number of things. -/
def plural (count : Nat) (word : Text) : Text :=
  let ending : Text := if count = 1 then [] else "s"
  Text.ofNat count ++ " " ++ word ++ ending

def checkSummary (errorCount fileCount : Nat) : Text :=
  let files := plural fileCount "file"
  if errorCount = 0 then "No syntax errors in " ++ files
  else "Found " ++ plural errorCount "syntax error" ++ " in " ++ files

end GraphQL
