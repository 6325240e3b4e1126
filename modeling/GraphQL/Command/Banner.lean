import GraphQL.Text

/-! # The banner

What is shown when no command is given. -/

namespace GraphQL

set_option autoImplicit false

structure CommandSummary where
  name : Text
  description : Text

def commandSummaries : List CommandSummary :=
  [⟨"check", "Report syntax errors in GraphQL documents"⟩,
    ⟨"format", "Print a GraphQL document in canonical layout"⟩]

/-- The lines of the banner; descriptions stand under each other. -/
def banner (version : Text) (commands : List CommandSummary) : List Text :=
  let width := (commands.map fun command => command.name.length).foldl max 0
  let row (command : CommandSummary) : Text :=
    "  " ++ command.name.padRight width ++ "  " ++ command.description
  ["facet v" ++ version ++ ": checks and formats GraphQL documents", [],
    "Usage: facet <command> [options]", [], "Commands:"] ++ commands.map row ++
  [[], "Run \"facet <command> --help\" for its arguments and flags."]

end GraphQL
