/-
  Routebook.Cli.Command

  The commands of the command line, the options of each, and the help that
  describes them.
-/
import Routebook.Cli.Options

namespace Routebook.Cli

/-- A command. -/
inductive Command where
  /-- Write the handbook. -/
  | doc
  /-- Print the routes. -/
  | routes
  /-- Write the merged groups. -/
  | scan
  deriving DecidableEq

namespace Command

/-- The name of the program. -/
def program : String := "main"

/-- All commands, by name. -/
def all : List Command := [doc, routes, scan]

/-- The name of a command. -/
def name : Command → String
  | doc => "doc"
  | routes => "routes"
  | scan => "scan"

/-- The command with a name. -/
def ofName? (text : String) : Option Command := all.find? fun c => c.name == text

/-- What a command does. -/
def about : Command → String
  | doc => "Render API documentation for a file, directory or dotted class path."
  | routes => "Print the route table: verbs, pattern and target per line."
  | scan => "Dump the merged groups as JSON."

/-- What a command does, short enough for a list of commands. -/
def brief : Command → String
  | doc => "Render API documentation for a file, directory or dotted class..."
  | c => c.about

/-- The option that asks for help. -/
def help : Known := .flag "--help" "Show this message and exit."

/-- The options before a command. -/
def shared : List Known :=
  [.taking "--config" "FILE" "YAML settings file.",
   .flag "--no-cache" "Disable per-class annotation caching.",
   .taking "--default-group" "TEXT" "Group name for methods without an ApiGroup.",
   (Known.flag "--verbose" "Enable debug logging.").lettered 'v',
   help]

/-- The options of a command. -/
def options : Command → List Known
  | doc =>
    [(Known.taking "--output" "PATH" "Output file (stdout when omitted).").lettered 'o',
     .flag "--html" "Wrap the Markdown in the HTML page template.",
     .taking "--ext-md" "FILE" "Markdown placed before the generated docs (HTML only).",
     .taking "--template" "FILE" "Custom HTML page template.",
     help]
  | routes =>
    [.taking "--namespace" "TEXT" "Controller namespace stripped from route targets.", help]
  | scan =>
    [(Known.taking "--output" "PATH" "Output JSON file (stdout when omitted).").lettered 'o',
     help]

/-! ## Help -/

/-- An option as the help shows it. -/
def shown (k : Known) : String :=
  (match k.letter with
   | some c => "-" ++ String.singleton c ++ ", "
   | none => "") ++ k.name ++
  (match k.value with
   | some v => " " ++ v
   | none => "")

/-- Two columns, the second one aligned. -/
def columns (rows : List (String × String)) : List String :=
  let width := (rows.map fun r => r.1.length).foldl max 0
  rows.map fun r =>
    "  " ++ r.1 ++ String.ofList (List.replicate (width - r.1.length + 2) ' ') ++ r.2

/-- The lines that describe options. -/
def optionLines (known : List Known) : List String :=
  "Options:" :: columns (known.map fun k => (shown k, k.about))

/-- The help for the program. -/
def programHelp : String :=
  "\n".intercalate
    (["Usage: " ++ program ++ " [OPTIONS] COMMAND [ARGS]...", "",
      "  http-annotation: API docs and route tables from controller annotations.", ""] ++
     optionLines shared ++ ["", "Commands:"] ++
     columns (all.map fun c => (c.name, c.brief)))

/-- The help for a command. -/
def helpText (c : Command) : String :=
  "\n".intercalate
    (["Usage: " ++ program ++ " " ++ c.name ++ " [OPTIONS] PATH", "", "  " ++ c.about, ""] ++
     optionLines c.options)

end Command

end Routebook.Cli
