/-
  Routebook.Cli.Run

  Runs of the command line: which command its words ask for, with which
  settings, and what is printed.  A command line that is used wrongly prints
  nothing here; of what fails, wrong settings and wrong tags are reported in
  one line, and anything else stops the run.
-/
import Routebook.Cli.Command
import Routebook.Model.Report
import Routebook.Session.Basic
import Routebook.Settings.File

namespace Routebook.Cli

/-- What a run prints. -/
structure Printed where
  exitCode : Nat
  output : String
  errors : List String

/-- How a run ends. -/
inductive Ending where
  | printed (p : Printed)
  /-- A failure that is not reported. -/
  | stopped (why : Failure)

namespace Ending

/-- A run that did what it was asked for. -/
def done (output : String) (errors : List String) : Ending := .printed ⟨0, output, errors⟩

/-- A command line that is used wrongly. -/
def misused : Ending := .printed ⟨2, "", []⟩

/-- The first line of a text. -/
def firstLine (text : String) : String := (text.takeWhile (· != '\n')).toString

/-- A failure that is reported. -/
def refused (message : String) : Ending :=
  .printed ⟨1, "", [firstLine ("Error: " ++ message)]⟩

end Ending

/-! ## Words for failures -/

/-- How many faults a model has. -/
def faultCount (model : String) (faults : List Fault) : String :=
  toString faults.length ++
    (if faults.length = 1 then " validation error for " else " validation errors for ") ++ model

/-- The words for a failure that a command reports. -/
def commandMessage? : Failure → Option String
  | .tag (.fields kind faults) =>
    some ((TagFailure.fields kind faults).message ++ ": " ++ faultCount kind.name faults)
  | .tag why => some why.message
  | .notAClass shown => some ("cannot reflect " ++ shown ++ ": not a class")
  | _ => none

/-- The words for a failure of the settings that is reported. -/
def settingsMessage? : Failure → Option String
  | .data model faults => some (faultCount model faults)
  | .malformedSettings => some "YAML"
  | .badValue message => some message
  | .undecodable why => some why
  | _ => none

/-! ## Settings -/

/-- The settings that the options before a command ask for. -/
def settingsOf (tree : Tree) (given : Given) : Outcome Settings :=
  let group :=
    match given.get? "--default-group" with
    | some name => [("default_group_name", Value.string name)]
    | none => []
  let overrides := group ++ if given.has "--no-cache" then [("cache", Value.bool false)] else []
  match given.get? "--config" with
  | some file => Settings.ofFile tree (Path.ofText file) overrides
  | none => Settings.ofData overrides

/-- Whether the value of an option, if it is given, is a file. -/
def isFileIfGiven (tree : Tree) (given : Given) (name : String) : Bool :=
  match given.get? name with
  | none => true
  | some "" => false
  | some text =>
    match tree.probe (Path.ofText text) with
    | .ok (some (.file _)) => true
    | _ => false

/-! ## Commands -/

/-- Print a text, or save it in the file that is asked for. -/
def deliver (given : Given) (text : String) : Run Ending := do
  match given.get? "--output" with
  | none => return .done (text ++ "\n") []
  | some file =>
    let p := Path.ofText file
    Session.change fun t => t.makeWay p.parent
    Session.changeTree fun t => t.write p (.bytes text.toUTF8)
    return .done ("Saved to " ++ p.text ++ "\n") []

/-- The handbook that the options ask for. -/
def handbook (given : Given) (path : String) : Run String := do
  if given.has "--html" then
    let lead ←
      match given.get? "--ext-md" with
      | some file => do Session.lift ((← get).tree.readText (Path.ofText file))
      | none => pure ""
    Session.handbookPage path lead (given.get? "--template")
  else Session.handbook path

/-- A route as it is printed. -/
def routeLine (r : Route) : String :=
  ",".intercalate (r.verbs.map Verb.name) ++ "\t" ++ r.pattern ++ "\t" ++ r.target ++ "\n"

/-- What a command does with a path. -/
def perform (c : Command) (given : Given) (path : String) : Run Ending := do
  match c with
  | .doc => deliver given (← handbook given path)
  | .routes =>
    let table ← Session.routes path (given.get? "--namespace")
    return .done (String.join (table.map routeLine)) [toString table.length ++ " routes."]
  | .scan =>
    let groups ← Session.scanGroups path
    deliver given (Model.report ((← get).groupsNow groups))

/-- Run a command with its own words in a session of its own. -/
def runCommand (c : Command) (words : List String) (settings : Settings) (modules : Modules) :
    Ending × Modules :=
  match readOptions c.options true [] words with
  | none => (.misused, modules)
  | some (given, rest) =>
    if given.has "--help" then (.done (c.helpText ++ "\n") [], modules)
    else
      match rest with
      | [path] =>
        if ["--ext-md", "--template"].all (isFileIfGiven modules.tree given) then
          let (r, s) := (perform c given path).run.run (Session.start modules settings none)
          match r with
          | .ok ending => (ending, s.modules)
          | .error why =>
            match commandMessage? why with
            | some message => (.refused message, s.modules)
            | none => (.stopped why, s.modules)
        else (.misused, modules)
      | _ => (.misused, modules)

/-- Run a command line. -/
def run (words : List String) (modules : Modules) : Ending × Modules :=
  match readOptions Command.shared false [] words with
  | none => (.misused, modules)
  | some (given, rest) =>
    if given.has "--help" then (.done (Command.programHelp ++ "\n") [], modules)
    else if !isFileIfGiven modules.tree given "--config" then (.misused, modules)
    else
      match rest with
      | [] => (.misused, modules)
      | name :: words =>
        match Command.ofName? name with
        | none => (.misused, modules)
        | some c =>
          match settingsOf modules.tree given with
          | .ok settings => runCommand c words settings modules
          | .error why =>
            match settingsMessage? why with
            | some message => (.refused ("Invalid configuration: " ++ message), modules)
            | none => (.stopped why, modules)

end Routebook.Cli
