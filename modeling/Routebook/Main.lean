/-
  Routebook.Main

  The command line over the files of the current directory.  A module of
  controller classes is a file whose name ends like that of a module and whose
  text is the JSON description of the module; other files are what they are.
-/
import Routebook.Cli.Run
import Routebook.Controller.Decode

namespace Routebook.Cli

/-- What a file with a name holds. -/
def contentOf (name : String) (data : ByteArray) : Content :=
  if name.endsWith ".py" then
    match (Text.ofBytes data).toOption.bind (Json.read? .unlimited) with
    | some (.object fields) => .program (Program.ofData (.object fields))
    | _ => .bytes data
  else .bytes data

/-- The words for a failure that stops a run. -/
def stopMessage : Failure → String
  | .tag why => why.message
  | .data model faults => faultCount model faults
  | .notAClass shown => "cannot reflect " ++ shown ++ ": not a class"
  | .badValue message => message
  | .raised message => message
  | .wrongType => "a value is of a type that does not fit"
  | .missingKey => "a key is missing"
  | .missingName => "a name is not defined"
  | .zeroDivision => "division by zero"
  | .notImportable => "a name cannot be imported"
  | .noModule name => "no module named " ++ name
  | .noSuchFile => "no such file"
  | .isDirectory => "a directory stands where a file is needed"
  | .endless => "the search for the root of the modules does not end"
  | .badPath => "the path cannot be used"
  | .undecodable why => why
  | .malformedSource => "the source text is malformed"
  | .malformedSettings => "the settings are malformed"

/-- The nodes of a directory entry and of all that is below it. -/
partial def gather (place : Place) (entry : IO.FS.DirEntry) : IO (List (Place × Node)) := do
  let here := place ++ [entry.fileName]
  if ← entry.path.isDir then
    let parts ← (← entry.path.readDir).toList.mapM (gather here)
    return (here, .directory) :: parts.flatten
  else return [(here, .file (contentOf entry.fileName (← IO.FS.readBinFile entry.path)))]

/-- The files of the current directory. -/
def currentTree : IO Tree := do
  let directory ← IO.currentDir
  let here := (Path.ofText directory.toString).parts
  let parts ← (← directory.readDir).toList.mapM (gather here)
  return ⟨here, parts.flatten⟩

/-- The path of a place. -/
def pathText (place : Place) : String := (Path.mk .top place).text

/-- Whether a place holds given bytes. -/
def holds (t : Tree) (place : Place) (data : ByteArray) : Bool :=
  match t.node? place with
  | some (.file (.bytes old)) => old.data == data.data
  | _ => false

/-- Write what is new in a tree. -/
def save (old new : Tree) : IO Unit := do
  for (place, node) in new.nodes do
    match node with
    | .directory => IO.FS.createDirAll (pathText place)
    | .file (.bytes data) =>
      if !holds old place data then IO.FS.writeBinFile (pathText place) data
    | .file (.program _) => pure ()

end Routebook.Cli

/-- Run the command line. -/
def main (words : List String) : IO UInt32 := do
  let tree ← Routebook.Cli.currentTree
  let (ending, modules) := Routebook.Cli.run words (Routebook.Modules.start tree .nowhere [])
  Routebook.Cli.save tree modules.tree
  match ending with
  | .printed p =>
    IO.print p.output
    if p.exitCode = 2 then IO.eprintln Routebook.Cli.Command.programHelp
    for line in p.errors do IO.eprintln line
    return p.exitCode.toUInt32
  | .stopped why =>
    IO.eprintln (Routebook.Cli.stopMessage why)
    return 1
