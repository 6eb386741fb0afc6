/-
  Routebook.Modules.Discover

  Finding controller classes: those at the top level of a file, those of all
  files below a directory, or the one a dotted name stands for.  A file is
  imported under its module name unless that name leads elsewhere; then it
  gets a private one.
-/
import Routebook.Modules.Import

namespace Routebook

/-- A class that was found. -/
inductive FoundClass where
  | controller (id : ClassId)
  /-- A class made outside the files, under its full name. -/
  | foreign (key : String)
  deriving DecidableEq

namespace Discover

/-! ## Files -/

/-- The names of the classes at the top level of a file. -/
def declaredNames (t : Tree) (p : Path) : Outcome (List String) := do
  match ← t.read p with
  | .program program => return program.declaredNames
  | content => Code.classNames (← content.text)

/-- Whether a directory is passed over. -/
def isPassedOver (name : String) : Bool := name == "__pycache__" || name.startsWith "."

/-- The order of paths: name by name. -/
def pathLe (a b : List String) : Bool := !decide (b < a)

/-- The names that lead from a directory to the module files below it, sorted. -/
def moduleFiles (t : Tree) (place : Place) : List (List String) :=
  (((t.below place).map Prod.fst).filter fun names =>
    ((names.getLast?.getD "").endsWith ".py") && !(names.dropLast.any isPassedOver)).mergeSort
      pathLe

/-- The module files below the directory of a path. -/
def moduleFilesOf (t : Tree) (p : Path) : List Path :=
  match t.lookup p with
  | .found place .directory =>
    (moduleFiles t place).map fun names => ⟨p.root, p.parts ++ names⟩
  | _ => []

/-! ## Importing a file -/

/-- The places a top-level name leads to, if it leads anywhere. -/
def boundPlaces (m : Modules) (top : String) : Option (List Place) :=
  match Entries.get? top m.loaded with
  | some l => some l.locations
  | none => (m.findTop? top).map ModuleSource.locations

/-- Import the file in a place, scanned from a root; the name of the module is
answered. -/
def importFile (place : Place) (root : Option Place) : Load String := do
  let m ← get
  let name ← Import.lift (Naming.moduleName m.tree place root)
  if m.isLoadedFrom name place then return name
  let (top, rest) := Naming.cutFirst name
  let topPlace ← Import.lift (Naming.topLevelPlace place name)
  -- The name will do if its first component leads to this very file or directory.
  let bound := boundPlaces m top
  if (bound.getD []).contains topPlace then
    Import.module name
    return name
  let isTaken := bound.isSome || Entries.has name m.loaded
  let top' := if isTaken then Naming.privateTop top topPlace else top
  let name' := if isTaken then Naming.rejoin top' rest else name
  -- The package is imported first, at its top and under the name it gets here.
  if Naming.isPackage m.tree topPlace then
    Import.file top' (topPlace ++ [Naming.packageFile])
    Import.module name'
  else
    Import.file name' place
  return name'

/-- The class a name is bound to, if it is one. -/
def classOf? : Binding → Option FoundClass
  | .controller id => some (.controller id)
  | .foreign key => some (.foreign key)
  | _ => none

/-- The class that an attribute of a module is, if it is one. -/
def classIn? (m : Modules) (module name : String) : Option FoundClass :=
  (m.attribute? module name).bind classOf?

/-- Whether a class was made in a module. -/
def isMadeIn (m : Modules) (module : String) : FoundClass → Bool
  | .controller id => (m.world[id]?).any fun c => c.moduleName == module
  | .foreign _ => false

/-- The classes at the top level of a file. -/
def classesInFile (p : Path) (root : Option Place) : Load (List FoundClass) := do
  let m ← get
  let names ← Import.lift (declaredNames m.tree p)
  -- A file that declares no class is not even imported.
  if names.isEmpty then return []
  let module ← importFile (m.tree.resolve p) root
  let m ← get
  -- By now a name may be bound to something else, or to a class from elsewhere.
  return names.filterMap fun n => (classIn? m module n).filter (isMadeIn m module)

/-! ## Names -/

/-- Whether a missing module is the one asked for or lies on the way to it. -/
def isOnTheWay (module missing : String) : Bool :=
  missing != "" && (module == missing || module.startsWith (missing ++ "."))

/-- Import a module and take the class that an attribute of it is. -/
def classNamed (module name : String) : Load (Option FoundClass) := do
  Import.module module
  return classIn? (← get) module name

/-- Answer a failed import: without its module there is no class. -/
def withoutModule (module : String) : Failure → Load (Option FoundClass)
  | .noModule missing =>
    if isOnTheWay module missing then pure none else throw (.noModule missing)
  | e => throw e

/-- The class a dotted name stands for. -/
def importClass (dotted : String) : Load (Option FoundClass) := do
  let (module, name) := Naming.cutLast dotted
  if module = "" || name = "" then return none
  -- There is no package that a relative name could start from.
  if module.startsWith "." then throw .wrongType
  try classNamed module name
  catch e => withoutModule module e

/-- The classes of the files of a directory, file by file. -/
def classesInFiles (root : Place) : List Path → Load (List FoundClass)
  | [] => return []
  | p :: rest => do
    let found ← classesInFile p (some root)
    let more ← classesInFiles root rest
    return found ++ more

/-- The classes to be scanned for a path or a dotted name. -/
def classes (text : String) : Load (List FoundClass) := do
  let p := Path.ofText text
  let t := (← get).tree
  match ← Import.lift (t.probe p) with
  | some (.file _) => classesInFile p none
  | some .directory => classesInFiles (t.resolve p) (moduleFilesOf t p)
  | none => return (← importClass text).toList

end Discover

end Routebook
