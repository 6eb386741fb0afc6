/-
  Routebook.Modules.Import

  Importing modules by name.  The packages around a module are imported
  first; a module is in the table while it runs, so modules may import each
  other, and leaves it again when it fails.  A module inside a package is
  bound to its name there.
-/
import Routebook.Controller.Define
import Routebook.Modules.Table
import Routebook.Code.ClassNames

namespace Routebook

/-- The failure a module stops with. -/
def Stop.failure : Stop → Failure
  | .raised message => .raised message
  | .badValue message => .badValue message
  | .wrongType => .wrongType
  | .missingKey => .missingKey
  | .missingName => .missingName
  | .zeroDivision => .zeroDivision
  | .notImportable => .notImportable
  | .noModule => .noModule ""
  | .malformedSource => .malformedSource
  | .noSuchFile => .noSuchFile
  | .isDirectory => .isDirectory
  | .badPath => .badPath

/-- The program of a file.  Of a source text only the classes at its top level
are known. -/
def Content.statements : Content → Outcome Program
  | .program p => .ok p
  | .bytes data =>
    match Text.ofBytes data with
    | .error _ => .error .malformedSource
    | .ok text => do
      let names ← Code.classNames text
      return ⟨names.map fun n => .define (.mk n [] [] []) true, false⟩

namespace Import

/-- An outcome as a step of loading. -/
def lift (r : Outcome α) : Load α :=
  match r with
  | .ok a => pure a
  | .error e => throw e

/-- The name that a possibly relative name stands for in a package. -/
def absolute (package name : String) : Outcome String :=
  let cs := name.toList
  let level := (cs.takeWhile (· == '.')).length
  let rest := String.ofList (cs.drop level)
  if level = 0 then .ok name
  else if package = "" then .error .notImportable
  else
    let parts := package.splitOn "."
    if parts.length < level then .error .notImportable
    else
      -- One dot is the package itself, each further dot the package around it.
      let base := ".".intercalate (parts.take (parts.length - (level - 1)))
      .ok (if rest = "" then base else base ++ "." ++ rest)

/-- An attribute of a module, if it is loaded. -/
def attribute? (module name : String) : Load (Option Binding) := do
  return (← get).attribute? module name

/-- What an import statement takes from a module once a module inside it was tried. -/
def takeInner (module name : String) : Load Binding := do
  match ← attribute? module name with
  | some b => return b
  | none =>
    let inner := module ++ "." ++ name
    if Entries.has inner (← get).loaded then return .module inner else throw .notImportable

/-- What an import statement takes from a module; a name that is not there may be a
module inside it. -/
def take (importModule : String → Load Unit) (module name : String) : Load Binding := do
  match ← attribute? module name with
  | some b => return b
  | none =>
    let inner := module ++ "." ++ name
    -- The name may be a module inside the package that nobody has imported yet.
    let isPackage := ((Entries.get? module (← get).loaded).bind LoadedModule.searchIn).isSome
    if isPackage then
      try importModule inner
      catch
        -- That this module is missing is no failure yet; one that it imports itself is.
        | .noModule missing => if missing = inner then pure () else throw (.noModule missing)
        | e => throw e
    takeInner module name

/-- Run one statement of a module. -/
def runItem (importModule : String → Load Unit) (module : String) (postponed : Bool) :
    Item → Load Unit
  | .define decl _ => do
    let m ← get
    let (world, id) ← lift
      (decl.make ⟨module, m.bindingsOf module, postponed⟩ "" [] m.world)
    modify fun m => { m with world := world }
    modify (Modules.bind module decl.name (.controller id))
  | .importFrom name source => do
    let package := ((Entries.get? module (← get).loaded).map LoadedModule.package).getD ""
    let full ← lift (absolute package source)
    importModule full
    let b ← take importModule full name
    modify (Modules.bind module name b)
  | .assign name value => do
    match value with
    | .number => modify (Modules.bind module name .other)
    | .name other =>
      match lookup? [(← get).bindingsOf module] other with
      | some b => modify (Modules.bind module name b)
      | none => throw .missingName
  | .delete name => do
    if Entries.has name ((← get).bindingsOf module) then modify (Modules.unbind module name)
    else throw .missingName
  | .stop why => throw why.failure

/-- Run the statements of a module that is in the table; a module that fails
leaves the table. -/
def runProgram (importModule : String → Load Unit) (module : String) (p : Program) : Load Unit :=
  try p.items.forM (runItem importModule module p.postponed)
  catch e => do
    modify (Modules.forget module)
    throw e

/-- Run the file in a place as a module. -/
def runPlace (importModule : String → Load Unit) (name : String) (source : ModuleSource)
    (place : Place) : Load Unit := do
  -- In the table before it runs, where modules that import it in turn find it.
  modify (Modules.register name (source.blank name))
  match (← get).tree.node? place with
  | some (.file content) =>
    match content.statements with
    | .ok p => runProgram importModule name p
    | .error e => do
      modify (Modules.forget name)
      throw e
  | _ => throw (.noModule name)

/-- Load a module from outside the files, with all that it holds. -/
def receive (name : String) (source : ModuleSource) (held : Outcome (Entries OutsideBinding)) :
    Load Unit := do
  modify (Modules.register name (source.blank name))
  match held with
  | .ok names =>
    let bindings := Entries.mapValues OutsideBinding.binding names
    modify (Modules.register name { source.blank name with bindings := bindings })
  | .error e => do
    modify (Modules.forget name)
    throw e

/-- Load a module from what was found for it. -/
def load (importModule : String → Load Unit) (name : String) (source : ModuleSource) :
    Load Unit :=
  match source with
  | .package d => runPlace importModule name source (d ++ [Naming.packageFile])
  | .file place => runPlace importModule name source place
  | .directories _ => modify (Modules.register name (source.blank name))
  | .outside held => receive name source held

/-- Import a module that lies in a loaded package, or at the top. -/
def enter (importModule : String → Load Unit) (name : String) : Load Unit := do
  let m ← get
  if Entries.has name m.loaded then return
  match m.sourceOf? name with
  | none => throw (.noModule name)
  | some source =>
    load importModule name source
    -- Only a module that has run to its end is bound in the package around it.
    let (parent, last) := Naming.cutLast name
    if parent ≠ "" then modify (Modules.bind parent last (.module name))

/-- The modules on the way to one that are to be imported: those behind the last
one that is loaded. -/
def pending (m : Modules) (name : String) : List String :=
  ((Naming.wayTo name).reverse.takeWhile fun p => !Entries.has p m.loaded).reverse

/-- Import a module by its full name, after the packages around it; `depth` bounds
how many modules run at a time. -/
def byName : Nat → String → Load Unit
  | 0, _ => throw .endless
  | depth + 1, name => do (pending (← get) name).forM (enter (byName depth))

/-- Whether something may be imported from a place: a directory, or the file of a module. -/
def isImportable (e : Place × Node) : Bool :=
  match e.2 with
  | .directory => true
  | .file _ => (e.1.getLast?.getD "").endsWith ".py"

/-- A bound on how many modules run at a time: every level runs another one. -/
def depthBound (m : Modules) : Nat :=
  64 + 16 * ((m.tree.nodes.filter isImportable).length + m.loaded.length)

/-- Import a module by its full name. -/
def module (name : String) : Load Unit := do byName (depthBound (← get)) name

/-- Load the file in a place under a given name, unless it is loaded under it. -/
def file (name : String) (place : Place) : Load Unit := do
  let m ← get
  if m.isLoadedFrom name place then return
  let fileName := place.getLast?.getD ""
  if fileName.endsWith ".py" then
    -- A package file makes a package, unless it is asked for by its own stem.
    let source : ModuleSource :=
      if fileName = Naming.packageFile ∧ (Naming.cutLast name).2 ≠ Naming.packageStem then
        .package place.dropLast
      else .file place
    load module name source
  else throw .notImportable

/-- Define a module of which only the statements are known. -/
def define (name : String) (p : Program) (registered : Bool) : Load (Entries Binding) := do
  let before := Entries.get? name (← get).loaded
  modify (Modules.register name ⟨[], none, (Naming.cutLast name).1, []⟩)
  p.items.forM (runItem module name p.postponed)
  let made := (← get).bindingsOf name
  -- The table is put back as it was.
  if !registered then
    match before with
    | some l => modify (Modules.register name l)
    | none => modify (Modules.forget name)
  return made

end Import

end Routebook
