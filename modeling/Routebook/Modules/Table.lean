/-
  Routebook.Modules.Table

  The modules that are loaded, with what their names are bound to, and all
  classes made so far.  Loading changes the table even when it fails: what
  was loaded before the failure stays.

  Some modules come from outside the files.  Nothing is said here of which
  these are and what they hold: it is given with the table.
-/
import Routebook.Controller.Basic
import Routebook.Modules.Naming

namespace Routebook

/-- A module that is loaded, or being loaded. -/
structure LoadedModule where
  /-- The places it comes from. -/
  locations : List Place
  /-- Where the modules inside it are looked for, if it is a package. -/
  searchIn : Option (List Place)
  /-- The package that relative names start from. -/
  package : String
  bindings : Entries Binding

/-- The attributes that every module has, whatever is bound in it. -/
def moduleAttributes : List String :=
  ["__name__", "__doc__", "__package__", "__loader__", "__spec__", "__annotations__", "__init__",
   "__new__", "__repr__", "__str__", "__eq__", "__ne__", "__lt__", "__le__", "__gt__", "__ge__",
   "__hash__", "__dir__", "__format__", "__sizeof__", "__getattribute__", "__setattr__",
   "__delattr__", "__getstate__", "__reduce__", "__reduce_ex__", "__init_subclass__",
   "__subclasshook__"]

/-- An attribute of a module.  What is bound in the module comes before all that every
module has but for its class and its own table of names. -/
def LoadedModule.attribute? (name : String) (l : LoadedModule) : Option Binding :=
  if name = "__class__" then some (.foreign "builtins.module")
  else if name = "__dict__" then some .other
  else
    match Entries.get? name l.bindings with
    | some b => some b
    | none => if moduleAttributes.contains name then some .other else none

/-- What a name is bound to in a module outside the files, where nothing has tags. -/
inductive OutsideBinding where
  /-- A class, under its full name. -/
  | type (key : String)
  | function
  | module (name : String)
  | other

/-- What a name from outside the files is bound to. -/
def OutsideBinding.binding : OutsideBinding → Binding
  | .type key => .foreign key
  | .function => .function []
  | .module name => .module name
  | .other => .other

/-- The modules outside the files: under a full name that leads there, what the names
in the module are bound to, or the failure that it stops with. -/
abbrev Outside := String → Option (Outcome (Entries OutsideBinding))

namespace Outside

/-- No name leads outside the files. -/
def nowhere : Outside := fun _ => none

/-- The names of a table lead outside the files. -/
def ofTable (table : Entries (Outcome (Entries OutsideBinding))) : Outside :=
  fun name => Entries.get? name table

end Outside

/-- The state of loading. -/
structure Modules where
  tree : Tree
  outside : Outside
  /-- The directories in which top-level modules are looked for, in order. -/
  paths : List Place
  loaded : Entries LoadedModule
  world : World

/-- A step of loading. -/
abbrev Load (α : Type) := ExceptT Failure (StateM Modules) α

namespace Modules

/-- Nothing is loaded. -/
def start (tree : Tree) (outside : Outside) (paths : List Place) : Modules :=
  ⟨tree, outside, paths, [], []⟩

/-- What the loaded modules hold. -/
def globals (m : Modules) : Globals := Entries.mapValues LoadedModule.bindings m.loaded

/-- Put a module into the table. -/
def register (name : String) (module : LoadedModule) (m : Modules) : Modules :=
  { m with loaded := Entries.put name module m.loaded }

/-- Take a module out of the table. -/
def forget (name : String) (m : Modules) : Modules :=
  { m with loaded := Entries.erase name m.loaded }

/-- Bind a name in a module. -/
def bind (module name : String) (b : Binding) (m : Modules) : Modules :=
  { m with
    loaded := Entries.modify module
      (fun l => { l with bindings := Entries.put name b l.bindings }) m.loaded }

/-- Unbind a name in a module. -/
def unbind (module name : String) (m : Modules) : Modules :=
  { m with
    loaded := Entries.modify module
      (fun l => { l with bindings := Entries.erase name l.bindings }) m.loaded }

/-- What the names of a module are bound to. -/
def bindingsOf (module : String) (m : Modules) : Entries Binding :=
  ((Entries.get? module m.loaded).map LoadedModule.bindings).getD []

/-- An attribute of a module, if it is loaded. -/
def attribute? (module name : String) (m : Modules) : Option Binding :=
  (Entries.get? module m.loaded).bind (LoadedModule.attribute? name)

/-- Whether a module is loaded from a place. -/
def isLoadedFrom (name : String) (place : Place) (m : Modules) : Bool :=
  match Entries.get? name m.loaded with
  | some l => l.locations.contains place
  | none => false

end Modules

/-! ## Looking for modules -/

/-- What a module is loaded from. -/
inductive ModuleSource where
  | package (directory : Place)
  | file (place : Place)
  /-- Directories that together are a package without a file of its own. -/
  | directories (places : List Place)
  /-- A module outside the files, and what it holds. -/
  | outside (held : Outcome (Entries OutsideBinding))

namespace ModuleSource

/-- The places a source stands for. -/
def locations : ModuleSource → List Place
  | .package d => [d ++ [Naming.packageFile], d]
  | .file p => [p]
  | .directories ds => ds
  | .outside _ => []

/-- Where the modules inside are looked for. -/
def searchIn : ModuleSource → Option (List Place)
  | .package d => some [d]
  | .file _ => none
  | .directories ds => some ds
  | .outside _ => some []

/-- The package that relative names in the module start from. -/
def packageOf (source : ModuleSource) (name : String) : String :=
  match source with
  | .file _ => (Naming.cutLast name).1
  | _ => name

/-- The module before anything in it has run. -/
def blank (source : ModuleSource) (name : String) : LoadedModule :=
  ⟨source.locations, source.searchIn, source.packageOf name, []⟩

/-- Look for a module in directories: the first package or file wins, and only
if there is none do plain directories count. -/
def find? (t : Tree) (name : String) (portions : List Place) : List Place → Option ModuleSource
  | [] => if portions.isEmpty then none else some (.directories portions)
  | d :: rest =>
    let inner := d ++ [name]
    let file := d ++ [name ++ ".py"]
    if Naming.isPackage t inner then some (.package inner)
    else if t.isFileAt file then some (.file file)
    -- A plain directory is noted only: a package or a file further on still wins.
    else if t.isDirectoryAt inner then find? t name (portions ++ [inner]) rest
    else find? t name portions rest

end ModuleSource

/-- What a module is loaded from, of which the last name is looked for in directories: what
lies outside the files comes first. -/
def Modules.find? (m : Modules) (name last : String) (places : List Place) : Option ModuleSource :=
  match m.outside name with
  | some held => some (.outside held)
  | none => ModuleSource.find? m.tree last [] places

/-- What a top-level name is loaded from. -/
def Modules.findTop? (m : Modules) (name : String) : Option ModuleSource :=
  m.find? name name m.paths

/-- What a module is loaded from, once the package around it is loaded. -/
def Modules.sourceOf? (m : Modules) (name : String) : Option ModuleSource :=
  let (parent, last) := Naming.cutLast name
  if parent = "" then m.findTop? name
  else ((Entries.get? parent m.loaded).bind LoadedModule.searchIn).bind (m.find? name last)

end Routebook
