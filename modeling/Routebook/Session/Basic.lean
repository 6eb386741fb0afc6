/-
  Routebook.Session.Basic

  A session: the files, the modules loaded from them, the settings, and the
  cache of collected classes.  Memory keeps the models themselves; a directory
  keeps their texts, so what is read from it is a copy.
-/
import Routebook.Controller.Collect
import Routebook.Handbook.Markdown
import Routebook.Handbook.Page
import Routebook.Json.Printer
import Routebook.Json.Reader
import Routebook.Model.Decode
import Routebook.Model.Encode
import Routebook.Modules.Discover
import Routebook.Route.Table
import Routebook.Session.Heap
import Routebook.Settings

namespace Routebook

/-- Where collected classes are kept. -/
inductive Cache where
  | memory (items : Entries ModelId)
  | directory (path : Path)

namespace Cache

/-- The cache that settings ask for. -/
def ofSettings (s : Settings) : Cache :=
  match s.cacheDirectory with
  | some d => .directory d
  | none => .memory []

/-- A character that the name of a stored class may hold. -/
def isNameChar (c : Char) : Bool := c.isAlphanum || c == '_' || c == '.' || c == '-'

/-- The name of the file that stores a class: other characters become underscores. -/
def fileName (key : String) : String :=
  String.ofList (key.toList.map fun c => if isNameChar c then c else '_') ++ ".json"

/-- The model stored in a text, if the text is one. -/
def decode (text : String) : Outcome (Option (ClassModel MethodModel)) :=
  match Json.read? .stored text with
  | none => .ok none
  | some v =>
    match Model.ofClass v with
    | .ok c => .ok (some c)
    | .faulty _ => .ok none
    | .wrongType => .error .wrongType

/-- The text in which a model is stored. -/
def encode (c : ClassModel MethodModel) : String :=
  Json.print (.stored (some 2)) (Model.classData c)

/-- The model that a directory stores under a key. -/
def load (t : Tree) (directory : Path) (key : String) :
    Outcome (Option (ClassModel MethodModel)) := do
  let p := directory.child (fileName key)
  match ← t.probe p with
  | none => return none
  | some _ => do
    -- A directory may stand there as well: reading it fails.
    let text ← t.readText p
    decode text

/-- Store a model in a directory, which is made first. -/
def store (t : Tree) (directory : Path) (key : String) (c : ClassModel MethodModel) :
    Tree.Change := do
  let t ← t.makeWay directory
  (t.write (directory.child (fileName key)) (.bytes (encode c).toUTF8)).mapError fun e => (t, e)

end Cache

/-- A session. -/
structure Session where
  modules : Modules
  heap : Heap
  settings : Settings
  /-- The directory that file references start from. -/
  baseDirectory : Option Path
  cache : Cache

/-- A part of a session's run; what it has changed before a failure stays. -/
abbrev Run (α : Type) := ExceptT Failure (StateM Session) α

namespace Session

/-- A session without loaded modules. -/
def start (modules : Modules) (settings : Settings) (base : Option Path) : Session :=
  ⟨modules, Heap.empty, settings, base, Cache.ofSettings settings⟩

/-- The files. -/
def tree (s : Session) : Tree := s.modules.tree

/-- An outcome as part of a run. -/
def lift (r : Outcome α) : Run α :=
  match r with
  | .ok a => pure a
  | .error e => throw e

/-- A step of loading as part of a run. -/
def load (step : Load α) : Run α := do
  let s ← get
  let (r, modules) := step.run.run s.modules
  -- What was loaded before a failure stays loaded.
  set { s with modules := modules }
  lift r

/-- Change the files. -/
def changeTree (f : Tree → Outcome Tree) : Run Unit := do
  let t ← lift (f (← get).tree)
  modify fun s => { s with modules := { s.modules with tree := t } }

/-- Change the files step by step; what a failing change has done stays. -/
def change (f : Tree → Tree.Change) : Run Unit := do
  let r := f (← get).tree
  modify fun s => { s with modules := { s.modules with tree := r.after } }
  lift ((r.map fun _ => ()).mapError Prod.snd)

/-- Add a class model. -/
def addModel (c : ClassModel MethodModel) : Run ModelId := do
  let s ← get
  let (heap, id) := s.heap.add c
  set { s with heap := heap }
  return id

/-- Go on with other settings, and with the cache they ask for unless the old
one is kept. -/
def configure (settings : Settings) (base : Option Path) (keepCache : Bool) (s : Session) :
    Session :=
  { s with
    settings := settings
    baseDirectory := base
    cache := if keepCache then s.cache else Cache.ofSettings settings }

/-! ## The cache -/

/-- The model kept under a key. -/
def cached (key : String) : Run (Option ModelId) := do
  let s ← get
  match s.cache with
  | .memory items => return Entries.get? key items
  | .directory d =>
    -- What is read is a model of its own, which nobody else holds.
    match ← lift (Cache.load s.tree d key) with
    | some c => return some (← addModel c)
    | none => return none

/-- Keep a model under a key. -/
def keep (key : String) (id : ModelId) : Run Unit := do
  let s ← get
  match s.cache with
  | .memory items => set { s with cache := .memory (Entries.put key id items) }
  | .directory d => change fun t => Cache.store t d key (s.heap.model id)

/-- The model kept under a key, where the settings ask for a cache. -/
def recalled (key : String) : Run (Option ModelId) := do
  if (← get).settings.cache then cached key else return none

/-- Keep a model under a key, where the settings ask for a cache. -/
def remember (key : String) (id : ModelId) : Run Unit := do
  if (← get).settings.cache then keep key id else return ()

/-- Forget the models kept in memory. -/
def clearCache : Run Unit :=
  modify fun s =>
    match s.cache with
    | .memory _ => { s with cache := .memory [] }
    | .directory _ => s

/-- The number of models kept in memory. -/
def cacheSize (s : Session) : Nat :=
  match s.cache with
  | .memory items => items.length
  | .directory _ => 0

/-! ## Collecting -/

/-- The key of a class that was found. -/
def keyOf (s : Session) : FoundClass → String
  | .controller id => ((s.modules.world[id]?).map Controller.key).getD ""
  | .foreign key => key

/-- The tags above a class. -/
def tagsOf (s : Session) : FoundClass → List Attached
  | .controller id => ((s.modules.world[id]?).map Controller.tags).getD []
  | .foreign _ => []

/-- The owners along the order of lookup of a class. -/
def ownersOf (s : Session) : FoundClass → List Owner
  | .controller id =>
    ((s.modules.world[id]?).map (Controller.owners s.modules.world s.modules.globals)).getD []
  | .foreign _ => []

/-- The model of a class, as its tags say. -/
def reflectModel (s : Session) (c : FoundClass) (publicOnly : Bool) :
    Outcome (ClassModel MethodModel) :=
  Collect.model s.settings.defaultGroup (s.keyOf c) (s.tagsOf c) (s.ownersOf c) publicOnly

/-- Collect a class of which the cache keeps nothing. -/
def collectNew (c : FoundClass) (publicOnly : Bool) : Run ModelId := do
  let s ← get
  let id ← addModel (← lift (s.reflectModel c publicOnly))
  remember (s.keyOf c) id
  return id

/-- Collect a class: what the cache keeps is taken as it is. -/
def collect (c : FoundClass) (publicOnly : Bool) : Run ModelId := do
  let s ← get
  match ← recalled (s.keyOf c) with
  | some id => return id
  | none => collectNew c publicOnly

/-- Merge models into groups. -/
def mergeWith (default : String) (ids : List ModelId) :
    Run (Entries (MergedGroup MethodId)) := do
  let s ← get
  let (heap, groups) := s.heap.merge default ids
  set { s with heap := heap }
  return groups

/-- Merge models into groups with the default group of the settings. -/
def merge (ids : List ModelId) : Run (Entries (MergedGroup MethodId)) := do
  mergeWith (← get).settings.defaultGroup ids

/-! ## Scanning -/

/-- Collect classes, each under its key. -/
def collectAll (acc : Entries ModelId) : List FoundClass → Run (Entries ModelId)
  | [] => return acc
  | c :: rest => do
    let id ← collect c false
    collectAll (Entries.put ((← get).keyOf c) id acc) rest

/-- Complete models by merging them, on demand. -/
def mergeOnDemand (merging : Bool) (models : Entries ModelId) : Run Unit := do
  if merging then discard (merge (Entries.values models)) else return ()

/-- Keep models, each under its key. -/
def rememberAll (models : Entries ModelId) : Run Unit :=
  models.forM fun e => remember e.1 e.2

/-- Collect every class found for a path or a dotted name, and merge them on
demand. -/
def scan (path : String) (merging : Bool) : Run (Entries ModelId) := do
  let found ← load (Discover.classes path)
  let models ← collectAll [] found
  mergeOnDemand merging models
  -- Memory holds these very models and has seen the merging; a directory has not.
  rememberAll models
  return models

/-- The merged groups of a path. -/
def scanGroups (path : String) : Run (Entries (MergedGroup MethodId)) := do
  let models ← scan path true
  merge (Entries.values models)

/-! ## Writing -/

/-- The path that a file reference stands for. -/
def referencePath (base : Option Path) (text : String) : Path :=
  match base with
  | some b => (Path.ofText text).under b
  | none => Path.ofText text

/-- What a file reference stands for in a session. -/
def fileReference (t : Tree) (base : Option Path) (text : String) : Outcome (Option String) := do
  match ← t.probe (referencePath base text) with
  | some (.file content) => return some content.textLenient
  | _ => return none

/-- What the writing of the handbook depends on. -/
def frame (s : Session) : Handbook.Frame :=
  ⟨s.settings.marker, fileReference s.tree s.baseDirectory⟩

/-- Merged groups as they are now. -/
def groupsNow (s : Session) (groups : Entries (MergedGroup MethodId)) :
    Entries (MergedGroup MethodModel) :=
  Entries.mapValues s.heap.merged groups

/-- Class models as they are now. -/
def modelsNow (s : Session) (models : Entries ModelId) : Entries (ClassModel MethodModel) :=
  Entries.mapValues s.heap.model models

/-- The handbook of merged groups. -/
def render (groups : Entries (MergedGroup MethodId)) : Run String := do
  let s ← get
  lift (Handbook.markdown s.frame (s.groupsNow groups))

/-- The handbook of a path. -/
def handbook (path : String) : Run String := do
  let groups ← scanGroups path
  render groups

/-- The template in a file, or the one that is used if no other is given. -/
def template (t : Tree) : Option String → Outcome String
  | none => .ok Handbook.defaultTemplate
  | some path => t.readText (Path.ofText path)

/-- The page around a text. -/
def page (markdown : String) (template? : Option String) : Run String := do
  let t ← lift (template (← get).tree template?)
  return Handbook.page t markdown

/-- The page of the handbook of a path, with another text in front of it. -/
def handbookPage (path lead : String) (template? : Option String) : Run String := do
  let text ← handbook path
  page (lead ++ Handbook.blockEnd ++ text) template?

/-- The routes of a path. -/
def routes (path : String) (lead? : Option String) : Run (List Route) := do
  let models ← scan path true
  let s ← get
  return Route.table (lead?.getD s.settings.namespaceLead) (s.modelsNow models)

end Session

end Routebook
