/-
  Routebook.Files.Tree

  The files that the library works on, as a value: which places hold a
  directory or a file, and where the current directory is.  Looking a path up
  follows it name by name, so a name that is too long or a file in the middle
  is met before anything behind it.
-/
import Routebook.Controller.Syntax
import Routebook.Files.Path
import Routebook.Text.Utf8

namespace Routebook

/-- What a file holds. -/
inductive Content where
  | bytes (data : ByteArray)
  /-- A module of controller classes. -/
  | program (p : Program)

/-- What a place holds. -/
inductive Node where
  | directory
  | file (content : Content)

/-- A place: the names that lead to it from the top. -/
abbrev Place := List String

/-- The files. -/
structure Tree where
  /-- The current directory. -/
  here : Place
  nodes : List (Place × Node)

/-- Where a path leads. -/
inductive Lookup where
  | found (place : Place) (node : Node)
  | missing
  /-- A file stands where a directory is needed. -/
  | notDirectory
  /-- A name is longer than names may be. -/
  | tooLong
  /-- A name holds the character that no name may hold. -/
  | malformed

namespace Tree

/-- What a place holds; the top and the way to the current directory are
directories. -/
def node? (t : Tree) (place : Place) : Option Node :=
  if place.isPrefixOf t.here then some .directory
  else (t.nodes.find? (·.1 == place)).map Prod.snd

/-- The most bytes of a name. -/
def nameLimit : Nat := 255

/-- Follow names from a place. -/
def walk (t : Tree) (place : Place) : List String → Lookup
  | [] =>
    match t.node? place with
    | some node => .found place node
    | none => .missing
  | name :: rest =>
    match t.node? place with
    | none => .missing
    | some (.file _) => .notDirectory
    | some .directory =>
      -- Too long a name is refused, whether or not anything could have it.
      if name.utf8ByteSize > nameLimit then .tooLong
      else if name = ".." then walk t place.dropLast rest
      else walk t (place ++ [name]) rest

/-- Where a path starts. -/
def startOf (t : Tree) (p : Path) : Place := if p.isAbsolute then [] else t.here

/-- Look a path up. -/
def lookup (t : Tree) (p : Path) : Lookup :=
  if p.parts.any fun s => s.toList.contains '\x00' then .malformed
  else t.walk (t.startOf p) p.parts

/-- Follow names without looking at the files. -/
def follow (place : Place) (names : List String) : Place :=
  names.foldl (fun at_ name => if name = ".." then at_.dropLast else at_ ++ [name]) place

/-- The place a path names, whether it exists or not. -/
def resolve (t : Tree) (p : Path) : Place := follow (t.startOf p) p.parts

/-- Whether a place holds a file. -/
def isFileAt (t : Tree) (place : Place) : Bool :=
  match t.node? place with
  | some (.file _) => true
  | _ => false

/-- Whether a place holds a directory. -/
def isDirectoryAt (t : Tree) (place : Place) : Bool :=
  match t.node? place with
  | some .directory => true
  | _ => false

/-- What a path leads to, if anything; only a name that is too long is a failure. -/
def probe (t : Tree) (p : Path) : Outcome (Option Node) :=
  match t.lookup p with
  | .found _ node => .ok (some node)
  | .tooLong => .error .badPath
  | _ => .ok none

/-- The failure of opening what a path leads to. -/
def openFailure : Lookup → Failure
  | .found _ _ => .isDirectory
  | .missing => .noSuchFile
  | .notDirectory => .badPath
  | .tooLong => .badPath
  | .malformed => .badValue "embedded null byte"

/-- The content of the file a path leads to. -/
def read (t : Tree) (p : Path) : Outcome Content :=
  match t.lookup p with
  | .found _ (.file content) => .ok content
  | other => .error (openFailure other)

end Tree

/-- The text of a file. -/
def Content.text : Content → Outcome String
  | .bytes data => (Text.ofBytes data).mapError .undecodable
  | .program _ => .ok ""

/-- The text of a file, with marks of replacement. -/
def Content.textLenient : Content → String
  | .bytes data => Text.ofBytesLenient data
  | .program _ => ""

namespace Tree

/-- The text of the file a path leads to. -/
def readText (t : Tree) (p : Path) : Outcome String := do
  let content ← t.read p
  content.text

/-! ## Changes -/

/-- Put something in a place. -/
def put (t : Tree) (place : Place) (node : Node) : Tree :=
  if t.nodes.any (·.1 == place) then
    { t with nodes := t.nodes.map fun e => if e.1 == place then (place, node) else e }
  else { t with nodes := t.nodes ++ [(place, node)] }

/-- A change in several steps; a failure comes with the files as the steps
before it left them. -/
abbrev Change := Except (Tree × Failure) Tree

/-- The files after a change, whether it went through or not. -/
def Change.after : Change → Tree
  | .ok t => t
  | .error (t, _) => t

/-- Make a directory and all directories on the way to it. -/
def makeDirectories (t : Tree) (place : Place) : List String → Change
  | [] => .ok t
  | name :: rest =>
    let next := if name = ".." then place.dropLast else place ++ [name]
    match t.node? next with
    | some .directory => makeDirectories t next rest
    | some (.file _) => .error (t, .badPath)
    | none =>
      if name.utf8ByteSize > nameLimit then .error (t, .badPath)
      else makeDirectories (t.put next .directory) next rest

/-- Make the way to a path, step by step. -/
def makeWay (t : Tree) (p : Path) : Change :=
  if p.parts.any fun s => s.toList.contains '\x00' then .error (t, openFailure .malformed)
  else t.makeDirectories (t.startOf p) p.parts

/-- Make the directory of a path. -/
def makePath (t : Tree) (p : Path) : Outcome Tree := (t.makeWay p).mapError Prod.snd

/-- Write the file of a path; its directory must exist. -/
def write (t : Tree) (p : Path) (content : Content) : Outcome Tree :=
  match t.lookup p with
  | .found place (.file _) => .ok (t.put place (.file content))
  | .found _ .directory => .error .isDirectory
  | .missing =>
    -- Nothing has the name yet; the directory must be there to take it.
    match t.lookup p.parent with
    | .found place .directory => .ok (t.put (place ++ [p.name]) (.file content))
    | other => .error (openFailure other)
  | other => .error (openFailure other)

/-- Write a file and make the directories on the way to it. -/
def plant (t : Tree) (p : Path) (content : Content) : Outcome Tree := do
  let t ← t.makePath p.parent
  t.write p content

/-! ## Listing -/

/-- The directories on the way to the current one. -/
def way (t : Tree) : List (Place × Node) :=
  (List.range (t.here.length + 1)).map fun n => (t.here.take n, .directory)

/-- What lies below a place, by the names that lead there from the place. -/
def below (t : Tree) (place : Place) : List (List String × Node) :=
  -- The way to the current directory is there without being listed among the nodes.
  (t.way ++ t.nodes).filterMap fun e =>
    if place.isPrefixOf e.1 && decide (place.length < e.1.length) then
      some (e.1.drop place.length, e.2)
    else none

/-- The files below a place. -/
def filesBelow (t : Tree) (place : Place) : List (List String) :=
  (t.below place).filterMap fun e =>
    match e.2 with
    | .file _ => some e.1
    | .directory => none

end Tree

end Routebook
