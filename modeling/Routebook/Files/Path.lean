/-
  Routebook.Files.Path

  Paths: a root and the names that follow it.  Repeated slashes and parts
  that are a single dot are dropped when a text is read; parts that are two
  dots are kept, because where they lead depends on the files.
-/

namespace Routebook

/-- What a path starts from. -/
inductive Path.Root where
  /-- The current directory. -/
  | here
  /-- The top of the file system. -/
  | top
  /-- The top, written with two slashes. -/
  | doubled
  deriving DecidableEq, Repr

/-- A path. -/
structure Path where
  root : Path.Root
  parts : List String
  deriving DecidableEq, Repr

namespace Path

/-- The runs of characters between slashes. -/
def split : List Char → List (List Char)
  | [] => [[]]
  | '/' :: rest => [] :: split rest
  | c :: rest =>
    match split rest with
    | [] => [[c]]
    | s :: more => (c :: s) :: more

/-- The parts of a text: neither empty nor a single dot. -/
def partsOf (cs : List Char) : List String :=
  ((split cs).filter fun s => s ≠ [] ∧ s ≠ ['.']).map String.ofList

/-- The root of a text: two slashes differ from one and from three. -/
def rootOf : List Char → Root
  | '/' :: '/' :: '/' :: _ => .top
  | '/' :: '/' :: _ => .doubled
  | '/' :: _ => .top
  | _ => .here

/-- The path a text stands for. -/
def ofText (s : String) : Path := ⟨rootOf s.toList, partsOf s.toList⟩

/-- The text of a root. -/
def Root.text : Root → String
  | .here => ""
  | .top => "/"
  | .doubled => "//"

/-- The text of a path; the empty path is a single dot. -/
def text (p : Path) : String :=
  if p.root = .here ∧ p.parts = [] then "."
  else p.root.text ++ "/".intercalate p.parts

/-- Whether a path starts from the top. -/
def isAbsolute (p : Path) : Bool := p.root != .here

/-- A path seen from a directory. -/
def under (p directory : Path) : Path :=
  if p.isAbsolute then p else ⟨directory.root, directory.parts ++ p.parts⟩

/-- One more part at the end. -/
def child (p : Path) (name : String) : Path := ⟨p.root, p.parts ++ [name]⟩

/-- The last part. -/
def name (p : Path) : String := p.parts.getLast?.getD ""

/-- Everything but the last part. -/
def parent (p : Path) : Path := ⟨p.root, p.parts.dropLast⟩

/-- A file name without its extension: cut at the last dot, unless that is
the first or the last character. -/
def stemOf (name : String) : String :=
  let cs := name.toList
  let tail := cs.reverse.takeWhile (· != '.')
  if tail.length + 1 < cs.length ∧ tail ≠ [] then
    String.ofList (cs.take (cs.length - tail.length - 1))
  else name

/-- The last part without its extension. -/
def stem (p : Path) : String := stemOf p.name

/-! ## Small laws -/

@[simp] theorem parent_child (p : Path) (name : String) : (p.child name).parent = p := by
  simp [parent, child]

@[simp] theorem name_child (p : Path) (part : String) : (p.child part).name = part := by
  simp [name, child]

end Path

end Routebook
