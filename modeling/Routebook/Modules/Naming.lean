/-
  Routebook.Modules.Naming

  The names of modules.  A file inside packages is named along the packages
  around it, from the outermost one; a file of a scanned directory is named
  along the directories from the scanned one; any other file by its stem.
-/
import Routebook.Files.Tree
import Routebook.Modules.Fingerprint
import Routebook.Text.Literal

namespace Routebook.Naming

/-- The file that makes a directory a package. -/
def packageFile : String := "__init__.py"

/-- The stem of the file that makes a directory a package. -/
def packageStem : String := "__init__"

/-- Whether a directory is a package. -/
def isPackage (t : Tree) (directory : Place) : Bool := t.isFileAt (directory ++ [packageFile])

/-- The names of the packages around a directory, outermost first; the search
goes up while there are packages, and `steps` bounds it. -/
def packagesAround (t : Tree) : Nat → Place → List String → Option (List String)
  | 0, _, _ => none
  | steps + 1, directory, found =>
    if isPackage t directory then
      packagesAround t steps directory.dropLast (directory.getLast?.getD "" :: found)
    else some found

/-- The names of the packages that enclose a directory. -/
def packages (t : Tree) (directory : Place) : Outcome (List String) :=
  match packagesAround t (directory.length + 1) directory [] with
  | some names => .ok names
  -- Above the top stands the top again: a package there is gone up to for ever.
  | none => .error .endless

/-- The stem of the file in a place. -/
def stemAt (place : Place) : String := Path.stemOf (place.getLast?.getD "")

/-- What follows a place in a longer one. -/
def relative? (place base : Place) : Option (List String) :=
  if base.isPrefixOf place then some (place.drop base.length) else none

/-- The text of a place. -/
def placeText (place : Place) : String := "/" ++ "/".intercalate place

/-- What is said of a place that does not lie under another one. -/
def outsideMessage (place base : Place) : String :=
  Text.quoted (placeText place) ++ " is not in the subpath of " ++ Text.quoted (placeText base) ++
    " OR one path is relative and the other is absolute."

/-- Drop the stem of a package file at the end. -/
def withoutPackageStem (parts : List String) : List String :=
  if parts.getLast? = some packageStem then parts.dropLast else parts

/-- The parts that lead to a place from a directory above it; at the directory itself
there are none to look at. -/
def partsFrom (directory bare : Place) : Outcome (List String) :=
  match relative? bare directory with
  | some [] => .error .missingKey
  | some names => .ok (withoutPackageStem names)
  | none => .error (.badValue (outsideMessage bare directory))

/-- The parts of the name of the file in a place, scanned from a root. -/
def parts (t : Tree) (file : Place) (root : Option Place) : Outcome (List String) := do
  let around ← packages t file.dropLast
  let stem := stemAt file
  -- The packages around a file win over the directory that is scanned.
  if around ≠ [] then
    return if stem = packageStem then around else around ++ [stem]
  match root with
  | none => return [stem]
  | some root => partsFrom root.dropLast (file.dropLast ++ [stem])

/-- The name of the module in a place. -/
def moduleName (t : Tree) (file : Place) (root : Option Place) : Outcome String :=
  (parts t file root).map fun ps => ".".intercalate ps

/-- The number of dots in a name. -/
def dots (name : String) : Nat := (name.toList.filter (· == '.')).length

/-- The file or directory that the first component of a module name stands for;
a name with more components than there are directories above the file has none. -/
def topLevelPlace (file : Place) (name : String) : Outcome Place :=
  let depth := dots name + if file.getLast? = some packageFile then 1 else 0
  if file.length < depth then .error .missingKey
  else .ok (file.take (file.length - depth))

/-- A name cut at its first dot. -/
def cutFirst (name : String) : String × Option String :=
  let cs := name.toList
  match cs.dropWhile (· != '.') with
  | [] => (name, none)
  | _ :: rest => (String.ofList (cs.takeWhile (· != '.')), some (String.ofList rest))

/-- A name cut at its last dot; the first component is empty without a dot. -/
def cutLast (name : String) : String × String :=
  let cs := name.toList.reverse
  match cs.dropWhile (· != '.') with
  | [] => ("", name)
  | _ :: before =>
    (String.ofList before.reverse, String.ofList (cs.takeWhile (· != '.')).reverse)

/-- What stands before the dots of a text. -/
def beforeDots : List Char → List (List Char)
  | [] => []
  | c :: cs =>
    let rest := (beforeDots cs).map (c :: ·)
    if c = '.' then [] :: rest else rest

/-- The names on the way to a module: those of the packages around it, outermost
first, and its own. -/
def wayTo (name : String) : List String :=
  ((beforeDots name.toList).filter (· ≠ [])).map String.ofList ++ [name]

/-- The private name of a module whose top-level name is taken. -/
def privateTop (top : String) (place : Place) : String :=
  "_" ++ top ++ "_" ++ Fingerprint.ofText (placeText place)

/-- A top-level name with the rest of a module name behind it. -/
def rejoin (top : String) (rest : Option String) : String :=
  match rest with
  | some r => if r = "" then top else top ++ "." ++ r
  | none => top

end Routebook.Naming
