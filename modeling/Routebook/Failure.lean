/-
  Routebook.Failure

  Why an operation of the library fails.  Faults of given data are kept as
  data; what comes out of the modules that describe controllers keeps its
  sort; words are made only where a reader sees them.
-/
import Routebook.Checked

namespace Routebook

/-- Why something is not a usable tag. -/
inductive TagFailure where
  /-- The kind is not in the catalog. -/
  | unknownKind (name : String)
  /-- The fields of a kind do not fit. -/
  | fields (kind : Kind) (faults : List Fault)
  /-- The data names another kind than the one asked for. -/
  | otherKind (declared : String) (expected : Kind)
  /-- Something that is no tag stands among tags. -/
  | notATag (shown : String)
  /-- A property without a getter has no place for tags. -/
  | noHolder

/-- The words of a tag failure, without the report of its faults. -/
def TagFailure.message : TagFailure → String
  | .unknownKind name => "unknown tag kind '" ++ name ++ "'"
  | .fields kind _ => "invalid " ++ kind.name ++ " tag"
  | .otherKind declared expected =>
    "tag data declares kind '" ++ declared ++ "', expected '" ++ expected.name ++ "'"
  | .notATag shown => "annotate() expects tag instances, got " ++ shown
  | .noHolder => "cannot annotate <property object>"

/-- Why an operation fails. -/
inductive Failure where
  | tag (why : TagFailure)
  /-- Data does not fit a model or the settings. -/
  | data (model : String) (faults : List Fault)
  /-- Something that is no class was to be reflected. -/
  | notAClass (shown : String)
  /-- A value is refused with words of its own. -/
  | badValue (message : String)
  /-- A module stopped with a failure of its own. -/
  | raised (message : String)
  | wrongType
  | missingKey
  | missingName
  | zeroDivision
  /-- A name could not be imported from a module. -/
  | notImportable
  /-- A module could not be found; the name is the one that is missing. -/
  | noModule (name : String)
  | noSuchFile
  | isDirectory
  /-- A search that does not come to an end. -/
  | endless
  /-- The file system refuses a path. -/
  | badPath
  /-- Bytes that are no text. -/
  | undecodable (why : String)
  | malformedSource
  | malformedSettings

/-- The outcome of an operation. -/
abbrev Outcome (α : Type u) := Except Failure α

/-- An outcome of reading data for a model. -/
def Checked.toOutcome (model : String) : Checked α → Outcome α
  | .ok a => .ok a
  | .faulty faults => .error (.data model faults)
  | .wrongType => .error .wrongType

end Routebook
