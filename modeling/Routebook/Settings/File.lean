/-
  Routebook.Settings.File

  Settings from a settings document.  The document is a mapping, or says
  nothing; overrides that are given win over it.
-/
import Routebook.Files.Tree
import Routebook.Settings
import Routebook.Yaml.Document

namespace Routebook.Settings

open Yaml (Document Scalar)

/-- A value of a settings document. -/
def datumOf : Document → Datum
  | .scalar (.plain v) => .value v
  | .scalar (.binary bytes) => .bytes bytes
  | _ => .other

/-- The text of a scalar that stands as a key. -/
def keyText : Scalar → String
  | .plain v => v.literal
  | .moment m => m.text
  | .binary bytes => Text.quotedBytes bytes

/-- The place of a key that is not text. -/
def keyStep : Scalar → Step
  | .plain (.bool b) => .index (if b then 1 else 0)
  | .plain (.int n) => if Field.fitsWord n then .index n else .key (toString n)
  | s => .key (keyText s)

/-- The fault of a key that is not text. -/
def keyFault? : Scalar → Option Fault
  | .plain (.string _) => none
  | s => some (.mk [keyStep s] .keyNotAString)

/-- The fields of a mapping with keys that are text. -/
def fieldsOf (pairs : List (Scalar × Document)) : Entries Datum :=
  pairs.filterMap fun p =>
    match p.1 with
    | .plain (.string key) => some (key, datumOf p.2)
    | _ => none

/-- Whether an override counts: a null does not. -/
def counts : Datum → Bool
  | .value .null => false
  | _ => true

/-- Fields with overrides in their places. -/
def overridden (overrides fields : Entries Datum) : Entries Datum :=
  Entries.putAll fields (overrides.filter fun o => counts o.2)

/-- Settings from what a document says, with overrides.  What says nothing
counts as an empty mapping; `name` is the document's name in a refusal. -/
def ofDocument (name : String) (d : Document) (overrides : Entries Datum) : Outcome Settings :=
  if !d.holds then (decode (overridden overrides [])).toOutcome modelName
  else
    match d with
    | .mapping pairs =>
      -- Keys that are no text are refused before any setting is read.
      match pairs.filterMap fun p => keyFault? p.1 with
      | [] => (decode (overridden overrides (fieldsOf pairs))).toOutcome modelName
      | faults => .error (.data modelName faults)
    | _ => .error (.badValue (name ++ ": expected a mapping of settings"))

/-- Settings from a file, with overrides of any sort. -/
def ofFileWith (tree : Tree) (p : Path) (overrides : Entries Datum) : Outcome Settings := do
  ofDocument p.text (← Document.ofText (← tree.readText p)) overrides

/-- Settings from a file, with values as overrides. -/
def ofFile (tree : Tree) (p : Path) (overrides : Entries Value) : Outcome Settings :=
  ofFileWith tree p (given overrides)

end Routebook.Settings
