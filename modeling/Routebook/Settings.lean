/-
  Routebook.Settings

  The settings of the collector, the merge and the handbook, and reading
  them from a mapping.
-/
import Routebook.Failure
import Routebook.Files.Path
import Routebook.Tag.Field
import Routebook.Text.Utf8

namespace Routebook

/-- The settings. -/
structure Settings where
  /-- Whether collected classes are kept. -/
  cache : Bool
  /-- The group of what declares none. -/
  defaultGroup : String
  /-- The namespace dropped from the targets of routes. -/
  namespaceLead : String
  /-- What marks a group or an action as generated; it is left out. -/
  marker : String
  /-- The directory of stored classes; memory if there is none. -/
  cacheDirectory : Option Path
  deriving DecidableEq

namespace Settings

/-- The name under which faults of settings are reported. -/
def modelName : String := "ParserConfig"

/-- The settings when nothing is given. -/
def default : Settings := ⟨true, "default", "app.controllers", "自动生成", none⟩

/-- What a setting is given. -/
inductive Datum where
  | value (v : Value)
  /-- Bytes, which count as the text they spell. -/
  | bytes (data : List UInt8)
  /-- A path that is given as one, not as text. -/
  | located (p : Path)
  /-- Something made of parts, or a moment: no setting takes it. -/
  | other

namespace Datum

/-- The text that bytes spell, if they spell one. -/
def spelled? (data : List UInt8) : Option String :=
  (Text.decodeStrict data.length 0 [] data).toOption.map String.ofList

/-- A truth value. -/
def bool : Datum → Checked Bool
  | .value v => Field.bool v
  | .bytes data =>
    match spelled? data with
    | some s => Field.bool (.string s)
    | none => .fault .unreadableBool
  | _ => .fault .notABool

/-- A string. -/
def string : Datum → Checked String
  | .value v => Field.string v
  | .bytes data =>
    match spelled? data with
    | some s => .ok s
    | none => .fault .undecodableString
  | _ => .fault .notAString

/-- A path, or null; bytes are no path. -/
def path : Datum → Checked (Option Path)
  | .value .null => .ok none
  | .value (.string s) => .ok (some (Path.ofText s))
  | .located p => .ok (some p)
  | _ => .fault .notAPath

end Datum

/-- The keys of the settings. -/
def keys : List String :=
  ["cache", "default_group_name", "controller_namespace_prefix", "auto_generated_marker",
   "cache_dir"]

/-- Settings from a mapping. -/
def decode (data : Entries Datum) : Checked Settings :=
  (Settings.mk <$> Field.withDefault data "cache" default.cache Datum.bool
    <*> Field.withDefault data "default_group_name" default.defaultGroup Datum.string
    <*> Field.withDefault data "controller_namespace_prefix" default.namespaceLead Datum.string
    <*> Field.withDefault data "auto_generated_marker" default.marker Datum.string
    <*> Field.withDefault data "cache_dir" default.cacheDirectory Datum.path)
  <* Field.noOthers data keys

/-- Values as what settings are given. -/
def given (data : Entries Value) : Entries Datum := Entries.mapValues .value data

/-- Settings from a mapping, or why there are none. -/
def ofData (data : Entries Value) : Outcome Settings := (decode (given data)).toOutcome modelName

end Settings

end Routebook
