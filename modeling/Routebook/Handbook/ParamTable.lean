/-
  Routebook.Handbook.ParamTable

  The table of parameters: two header lines, a line for every parameter, and
  an empty line behind.
-/
import Routebook.Tag.Basic

namespace Routebook.Handbook

/-- An empty line behind a block. -/
def blockEnd : String := "\n\n"

/-- What marks a parameter that must be given. -/
def requiredMark : String := "<font color='red'>*</font>"

/-- The two lines above the rows. -/
def tableHeader : List String :=
  ["| Field | Source | Type | Required | Description |",
   "| ---- | ---- | ---- | ---- | ---- |"]

/-- A text, or another one in place of the empty text. -/
def orElse (s other : String) : String := if s = "" then other else s

/-- Whether a parameter must be given. -/
def isRequired (p : Param) : Bool :=
  match Entries.get? "required" p.rules with
  | some (.string "true") => true
  | _ => false

/-- The cells of a row. -/
def cells (p : Param) : List String :=
  [p.name,
   if p.sources.isEmpty then "unrestricted" else ",".intercalate (p.sources.map Source.name),
   orElse p.type "default",
   if isRequired p then requiredMark else "-",
   orElse p.description "-"]

/-- A row. -/
def row (p : Param) : String := "| " ++ " | ".intercalate (cells p) ++ " |"

/-- The table of some parameters; nothing if there are none. -/
def paramTable (params : List Param) : String :=
  if params.isEmpty then "" else "\n".intercalate (tableHeader ++ params.map row) ++ blockEnd

end Routebook.Handbook
