/-
  Routebook.Json.Printer

  Values as JSON text.  A style fixes the indent, the separators and how
  numbers are written; strings escape quotes, backslashes and control
  characters and keep everything else.
-/
import Routebook.Value

namespace Routebook.Json

/-- How a value is laid out. -/
structure Style where
  /-- Spaces per level; `none` writes everything on one line. -/
  indent : Option Nat
  /-- What stands between a key and its value. -/
  keySeparator : String
  /-- The text of a double. -/
  float : Double → String

/-- A double with the names `NaN` and `Infinity` for what is not finite. -/
def namedFloat : Double → String
  | .nan => "NaN"
  | .infinite negative => if negative then "-Infinity" else "Infinity"
  | x => (x.write? .display).getD ""

/-- A double with `null` for what is not finite. -/
def nullableFloat (x : Double) : String := (x.write? .stored).getD "null"

/-- Documents: four spaces per level. -/
def Style.document : Style := ⟨some 4, ": ", namedFloat⟩

/-- Reports: two spaces per level. -/
def Style.report : Style := ⟨some 2, ": ", namedFloat⟩

/-- Stored models, on one line or indented. -/
def Style.stored (indent : Option Nat) : Style :=
  ⟨indent, if indent.isSome then ": " else ":", nullableFloat⟩

/-- One character inside a string. -/
def escapedChar (c : Char) : List Char :=
  if c = '\x22' then ['\x5c', '\x22']
  else if c = '\x5c' then ['\x5c', '\x5c']
  else if c = '\n' then ['\x5c', 'n']
  else if c = '\r' then ['\x5c', 'r']
  else if c = '\t' then ['\x5c', 't']
  else if c = '\x08' then ['\x5c', 'b']
  else if c = '\x0c' then ['\x5c', 'f']
  else if c.toNat < 0x20 then
    let ds := Nat.toDigits 16 c.toNat
    ['\x5c', 'u'] ++ List.replicate (4 - ds.length) '0' ++ ds
  else [c]

/-- A string in double quotes. -/
def quoted (s : String) : String :=
  String.ofList (['\x22'] ++ s.toList.flatMap escapedChar ++ ['\x22'])

/-- The start of a new line at a level. -/
def Style.lineBreak (style : Style) (level : Nat) : String :=
  match style.indent with
  | none => ""
  | some width => "\n" ++ String.ofList (List.replicate (width * level) ' ')

mutual
/-- The text of a value that stands at a level. -/
def write (style : Style) (level : Nat) : Value → String
  | .null => "null"
  | .bool b => if b then "true" else "false"
  | .int n => toString n
  | .float x => style.float x
  | .string s => quoted s
  | .array [] => "[]"
  | .array (x :: xs) =>
    "[" ++ style.lineBreak (level + 1) ++ write style (level + 1) x ++
      writeItems style (level + 1) xs ++ style.lineBreak level ++ "]"
  | .object [] => "\x7b\x7d"
  | .object ((k, x) :: xs) =>
    "\x7b" ++ style.lineBreak (level + 1) ++ quoted k ++ style.keySeparator ++
      write style (level + 1) x ++ writeFields style (level + 1) xs ++
      style.lineBreak level ++ "\x7d"

/-- The items after the first one. -/
def writeItems (style : Style) (level : Nat) : List Value → String
  | [] => ""
  | x :: xs => "," ++ style.lineBreak level ++ write style level x ++ writeItems style level xs

/-- The fields after the first one. -/
def writeFields (style : Style) (level : Nat) : List (String × Value) → String
  | [] => ""
  | (k, x) :: xs =>
    "," ++ style.lineBreak level ++ quoted k ++ style.keySeparator ++ write style level x ++
      writeFields style level xs
end

/-- The text of a value. -/
def print (style : Style) (v : Value) : String := write style 0 v

end Routebook.Json
