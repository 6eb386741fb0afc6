/-
  Routebook.Text.Literal

  How values are written inside running text and messages.  A string stands
  bare at the top and quoted inside; quotes are single ones unless the string
  holds a single quote and no double one.
-/
import Routebook.Value
import Routebook.Text.Printable

namespace Routebook.Text

/-- Two, four or eight lower-case hexadecimal digits. -/
def hexDigits (width : Nat) (n : Nat) : List Char :=
  let ds := Nat.toDigits 16 n
  List.replicate (width - ds.length) '0' ++ ds

/-- One character of a quoted string. -/
def quotedChar (quote : Char) (c : Char) : List Char :=
  if c = quote || c = '\x5c' then ['\x5c', c]
  else if c = '\t' then ['\x5c', 't']
  else if c = '\n' then ['\x5c', 'n']
  else if c = '\r' then ['\x5c', 'r']
  else if isPrintable c then [c]
  else if c.toNat < 0x100 then '\x5c' :: 'x' :: hexDigits 2 c.toNat
  else if c.toNat < 0x10000 then '\x5c' :: 'u' :: hexDigits 4 c.toNat
  else '\x5c' :: 'U' :: hexDigits 8 c.toNat

/-- The quote mark of a string: double only where that avoids escapes. -/
def quoteMark (s : String) : Char :=
  if s.toList.contains '\x27' && !s.toList.contains '\x22' then '\x22' else '\x27'

/-- A string in quotes. -/
def quoted (s : String) : String :=
  let q := quoteMark s
  String.ofList ([q] ++ s.toList.flatMap (quotedChar q) ++ [q])

/-- One byte of quoted bytes. -/
def quotedByte (quote : Char) (b : UInt8) : List Char :=
  if b.toNat < 0x80 then quotedChar quote (Char.ofNat b.toNat)
  else '\x5c' :: 'x' :: hexDigits 2 b.toNat

/-- Bytes in quotes, behind a mark that tells them from text. -/
def quotedBytes (bytes : List UInt8) : String :=
  let q := quoteMark (String.ofList (bytes.map fun b => Char.ofNat b.toNat))
  String.ofList (['b', q] ++ bytes.flatMap (quotedByte q) ++ [q])

end Routebook.Text

namespace Routebook.Value

mutual
/-- A value as it stands inside another one. -/
def literal : Value → String
  | .null => "None"
  | .bool b => if b then "True" else "False"
  | .int n => toString n
  | .float x => x.display
  | .string s => Text.quoted s
  | .array items => "[" ++ literalItems items ++ "]"
  | .object fields => "\x7b" ++ literalFields fields ++ "\x7d"

/-- Items separated by commas. -/
def literalItems : List Value → String
  | [] => ""
  | [x] => literal x
  | x :: xs => literal x ++ ", " ++ literalItems xs

/-- Fields separated by commas. -/
def literalFields : List (String × Value) → String
  | [] => ""
  | [(k, x)] => Text.quoted k ++ ": " ++ literal x
  | (k, x) :: xs => Text.quoted k ++ ": " ++ literal x ++ ", " ++ literalFields xs
end

/-- A value as running text: a string is taken as it is. -/
def text : Value → String
  | .string s => s
  | v => literal v

end Routebook.Value
