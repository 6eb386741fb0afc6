/-
  Routebook.Yaml.Cursor

  A place in the text of a settings document, with the line and the column
  that the layout of such a document depends on.  A byte order mark takes no
  column.
-/
import Routebook.Failure

namespace Routebook.Yaml

/-! ## Kinds of characters -/

/-- What ends a line. -/
def isBreak (c : Char) : Bool := c == '\n' || c == '\x85' || c == '\u2028' || c == '\u2029'

/-- A space or a tab. -/
def isSpace (c : Char) : Bool := c == ' ' || c == '\t'

/-- Letters, digits, `-` and `_`: what names are made of. -/
def isNameChar (c : Char) : Bool := c.isAlphanum || c == '-' || c == '_'

/-- The characters a document may hold at all. -/
def isAllowed (c : Char) : Bool :=
  let n := c.toNat
  c == '\t' || c == '\n' || c == '\r' || c == '\x85' || (0x20 ≤ n && n ≤ 0x7E) ||
    (0xA0 ≤ n && n ≤ 0xFFFD) || 0x10000 ≤ n

/-- The end of the text or of a line. -/
def endsLine : Option Char → Bool
  | none => true
  | some c => isBreak c

/-- The end of the text or of a line, or a space. -/
def endsField : Option Char → Bool
  | none => true
  | some c => c == ' ' || isBreak c

/-- The end of the text or of a line, a space or a tab. -/
def endsWord : Option Char → Bool
  | none => true
  | some c => isSpace c || isBreak c

/-! ## Cursors -/

/-- A place in a text. -/
structure Cursor where
  /-- What follows. -/
  rest : List Char
  /-- How many characters came before. -/
  index : Nat
  /-- How many lines came before. -/
  line : Nat
  /-- How far into its line the place is. -/
  column : Nat

namespace Cursor

/-- The beginning of a text. -/
def start (text : List Char) : Cursor := ⟨text, 0, 0, 0⟩

/-- One character further; the end stays the end. -/
def step (c : Cursor) : Cursor :=
  match c.rest with
  | [] => c
  | x :: rest =>
    if isBreak x then ⟨rest, c.index + 1, c.line + 1, 0⟩
    else if x = '\ufeff' then ⟨rest, c.index + 1, c.line, c.column⟩
    else ⟨rest, c.index + 1, c.line, c.column + 1⟩

/-- A number of characters further. -/
def steps : Nat → Cursor → Cursor
  | 0, c => c
  | n + 1, c => steps n c.step

/-- The character that is a number of characters ahead. -/
def ahead (c : Cursor) (n : Nat) : Option Char := c.rest[n]?

/-- The next character. -/
def next (c : Cursor) : Option Char := c.rest.head?

/-- The longest run of characters of a kind, and the place after it. -/
def span (p : Char → Bool) (c : Cursor) : List Char × Cursor :=
  let run := c.rest.takeWhile p
  (run, c.steps run.length)

/-- The place after the longest run of characters of a kind. -/
def skip (p : Char → Bool) (c : Cursor) : Cursor := (c.span p).2

/-- The place after the spaces that stand before a column. -/
def skipTo (column : Nat) (c : Cursor) : Cursor :=
  c.steps (min (c.rest.takeWhile (· == ' ')).length (column - c.column))

/-- A line break as it is kept in a text, and the place after it. -/
def lineBreak? (c : Cursor) : Option (Char × Cursor) :=
  match c.rest with
  | [] => none
  | x :: _ =>
    if isBreak x then some (if x = '\x85' then '\n' else x, c.step) else none

/-- Whether three given characters stand here as a word. -/
def atWord (mark : Char) (c : Cursor) : Bool :=
  c.rest.take 3 == [mark, mark, mark] && endsWord (c.ahead 3)

/-- Whether a mark between documents stands here. -/
def atBoundary (c : Cursor) : Bool := c.atWord '-' || c.atWord '.'

/-- The place after a comment and the end of its line; anything else is refused. -/
def endOfLine (c : Cursor) : Outcome Cursor :=
  let c := c.skip (· == ' ')
  let c := if c.next == some '#' then c.skip (!isBreak ·) else c
  if endsLine c.next then .ok c.step else .error .malformedSettings

end Cursor

/-- One line break between two lines of text becomes a space; of several, all
but the first stay. -/
def foldBreaks (first : Char) (more : List Char) : List Char :=
  if first ≠ '\n' then first :: more else if more.isEmpty then [' '] else more

end Routebook.Yaml
