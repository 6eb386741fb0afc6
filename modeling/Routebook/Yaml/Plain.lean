/-
  Routebook.Yaml.Plain

  Text without quotes.  It ends before a comment, before a colon that ends a
  word, inside flow collections before their marks, and where a line is not
  indented far enough.
-/
import Routebook.Yaml.Cursor

namespace Routebook.Yaml.Plain

/-- The marks of flow collections. -/
def isFlowMark (c : Char) : Bool :=
  c == ',' || c == '[' || c == ']' || c == '\x7b' || c == '\x7d'

/-- Whether plain text ends before the next character. -/
def stops (inFlow : Bool) : List Char → Bool
  | [] => true
  | c :: rest =>
    isSpace c || isBreak c ||
      (c == ':' && (endsWord rest.head? || (inFlow && rest.head?.any isFlowMark))) ||
      (inFlow && (isFlowMark c || c == '?'))

/-- The longest run of characters of plain text without blanks. -/
def word (inFlow : Bool) : List Char → List Char
  | [] => []
  | c :: rest => if stops inFlow (c :: rest) then [] else c :: word inFlow rest

/-- The line breaks after a first one, and the place after them; no breaks but
the place if it is a boundary between documents. -/
def moreBreaks : Nat → Cursor → Option (List Char) × Cursor
  | 0, c => (none, c)
  | fuel + 1, c =>
    if c.atBoundary then (none, c)
    else
      let c := c.skip (· == ' ')
      match c.lineBreak? with
      | none => (some [], c)
      | some (b, c) =>
        let (bs, c) := moreBreaks fuel c
        (bs.map (b :: ·), c)

/-- What stands between two words of plain text. -/
structure Gap where
  /-- What is kept of it; nothing if no further word can follow. -/
  kept : List Char
  /-- Whether there is a line break in it. -/
  crossesLine : Bool
  /-- The place after it. -/
  after : Cursor

/-- The gap that begins here. -/
def gap (c : Cursor) : Gap :=
  let (run, c) := c.span (· == ' ')
  match c.lineBreak? with
  | none => ⟨run, false, c⟩
  | some (b, c) =>
    match moreBreaks (c.rest.length + 1) c with
    | (none, c) => ⟨[], true, c⟩
    | (some bs, c) => ⟨foldBreaks b bs, true, c⟩

/-- Plain text inside an indentation: the text, whether it is followed by a line
break, and the place after it. -/
def words (inFlow : Bool) (indent : Int) : Nat → Cursor → List Char × Bool × Cursor
  | 0, c => ([], false, c)
  | fuel + 1, c =>
    let w := word inFlow c.rest
    let g := gap (c.steps w.length)
    let followed :=
      !g.kept.isEmpty && g.after.next != some '#' &&
        (inFlow || indent < (g.after.column : Int)) && !stops inFlow g.after.rest
    if followed then
      let (more, crosses, after) := words inFlow indent fuel g.after
      (w ++ g.kept ++ more, crosses, after)
    else (w, g.crossesLine, g.after)

/-- Plain text, from its first character on. -/
def read (inFlow : Bool) (indent : Int) (c : Cursor) : String × Bool × Cursor :=
  let (text, crosses, after) := words inFlow indent (c.rest.length + 1) c
  (String.ofList text, crosses, after)

end Routebook.Yaml.Plain
