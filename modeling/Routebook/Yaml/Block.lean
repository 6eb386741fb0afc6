/-
  Routebook.Yaml.Block

  Block scalars: text that stands indented below its head.  The head tells
  whether lines are folded, how far the text is indented, and what becomes of
  the line breaks at its end.
-/
import Routebook.Yaml.Cursor

namespace Routebook.Yaml.Block

/-- What becomes of the line breaks at the end. -/
inductive Ending where
  /-- None is kept. -/
  | strip
  /-- The first is kept. -/
  | clip
  /-- All are kept. -/
  | keep
  deriving DecidableEq

/-- How the line breaks at the end are asked to be treated. -/
def ending? : Option Char → Option Ending
  | some '+' => some .keep
  | some '-' => some .strip
  | _ => none

/-- An indentation that is asked for; zero is none. -/
def indentation (c : Cursor) : Outcome (Option Nat × Cursor) :=
  match c.next with
  | some x =>
    if !x.isDigit then .ok (none, c)
    else if x = '0' then .error .malformedSettings
    else .ok (some (x.toNat - 48), c.step)
  | none => .ok (none, c)

/-- The head of a block scalar after its first character: the two requests in
either order, then nothing more on the line. -/
def head (c : Cursor) : Outcome (Ending × Option Nat × Cursor) := do
  let (ending, depth, c) ← (do
    match ending? c.next with
    | some ending =>
      let (depth, c) ← indentation c.step
      return (ending, depth, c)
    | none =>
      let (depth, c) ← indentation c
      match depth, ending? c.next with
      | some _, some ending => return (ending, depth, c.step)
      | _, _ => return (Ending.clip, depth, c) : Outcome (Ending × Option Nat × Cursor))
  if !endsField c.next then throw .malformedSettings
  return (ending, depth, ← c.endOfLine)

/-- The line breaks before the first line of text, and the deepest column that
spaces reach among them. -/
def leadingBreaks : Nat → Nat → Cursor → List Char × Nat × Cursor
  | 0, deepest, c => ([], deepest, c)
  | fuel + 1, deepest, c =>
    let c := c.skip (· == ' ')
    let deepest := max deepest c.column
    match c.lineBreak? with
    | none => ([], deepest, c)
    | some (b, c) =>
      let (bs, deepest, c) := leadingBreaks fuel deepest c
      (b :: bs, deepest, c)

/-- The line breaks before the next line of text, which stands at a column. -/
def breaks (column : Nat) : Nat → Cursor → List Char × Cursor
  | 0, c => ([], c)
  | fuel + 1, c =>
    let c := c.skipTo column
    match c.lineBreak? with
    | none => ([], c)
    | some (b, c) =>
      let (bs, c) := breaks column fuel c
      (b :: bs, c)

/-- Whether a line of text stands here. -/
def atLine (column : Nat) (c : Cursor) : Bool := c.column == column && c.next.isSome

/-- Whether a line begins with blank space, so that it is not folded. -/
def isSpaced (c : Cursor) : Bool := c.next.any isSpace

/-- The lines of text from a cursor on: all of them, then the break that ends
the last one and the breaks after it. -/
def lines (folded : Bool) (column : Nat) :
    Nat → Cursor → List Char × Option Char × List Char × Cursor
  | 0, c => ([], none, [], c)
  | fuel + 1, c =>
    let spaced := isSpaced c
    let (text, c) := c.span (!isBreak ·)
    match c.lineBreak? with
    | none => (text, none, [], c)
    | some (b, c) =>
      let (bs, c) := breaks column (c.rest.length + 1) c
      if atLine column c then
        let (more, last, after, rest) := lines folded column fuel c
        let between :=
          if folded && b == '\n' && !spaced && !isSpaced c then
            (if bs.isEmpty then [' '] else bs)
          else b :: bs
        (text ++ between ++ more, last, after, rest)
      else (text, some b, bs, c)

/-- A block scalar, from its first character on, inside an indentation. -/
def read (folded : Bool) (indent : Int) (c : Cursor) : Outcome (String × Cursor) := do
  let (ending, depth, c) ← head c.step
  let least := max 1 (indent + 1).toNat
  let fuel := c.rest.length + 1
  let (column, first, c) :=
    match depth with
    | none =>
      let (bs, deepest, c) := leadingBreaks fuel 0 c
      (max least deepest, bs, c)
    | some n =>
      let (bs, c) := breaks (least + n - 1) fuel c
      (least + n - 1, bs, c)
  let (text, last, after, c) :=
    if atLine column c then
      let (more, last, after, rest) := lines folded column fuel c
      (first ++ more, last, after, rest)
    else ([], none, first, c)
  let kept :=
    match ending with
    | .strip => []
    | .clip => last.toList
    | .keep => last.toList ++ after
  return (String.ofList (text ++ kept), c)

end Routebook.Yaml.Block
