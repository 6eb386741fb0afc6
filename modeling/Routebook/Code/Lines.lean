/-
  Routebook.Code.Lines

  From source text to tokens.  Lines are told apart by their indentation,
  measured twice so that tabs and spaces are not mixed up; inside brackets
  line ends and indentation mean nothing.
-/
import Routebook.Code.Numeral
import Routebook.Code.Quoted
import Routebook.Code.Token
import Routebook.Text.Identifier

namespace Routebook.Code

/-- The indentation of a line: its column where tabs reach to the next multiple
of eight, and where they count as one. -/
structure Margin where
  column : Nat
  narrow : Nat
  deriving DecidableEq

namespace Margin

/-- The deepest indentation, counted in steps. -/
def limit : Nat := 100

/-- The margin at the beginning of a line, and what follows it.  A line that is
continued after a backslash keeps the column of its first part. -/
def read : Nat → Margin → List Char → Option (Margin × List Char)
  | kept, m, ' ' :: rest => read kept ⟨m.column + 1, m.narrow + 1⟩ rest
  | kept, m, '\t' :: rest => read kept ⟨(m.column / 8 + 1) * 8, m.narrow + 1⟩ rest
  | kept, _, '\x0c' :: rest => read kept ⟨0, 0⟩ rest
  | kept, m, '\x5c' :: '\n' :: rest =>
    if rest.isEmpty then none else read (if kept = 0 then m.column else kept) m rest
  | _, _, '\x5c' :: _ => none
  | kept, m, rest => some (if kept = 0 then m else ⟨kept, kept⟩, rest)

/-- The tokens between a line at one margin and the next at another, and the
margins that are open then. -/
def change (m : Margin) : List Margin → Option (List Token × List Margin)
  | [] => none
  | top :: outer =>
    if m.column = top.column then
      if m.narrow = top.narrow then some ([], top :: outer) else none
    else if top.column < m.column then
      if top.narrow < m.narrow ∧ outer.length + 1 < limit then
        some ([.deeper], m :: top :: outer)
      else none
    else (change m outer).bind fun r =>
      match r.1 with
      | .deeper :: _ => none
      | _ => some (.shallower :: r.1, r.2)

end Margin

namespace Lines

/-- The operators and marks of three characters, of two and of one. -/
def signs : List String :=
  ["**=", "//=", ">>=", "<<=", "...",
   "**", "//", ">>", "<<", "<=", ">=", "==", "!=", "->", "+=", "-=", "*=", "/=", "%=", "&=",
   "|=", "^=", "@=", ":=",
   "+", "-", "*", "/", "%", "@", "&", "|", "^", "~", "<", ">", "(", ")", "[", "]", "\x7b",
   "\x7d", ",", ":", ".", ";", "="]

/-- The longest operator or mark that begins here. -/
def signAt? (cs : List Char) : Option String := signs.find? fun s => s.toList.isPrefixOf cs

/-- A blank between tokens. -/
def isBlank (c : Char) : Bool := c == ' ' || c == '\t' || c == '\x0c'

/-- The deepest nesting of brackets. -/
def nestingLimit : Nat := 200

/-- A name, number or quoted text that begins here, and what follows it. -/
def wordAt (cs : List Char) : Option (Token × List Char) :=
  let (run, rest) := cs.span Numeral.isNamePart
  match cs with
  | [] => none
  | c :: more =>
    if c.isDigit || (c == '.' && more.head?.any Char.isDigit) then
      (Numeral.read cs).map fun rest => (.number (Numeral.isImaginary cs rest), rest)
    else if rest.head?.any (fun q => q == '\x27' || q == '\x22') &&
        (Quoted.style? run).isSome then do
      let style ← Quoted.style? run
      let (fields, rest) ← Quoted.read style rest
      return (.quoted style.bytes fields, rest)
    else if Text.isIdentifier run then some (.name (String.ofList run), rest)
    else none

/-- The tokens from a place inside a line on, at a depth of brackets, with the
margins that are open; `fresh` tells that a line begins. -/
def scan : Nat → Bool → Nat → List Margin → List Char → Option (List Token)
  | 0, _, _, _, _ => none
  | fuel + 1, true, _, margins, cs => do
    let (m, rest) ← Margin.read 0 ⟨0, 0⟩ cs
    match rest with
    | [] => return List.replicate (margins.length - 1) .shallower
    | '\n' :: rest => scan fuel true 0 margins rest
    | '#' :: rest => scan fuel true 0 margins ((rest.dropWhile (· != '\n')).drop 1)
    | _ => do
      let (change, margins) ← m.change margins
      return change ++ (← scan fuel false 0 margins rest)
  | fuel + 1, false, depth, margins, cs =>
    match cs with
    | [] => if depth = 0 then (scan fuel true 0 margins []).map (.lineEnd :: ·) else none
    | '\n' :: rest =>
      if depth = 0 then (scan fuel true 0 margins rest).map (.lineEnd :: ·)
      else scan fuel false depth margins rest
    | '\x5c' :: '\n' :: rest => if rest.isEmpty then none else scan fuel false depth margins rest
    | '#' :: rest => scan fuel false depth margins (rest.dropWhile (· != '\n'))
    | c :: rest =>
      if isBlank c then scan fuel false depth margins rest
      else
        match wordAt cs with
        | some (t, rest) => (scan fuel false depth margins rest).map (t :: ·)
        | none => do
          let text ← signAt? cs
          if Numeral.isNamePart c || c.isDigit || (c == '.' && rest.head?.any Char.isDigit) then
            none
          let after := cs.drop text.length
          let tail ←
            if text == "(" || text == "[" || text == "\x7b" then
              if depth < nestingLimit then scan fuel false (depth + 1) margins after else none
            else if text == ")" || text == "]" || text == "\x7d" then
              if depth = 0 then none else scan fuel false (depth - 1) margins after
            else scan fuel false depth margins after
          return .sign text :: tail

end Lines

/-- The tokens of a source text. -/
def tokens (text : List Char) : Option (List Token) :=
  if text.contains '\x00' then none
  else Lines.scan (2 * text.length + 4) true 0 [⟨0, 0⟩] text

/-- The tokens of an expression that stands in brackets. -/
def tokensInside (text : List Char) : Option (List Token) :=
  (Lines.scan (2 * text.length + 8) false 0 [⟨0, 0⟩] ('(' :: text ++ [')'])).map fun ts =>
    ts.filter (· != .lineEnd)

end Routebook.Code
