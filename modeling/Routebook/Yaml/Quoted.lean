/-
  Routebook.Yaml.Quoted

  Text between quotes.  In single quotes only the quote itself is written
  twice; in double quotes a backslash begins an escape.  Line breaks are
  folded, and blank space around them is dropped.
-/
import Routebook.Json.Token
import Routebook.Yaml.Cursor

namespace Routebook.Yaml.Quoted

/-- What an escape of one character stands for. -/
def escaped? : Char → Option Char
  | '0' => some '\x00'
  | 'a' => some '\x07'
  | 'b' => some '\x08'
  | 't' => some '\t'
  | '\t' => some '\t'
  | 'n' => some '\n'
  | 'v' => some '\x0b'
  | 'f' => some '\x0c'
  | 'r' => some '\r'
  | 'e' => some '\x1b'
  | ' ' => some ' '
  | '\x22' => some '\x22'
  | '\x5c' => some '\x5c'
  | '/' => some '/'
  | 'N' => some '\x85'
  | '_' => some '\xa0'
  | 'L' => some '\u2028'
  | 'P' => some '\u2029'
  | _ => none

/-- How many hexadecimal digits follow the mark of a numeric escape. -/
def digitCount? : Char → Option Nat
  | 'x' => some 2
  | 'u' => some 4
  | 'U' => some 8
  | _ => none

/-- The value of hexadecimal digits, if they are nothing else. -/
def hexRun? (digits : List Char) : Option Nat :=
  digits.foldl
    (fun value? c => value?.bind fun n => (Json.Token.hexValue? c).map (n * 16 + ·)) (some 0)

/-- The character with a number; there are `0x110000` numbers. -/
def charOf (n : Nat) : Outcome Char :=
  if 0x110000 ≤ n then .error (.badValue "chr() arg not in range(0x110000)")
  else .ok (if n.isValidChar then Char.ofNat n else '\ufffd')

/-- The line breaks that follow a first one, without the blank space of their
lines.  No boundary between documents may stand inside quotes. -/
def moreBreaks : Nat → Cursor → Outcome (List Char × Cursor)
  | 0, _ => .error .malformedSettings
  | fuel + 1, c =>
    if c.atBoundary then .error .malformedSettings
    else
      let c := c.skip isSpace
      match c.lineBreak? with
      | none => .ok ([], c)
      | some (b, c) => do
        let (bs, c) ← moreBreaks fuel c
        return (b :: bs, c)

/-- Blank space inside quotes, with the line breaks in it folded. -/
def blanks (c : Cursor) : Outcome (List Char × Cursor) :=
  let (run, c) := c.span isSpace
  match c.lineBreak? with
  | none => .ok (run, c)
  | some (b, c) => do
    let (bs, c) ← moreBreaks (c.rest.length + 1) c
    return (foldBreaks b bs, c)

/-- An escape, from the character after the backslash on. -/
def escape (c : Cursor) : Outcome (List Char × Cursor) :=
  match c.next with
  | none => .error .malformedSettings
  | some x =>
    match escaped? x, digitCount? x, c.lineBreak? with
    | some y, _, _ => .ok ([y], c.step)
    | none, some n, _ => do
      let digits := c.step.rest.take n
      if digits.length < n then throw .malformedSettings
      let some code := hexRun? digits | throw .malformedSettings
      return ([← charOf code], c.steps (n + 1))
    | none, none, some (_, c) => moreBreaks (c.rest.length + 1) c
    | none, none, none => .error .malformedSettings

/-- The rest of a quoted text, after what is read already (last character first). -/
def body (quote : Char) : Nat → List Char → Cursor → Outcome (List Char × Cursor)
  | 0, _, _ => .error .malformedSettings
  | fuel + 1, done, c =>
    match c.next with
    | none => .error .malformedSettings
    | some x =>
      if x = quote then
        if quote = '\x27' && c.ahead 1 == some quote then
          body quote fuel (quote :: done) (c.steps 2)
        else .ok (done.reverse, c.step)
      else if quote = '\x22' && x = '\x5c' then do
        let (more, c) ← escape c.step
        body quote fuel (more.reverse ++ done) c
      else if isSpace x || isBreak x then do
        let (more, c) ← blanks c
        body quote fuel (more.reverse ++ done) c
      else body quote fuel (x :: done) c.step

/-- A quoted text, from its opening quote on. -/
def read (quote : Char) (c : Cursor) : Outcome (String × Cursor) := do
  let (text, c) ← body quote (c.rest.length + 1) [] c.step
  return (String.ofList text, c)

end Routebook.Yaml.Quoted
