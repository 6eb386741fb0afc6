/-
  Routebook.Code.Quoted

  Quoted texts in source text: where they end, whether their escapes are
  well formed, and the expressions that are put into formatted ones.
-/
import Routebook.Json.Token

namespace Routebook.Code.Quoted

/-- What the letters before a quote ask for. -/
structure Style where
  /-- Backslashes are plain characters. -/
  raw : Bool
  bytes : Bool
  /-- Expressions stand in braces. -/
  formatted : Bool

/-- The letters that may stand before a quote, in lower case. -/
def leads : List String := ["", "r", "u", "b", "f", "br", "rb", "fr", "rf"]

/-- What letters before a quote ask for, if they may stand there. -/
def style? (letters : List Char) : Option Style :=
  let lower := letters.map Char.toLower
  if leads.contains (String.ofList lower) then
    some ⟨lower.contains 'r', lower.contains 'b', lower.contains 'f'⟩
  else none

/-- A quoted text to its closing quote, or to three of them, and what follows.
A text between single quotes does not go over the end of its line. -/
def body (quote : Char) (triple : Bool) : List Char → Option (List Char × List Char)
  | [] => none
  | ['\x5c'] => none
  | '\x5c' :: c :: rest =>
    (body quote triple rest).map fun r => ('\x5c' :: c :: r.1, r.2)
  | c :: rest =>
    if c = quote ∧ !triple then some ([], rest)
    else if c = quote ∧ rest.take 2 == [quote, quote] then some ([], rest.drop 2)
    else if c = '\n' ∧ !triple then none
    else (body quote triple rest).map fun r => (c :: r.1, r.2)

/-! ## Escapes -/

/-- Whether a text begins with so many hexadecimal digits. -/
def hasHex (count : Nat) (cs : List Char) : Bool :=
  let ds := cs.take count
  ds.length == count && ds.all fun c => (Json.Token.hexValue? c).isSome

/-- The value of so many hexadecimal digits. -/
def hexValue (count : Nat) (cs : List Char) : Nat :=
  (cs.take count).foldl (fun n c => n * 16 + (Json.Token.hexValue? c).getD 0) 0

/-- Whether a name in braces begins here. -/
def hasBracedName (cs : List Char) : Bool :=
  match cs with
  | '\x7b' :: rest =>
    let name := rest.takeWhile (· != '\x7d')
    !name.isEmpty && name.length < rest.length
  | _ => false

/-- Whether every escape of a text is well formed. -/
def escapesFit (bytes : Bool) : List Char → Bool
  | '\x5c' :: c :: rest =>
    (match c with
     | 'x' => hasHex 2 rest
     | 'u' => bytes || hasHex 4 rest
     | 'U' => bytes || (hasHex 8 rest && hexValue 8 rest < 0x110000)
     | 'N' => bytes || hasBracedName rest
     | _ => true) && escapesFit bytes rest
  | _ :: rest => escapesFit bytes rest
  | [] => true

/-! ## Expressions in braces -/

/-- Inside which quotes of an expression the reading is. -/
inductive Inside where
  | nothing
  | single (quote : Char)
  | triple (quote : Char)

/-- The closing bracket that belongs to an opening one. -/
def closing? : Char → Option Char
  | '(' => some ')'
  | '[' => some ']'
  | '\x7b' => some '\x7d'
  | _ => none

/-- Whether a character closes a bracket. -/
def isClosing (c : Char) : Bool := c == ')' || c == ']' || c == '\x7d'

/-- An expression in braces to the mark that ends it, and what follows from
that mark on.  `open_` holds the brackets to be closed, the innermost first. -/
def expression : Inside → List Char → List Char → Option (List Char × List Char)
  | _, _, [] => none
  | inside, pending, c :: rest =>
    let go (inside : Inside) (pending : List Char) : Option (List Char × List Char) :=
      (expression inside pending rest).map fun r => (c :: r.1, r.2)
    if c = '\x5c' then none
    else
      match inside with
      | .single quote => if c = quote then go .nothing pending else go inside pending
      | .triple quote =>
        if c = quote ∧ rest.take 2 == [quote, quote] then
          match rest with
          | a :: b :: more =>
            (expression .nothing pending more).map fun r => (c :: a :: b :: r.1, r.2)
          | _ => none
        else go inside pending
      | .nothing =>
        if c = '\x27' ∨ c = '\x22' then
          match rest with
          | a :: b :: more =>
            if a = c ∧ b = c then
              (expression (.triple c) pending more).map fun r => (c :: a :: b :: r.1, r.2)
            else go (.single c) pending
          | _ => go (.single c) pending
        else if c = '#' then none
        else
          match closing? c with
          | some close => go .nothing (close :: pending)
          | none =>
            match pending with
            | close :: outer =>
              if c = close then go .nothing outer
              else if isClosing c then none
              else go .nothing pending
            | [] =>
              if (c = '!' ∨ c = '=' ∨ c = '<' ∨ c = '>') ∧ rest.head? = some '=' then
                match rest with
                | e :: more =>
                  (expression .nothing [] more).map fun r => (c :: e :: r.1, r.2)
                | [] => none
              else if c = '!' ∨ c = ':' ∨ c = '\x7d' ∨ c = '=' then some ([], c :: rest)
              else if isClosing c then none
              else go .nothing []

/-- Past the request to show the expression itself, and a conversion. -/
def pastConversion (cs : List Char) : Option (List Char) := do
  let cs :=
    match cs with
    | '=' :: rest => rest.dropWhile fun c => c.isWhitespace || c == '\x0b' || c == '\x0c'
    | _ => cs
  match cs with
  | '!' :: c :: rest => if c == 's' || c == 'r' || c == 'a' then some rest else none
  | _ => some cs

/-- Whether an expression is left out. -/
def isBlank (cs : List Char) : Bool :=
  cs.all fun c => c == ' ' || c == '\t' || c == '\n' || c == '\x0c' || c == '\r'

/-- The deepest level of expressions in the formats of expressions. -/
def deepest : Nat := 2

/-- The expressions of a formatted text and what follows it.  Inside the format
of an expression (`level` above zero) a closing brace ends the text; elsewhere
a brace that stands for itself is written twice. -/
def fields (raw : Bool) : Nat → Nat → List Char → Option (List (List Char) × List Char)
  | 0, _, _ => none
  | _ + 1, _, [] => some ([], [])
  | fuel + 1, level, c :: rest =>
    let next := rest.head?
    if c = '\x5c' ∧ !raw then
      if next = some 'N' then
        if rest.tail.head? = some '\x7b' then
          fields raw fuel level (rest.dropWhile (· != '\x7d')).tail
        else fields raw fuel level rest.tail
      else if next = some '\x7b' ∨ next = some '\x7d' then fields raw fuel level rest
      else fields raw fuel level rest.tail
    else if (c = '\x7b' ∨ c = '\x7d') ∧ level = 0 ∧ next = some c then
      fields raw fuel level rest.tail
    else if c = '\x7d' then
      if level = 0 then none else some ([], c :: rest)
    else if c = '\x7b' then
      if deepest ≤ level then none
      else do
        let (source, after) ← expression .nothing [] rest
        if isBlank source then none
        let after ← pastConversion after
        let (inner, after) ←
          match after with
          | ':' :: format => fields raw fuel (level + 1) format
          | _ => some ([], after)
        match after with
        | '\x7d' :: after => do
          let (more, after) ← fields raw fuel level after
          return (source :: inner ++ more, after)
        | _ => none
    else fields raw fuel level rest

/-- The expressions in a quoted text, if the text is well formed. -/
def fieldsOf? (style : Style) (text : List Char) : Option (List (List Char)) :=
  if style.bytes && text.any (128 ≤ ·.toNat) then none
  else if !style.raw && !escapesFit style.bytes text then none
  else if style.formatted then
    match fields style.raw (2 * text.length + 2) 0 text with
    | some (found, []) => some found
    | _ => none
  else some []

/-- A quoted text from its opening quote on: its expressions, and what follows. -/
def read (style : Style) (cs : List Char) : Option (List (List Char) × List Char) :=
  match cs with
  | [] => none
  | quote :: rest => do
    let triple := rest.take 2 == [quote, quote]
    let (text, after) ← body quote triple (if triple then rest.drop 2 else rest)
    let found ← fieldsOf? style text
    return (found, after)

end Routebook.Code.Quoted
