/-
  Routebook.Code.Token

  The tokens of the source text of a module, and taking them one by one.
-/
import Routebook.Failure

namespace Routebook.Code

/-- A token of source text. -/
inductive Token where
  /-- A name or a keyword. -/
  | name (text : String)
  /-- A number; whether it is imaginary. -/
  | number (imaginary : Bool)
  /-- A quoted text: whether it stands for bytes, and the source texts of the
  expressions that are put into it. -/
  | quoted (bytes : Bool) (fields : List (List Char))
  /-- An operator or a mark. -/
  | sign (text : String)
  | lineEnd
  /-- A line that is indented further than the one before. -/
  | deeper
  /-- The end of the lines that are indented further. -/
  | shallower
  deriving DecidableEq

/-- The names that cannot be given to anything. -/
def keywords : List String :=
  ["False", "None", "True", "and", "as", "assert", "async", "await", "break", "class",
   "continue", "def", "del", "elif", "else", "except", "finally", "for", "from", "global",
   "if", "import", "in", "is", "lambda", "nonlocal", "not", "or", "pass", "raise", "return",
   "try", "while", "with", "yield"]

/-! ## Taking tokens -/

/-- A step of reading tokens; it may find that they do not fit. -/
abbrev Scan (α : Type) := StateT (List Token) Option α

namespace Scan

/-- The tokens do not fit. -/
def refuse {α : Type} : Scan α := failure

/-- The next token. -/
def next? : Scan (Option Token) := do return (← get).head?

/-- Whether the next token is a given one. -/
def sees (t : Token) : Scan Bool := do return (← next?) == some t

/-- Whether the token after the next one is a given one. -/
def seesAfter (t : Token) : Scan Bool := do return (← get)[1]? == some t

/-- Past the next token. -/
def skip : Scan Unit := modify List.tail

/-- Past the next token if it is a given one, and whether it was. -/
def take (t : Token) : Scan Bool := do
  if ← sees t then
    skip
    return true
  else return false

/-- Past a given token. -/
def expect (t : Token) : Scan Unit := do
  if !(← take t) then refuse

/-- Whether the next token is a given mark. -/
def seesSign (text : String) : Scan Bool := sees (.sign text)

/-- Past a mark, if it is the next token. -/
def sign? (text : String) : Scan Bool := take (.sign text)

/-- Past a mark. -/
def sign (text : String) : Scan Unit := expect (.sign text)

/-- Whether the next token is a given word. -/
def seesWord (text : String) : Scan Bool := sees (.name text)

/-- Past a word, if it is the next token. -/
def word? (text : String) : Scan Bool := take (.name text)

/-- Past a word. -/
def word (text : String) : Scan Unit := expect (.name text)

/-- A name that is no keyword, if it is the next token. -/
def name? : Scan (Option String) := do
  match ← next? with
  | some (.name text) =>
    if keywords.contains text then return none
    else
      skip
      return some text
  | _ => return none

/-- A name that is no keyword. -/
def name : Scan String := do
  match ← name? with
  | some text => return text
  | none => refuse

/-- Whether the next two tokens are a name and a mark. -/
def seesNameThen (mark : String) : Scan Bool := do
  match ← next? with
  | some (.name text) => return !keywords.contains text && (← seesAfter (.sign mark))
  | _ => return false

/-- What a step finds, or nothing where it finds the tokens do not fit. -/
def attempt {α : Type} (x : Scan α) : Scan (Option α) :=
  (do return some (← x)) <|> pure none

end Scan

end Routebook.Code
