/-
  Routebook.Code.Statement

  Statements of source text.  Of a run of statements only the names of the
  classes that it declares directly are kept, in order.
-/
import Routebook.Code.Pattern

namespace Routebook.Code.Statement

open Scan Expression

/-! ## Simple statements -/

/-- The marks that change what a target holds. -/
def changes : List String :=
  ["+=", "-=", "*=", "/=", "//=", "%=", "@=", "&=", "|=", "^=", ">>=", "<<=", "**="]

/-- The values of an assignment, each but the last being assigned to. -/
def assigned : Nat → Scan Unit
  | 0 => refuse
  | fuel + 1 => do
    let s ← yieldedOr fuel
    if ← sign? "=" then
      if !s.isAssignable then refuse
      assigned fuel

/-- An expression, or an assignment of one of three kinds. -/
def assignment (fuel : Nat) : Scan Unit := do
  let isYield ← seesWord "yield"
  let s ← yieldedOr fuel
  if isYield then return ()
  if ← sign? "=" then
    if !s.isAssignable then refuse
    assigned fuel
  else if ← oneOf changes then
    if !s.isSingle then refuse
    let _ ← yieldedOr fuel
  else if ← sign? ":" then
    if !s.isSingle then refuse
    let _ ← expression fuel
    if ← sign? "=" then
      let _ ← yieldedOr fuel

/-- Names with commas between them. -/
def names : Nat → Scan Unit
  | 0 => refuse
  | fuel + 1 => do
    let _ ← name
    if ← sign? "," then names fuel

/-- A name that may be given another one. -/
def renamed (what : Scan Unit) : Scan Unit := do
  what
  if ← word? "as" then
    let _ ← name

/-- A name with attributes. -/
def path (fuel : Nat) : Scan Unit := do
  let _ ← Pattern.dotted fuel

/-- Modules to be imported. -/
def modules : Nat → Scan Unit
  | 0 => refuse
  | fuel + 1 => do
    renamed (path fuel)
    if ← sign? "," then modules fuel

/-- Names to be imported; the flag tells whether they stand in parentheses, so
that a comma may end them. -/
def members (inside : Bool) : Nat → Scan Unit
  | 0 => refuse
  | fuel + 1 => do
    renamed (do let _ ← name)
    if ← sign? "," then
      if !(inside && (← seesSign ")")) then members inside fuel

/-- The dots before the name of a module, and whether there are some. -/
def dots : Nat → Scan Bool
  | 0 => refuse
  | fuel + 1 => do
    if ← sign? "." <||> sign? "..." then
      let _ ← dots fuel
      return true
    else return false

/-- An import from a module, after its first word. -/
def importFrom (fuel : Nat) : Scan Unit := do
  let isRelative ← dots fuel
  if isRelative && (← seesWord "import") then pure ()
  else path fuel
  word "import"
  if ← sign? "*" then return ()
  if ← sign? "(" then
    members true fuel
    sign ")"
  else members false fuel

/-- Whether a simple statement ends here. -/
def seesEnd : Scan Bool := do return (← seesSign ";") || (← sees .lineEnd)

/-- A statement on one line. -/
def simple (fuel : Nat) : Scan Unit := do
  if ← word? "pass" <||> word? "break" <||> word? "continue" then return ()
  if ← word? "return" then
    if !(← seesEnd) then
      let _ ← starExpressions fuel
  else if ← word? "import" then modules fuel
  else if ← word? "from" then importFrom fuel
  else if ← word? "raise" then
    if !(← seesEnd) then
      let _ ← expression fuel
      if ← word? "from" then
        let _ ← expression fuel
  else if ← word? "del" then
    let (items, _) ← sequence (primary fuel) fuel
    if !items.all Shape.isDeletable then refuse
    if !(← seesEnd) then refuse
  else if ← word? "assert" then
    let _ ← expression fuel
    if ← sign? "," then
      let _ ← expression fuel
  else if ← word? "global" <||> word? "nonlocal" then names fuel
  else assignment fuel

/-- Statements on one line, to its end. -/
def line : Nat → Scan Unit
  | 0 => refuse
  | fuel + 1 => do
    simple fuel
    if ← sign? ";" then
      if !(← take .lineEnd) then line fuel
    else expect .lineEnd

/-! ## Compound statements -/

/-- Something, and perhaps what values are unpacked into. -/
def resource (fuel : Nat) : Scan Unit := do
  let _ ← expression fuel
  if ← word? "as" then
    let s ← target fuel
    if !s.isAssignable then refuse

/-- Resources with commas between them; the flag tells whether a comma may end them. -/
def resources (inside : Bool) : Nat → Scan Unit
  | 0 => refuse
  | fuel + 1 => do
    resource fuel
    if ← sign? "," then
      if !(inside && (← seesSign ")")) then resources inside fuel

/-- The head of a statement that holds resources: in parentheses or without. -/
def resourceHead (fuel : Nat) : Scan Unit :=
  (do
    sign "("
    resources true fuel
    sign ")"
    sign ":") <|>
  (do
    resources false fuel
    sign ":")

/-- What is matched with patterns. -/
def subject (fuel : Nat) : Scan Unit := do
  let (items, comma) ← sequence (starNamed fuel) fuel
  match items, comma with
  | [.starred _], false => refuse
  | _, _ => pure ()

mutual
/-- Statements to the end of their block; the names of the classes among them. -/
def statements : Nat → Scan (List String)
  | 0 => refuse
  | fuel + 1 => do
    let classes ← statement fuel
    match ← next? with
    | none => return classes
    | some .shallower => return classes
    | _ => return classes ++ (← statements fuel)

/-- A statement; the name of the class that it declares. -/
def statement : Nat → Scan (List String)
  | 0 => refuse
  | fuel + 1 => do
    match ← next? with
    | some (.sign "@") => do
      decorators fuel
      declaration true fuel
    | some (.name "class") => declaration true fuel
    | some (.name "def") => declaration true fuel
    | some (.name "async") => declaration false fuel
    | some (.name "if") => do
      skip
      conditional fuel
      return []
    | some (.name "while") => do
      skip
      let _ ← named fuel
      block fuel
      otherwise fuel
      return []
    | some (.name "for") => do
      loop fuel
      return []
    | some (.name "with") => do
      held fuel
      return []
    | some (.name "try") => do
      skip
      block fuel
      handlers fuel
      return []
    | some (.name "match") => do
      -- The word is a name as well, where no cases follow.
      (do matching fuel) <|> line fuel
      return []
    | _ => do
      line fuel
      return []

/-- The decorators before a declaration. -/
def decorators : Nat → Scan Unit
  | 0 => refuse
  | fuel + 1 => do
    if ← sign? "@" then
      let _ ← named fuel
      expect .lineEnd
      decorators fuel

/-- A class or a function, or, if it is not to be decorated, another statement
that may be asynchronous. -/
def declaration (decorated : Bool) : Nat → Scan (List String)
  | 0 => refuse
  | fuel + 1 => do
    if ← word? "class" then
      let text ← name
      if ← sign? "(" then arguments false .positional fuel
      block fuel
      return [text]
    let isAsync ← word? "async"
    if ← word? "def" then
      let _ ← name
      sign "("
      parameters true fuel
      sign ")"
      if ← sign? "->" then
        let _ ← expression fuel
      block fuel
      return []
    -- Only classes and functions are decorated.
    if decorated || !isAsync then refuse
    if ← seesWord "for" then loop fuel else held fuel
    return []

/-- A colon, and the statements that it opens: on the same line, or indented below. -/
def block : Nat → Scan Unit
  | 0 => refuse
  | fuel + 1 => do
    sign ":"
    blockBody fuel

/-- The statements after a colon. -/
def blockBody : Nat → Scan Unit
  | 0 => refuse
  | fuel + 1 => do
    if ← take .lineEnd then
      expect .deeper
      let _ ← statements fuel
      expect .shallower
    else line fuel

/-- A condition with its block, and the alternatives. -/
def conditional : Nat → Scan Unit
  | 0 => refuse
  | fuel + 1 => do
    let _ ← named fuel
    block fuel
    if ← word? "elif" then conditional fuel else otherwise fuel

/-- The block for all other cases, if there is one. -/
def otherwise : Nat → Scan Unit
  | 0 => refuse
  | fuel + 1 => do if ← word? "else" then block fuel

/-- A loop over values. -/
def loop : Nat → Scan Unit
  | 0 => refuse
  | fuel + 1 => do
    word "for"
    targets fuel
    word "in"
    let _ ← starExpressions fuel
    block fuel
    otherwise fuel

/-- A block that holds resources. -/
def held : Nat → Scan Unit
  | 0 => refuse
  | fuel + 1 => do
    word "with"
    resourceHead fuel
    blockBody fuel

/-- What follows a block that may fail: handlers with what is done otherwise,
and what is done at last. -/
def handlers : Nat → Scan Unit
  | 0 => refuse
  | fuel + 1 => do
    if ← seesWord "except" then
      let grouped ← seesAfter (.sign "*")
      handlersOf grouped fuel
      otherwise fuel
      if ← word? "finally" then block fuel
    else
      word "finally"
      block fuel

/-- Handlers, which are all for groups or all not. -/
def handlersOf (grouped : Bool) : Nat → Scan Unit
  | 0 => refuse
  | fuel + 1 => do
    if ← word? "except" then
      -- Handlers for groups and others do not mix.
      if (← sign? "*") ≠ grouped then refuse
      if grouped || !(← seesSign ":") then
        let _ ← expression fuel
        if ← word? "as" then
          let _ ← name
      block fuel
      handlersOf grouped fuel

/-- A value that is matched with cases. -/
def matching : Nat → Scan Unit
  | 0 => refuse
  | fuel + 1 => do
    skip
    subject fuel
    sign ":"
    expect .lineEnd
    expect .deeper
    casesOf fuel
    expect .shallower

/-- The cases, at least one. -/
def casesOf : Nat → Scan Unit
  | 0 => refuse
  | fuel + 1 => do
    word "case"
    Pattern.ofCase fuel
    if ← word? "if" then
      let _ ← named fuel
    block fuel
    if ← seesWord "case" then casesOf fuel
end

end Routebook.Code.Statement
