/-
  Routebook.Yaml.Token

  The tokens of a settings document, and reading those that are marked by
  their first character: anchors and aliases, tags and directives.
-/
import Routebook.Json.Token
import Routebook.Text.Utf8
import Routebook.Yaml.Cursor

namespace Routebook.Yaml

/-- The name of a tag as it is written: a handle that stands for a beginning
declared elsewhere, and what follows it. -/
structure TagName where
  handle : Option String
  rest : String
  deriving DecidableEq

/-- A token of a settings document. -/
inductive Token where
  /-- A version of the language. -/
  | version (major minor : Nat)
  /-- The beginning that a handle stands for. -/
  | handle (name lead : String)
  /-- A directive that means nothing here. -/
  | reserved
  | documentStart
  | documentEnd
  | sequenceStart
  | mappingStart
  /-- The end of a sequence or mapping that is set out by indentation. -/
  | blockEnd
  | openList
  | closeList
  | openMapping
  | closeMapping
  /-- The mark of a key. -/
  | key
  /-- The mark of a value. -/
  | value
  /-- The mark of an item of a sequence that is set out by indentation. -/
  | item
  | comma
  | alias (name : String)
  | anchor (name : String)
  | tag (name : TagName)
  | scalar (plain : Bool) (text : String)
  deriving DecidableEq

namespace Token

/-! ## Names -/

/-- The characters of an address. -/
def isAddressChar (c : Char) : Bool := c.isAlphanum || "-;/?:@&=+$,_.!~*'()[]%".contains c

/-- What may follow the name of an anchor. -/
def endsAnchor (c : Option Char) : Bool := endsWord c || c.any ("?:,]\x7d%@\x60".contains ·)

/-- A name that must not be empty. -/
def nameFrom (c : Cursor) : Outcome (String × Cursor) :=
  let (name, c) := c.span isNameChar
  if name.isEmpty then .error .malformedSettings else .ok (String.ofList name, c)

/-- The name of an anchor or alias, from its mark on. -/
def anchorName (c : Cursor) : Outcome (String × Cursor) := do
  let (name, c) ← nameFrom c.step
  if !endsAnchor c.next then throw .malformedSettings
  return (name, c)

/-- The byte that two hexadecimal digits stand for. -/
def escapedByte? : List Char → Option UInt8
  | '%' :: a :: b :: _ =>
    match Json.Token.hexValue? a, Json.Token.hexValue? b with
    | some x, some y => some (UInt8.ofNat (x * 16 + y))
    | _, _ => none
  | _ => none

/-- The bytes of the escapes that follow each other here. -/
def escapedBytes : Nat → Cursor → Outcome (List UInt8 × Cursor)
  | 0, _ => .error .malformedSettings
  | fuel + 1, c =>
    if c.next ≠ some '%' then .ok ([], c)
    else
      match escapedByte? c.rest with
      | none => .error .malformedSettings
      | some b => do
        let (bs, c) ← escapedBytes fuel (c.steps 3)
        return (b :: bs, c)

/-- The characters of an address, escapes read. -/
def addressChars : Nat → Cursor → Outcome (List Char × Cursor)
  | 0, _ => .error .malformedSettings
  | fuel + 1, c =>
    match c.next with
    | none => .ok ([], c)
    | some '%' => do
      let (bytes, c) ← escapedBytes (c.rest.length + 1) c
      match Text.ofBytes ⟨bytes.toArray⟩ with
      | .error _ => throw .malformedSettings
      | .ok text =>
        let (more, c) ← addressChars fuel c
        return (text.toList ++ more, c)
    | some x =>
      if isAddressChar x then do
        let (more, c) ← addressChars fuel c.step
        return (x :: more, c)
      else .ok ([], c)

/-- An address, which must not be empty. -/
def address (c : Cursor) : Outcome (String × Cursor) := do
  let (text, after) ← addressChars (c.rest.length + 1) c
  if after.index = c.index then throw .malformedSettings
  return (String.ofList text, after)

/-- A handle: `!`, or a name between two of them. -/
def handleFrom (c : Cursor) : Outcome (String × Cursor) :=
  if c.next ≠ some '!' then .error .malformedSettings
  else
    let (name, after) := c.step.span isNameChar
    if c.ahead 1 == some ' ' then .ok ("!", c.step)
    else if after.next == some '!' then .ok (String.ofList ('!' :: name ++ ['!']), after.step)
    else .error .malformedSettings

/-- Whether a second `!` stands in the word that begins here. -/
def hasHandle (c : Cursor) : Bool :=
  (c.step.rest.takeWhile fun x => !endsField (some x)).contains '!'

/-- The name of a tag, from its mark on. -/
def tagName (c : Cursor) : Outcome (TagName × Cursor) := do
  let (name, c) ← (do
    if c.ahead 1 == some '<' then
      let (text, c) ← address (c.steps 2)
      if c.next ≠ some '>' then throw .malformedSettings
      return (⟨none, text⟩, c.step)
    else if endsWord (c.ahead 1) then return (⟨none, "!"⟩, c.step)
    else
      let (short, c) ← if hasHandle c then handleFrom c else pure ("!", c.step)
      let (text, c) ← address c
      return (⟨some short, text⟩, c) : Outcome (TagName × Cursor))
  if !endsField c.next then throw .malformedSettings
  return (name, c)

/-! ## Directives -/

/-- A number of a version. -/
def number (c : Cursor) : Outcome (Nat × Cursor) :=
  let (digits, after) := c.span Char.isDigit
  if digits.isEmpty then .error .malformedSettings
  else .ok (digits.foldl (fun n d => n * 10 + (d.toNat - 48)) 0, after)

/-- The version of a directive. -/
def versionOf (c : Cursor) : Outcome (Token × Cursor) := do
  let (major, c) ← number (c.skip (· == ' '))
  if c.next ≠ some '.' then throw .malformedSettings
  let (minor, c) ← number c.step
  if !endsField c.next then throw .malformedSettings
  return (.version major minor, c)

/-- The handle of a directive and what it stands for. -/
def handleOf (c : Cursor) : Outcome (Token × Cursor) := do
  let (name, c) ← handleFrom (c.skip (· == ' '))
  if c.next ≠ some ' ' then throw .malformedSettings
  let (lead, c) ← address (c.skip (· == ' '))
  if !endsField c.next then throw .malformedSettings
  return (.handle name lead, c)

/-- A directive, from its mark on to the end of its line. -/
def directive (c : Cursor) : Outcome (Token × Cursor) := do
  let (name, c) ← nameFrom c.step
  if !endsField c.next then throw .malformedSettings
  let (token, c) ←
    if name = "YAML" then versionOf c
    else if name = "TAG" then handleOf c
    else pure (.reserved, c.skip (!isBreak ·))
  return (token, ← c.endOfLine)

end Token

end Routebook.Yaml
