/-
  Routebook.Code.Pattern

  Patterns of source text: what a value is matched with.
-/
import Routebook.Code.Expression

namespace Routebook.Code.Pattern

open Scan

/-- A name with attributes; whether there is more than the name. -/
def dotted : Nat → Scan Bool
  | 0 => refuse
  | fuel + 1 => do
    let _ ← name
    if ← sign? "." then
      let _ ← dotted fuel
      return true
    else return false

/-- A number with perhaps a sign, and perhaps an imaginary part after a real one. -/
def numeral : Scan Unit := do
  let _ ← sign? "-"
  let isReal ← take (.number false)
  if !isReal then expect (.number true)
  if ← sign? "+" <||> sign? "-" then
    expect (.number true)
    if !isReal then refuse

/-- Whether a constant begins here: a number, a quoted text or one of three words. -/
def seesConstant : Scan Bool := do
  match ← next? with
  | some (.number _) => return true
  | some (.quoted _ _) => return true
  | some (.sign "-") => return true
  | some (.name text) => return ["None", "True", "False"].contains text
  | _ => return false

/-- A constant. -/
def constant (fuel : Nat) : Scan Unit := do
  match ← next? with
  | some (.quoted bytes _) => Expression.quotedRun bytes fuel
  | some (.name _) => skip
  | _ => numeral

mutual
/-- A pattern: alternatives, perhaps with a name for what they match. -/
def whole : Nat → Scan Unit
  | 0 => refuse
  | fuel + 1 => do
    alternatives fuel
    if ← word? "as" then
      if (← name) = "_" then refuse

/-- Patterns of which one has to match. -/
def alternatives : Nat → Scan Unit
  | 0 => refuse
  | fuel + 1 => do
    closed fuel
    if ← sign? "|" then alternatives fuel

/-- A pattern that is complete by itself. -/
def closed : Nat → Scan Unit
  | 0 => refuse
  | fuel + 1 => do
    if ← seesConstant then constant fuel
    else if ← sign? "(" then
      if !(← sign? ")") then
        let _ ← items fuel
        sign ")"
    else if ← sign? "[" then
      if !(← sign? "]") then
        let _ ← items fuel
        sign "]"
    else if ← sign? "\x7b" then entries fuel
    else
      let _ ← dotted fuel
      if ← sign? "(" then parts false fuel

/-- Patterns with commas between them, which may be starred; whether there is
a comma. -/
def items : Nat → Scan Bool
  | 0 => refuse
  | fuel + 1 => do
    item fuel
    if ← sign? "," then
      let _ ← attempt (items fuel)
      return true
    else return false

/-- A pattern, or a name for the rest of a sequence. -/
def item : Nat → Scan Unit
  | 0 => refuse
  | fuel + 1 => do
    if ← sign? "*" then
      let _ ← name
    else whole fuel

/-- The entries of a mapping, to the closing brace. -/
def entries : Nat → Scan Unit
  | 0 => refuse
  | fuel + 1 => do
    if ← sign? "\x7d" then return ()
    if ← sign? "**" then
      if (← name) = "_" then refuse
      let _ ← sign? ","
      sign "\x7d"
    else
      if ← seesConstant then constant fuel
      else if !(← dotted fuel) then refuse
      sign ":"
      whole fuel
      if ← sign? "," then entries fuel else sign "\x7d"

/-- The parts of an object, to the closing parenthesis; the flag tells whether
one with a name came before. -/
def parts (named : Bool) : Nat → Scan Unit
  | 0 => refuse
  | fuel + 1 => do
    if ← sign? ")" then return ()
    let isNamed ← seesNameThen "="
    if named && !isNamed then refuse
    if isNamed then
      skip
      skip
    whole fuel
    if ← sign? "," then parts isNamed fuel else sign ")"
end

/-- The pattern of a case: one pattern, or several as a sequence. -/
def ofCase (fuel : Nat) : Scan Unit := do
  if ← seesSign "*" then
    if !(← items fuel) then refuse
  else
    let _ ← items fuel

end Routebook.Code.Pattern
