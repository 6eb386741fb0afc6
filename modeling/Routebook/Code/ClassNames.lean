/-
  Routebook.Code.ClassNames

  The classes that source text declares at its top level.
-/
import Routebook.Code.Statement

namespace Routebook.Code

/-- The names of the classes at the top level, if the tokens are statements. -/
def classNames? (fuel : Nat) (ts : List Token) : Option (List String) :=
  if ts.isEmpty then some []
  else
    match (Statement.statements fuel).run ts with
    | some (names, []) => some names
    | _ => none

/-- The names of the classes at the top level of a source text, in order.  No
expression nests more steps than sixteen for each of its characters. -/
def classNames (text : String) : Outcome (List String) :=
  let cs := text.toList
  match (tokens cs).bind (classNames? (16 * cs.length + 64)) with
  | some names => .ok names
  | none => .error .malformedSource

end Routebook.Code
