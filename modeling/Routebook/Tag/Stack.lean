/-
  Routebook.Tag.Stack

  Stacks of tags written above a class, a function or a property.  Stacks are
  applied from the last to the first and each puts its tags in front, so the
  tags end up in the order in which they are written.  The tags of one stack
  are all made before any of them is attached.
-/
import Routebook.Tag.Build
import Routebook.Tag.Bag

namespace Routebook

/-- What stands where a tag is expected. -/
inductive TagSpec where
  /-- A kind, by name, with its fields. -/
  | make (kind : String) (data : Entries Value)
  /-- A tag of a class of its own with nothing but a kind. -/
  | bare (kind : String)
  /-- A plain value. -/
  | plain (v : Value)

/-- What is attached to a holder: a tag, or a bare tag of a named kind. -/
inductive Attached where
  | tag (t : Tag)
  | bare (kind : String)

namespace Attached

/-- The name of the kind of what is attached. -/
def kindName : Attached → String
  | .tag t => t.kind.name
  | .bare k => k

/-- The tag, if it is one of the catalog's own. -/
def tag? : Attached → Option Tag
  | .tag t => some t
  | .bare _ => none

end Attached

namespace TagSpec

/-- What is written in one place of a stack once its tags are made. -/
inductive Item where
  | attached (a : Attached)
  | plain (v : Value)

/-- Make the tag that is written, if one is. -/
def item : TagSpec → Outcome Item
  | .make kind data => (Tag.makeNamed kind data).map fun t => .attached (.tag t)
  | .bare name => .ok (.attached (.bare name))
  | .plain v => .ok (.plain v)

/-- The tag that is written, if one is. -/
def Item.attached? : Item → Option Attached
  | .attached a => some a
  | .plain _ => none

/-- Only tags of known kinds may be attached. -/
def Item.attach : Item → Outcome Attached
  | .attached a =>
    match Kind.ofName? a.kindName with
    | some _ => .ok a
    | none => .error (.tag (.unknownKind a.kindName))
  | .plain v =>
    if v.hasLongInt then .error (.badValue tooManyDigitsMessage)
    else .error (.tag (.notATag v.literal))

/-- The tags among the metadata of a type; anything else there is passed over. -/
def metadata (specs : List TagSpec) : Outcome (List Attached) := do
  let items ← specs.mapM item
  return items.filterMap Item.attached?

/-- The tags of one stack: first all are made, then all are accepted. -/
def stack (specs : List TagSpec) : Outcome (List Attached) := do
  let items ← specs.mapM item
  items.mapM Item.attach

/-- The tags of several stacks, first stack outermost: the last stack is made
and applied first, and each one puts its tags in front. -/
def layers : List (List TagSpec) → Outcome (List Attached)
  | [] => .ok []
  | specs :: rest => do
    let below ← layers rest
    let own ← stack specs
    return own ++ below

/-- The tags of the stacks of a statement, whose tags are all made from the
first stack to the last before any of them is attached. -/
def written : List (List TagSpec) → Outcome (List Attached)
  | [] => .ok []
  | specs :: rest => do
    let own ← stack specs
    let below ← written rest
    return own ++ below

end TagSpec

end Routebook
