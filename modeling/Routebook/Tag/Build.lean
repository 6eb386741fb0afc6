/-
  Routebook.Tag.Build

  Making a tag by name.  Its own constructor reports the faults of the fields
  directly; building from a mapping first compares the kind the data declares
  and reports the faults as one.
-/
import Routebook.Failure
import Routebook.Tag.Decode

namespace Routebook.Tag

/-- The tag of a kind with the given fields, or why there is none. -/
def make (kind : Kind) (data : Entries Value) : Outcome Tag :=
  match decode kind data with
  | .ok t => .ok t
  | .faulty faults => .error (.tag (.fields kind faults))
  | .wrongType => .error .wrongType

/-- `make` for a kind given by name. -/
def makeNamed (name : String) (data : Entries Value) : Outcome Tag :=
  match Kind.ofName? name with
  | none => .error (.tag (.unknownKind name))
  | some kind => make kind data

/-- The tag of a named kind from a mapping that may name the kind as well. -/
def build (name : String) (data : Entries Value) : Outcome Tag :=
  match Kind.ofName? name with
  | none => .error (.tag (.unknownKind name))
  | some kind =>
    let declared := (Entries.get? "kind" data).getD (.string name)
    if declared.same (.string name) then
      match decodeNested kind (Entries.erase "kind" data) with
      | .ok t => .ok t
      | .faulty faults => .error (.tag (.fields kind faults))
      | .wrongType => .error .wrongType
    else if declared.hasLongInt then .error (.badValue tooManyDigitsMessage)
    else .error (.tag (.otherKind declared.text kind))

end Routebook.Tag
