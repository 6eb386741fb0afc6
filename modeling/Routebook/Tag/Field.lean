/-
  Routebook.Tag.Field

  Readers for the fields of tags and settings.  A reader takes the given
  value and answers a typed one or a fault; which values are taken for a
  truth value or a number is decided here, once for all.
-/
import Routebook.Checked
import Routebook.Double.Reader

namespace Routebook.Field

/-- A string, and nothing else. -/
def string : Value → Checked String
  | .string s => .ok s
  | _ => .fault .notAString

/-- A string that is not empty. -/
def nonEmptyString : Value → Checked String
  | .string s => if s = "" then .fault .emptyString else .ok s
  | _ => .fault .notAString

/-- A string or null. -/
def optionalString : Value → Checked (Option String)
  | .null => .ok none
  | .string s => .ok (some s)
  | _ => .fault .notAString

/-- Words that stand for a truth value, in any case. -/
def boolOfWord? (s : String) : Option Bool :=
  let w := String.ofList (s.toList.map Char.toLower)
  if ["1", "true", "t", "yes", "y", "on"].contains w then some true
  else if ["0", "false", "f", "no", "n", "off"].contains w then some false
  else none

/-- Whether an integer fits into 64 bits with a sign. -/
def fitsWord (n : Int) : Bool :=
  decide (-9223372036854775808 ≤ n) && decide (n < 9223372036854775808)

/-- A truth value, the numbers zero and one, or a word for it. -/
def bool : Value → Checked Bool
  | .bool b => .ok b
  | .int n =>
    if n = 0 then .ok false
    else if n = 1 then .ok true
    else if fitsWord n then .fault .unreadableBool
    else .fault .notABool
  | .float x =>
    if x.equalsInt 0 then .ok false
    else if x.equalsInt 1 then .ok true
    else .fault .notABool
  | .string s =>
    match boolOfWord? s with
    | some b => .ok b
    | none => .fault .unreadableBool
  | _ => .fault .notABool

/-- A number: an integer is rounded, a truth value counts, a text is read. -/
def number : Value → Checked Double
  | .float x => .ok x
  | .bool b => .ok (Double.ofRatio false (if b then 1 else 0) 1)
  | .int n =>
    match Double.ofInt? n with
    | some x => .ok x
    | none => .fault .notANumber
  | .string s =>
    match Double.read? s with
    | some x => .ok x
    | none => .fault .unreadableNumber
  | _ => .fault .notANumber

/-- A number above zero. -/
def positiveNumber (v : Value) : Checked Double :=
  (number v).andThen fun x => if x.isPositive then .ok x else .fault .notPositive

/-- Any value. -/
def any (v : Value) : Checked Value := .ok v

/-- A list, read item by item. -/
def list (read : Value → Checked α) : Value → Checked (List α)
  | .array items => Checked.items read 0 items
  | _ => .fault .notAList

/-- An object, read field by field. -/
def object (read : Value → Checked α) : Value → Checked (Entries α)
  | .object fields => Checked.fields read fields
  | _ => .fault .notAnObject

/-- A field that must be given. -/
def required (data : Entries Value) (name : String) (read : Value → Checked α) : Checked α :=
  match Entries.get? name data with
  | some v => (read v).under (.key name)
  | none => .faulty [.mk [.key name] .missing]

/-- A field that has a default. -/
def withDefault (data : Entries β) (name : String) (default : α)
    (read : β → Checked α) : Checked α :=
  match Entries.get? name data with
  | some v => (read v).under (.key name)
  | none => .ok default

/-- Every key of the data must be a known one. -/
def noOthers (data : Entries β) (known : List String) : Checked Unit :=
  match (Entries.keys data).filter fun k => !known.contains k with
  | [] => .ok ()
  | others => .faulty (others.map fun k => .mk [.key k] .unexpected)

end Routebook.Field
