/-
  Routebook.Handbook.Content

  The text shown for the data of a description or an example.  Arrays and
  objects are laid out as JSON documents; a text that is a JSON array or
  object, or an XML document, is brought into one form; anything else is
  shown as it is.
-/
import Routebook.Failure
import Routebook.Json.Printer
import Routebook.Json.Reader
import Routebook.Tag.Basic
import Routebook.Xml.Canonical

namespace Routebook.Handbook

/-- Whether a value is a document: an array or an object. -/
def isDocument : Value → Bool
  | .array _ => true
  | .object _ => true
  | _ => false

/-- The layout of a text that is a JSON array or object. -/
def jsonForm? (text : String) : Option String :=
  match Json.read? .document text with
  -- A text that is a single number or word keeps its spelling.
  | some v => if isDocument v then some (Json.print .document v) else none
  | none => none

/-- The form in which a text is shown. -/
def formOfText (text : String) : String :=
  match jsonForm? text with
  | some shown => shown
  | none => (Xml.canonical? text).getD text

/-- The text shown for content. -/
def content (v : Value) : Outcome String :=
  match v with
  | .null => .ok ""
  | .string s => .ok (formOfText s)
  | v =>
    if v.hasLongInt then .error (.badValue tooManyDigitsMessage)
    else if isDocument v then .ok (Json.print .document v)
    else .ok (formOfText v.text)

/-- What the files that descriptions refer to hold: nothing for a file that
is not there. -/
abbrev References := String → Outcome (Option String)

/-- No files at all. -/
def References.none : References := fun _ => .ok .none

/-- The text shown for a description; the content of a missing file is empty. -/
def describe (files : References) (d : Description) : Outcome String :=
  match d.type with
  | .text => content d.value
  | .file =>
    if d.value.hasLongInt then .error (.badValue tooManyDigitsMessage)
    else do
      match ← files d.value.text with
      | some text => content (.string text)
      | none => return ""

end Routebook.Handbook
