/-
  Routebook.Xml.Canonical

  Canonical text of a document: comments dropped, attributes sorted, empty
  elements written in full, and every namespace declared where a name first
  needs it.  A name takes the first lead found for its namespace, searching
  the declarations already written and then the ones the document makes,
  innermost level first; a level keeps what its finished elements declared.
-/
import Routebook.Xml.Event

namespace Routebook.Xml.Canonical

/-- Leads that are known without a declaration. -/
def knownLeads : Bindings :=
  [("xml", xmlNamespace),
   ("html", "http://www.w3.org/1999/xhtml"),
   ("rdf", "http://www.w3.org/1999/02/22-rdf-syntax-ns#"),
   ("wsdl", "http://schemas.xmlsoap.org/wsdl/"),
   ("xs", "http://www.w3.org/2001/XMLSchema"),
   ("xsi", "http://www.w3.org/2001/XMLSchema-instance"),
   ("dc", "http://purl.org/dc/elements/1.1/")]

/-- The declarations around a name, innermost level first. -/
structure Levels where
  /-- What has been written, one level for each open element. -/
  written : List Bindings
  /-- What the document declares, one level more. -/
  made : List Bindings

/-- Before the root element. -/
def Levels.start : Levels := ⟨[[("xml", xmlNamespace)]], [[], knownLeads]⟩

/-- Add to the innermost level. -/
def addTo (levels : List Bindings) (b : String × String) : List Bindings :=
  match levels with
  | [] => [[b]]
  | top :: rest => (top ++ [b]) :: rest

/-- The first lead written for a namespace that no lead met before hides;
`seen` holds the leads met.  All leads met are answered when there is none. -/
def writtenLead (uri : String) : List String → Bindings → Except (List String) String
  | seen, [] => .error seen
  | seen, (lead, u) :: rest =>
    if u = uri ∧ lead ∉ seen then .ok lead else writtenLead uri (lead :: seen) rest

/-- A name under a lead. -/
def leadName (lead part : String) : String := if lead = "" then part else lead ++ ":" ++ part

/-- The text of a name; a lead that is needed for the first time is declared. -/
def nameText (levels : Levels) (n : Name) : Levels × String :=
  match writtenLead n.uri [] levels.written.flatten with
  | .ok lead => (levels, leadName lead n.part)
  | .error seen =>
    if n.uri = "" ∧ "" ∉ seen then (levels, n.part)
    else
      match levels.made.flatten.find? fun b => b.2 == n.uri with
      | some (lead, _) =>
        ({ levels with written := addTo levels.written (lead, n.uri) }, leadName lead n.part)
      | none => (levels, n.part)

/-! ## Order -/

/-- Names with a namespace come by namespace and part, after the names whose
parts sort before a brace. -/
def sortKey (n : Name) : String × String :=
  if n.uri = "" then (n.part, "") else ("\x7b" ++ n.uri, n.part)

/-- The order in which names are given their leads. -/
def nameLe (a b : Name) : Bool :=
  let x := sortKey a
  let y := sortKey b
  if x.1 = y.1 then decide (x.2 ≤ y.2) else decide (x.1 < y.1)

/-! ## Text -/

/-- A character of text. -/
def escapedText (c : Char) : List Char :=
  if c = '&' then "&amp;".toList
  else if c = '<' then "&lt;".toList
  else if c = '>' then "&gt;".toList
  else if c = '\r' then "&#xD;".toList
  else [c]

/-- A character of an attribute value. -/
def escapedAttribute (c : Char) : List Char :=
  if c = '&' then "&amp;".toList
  else if c = '<' then "&lt;".toList
  else if c = '\x22' then "&quot;".toList
  else if c = '\t' then "&#x9;".toList
  else if c = '\n' then "&#xA;".toList
  else if c = '\r' then "&#xD;".toList
  else [c]

/-- An attribute with a blank in front. -/
def attributeItem (a : String × String) : String :=
  " " ++ a.1 ++ "=\x22" ++ String.ofList (a.2.toList.flatMap escapedAttribute) ++ "\x22"

/-- Give a lead to every name, in order; the texts are answered in that order. -/
def nameTexts : Levels → List Name → Levels × List (Name × String)
  | levels, [] => (levels, [])
  | levels, n :: rest =>
    let (levels, text) := nameText levels n
    let (levels, texts) := nameTexts levels rest
    (levels, (n, text) :: texts)

/-- The text a name was given. -/
def textOf (texts : List (Name × String)) (n : Name) : String :=
  ((texts.find? (·.1 == n)).map Prod.snd).getD n.part

/-- The declarations to write for an element, sorted. -/
def declarationItems (level : Bindings) : List (String × String) :=
  (level.map fun b => (if b.1 = "" then "xmlns" else "xmlns:" ++ b.1, b.2)).mergeSort
    fun a b => if a.1 = b.1 then decide (a.2 ≤ b.2) else decide (a.1 < b.1)

/-- The text of a start tag. -/
def startText (levels : Levels) (tag : StartTag) : Levels × String :=
  let made := match levels.made with
    | [] => [tag.declared]
    | top :: rest => (top ++ tag.declared) :: rest
  let levels : Levels := ⟨[] :: levels.written, made⟩
  let names := (tag.name :: tag.attributes.map Prod.fst).mergeSort nameLe
  let (levels, texts) := nameTexts levels names
  let sorted := tag.attributes.mergeSort fun a b => decide (a.1.key ≤ b.1.key)
  let attributes := sorted.map fun a =>
    (if a.1.uri = "" then a.1.part else textOf texts a.1, a.2)
  let items := declarationItems (levels.written.headD []) ++ attributes
  -- One more level for what the content of the element declares.
  ({ levels with made := [] :: levels.made },
    "<" ++ textOf texts tag.name ++ String.join (items.map attributeItem) ++ ">")

/-- The text of an instruction. -/
def instructionText (target data : String) : String :=
  if data = "" then "<?" ++ target ++ "?>"
  else "<?" ++ target ++ " " ++ String.ofList (data.toList.flatMap escapedText) ++ "?>"

/-- Where the writing stands: before the root element, inside it, or after it. -/
inductive Place where
  | before
  | inside
  | behind

/-- The place after one event. -/
def placeAfter (levels : Levels) (place : Place) : Event → Place
  | .start _ => .inside
  | .finish _ => if levels.written.length ≤ 1 then .behind else .inside
  | _ => place

/-- The text of one event. -/
def eventText (levels : Levels) (place : Place) : Event → Levels × String
  | .start tag => startText levels tag
  | .finish name =>
    let (levels, text) := nameText levels name
    (⟨levels.written.drop 1, levels.made.drop 1⟩, "</" ++ text ++ ">")
  | .text cs => (levels, String.ofList (cs.flatMap escapedText))
  | .instruction target data =>
    let text := instructionText target data
    match place with
    | .before => (levels, text ++ "\n")
    | .inside => (levels, text)
    | .behind => (levels, "\n" ++ text)

/-- The texts of the events, one after the other. -/
def eventTexts : Levels → Place → String → List Event → String
  | _, _, acc, [] => acc
  | levels, place, acc, e :: rest =>
    let (levels', text) := eventText levels place e
    eventTexts levels' (placeAfter levels' place e) (acc ++ text) rest

end Canonical

/-- The canonical text of a document, if it is one. -/
def canonical? (text : String) : Option String :=
  (events? text).map (Canonical.eventTexts Canonical.Levels.start .before "")

end Routebook.Xml
