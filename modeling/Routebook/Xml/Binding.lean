/-
  Routebook.Xml.Binding

  Namespaces: what the leads of names are bound to.  An element declares
  bindings by attributes of its own or by defaults of the document type; a
  name with a lead that is not bound is a mistake, and so is an attribute
  given twice, be it under two leads of one namespace.
-/
import Routebook.Xml.Markup

namespace Routebook.Xml

/-- The namespaces of leads, innermost first; the lead of the default
namespace is empty, and an empty namespace is none. -/
abbrev Bindings := List (String × String)

namespace Bindings

/-- Before any declaration only `xml` is bound. -/
def start : Bindings := [("xml", xmlNamespace)]

/-- The namespace a lead is bound to. -/
def uri? (bindings : Bindings) (lead : String) : Option String :=
  (bindings.find? (·.1 == lead)).map Prod.snd

/-- Whether a lead may be bound to a namespace. -/
def mayBind (lead uri : String) : Bool :=
  (lead == "" || uri != "") && lead != "xmlns" && ((lead == "xml") == (uri == xmlNamespace)) &&
    uri != xmlnsNamespace && !uri.toList.contains '\x7d'

end Bindings

/-- The lead an attribute binds, if it is a declaration. -/
def Written.binds? (w : Written) : Option String :=
  match w.lead with
  | some "xmlns" => some w.rest
  | some _ => none
  | none => if w.rest == "xmlns" then some "" else none

/-- A start tag with its names resolved. -/
structure StartTag where
  name : Name
  attributes : List (Name × String)
  /-- The bindings the element declares, in order. -/
  declared : Bindings

namespace StartTag

/-- The rules the document type has for an element. -/
def rulesFor (d : Doctype) (element : Written) : List AttributeRule :=
  (Entries.get? element.text d.attributes).getD []

/-- The value of a given attribute, once its references are replaced. -/
def givenValue? (d : Doctype) (rules : List AttributeRule) (a : Written × List Char) :
    Option (Doctype × Written × String) := do
  let (text, budget) ← attributeText d.entities d.unknown (d.depthBound a.2) d.budget [] a.2
  let plain := ((rules.find? (·.subject == a.1)).map AttributeRule.plain).getD true
  return ({ d with budget := budget }, a.1,
    String.ofList (if plain then text else collapseSpaces text))

/-- The values of the given attributes; none may be given twice. -/
def givenValues? (rules : List AttributeRule) :
    Doctype → List (Written × String) → List (Written × List Char) →
      Option (Doctype × List (Written × String))
  | d, acc, [] => some (d, acc.reverse)
  | d, acc, a :: rest => do
    if acc.any (·.1 == a.1) then none
    let (d', name, value) ← givenValue? d rules a
    givenValues? rules d' ((name, value) :: acc) rest

/-- The attributes that come from defaults: those that are not given. -/
def defaultValues (rules : List AttributeRule) (given : List (Written × String)) :
    List (Written × String) :=
  rules.filterMap fun rule =>
    match rule.default with
    | none => none
    | some value =>
      if given.any (·.1 == rule.subject) then none else some (rule.subject, String.ofList value)

/-- The bindings among the attributes, if all of them may be made. -/
def declarations? (attributes : List (Written × String)) : Option Bindings :=
  (attributes.filterMap fun a => a.1.binds?.map fun lead => (lead, a.2)).mapM fun b =>
    if Bindings.mayBind b.1 b.2 then some b else none

/-- The name of an attribute: without a lead it has no namespace. -/
def attributeName? (bindings : Bindings) (w : Written) : Option Name :=
  match w.lead with
  | none => some ⟨"", w.rest⟩
  | some lead => (bindings.uri? lead).map fun uri => ⟨uri, w.rest⟩

/-- The name of an element: without a lead it is in the default namespace. -/
def elementName? (bindings : Bindings) (w : Written) : Option Name :=
  match w.lead with
  | none => some ⟨(bindings.uri? "").getD "", w.rest⟩
  | some lead => (bindings.uri? lead).map fun uri => ⟨uri, w.rest⟩

/-- The attributes that are no declarations under their names; none may occur twice. -/
def attributes? (bindings : Bindings) (attributes : List (Written × String)) :
    Option (List (Name × String)) := do
  let named ← (attributes.filter fun a => a.1.binds?.isNone).mapM fun a =>
    (attributeName? bindings a.1).map fun n => (n, a.2)
  let keys := named.map fun a => a.1.key
  if keys.eraseDups.length = keys.length then some named else none

/-- Resolve a start tag inside the bindings around it. -/
def resolve? (d : Doctype) (around : Bindings) (name : Written)
    (written : List (Written × List Char)) : Option (Doctype × StartTag × Bindings) := do
  let rules := rulesFor d name
  let (d', given) ← givenValues? rules d [] written
  let all := given ++ defaultValues rules given
  let declared ← declarations? all
  let bindings := declared.reverse ++ around
  let attributes ← attributes? bindings all
  let element ← elementName? bindings name
  return (d', ⟨element, attributes, declared⟩, bindings)

end StartTag

end Routebook.Xml
