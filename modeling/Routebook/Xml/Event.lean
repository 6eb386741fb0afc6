/-
  Routebook.Xml.Event

  A document as a list of events: start tags with resolved names, end tags,
  text and instructions.  References in content are replaced by the text of
  their entities, which is read as content again; an entity opens and closes
  the same elements and never stands inside itself.
-/
import Routebook.Xml.Binding

namespace Routebook.Xml

/-- What happens while a document is read. -/
inductive Event where
  | start (tag : StartTag)
  | finish (name : Name)
  | text (cs : List Char)
  | instruction (target data : String)

/-- An element that is open. -/
structure OpenElement where
  written : Written
  name : Name
  /-- The bindings around the element. -/
  around : Bindings

/-- Where the reading of content stands. -/
structure Reading where
  doctype : Doctype
  bindings : Bindings
  /-- The open elements, innermost first. -/
  opened : List OpenElement
  /-- The events so far, last first. -/
  events : List Event

namespace Reading

/-- Add an event. -/
def emit (r : Reading) (e : Event) : Reading := { r with events := e :: r.events }

/-- Add a character; runs of characters are one text. -/
def emitChar (r : Reading) (c : Char) : Reading := r.emit (.text [c])

/-- Take a piece that needs no expansion. -/
def take? (r : Reading) : Markup → Option Reading
  | .start name written empty => do
    let (d, tag, bindings) ← StartTag.resolve? r.doctype r.bindings name written
    if empty then
      some (({ r with doctype := d }.emit (.start tag)).emit (.finish tag.name))
    else
      some ({ r with
        doctype := d, bindings := bindings,
        opened := ⟨name, tag.name, r.bindings⟩ :: r.opened }.emit (.start tag))
  | .finish name =>
    match r.opened with
    | [] => none
    | e :: outer =>
      if e.written == name then
        some ({ r with bindings := e.around, opened := outer }.emit (.finish e.name))
      else none
  | .char c => some (r.emitChar c)
  | .reference (.char c) => some (r.emitChar c)
  | .reference (.entity _) => none
  | .characters cs => some (r.emit (.text cs))
  | .comment => some r
  | .instruction target data => some (r.emit (.instruction target data))

/-- Read content.  No element below the `floor` open ones may be closed; with
a floor of zero the reading ends once no element is open, else at the end of
the text.  What is left of the text is answered as well. -/
def content? : Nat → List String → Nat → Reading → List Char → Option (Reading × List Char)
  | 0, _, _, _, _ => none
  | fuel + 1, within, floor, r, cs =>
    match cs with
    | [] => if r.opened.length = floor then some (r, []) else none
    | _ =>
      match Markup.first? cs with
      | none => none
      | some (.reference (.entity n), rest) =>
        -- An entity that stands inside itself would be replaced for ever.
        if within.contains n then none
        else
          match Entries.get? n r.doctype.entities with
          | some (.internal text) =>
            match spend? r.doctype.budget text with
            | none => none
            | some left =>
              let r' := { r with doctype := { r.doctype with budget := left } }
              -- Its text may close no element that was open before it.
              match content? fuel (n :: within) r'.opened.length r' text with
              | some (r'', []) => content? fuel within floor r'' rest
              | _ => none
          | _ => none
      | some (piece, rest) =>
        match r.take? piece with
        | none => none
        | some r' =>
          if r'.opened.length < floor then none
          else if r'.opened.isEmpty then some (r', rest)
          else content? fuel within floor r' rest

end Reading

/-! ## Around the root element -/

/-- A quoted value of the declaration at the start, after its name. -/
def declared? (cs : List Char) : Option (List Char × List Char) :=
  match skipBlank cs with
  | '=' :: rest =>
    match skipBlank rest with
    | q :: body =>
      if q == '\x22' || q == '\x27' then
        match body.span (· != q) with
        | (value, _ :: rest') =>
          if value.all fun c => c.isAlphanum || c == '.' || c == '_' || c == '-' then
            some (value, rest')
          else none
        | _ => none
      else none
    | [] => none
  | _ => none

/-- An item of the declaration: blank space, its name and its value. -/
def declarationItem? (word : String) (cs : List Char) : Option (List Char × List Char) :=
  match cs with
  | c :: _ => if isBlank c then (after? word.toList (skipBlank cs)).bind declared? else none
  | [] => none

/-- The declaration at the start, after its opening mark: whether the document
stands alone, and what follows. -/
def declaration? (cs : List Char) : Option (Bool × List Char) := do
  let (_, rest) ← declarationItem? "version" cs
  let rest' ←
    match declarationItem? "encoding" rest with
    | some (value, rest') =>
      match value with
      | c :: _ => if c.isAlpha then some rest' else none
      | [] => none
    | none => some rest
  let (alone, rest'') ←
    match declarationItem? "standalone" rest' with
    | some (value, rest'') =>
      if value == "yes".toList then some (true, rest'')
      else if value == "no".toList then some (false, rest'')
      else none
    | none => some (false, rest')
  match skipBlank rest'' with
  | '?' :: '>' :: tail => some (alone, tail)
  | _ => none

/-- Instructions and comments; the instructions are added last first. -/
def misc? : Nat → List Event → List Char → Option (List Event × List Char)
  | 0, _, _ => none
  | fuel + 1, acc, cs =>
    match skipBlank cs with
    | '<' :: '?' :: rest =>
      match instruction? rest with
      | some ((target, data), rest') => misc? fuel (.instruction target data :: acc) rest'
      | none => none
    | '<' :: '!' :: '-' :: '-' :: rest =>
      match comment? rest with
      | some rest' => misc? fuel acc rest'
      | none => none
    | rest => some (acc, rest)

/-- A document type, if one stands here. -/
def doctype? (alone : Bool) (budget : Nat) (cs : List Char) : Option (Doctype × List Char) :=
  match after? "<!DOCTYPE".toList cs with
  | some rest => Doctype.read? alone budget rest
  | none => some (Doctype.empty alone budget, cs)

/-- The events of a document whose line ends are single line feeds. -/
def eventsOf? (cs : List Char) : Option (List Event) := do
  if !cs.all isXmlChar then none
  let budget := replacementBudget (byteSize cs)
  let (alone, rest) ←
    match after? "<?xml".toList cs with
    | some (c :: rest) => if isBlank c then declaration? (c :: rest) else some (false, cs)
    | _ => some (false, cs)
  let (before, rest) ← misc? (rest.length + 1) [] rest
  let (d, rest) ← doctype? alone budget rest
  let before := d.instructions.map (fun i => .instruction i.1 i.2) ++ before
  let (before, rest) ← misc? (rest.length + 1) before rest
  match rest with
  | '<' :: tag => let _ ← qualified? tag
  | _ => none
  let fuel := d.depthBound rest
  let (r, rest) ← Reading.content? fuel [] 0 ⟨d, Bindings.start, [], before⟩ rest
  if !r.opened.isEmpty then none
  let (events, rest) ← misc? (rest.length + 1) r.events rest
  if rest.isEmpty then some events.reverse else none

/-- The events of a document; one mark of byte order in front is dropped. -/
def events? (text : String) : Option (List Event) :=
  match Text.singleLineEnds text.toList with
  | '\ufeff' :: rest => eventsOf? rest
  | cs => eventsOf? cs

end Routebook.Xml
