/-
  Routebook.Xml.Doctype

  Document types: the declarations of the internal subset.  Of what is
  declared, entities, the types of attributes and their defaults count; the
  rest only has to be well-formed.  Once a parameter entity is referred to,
  later declarations are passed over, unless the document stands alone.
-/
import Routebook.Text.LineEnd
import Routebook.Xml.Reference

namespace Routebook.Xml

/-- A declared attribute. -/
structure AttributeRule where
  subject : Written
  /-- Plain character data, not tokens. -/
  plain : Bool
  /-- The default value. -/
  default : Option (List Char)

/-- What the document type declares. -/
structure Doctype where
  entities : Entries Entity
  /-- The attributes declared for an element, in order. -/
  attributes : Entries (List AttributeRule)
  /-- Some declarations lie outside the document. -/
  partlyUnread : Bool
  /-- The document declares that it stands alone. -/
  standalone : Bool
  /-- Declarations still count. -/
  reading : Bool
  /-- The processing instructions met, last first. -/
  instructions : List (String × String)
  /-- How much more replacement text may be read. -/
  budget : Nat

/-- No declarations. -/
def Doctype.empty (standalone : Bool) (budget : Nat) : Doctype :=
  ⟨[], [], false, standalone, true, [], budget⟩

/-- A bound on the steps that replacing references takes: no entity stands
inside itself, so the texts that are open at once are all different. -/
def Doctype.depthBound (d : Doctype) (cs : List Char) : Nat :=
  d.entities.foldl
    (fun n e => n + 1 + match e.2 with | .internal text => text.length | .external => 0)
    (cs.length + 2)

/-- How an unknown entity is treated. -/
def Doctype.unknown (d : Doctype) : Unknown :=
  if d.partlyUnread && !d.standalone then .skip else .refuse

namespace Doctype

/-! ## Tokens of declarations -/

/-- A token inside a declaration. -/
inductive Tok where
  | name (w : Written)
  /-- Name characters that are no name. -/
  | nameToken (s : String)
  /-- A name with an occurrence mark. -/
  | marked (w : Written)
  | literal (cs : List Char)
  | hashed (s : String)
  | percent
  | openParen
  /-- A closing parenthesis and its occurrence mark. -/
  | closeParen (mark : Option Char)
  | comma
  | bar
  | openBracket
  | close

/-- What may follow a name directly. -/
def endsName (rest : List Char) : Bool :=
  match rest with
  | [] => false
  | c :: _ => isBlank c || c == '>' || c == ')' || c == ',' || c == '|' || c == '[' || c == '%'

/-- A name or name token, and what follows it. -/
def word? (cs : List Char) : Option (Tok × List Char) := do
  let (chars, rest) := cs.span fun c => isNameChar c || c == ':'
  let c ← chars.head?
  if c == ':' then none
  let text := String.ofList chars
  match qualified? chars with
  | some (w, []) =>
    match rest with
    | '?' :: rest' => some (.marked w, rest')
    | '*' :: rest' => some (.marked w, rest')
    | '+' :: rest' => some (.marked w, rest')
    | _ => if endsName rest then some (.name w, rest) else none
  | _ => if endsName rest then some (.nameToken text, rest) else none

/-- What may follow a closing parenthesis directly. -/
def endsGroup (rest : List Char) : Bool :=
  match rest with
  | [] => false
  | c :: _ => isBlank c || c == '>' || c == ',' || c == '|' || c == ')'

/-- The token a text starts with, blank space aside. -/
def token? (cs : List Char) : Option (Tok × List Char) :=
  match skipBlank cs with
  | [] => none
  | '>' :: rest => some (.close, rest)
  | '(' :: rest => some (.openParen, rest)
  | ',' :: rest => some (.comma, rest)
  | '|' :: rest => some (.bar, rest)
  | '[' :: rest => some (.openBracket, rest)
  | ')' :: rest =>
    match rest with
    | '*' :: rest' => some (.closeParen (some '*'), rest')
    | '?' :: rest' => some (.closeParen (some '?'), rest')
    | '+' :: rest' => some (.closeParen (some '+'), rest')
    | _ => if endsGroup rest then some (.closeParen none, rest) else none
  | '%' :: rest =>
    match rest with
    | c :: _ => if isBlank c || c == '%' then some (.percent, rest) else none
    | [] => none
  | '#' :: rest => do
    let (n, rest') ← name? rest
    match rest' with
    | c :: _ =>
      if isBlank c || c == ')' || c == '>' || c == '%' || c == '|' then
        some (.hashed (String.ofList n), rest')
      else none
    | [] => none
  | c :: rest =>
    if c == '\x22' || c == '\x27' then
      let (body, rest') := rest.span (· != c)
      match rest' with
      | _ :: d :: tail =>
        if isBlank d || d == '>' || d == '%' || d == '[' then some (.literal body, d :: tail)
        else none
      | _ => none
    else word? (c :: rest)

/-- The end of a declaration. -/
def close? (cs : List Char) : Option (List Char) := do
  let (t, rest) ← token? cs
  match t with
  | .close => some rest
  | _ => none

/-- A literal. -/
def literal? (cs : List Char) : Option (List Char × List Char) := do
  let (t, rest) ← token? cs
  match t with
  | .literal body => some (body, rest)
  | _ => none

/-- A name that has no colon. -/
def plainName? (cs : List Char) : Option (String × List Char) := do
  let (t, rest) ← token? cs
  match t with
  | .name ⟨none, s⟩ => some (s, rest)
  | _ => none

/-- A name, with or without a colon. -/
def anyName? (cs : List Char) : Option (Written × List Char) := do
  let (t, rest) ← token? cs
  match t with
  | .name w => some (w, rest)
  | _ => none

/-- Characters of a public identifier. -/
def isPublicChar (c : Char) : Bool :=
  c.isAlphanum || c == ' ' || c == '\n' || c == '\r' ||
    ("-'()+,./:=?;!*#@$_%".toList.contains c)

/-- A public identifier. -/
def publicId? (cs : List Char) : Option (List Char) := do
  let (body, rest) ← literal? cs
  if body.all isPublicChar then some rest else none

/-! ## Entities -/

/-- The replacement text of an entity: character references are replaced at
once, entity references stay, and a percent sign has no place in it. -/
def entityText? : Nat → List Char → Option (List Char)
  | 0, _ => none
  | fuel + 1, cs =>
    match cs with
    | [] => some []
    | '%' :: _ => none
    | '&' :: rest =>
      match rest with
      | '#' :: _ => do
        let (r, rest') ← reference? rest
        match r with
        | .char c => (entityText? fuel rest').map (c :: ·)
        | .entity _ => none
      | _ => do
        let (_, rest') ← reference? rest
        let kept := rest.take (rest.length - rest'.length)
        (entityText? fuel rest').map fun tail => '&' :: (kept ++ tail)
    | c :: rest => (entityText? fuel rest).map (c :: ·)

/-- Declare a general entity; the first declaration of a name counts. -/
def declareEntity (d : Doctype) (name : String) (e : Entity) : Doctype :=
  if d.reading && (predefined? name).isNone then
    -- Of several declarations the first one counts.
    { d with entities := Entries.putNew name e d.entities }
  else d

/-- After the system identifier of an entity: the end, or a notation. -/
def entityTail? (unparsed : Bool) (cs : List Char) : Option (List Char) := do
  let (t, rest) ← token? cs
  match t with
  | .close => some rest
  | .name ⟨none, "NDATA"⟩ =>
    if unparsed then do
      let (_, rest') ← plainName? rest
      close? rest'
    else none
  | _ => none

/-- The definition of an entity after its name. -/
def entityDefinition? (d : Doctype) (general : Bool) (cs : List Char) :
    Option (Entity × List Char) := do
  let (t, rest) ← token? cs
  match t with
  | .literal body =>
    if d.reading then do
      let text ← entityText? (body.length + 1) body
      let rest' ← close? rest
      some (.internal (Text.singleLineEnds text), rest')
    else do
      let rest' ← close? rest
      some (.internal [], rest')
  | .name ⟨none, "SYSTEM"⟩ => do
    let (_, rest') ← literal? rest
    let rest'' ← entityTail? general rest'
    some (.external, rest'')
  | .name ⟨none, "PUBLIC"⟩ => do
    let rest' ← publicId? rest
    let (_, rest'') ← literal? rest'
    let rest''' ← entityTail? general rest''
    some (.external, rest''')
  | _ => none

/-- An entity declaration after its keyword. -/
def entityDecl? (d : Doctype) (cs : List Char) : Option (Doctype × List Char) := do
  let (t, rest) ← token? cs
  match t with
  | .percent => do
    let (_, rest') ← plainName? rest
    let (_, rest'') ← entityDefinition? d false rest'
    some (d, rest'')
  | .name ⟨none, n⟩ => do
    let (e, rest') ← entityDefinition? d true rest
    some (d.declareEntity n e, rest')
  | _ => none

/-! ## Attributes -/

/-- The attribute types that are single words. -/
def tokenTypes : List String :=
  ["ID", "IDREF", "IDREFS", "ENTITY", "ENTITIES", "NMTOKEN", "NMTOKENS"]

/-- The rest of a list of alternatives in parentheses. -/
def alternatives? (names : Bool) : Nat → List Char → Option (List Char)
  | 0, _ => none
  | fuel + 1, cs => do
    let (t, rest) ← token? cs
    let fits :=
      match t with
      | .name ⟨none, _⟩ => true
      | .name _ => !names
      | .nameToken _ => !names
      | _ => false
    if !fits then none
    let (t', rest') ← token? rest
    match t' with
    | .bar => alternatives? names fuel rest'
    | .closeParen none => some rest'
    | _ => none

/-- The type of an attribute: whether it is plain character data. -/
def attributeType? (cs : List Char) : Option (Bool × List Char) := do
  let (t, rest) ← token? cs
  match t with
  | .name ⟨none, "CDATA"⟩ => some (true, rest)
  | .name ⟨none, "NOTATION"⟩ => do
    let (t', rest') ← token? rest
    match t' with
    | .openParen => (alternatives? true (rest'.length + 1) rest').map fun r => (false, r)
    | _ => none
  | .name ⟨none, w⟩ => if tokenTypes.contains w then some (false, rest) else none
  | .openParen => (alternatives? false (rest.length + 1) rest).map fun r => (false, r)
  | _ => none

/-- The value of a default, once its references are replaced. -/
def defaultText? (d : Doctype) (plain : Bool) (body : List Char) :
    Option (Doctype × List Char) := do
  if !d.reading then return (d, [])
  let (text, budget) ← attributeText d.entities d.unknown (d.depthBound body) d.budget [] body
  return ({ d with budget := budget }, if plain then text else collapseSpaces text)

/-- The default of an attribute: none, or a value. -/
def attributeDefault? (d : Doctype) (plain : Bool) (cs : List Char) :
    Option (Doctype × Option (List Char) × List Char) := do
  let (t, rest) ← token? cs
  match t with
  | .hashed "IMPLIED" => some (d, none, rest)
  | .hashed "REQUIRED" => some (d, none, rest)
  | .hashed "FIXED" => do
    let (body, rest') ← literal? rest
    let (d', text) ← d.defaultText? plain body
    some (d', some text, rest')
  | .literal body => do
    let (d', text) ← d.defaultText? plain body
    some (d', some text, rest)
  | _ => none

/-- Declare an attribute; a later default of the same attribute does not count. -/
def declareAttribute (d : Doctype) (element : Written) (rule : AttributeRule) : Doctype :=
  if !d.reading then d
  else
    let rules := (Entries.get? element.text d.attributes).getD []
    if rule.default.isSome && rules.any (·.subject == rule.subject) then d
    else { d with attributes := Entries.put element.text (rules ++ [rule]) d.attributes }

/-- The attributes of an attribute list declaration. -/
def attributeList? (element : Written) : Nat → Doctype → List Char →
    Option (Doctype × List Char)
  | 0, _, _ => none
  | fuel + 1, d, cs => do
    let (t, rest) ← token? cs
    match t with
    | .close => some (d, rest)
    | .name w => do
      let (plain, rest') ← attributeType? rest
      let (d', default, rest'') ← d.attributeDefault? plain rest'
      attributeList? element fuel (d'.declareAttribute element ⟨w, plain, default⟩) rest''
    | _ => none

/-! ## Elements and notations -/

/-- The rest of `(#PCDATA | a | b)*`, after `#PCDATA`. -/
def mixed? : Nat → Bool → List Char → Option (List Char)
  | 0, _, _ => none
  | fuel + 1, hasNames, cs => do
    let (t, rest) ← token? cs
    match t with
    | .closeParen (some '*') => close? rest
    | .closeParen none => if hasNames then none else close? rest
    | .bar => do
      let (_, rest') ← anyName? rest
      mixed? fuel true rest'
    | _ => none

/-- The rest of a group of children.  `separators` holds, for every open
group from the inside out, the separator it uses so far; a group uses one
separator throughout. -/
def children? : Nat → Bool → List (Option Bool) → List Char → Option (List Char)
  | 0, _, _, _ => none
  | fuel + 1, wantsItem, separators, cs => do
    let (t, rest) ← token? cs
    if wantsItem then
      match t with
      | .openParen => children? fuel true (none :: separators) rest
      | .name _ => children? fuel false separators rest
      | .marked _ => children? fuel false separators rest
      | _ => none
    else
      match separators with
      | [] => none
      | sep :: outer =>
        match t with
        | .comma =>
          if sep == some true then none else children? fuel true (some false :: outer) rest
        | .bar =>
          if sep == some false then none else children? fuel true (some true :: outer) rest
        | .closeParen _ =>
          if outer.isEmpty then close? rest else children? fuel false outer rest
        | _ => none

/-- An element declaration after its keyword. -/
def elementDecl? (cs : List Char) : Option (List Char) := do
  let (_, rest) ← anyName? cs
  let (t, rest') ← token? rest
  match t with
  | .name ⟨none, "EMPTY"⟩ => close? rest'
  | .name ⟨none, "ANY"⟩ => close? rest'
  | .openParen => do
    let (t', rest'') ← token? rest'
    match t' with
    | .hashed "PCDATA" => mixed? (rest''.length + 1) false rest''
    | _ => children? (rest'.length + 1) true [none] rest'
  | _ => none

/-- A notation declaration after its keyword. -/
def notationDecl? (cs : List Char) : Option (List Char) := do
  let (_, rest) ← plainName? cs
  let (t, rest') ← token? rest
  match t with
  | .name ⟨none, "SYSTEM"⟩ => do
    let (_, rest'') ← literal? rest'
    close? rest''
  | .name ⟨none, "PUBLIC"⟩ => do
    let rest'' ← publicId? rest'
    let (t', rest''') ← token? rest''
    match t' with
    | .close => some rest'''
    | .literal _ => close? rest'''
    | _ => none
  | _ => none

end Doctype

/-! ## Comments and instructions -/

/-- What follows a comment, after its opening mark; two hyphens only end it. -/
def comment? : List Char → Option (List Char)
  | '-' :: '-' :: '>' :: rest => some rest
  | '-' :: '-' :: _ => none
  | _ :: rest => comment? rest
  | [] => none

/-- The data of an instruction up to its closing mark; `acc` is last first. -/
def instructionData? (acc : List Char) : List Char → Option (List Char × List Char)
  | '?' :: '>' :: rest => some (acc.reverse, rest)
  | c :: rest => instructionData? (c :: acc) rest
  | [] => none

/-- An instruction after its opening mark: target, data and what follows. -/
def instruction? (cs : List Char) : Option ((String × String) × List Char) := do
  let (target, rest) ← name? cs
  let word := String.ofList target
  if String.ofList (target.map Char.toLower) == "xml" then none
  match rest with
  | '?' :: '>' :: rest' => some ((word, ""), rest')
  | c :: _ =>
    if isBlank c then do
      let (data, rest') ← instructionData? [] (skipBlank rest)
      some ((word, String.ofList data), rest')
    else none
  | [] => none

namespace Doctype

/-! ## The internal subset -/

/-- One declaration after `<!`; its keyword is followed by blank space. -/
def declaration? (d : Doctype) (cs : List Char) : Option (Doctype × List Char) := do
  let (word, rest) := cs.span Char.isAlpha
  match rest with
  | c :: _ =>
    if !isBlank c then none
    match String.ofList word with
    | "ENTITY" => d.entityDecl? rest
    | "ATTLIST" => do
      let (element, rest') ← anyName? rest
      attributeList? element (rest'.length + 1) d rest'
    | "ELEMENT" => (elementDecl? rest).map fun r => (d, r)
    | "NOTATION" => (notationDecl? rest).map fun r => (d, r)
    | _ => none
  | [] => none

/-- The declarations up to the closing bracket. -/
def subset? : Nat → Doctype → List Char → Option (Doctype × List Char)
  | 0, _, _ => none
  | fuel + 1, d, cs =>
    match skipBlank cs with
    | ']' :: rest => some (d, rest)
    | '<' :: '!' :: '-' :: '-' :: rest => do
      let rest' ← comment? rest
      subset? fuel d rest'
    | '<' :: '?' :: rest => do
      let (pi, rest') ← instruction? rest
      subset? fuel { d with instructions := pi :: d.instructions } rest'
    | '<' :: '!' :: rest => do
      let (d', rest') ← d.declaration? rest
      subset? fuel d' rest'
    | '%' :: rest => do
      let (_, rest') ← name? rest
      match rest' with
      | ';' :: rest'' =>
        subset? fuel { d with partlyUnread := true, reading := d.standalone } rest''
      | _ => none
    | _ => none

/-- After the name and the identifiers: the subset, if there is one, and the end. -/
def body? (d : Doctype) (cs : List Char) : Option (Doctype × List Char) := do
  let (t, rest) ← token? cs
  match t with
  | .close => some (d, rest)
  | .openBracket => do
    let (d', rest') ← subset? (rest.length + 1) d rest
    let rest'' ← close? rest'
    some (d', rest'')
  | _ => none

/-- A document type after its keyword.  One with a part outside the document
is only partly read. -/
def read? (standalone : Bool) (budget : Nat) (cs : List Char) : Option (Doctype × List Char) := do
  match cs with
  | c :: _ => if !isBlank c then none
  | [] => none
  let d := Doctype.empty standalone budget
  let outside (found : Option (Doctype × List Char)) : Option (Doctype × List Char) :=
    found.map fun (d', rest) => ({ d' with partlyUnread := true }, rest)
  let (_, rest) ← anyName? cs
  let (t, rest') ← token? rest
  match t with
  | .name ⟨none, "SYSTEM"⟩ => do
    let (_, rest'') ← literal? rest'
    outside (d.body? rest'')
  | .name ⟨none, "PUBLIC"⟩ => do
    let rest'' ← publicId? rest'
    let (_, rest''') ← literal? rest''
    outside ({ d with partlyUnread := true }.body? rest''')
  | _ => d.body? rest

end Doctype

end Routebook.Xml
