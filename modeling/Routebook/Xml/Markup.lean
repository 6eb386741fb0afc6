/-
  Routebook.Xml.Markup

  The pieces that content is made of, as they are written: tags with their
  raw attribute values, references, single characters, sections, comments
  and instructions.  Names are not yet resolved and nothing is expanded.
-/
import Routebook.Xml.Doctype

namespace Routebook.Xml

/-- A piece of content. -/
inductive Markup where
  /-- A start tag, or a whole element if it is empty. -/
  | start (name : Written) (attributes : List (Written × List Char)) (empty : Bool)
  | finish (name : Written)
  | char (c : Char)
  | reference (r : Reference)
  | characters (cs : List Char)
  | comment
  | instruction (target data : String)

namespace Markup

/-- The characters of a section after its opening mark; `acc` is last first. -/
def section? (acc : List Char) : List Char → Option (List Char × List Char)
  | ']' :: ']' :: '>' :: rest => some (acc.reverse, rest)
  | c :: rest => section? (c :: acc) rest
  | [] => none

/-- One attribute: a name, an equals sign and a quoted value. -/
def attribute? (cs : List Char) : Option ((Written × List Char) × List Char) := do
  let (name, rest) ← qualified? cs
  match skipBlank rest with
  | '=' :: rest' =>
    match skipBlank rest' with
    | q :: body =>
      if q == '\x22' || q == '\x27' then
        match body.span (· != q) with
        | (value, _ :: rest'') => some ((name, value), rest'')
        | _ => none
      else none
    | [] => none
  | _ => none

/-- The attributes of a tag and whether it closes itself; blank space stands
before each attribute. -/
def attributes? : Nat → List (Written × List Char) → List Char →
    Option (List (Written × List Char) × Bool × List Char)
  | 0, _, _ => none
  | fuel + 1, acc, cs =>
    match cs with
    | '>' :: rest => some (acc.reverse, false, rest)
    | '/' :: '>' :: rest => some (acc.reverse, true, rest)
    | c :: _ =>
      if isBlank c then
        match skipBlank cs with
        | '>' :: rest => some (acc.reverse, false, rest)
        | '/' :: '>' :: rest => some (acc.reverse, true, rest)
        | cs' => do
          let (a, rest) ← attribute? cs'
          attributes? fuel (a :: acc) rest
      else none
    | [] => none

/-- A tag after its opening mark. -/
def tag? (cs : List Char) : Option (Markup × List Char) := do
  let (name, rest) ← qualified? cs
  let (attributes, empty, rest') ← attributes? (rest.length + 1) [] rest
  some (.start name attributes empty, rest')

/-- An end tag after its opening mark. -/
def endTag? (cs : List Char) : Option (Markup × List Char) := do
  let (name, rest) ← qualified? cs
  match skipBlank rest with
  | '>' :: rest' => some (.finish name, rest')
  | _ => none

/-- The piece a text starts with, and what follows it.  The mark that closes
a section may not stand alone. -/
def first? : List Char → Option (Markup × List Char)
  | '<' :: '/' :: rest => endTag? rest
  | '<' :: '?' :: rest => (instruction? rest).map fun r => (.instruction r.1.1 r.1.2, r.2)
  | '<' :: '!' :: '-' :: '-' :: rest => (comment? rest).map fun r => (.comment, r)
  | '<' :: '!' :: '[' :: 'C' :: 'D' :: 'A' :: 'T' :: 'A' :: '[' :: rest =>
    (section? [] rest).map fun r => (.characters r.1, r.2)
  | '<' :: rest => tag? rest
  | '&' :: rest => (reference? rest).map fun r => (.reference r.1, r.2)
  | ']' :: ']' :: '>' :: _ => none
  | c :: rest => some (.char c, rest)
  | [] => none

end Markup

end Routebook.Xml
