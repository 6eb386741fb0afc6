/-
  Routebook.Xml.Reference

  References: characters by number, the five predefined entities, and
  entities by name.  An attribute value replaces every reference and turns
  every blank into a space; where it is not plain character data the spaces
  are also run together and dropped at both ends.
-/
import Routebook.Entries
import Routebook.Xml.Name

namespace Routebook.Xml

/-- What an ampersand starts. -/
inductive Reference where
  | char (c : Char)
  | entity (name : String)

/-- The value of a hexadecimal digit. -/
def hexDigit? (c : Char) : Option Nat :=
  if '0' ≤ c ∧ c ≤ '9' then some (c.toNat - 48)
  else if 'a' ≤ c ∧ c ≤ 'f' then some (c.toNat - 87)
  else if 'A' ≤ c ∧ c ≤ 'F' then some (c.toNat - 55)
  else none

/-- The character of a number, if it may be referred to. -/
def charOfNumber? (n : Nat) : Option Char :=
  if n ≥ 0x110000 || (decide (0xD800 ≤ n) && decide (n ≤ 0xDFFF)) then none
  else
    let c := Char.ofNat n
    if isXmlChar c then some c else none

/-- The digits of a character number in a base up to its semicolon. -/
def numberRef? (base : Nat) (cs : List Char) : Option (Reference × List Char) := do
  let (ds, rest) := cs.span fun c => (hexDigit? c).any (· < base)
  if ds.isEmpty then none
  match rest with
  | ';' :: rest' =>
    let n := ds.foldl (fun n c => n * base + (hexDigit? c).getD 0) 0
    let c ← charOfNumber? n
    some (.char c, rest')
  | _ => none

/-- The character of a predefined entity. -/
def predefined? : String → Option Char
  | "lt" => some '<'
  | "gt" => some '>'
  | "amp" => some '&'
  | "quot" => some '\x22'
  | "apos" => some '\x27'
  | _ => none

/-- The reference after an ampersand, and what follows it. -/
def reference? (cs : List Char) : Option (Reference × List Char) :=
  match cs with
  | '#' :: 'x' :: rest => numberRef? 16 rest
  | '#' :: rest => numberRef? 10 rest
  | _ => do
    let (n, rest) ← name? cs
    match rest with
    | ';' :: rest' =>
      let s := String.ofList n
      match predefined? s with
      | some c => some (.char c, rest')
      | none => some (.entity s, rest')
    | _ => none

/-- What an entity stands for. -/
inductive Entity where
  /-- A replacement text. -/
  | internal (text : List Char)
  /-- Something outside the document. -/
  | external

/-- How a name that no entity has is treated. -/
inductive Unknown where
  /-- It is a mistake. -/
  | refuse
  /-- Declarations were skipped, so it may exist. -/
  | skip

/-- How many bytes of replacement text may be read for a document: no more
than a hundred times its own size, and at least eight megabytes. -/
def replacementBudget (documentSize : Nat) : Nat := max (8 * 1024 * 1024) (100 * documentSize)

/-- The size of a text in bytes. -/
def byteSize (cs : List Char) : Nat := cs.foldl (fun n c => n + c.utf8Size) 0

/-- Use some of a budget up. -/
def spend? (budget : Nat) (text : List Char) : Option Nat :=
  let size := byteSize text
  if size ≤ budget then some (budget - size) else none

/-- The value of an attribute: references replaced, blanks turned into spaces.
`within` names the entities that are being replaced; an entity may not stand
inside itself, and markup may not come out of one.  What is left of the budget
is answered with the value. -/
def attributeText (entities : Entries Entity) (unknown : Unknown) :
    Nat → Nat → List String → List Char → Option (List Char × Nat)
  | 0, _, _, _ => none
  | fuel + 1, budget, within, cs =>
    match cs with
    | [] => some ([], budget)
    | '<' :: _ => none
    | '&' :: rest => do
      let (r, rest') ← reference? rest
      let (head, budget') ←
        match r with
        | .char c => some ([c], budget)
        | .entity n =>
          if within.contains n then none
          else
            match Entries.get? n entities with
            | some (.internal text) => do
              let left ← spend? budget text
              attributeText entities unknown fuel left (n :: within) text
            | some .external => none
            | none =>
              match unknown with
              | .refuse => none
              | .skip => some ([], budget)
      let (tail, budget'') ← attributeText entities unknown fuel budget' within rest'
      some (head ++ tail, budget'')
    | c :: rest => do
      let (tail, budget') ← attributeText entities unknown fuel budget within rest
      some ((if isBlank c then ' ' else c) :: tail, budget')

/-- Run spaces together and drop them at both ends. -/
def collapseSpaces (cs : List Char) : List Char :=
  let rec go (blank : Bool) : List Char → List Char
    | [] => []
    | ' ' :: rest => go true rest
    | c :: rest => if blank then ' ' :: c :: go false rest else c :: go false rest
  go false (cs.dropWhile (· == ' '))

end Routebook.Xml
