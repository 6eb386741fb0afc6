/-
  Routebook.Yaml.Binary

  Bytes written as text.  A character carries six bits, and four of them make
  three bytes; a last group that is not full is filled up with marks.  Any
  other character counts for nothing, and so does what follows the marks.
-/

namespace Routebook.Yaml.Binary

/-- The mark that fills up a group. -/
def mark : Char := '='

/-- The six bits that a character carries. -/
def bits? (c : Char) : Option Nat :=
  if 'A' ≤ c ∧ c ≤ 'Z' then some (c.toNat - 'A'.toNat)
  else if 'a' ≤ c ∧ c ≤ 'z' then some (c.toNat - 'a'.toNat + 26)
  else if c.isDigit then some (c.toNat - '0'.toNat + 52)
  else if c = '+' then some 62
  else if c = '/' then some 63
  else none

/-- How far a group of four characters is read, with the bits that belong to
the byte to come. -/
inductive Group where
  | empty
  | one (bits : Nat)
  | two (bits : Nat)
  | three (bits : Nat)

/-- The bytes that the rest of a text stands for, behind a group that is begun
and a number of marks in it; none if the last group is not filled up. -/
def decode : Group → Nat → List Char → Option (List UInt8)
  | .empty, _, [] => some []
  | _, _, [] => none
  | g, marks, c :: cs =>
    if c = mark then
      match g with
      | .three _ => some []
      | .two bits => if marks = 0 then decode (.two bits) 1 cs else some []
      | g => decode g marks cs
    else
      match bits? c with
      | none => decode g marks cs
      | some new =>
        match g with
        | .empty => decode (.one new) 0 cs
        | .one bits => (decode (.two (new % 16)) 0 cs).map (UInt8.ofNat (bits * 4 + new / 16) :: ·)
        | .two bits => (decode (.three (new % 4)) 0 cs).map (UInt8.ofNat (bits * 16 + new / 4) :: ·)
        | .three bits => (decode .empty 0 cs).map (UInt8.ofNat (bits * 64 + new) :: ·)

/-- The bytes that a text stands for. -/
def ofText? (text : String) : Option (List UInt8) :=
  if text.toList.all (·.toNat < 128) then decode .empty 0 text.toList else none

end Routebook.Yaml.Binary
