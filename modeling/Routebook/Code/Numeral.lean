/-
  Routebook.Code.Numeral

  Where a number in source text ends.  Digits may be grouped by single
  underscores; a decimal integer does not begin with a zero unless it is zero.
-/
import Routebook.Value

namespace Routebook.Code.Numeral

/-- A character that a name could go on with. -/
def isNamePart (c : Char) : Bool := c.isAlphanum || c == '_' || 128 ≤ c.toNat

/-- Whether a run of digits and underscores keeps the underscores apart and
inside; the flag tells whether an underscore would be out of place. -/
def isGrouped : Bool → List Char → Bool
  | atGap, [] => !atGap
  | atGap, '_' :: rest => !atGap && isGrouped true rest
  | _, _ :: rest => isGrouped false rest

/-- A run of digits of a kind with underscores, and what follows it. -/
def run (p : Char → Bool) (cs : List Char) : List Char × List Char :=
  cs.span fun c => p c || c == '_'

/-- A run of digits that is grouped well, and what follows it. -/
def digits (p : Char → Bool) (cs : List Char) : Option (List Char × List Char) :=
  let (ds, rest) := run p cs
  if isGrouped true ds then some (ds, rest) else none

/-- The words that may follow a number without a blank. -/
def followers : List String := ["and", "else", "for", "or", "not"]

/-- Whether a number may end here. -/
def mayEnd (rest : List Char) : Bool :=
  match rest with
  | [] => true
  | c :: more =>
    !isNamePart c ||
      followers.contains (String.ofList (rest.takeWhile isNamePart)) ||
      (c == 'i' && more.head?.any fun d => d == 'f' || d == 'n' || d == 's')

/-- What follows a number, if it may end there. -/
def ended (rest : List Char) : Option (List Char) := if mayEnd rest then some rest else none

/-- The digits of a base that is marked by a letter. -/
def baseDigit? (mark : Char) : Option (Char → Bool) :=
  match mark.toLower with
  | 'x' => some fun c =>
    c.isDigit || (decide ('a' ≤ c.toLower) && decide (c.toLower ≤ 'f'))
  | 'o' => some fun c => decide ('0' ≤ c) && decide (c ≤ '7')
  | 'b' => some fun c => c == '0' || c == '1'
  | _ => none

/-- A fraction and whether there is one: a point, and digits that may be missing. -/
def fraction (cs : List Char) : Option (Bool × List Char) :=
  match cs with
  | '.' :: rest =>
    if rest.head?.any Char.isDigit then (digits Char.isDigit rest).map fun r => (true, r.2)
    else some (true, rest)
  | _ => some (false, cs)

/-- An exponent and whether there is one: a mark, perhaps a sign, and digits. -/
def exponent (cs : List Char) : Option (Bool × List Char) :=
  match cs with
  | mark :: rest =>
    if mark.toLower ≠ 'e' then some (false, cs)
    else
      match rest with
      | c :: more =>
        if c.isDigit then (digits Char.isDigit rest).map fun r => (true, r.2)
        else if c == '+' || c == '-' then
          if more.head?.any Char.isDigit then (digits Char.isDigit more).map fun r => (true, r.2)
          else none
        else some (false, cs)
      | [] => some (false, cs)
  | [] => some (false, cs)

/-- What follows a decimal number that begins here. -/
def decimal (cs : List Char) : Option (List Char) := do
  let (whole, rest) ←
    if cs.head? == some '.' then some ([], cs) else digits Char.isDigit cs
  let (pointed, rest) ← fraction rest
  let (scaled, rest) ← exponent rest
  let (imaginary, rest) :=
    match rest with
    | c :: more => if c == 'j' || c == 'J' then (true, more) else (false, rest)
    | [] => (false, rest)
  let isInteger := !pointed && !scaled && !imaginary
  if isInteger && whole.head? == some '0' && whole.any (fun c => c != '0' && c != '_') then none
  if isInteger && Value.digitLimit < (whole.filter (· != '_')).length then none
  ended rest

/-- What follows the number that begins here. -/
def read (cs : List Char) : Option (List Char) :=
  match cs with
  | '0' :: mark :: rest =>
    match baseDigit? mark with
    | some p => do
      let body := if rest.head? == some '_' then rest.tail else rest
      let (_, rest) ← digits p body
      ended rest
    | none => decimal cs
  | _ => decimal cs

/-- Whether the number before a rest ends with the mark of imaginary ones. -/
def isImaginary (cs rest : List Char) : Bool :=
  ((cs.take (cs.length - rest.length)).getLast?).any fun c => c == 'j' || c == 'J'

end Routebook.Code.Numeral
