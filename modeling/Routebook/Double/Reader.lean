/-
  Routebook.Double.Reader

  Numbers from text: an optional sign, then `inf`, `infinity` or `nan` in any
  case, or digits with at most one point and at most one exponent.  Blank
  space around the text is dropped; single underscores inside it are ignored.
-/
import Routebook.Double.Basic

namespace Routebook.Double

/-- Blank space that may stand around a number. -/
def isOuterBlank (c : Char) : Bool :=
  c == ' ' || c == '\t' || c == '\n' || c == '\r' || c == '\x0b' || c == '\x0c'

/-- The characters without blank space at either end. -/
def trimBlank (cs : List Char) : List Char :=
  ((cs.dropWhile isOuterBlank).reverse.dropWhile isOuterBlank).reverse

/-- The value of a run of digits. -/
def runValue (ds : List Char) : Nat := ds.foldl (fun n c => n * 10 + (c.toNat - 48)) 0

/-- An exponent: a mark, an optional sign and at least one digit; nothing follows. -/
def readExponent? : List Char → Option Int
  | [] => some 0
  | mark :: rest =>
    if mark = 'e' || mark = 'E' then
      let (negative, ds) :=
        match rest with
        | '-' :: r => (true, r)
        | '+' :: r => (false, r)
        | r => (false, r)
      if ds.isEmpty || !ds.all Char.isDigit then none
      else some (if negative then -(runValue ds : Int) else runValue ds)
    else none

/-- Digits, a point, digits, an exponent; one of the two runs may be empty. -/
def readMagnitude? (negative : Bool) (cs : List Char) : Option Double :=
  let (whole, rest) := cs.span Char.isDigit
  let (places, tail) :=
    match rest with
    | '.' :: r => r.span Char.isDigit
    | _ => ([], rest)
  if whole.isEmpty && places.isEmpty then none
  else
    (readExponent? tail).map fun e =>
      ofDecimal negative (runValue (whole ++ places)) (e - (places.length : Int))

/-- A number without blank space and underscores. -/
def readPlain? (cs : List Char) : Option Double :=
  let (negative, body) :=
    match cs with
    | '-' :: r => (true, r)
    | '+' :: r => (false, r)
    | r => (false, r)
  let word := String.ofList (body.map Char.toLower)
  if word = "inf" || word = "infinity" then some (.infinite negative)
  else if word = "nan" then some .nan
  else readMagnitude? negative body

/-- Whether two underscores stand side by side. -/
def hasDoubleUnderscore : List Char → Bool
  | '_' :: '_' :: _ => true
  | _ :: rest => hasDoubleUnderscore rest
  | [] => false

/-- The characters without underscores, if each stands alone inside. -/
def withoutUnderscores? (cs : List Char) : Option (List Char) :=
  if cs.head? == some '_' || cs.getLast? == some '_' || !cs.contains '_' ||
      hasDoubleUnderscore cs then none
  else some (cs.filter (· != '_'))

/-- The number a text stands for. -/
def read? (s : String) : Option Double :=
  match readPlain? (trimBlank s.toList) with
  | some x => some x
  -- With underscores no blank space may stand around the text.
  | none => (withoutUnderscores? s.toList).bind readPlain?

end Routebook.Double
