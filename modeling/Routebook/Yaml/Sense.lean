/-
  Routebook.Yaml.Sense

  What a node of a settings document is meant to be: what its tag says, or,
  for plain text without a tag, what the text looks like.
-/
import Routebook.Text.Literal

namespace Routebook.Yaml

/-- What a node is meant to be. -/
inductive Sense where
  | null
  | bool
  | int
  | float
  | text
  | moment
  | binary
  | list
  | mapping
  | set
  /-- A list of pairs; each key stands once or any number of times. -/
  | pairs
  /-- A key whose values are taken over from other mappings. -/
  | merge
  /-- The value that stands for the mapping itself. -/
  | own
  | unknown
  deriving DecidableEq

namespace Sense

/-- The beginning that all known tags share. -/
def family : String := "tag:yaml.org,2002:"

/-- The tags of the family. -/
def members : List (String × Sense) :=
  [("null", .null), ("bool", .bool), ("int", .int), ("float", .float), ("str", .text),
   ("timestamp", .moment), ("binary", .binary), ("seq", .list), ("map", .mapping),
   ("set", .set), ("omap", .pairs), ("pairs", .pairs), ("merge", .merge), ("value", .own)]

/-- What a tag says. -/
def ofTag (tag : String) : Sense :=
  ((members.find? fun m => family ++ m.1 == tag).map Prod.snd).getD .unknown

/-! ## Plain text -/

/-- Without a leading sign. -/
def dropSign : List Char → List Char
  | '+' :: rest => rest
  | '-' :: rest => rest
  | cs => cs

/-- A digit or an underscore. -/
def isSpacedDigit (c : Char) : Bool := c.isDigit || c == '_'

/-- A digit that can begin a number of two digits below sixty. -/
def isSixtyDigit (c : Char) : Bool := decide ('0' ≤ c) && decide (c ≤ '5')

/-- What follows at least one group below sixty, each after a colon. -/
def sixties : List Char → Option (List Char)
  | ':' :: a :: b :: rest =>
    if b.isDigit then
      if isSixtyDigit a then
        (match rest with | ':' :: _ => sixties rest | _ => some rest)
      else none
    else if a.isDigit then (match b with | ':' => sixties (b :: rest) | _ => some (b :: rest))
    else none
  | [':', a] => if a.isDigit then some [] else none
  | _ => none

/-- Nothing, or an exponent with a sign. -/
def isExponent : List Char → Bool
  | [] => true
  | mark :: sign :: digits =>
    (mark == 'e' || mark == 'E') && (sign == '+' || sign == '-') && !digits.isEmpty &&
      digits.all Char.isDigit
  | _ => false

/-- Digits, a point, digits and an exponent. -/
def isPointed (cs : List Char) : Bool :=
  match dropSign cs with
  | d :: rest =>
    d.isDigit &&
      (match rest.dropWhile isSpacedDigit with
       | '.' :: places => isExponent (places.dropWhile isSpacedDigit)
       | _ => false)
  | [] => false

/-- Groups below sixty, a point and digits. -/
def isPointedSixties (cs : List Char) : Bool :=
  match dropSign cs with
  | d :: rest =>
    d.isDigit &&
      (match sixties (rest.dropWhile isSpacedDigit) with
       | some ('.' :: places) => places.all isSpacedDigit
       | _ => false)
  | [] => false

/-- A point and digits, without a sign. -/
def isFraction : List Char → Bool
  | '.' :: d :: rest => d.isDigit && isExponent (rest.dropWhile isSpacedDigit)
  | _ => false

/-- The texts of an infinity without its sign, and of no number. -/
def infinities : List String := [".inf", ".Inf", ".INF"]

/-- The texts of no number. -/
def nans : List String := [".nan", ".NaN", ".NAN"]

/-- Whether text looks like a number with a point. -/
def looksFloat (text : String) : Bool :=
  let cs := text.toList
  isPointed cs || isFraction cs || isPointedSixties cs ||
    infinities.contains (String.ofList (dropSign cs)) || nans.contains text

/-- Whether there is something and all of it is of a kind. -/
def isRun (p : Char → Bool) (cs : List Char) : Bool := !cs.isEmpty && cs.all p

/-- Whether text looks like an integer: binary, octal, decimal, hexadecimal, or
groups below sixty. -/
def looksInt (text : String) : Bool :=
  match dropSign text.toList with
  | ['0'] => true
  | '0' :: 'b' :: rest => isRun (fun c => c == '0' || c == '1' || c == '_') rest
  | '0' :: 'x' :: rest =>
    isRun (fun c => isSpacedDigit c || (decide ('a' ≤ c) && decide (c ≤ 'f')) ||
      (decide ('A' ≤ c) && decide (c ≤ 'F'))) rest
  | '0' :: rest => isRun (fun c => (decide ('0' ≤ c) && decide (c ≤ '7')) || c == '_') rest
  | d :: rest =>
    d.isDigit &&
      (match rest.dropWhile isSpacedDigit with
       | [] => true
       | more => sixties more == some [])
  | [] => false

/-- The words for truth values, with their values, in lower case. -/
def truthWords : List (String × Bool) :=
  [("yes", true), ("no", false), ("true", true), ("false", false), ("on", true), ("off", false)]

/-- A word in lower case, capitalised, and in upper case. -/
def spellings (word : String) : List String :=
  [word, word.capitalize, word.map Char.toUpper]

/-- Whether text looks like a truth value. -/
def looksBool (text : String) : Bool := truthWords.any fun w => (spellings w.1).contains text

/-- Whether text looks like null. -/
def looksNull (text : String) : Bool :=
  text == "" || text == "~" || (spellings "null").contains text

end Sense

end Routebook.Yaml
