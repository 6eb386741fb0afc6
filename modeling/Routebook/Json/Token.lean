/-
  Routebook.Json.Token

  The tokens of a JSON text.  Blanks are space, tab, carriage return and line
  feed only; control characters must be escaped inside strings; besides the
  numbers of the standard the three names `NaN`, `Infinity` and `-Infinity`
  are read.  A number with a point or an exponent is a double, any other an
  integer of whatever length the dialect admits.
-/
import Routebook.Value

namespace Routebook.Json

/-- A token of a JSON text. -/
inductive Token where
  | openArray
  | closeArray
  | openObject
  | closeObject
  | comma
  | colon
  | null
  | bool (b : Bool)
  | int (n : Int)
  | float (x : Double)
  | string (s : String)

/-- What a reader admits beyond the grammar. -/
structure Dialect where
  /-- The most digits an integer may have. -/
  maxDigits : Option Nat
  /-- The deepest nesting of arrays and objects. -/
  maxDepth : Option Nat

/-- The dialect of documents: integers are limited, nesting is not. -/
def Dialect.document : Dialect := ⟨some Value.digitLimit, none⟩

/-- The dialect of stored models: both are limited. -/
def Dialect.stored : Dialect := ⟨some Value.digitLimit, some 200⟩

/-- The dialect without limits. -/
def Dialect.unlimited : Dialect := ⟨none, none⟩

namespace Token

/-- Blank space between tokens. -/
def isBlank (c : Char) : Bool := c == ' ' || c == '\t' || c == '\n' || c == '\r'

/-- The value of a hexadecimal digit. -/
def hexValue? (c : Char) : Option Nat :=
  if '0' ≤ c ∧ c ≤ '9' then some (c.toNat - 48)
  else if 'a' ≤ c ∧ c ≤ 'f' then some (c.toNat - 87)
  else if 'A' ≤ c ∧ c ≤ 'F' then some (c.toNat - 55)
  else none

/-- The value of four hexadecimal digits. -/
def hex4? (a b c d : Char) : Option Nat :=
  match hexValue? a, hexValue? b, hexValue? c, hexValue? d with
  | some a, some b, some c, some d => some (((a * 16 + b) * 16 + c) * 16 + d)
  | _, _, _, _ => none

/-- The character of a one-letter escape. -/
def simpleEscape? : Char → Option Char
  | '\x22' => some '\x22'
  | '\x5c' => some '\x5c'
  | '/' => some '/'
  | 'b' => some '\x08'
  | 'f' => some '\x0c'
  | 'n' => some '\n'
  | 'r' => some '\r'
  | 't' => some '\t'
  | _ => none

/-- The first half of a pair of UTF-16 units. -/
def isHighHalf (n : Nat) : Bool := decide (0xD800 ≤ n) && decide (n ≤ 0xDBFF)

/-- The second half of a pair of UTF-16 units. -/
def isLowHalf (n : Nat) : Bool := decide (0xDC00 ≤ n) && decide (n ≤ 0xDFFF)

/-- The character of a pair of UTF-16 units. -/
def joinHalves (high low : Nat) : Char :=
  Char.ofNat (0x10000 + (high - 0xD800) * 0x400 + (low - 0xDC00))

/-- The rest of a string after its opening quote, and what follows the closing
one; `acc` holds the characters read so far, last first.  Halves of a pair
must come together. -/
def stringBody (acc : List Char) : List Char → Option (List Char × List Char)
  | [] => none
  | '\x22' :: rest => some (acc.reverse, rest)
  | '\x5c' :: 'u' :: a :: b :: c :: d :: rest =>
    match hex4? a b c d with
    | none => none
    | some unit =>
      -- One half alone is no character: the other one must follow at once.
      if isHighHalf unit then
        match rest with
        | '\x5c' :: 'u' :: e :: f :: g :: h :: rest' =>
          match hex4? e f g h with
          | some low =>
            if isLowHalf low then stringBody (joinHalves unit low :: acc) rest' else none
          | none => none
        | _ => none
      else if isLowHalf unit then none
      else stringBody (Char.ofNat unit :: acc) rest
  | '\x5c' :: e :: rest =>
    match simpleEscape? e with
    | some c => stringBody (c :: acc) rest
    | none => none
  | c :: rest => if c.toNat < 0x20 || c = '\x5c' then none else stringBody (c :: acc) rest

/-- The value of a run of decimal digits. -/
def digitsValue (ds : List Char) : Nat := ds.foldl (fun n c => n * 10 + (c.toNat - 48)) 0

/-- The places after a point, if a point with places follows. -/
def fraction (cs : List Char) : List Char × List Char :=
  match cs with
  | '.' :: rest =>
    match rest.span Char.isDigit with
    | ([], _) => ([], cs)
    | (ds, rest') => (ds, rest')
  | _ => ([], cs)

/-- The exponent, if a mark with digits follows. -/
def exponent (cs : List Char) : Option Int × List Char :=
  match cs with
  | mark :: rest =>
    if mark = 'e' || mark = 'E' then
      let (negative, digits) :=
        match rest with
        | '-' :: r => (true, r)
        | '+' :: r => (false, r)
        | r => (false, r)
      match digits.span Char.isDigit with
      | ([], _) => (none, cs)
      | (ds, rest') =>
        let n : Int := digitsValue ds
        (some (if negative then -n else n), rest')
    else (none, cs)
  | [] => (none, cs)

/-- The number whose whole digits are given. -/
def numberWith (dialect : Dialect) (negative : Bool) (whole rest : List Char) :
    Option (Token × List Char) :=
  match fraction rest with
  | ([], afterWhole) =>
    match exponent afterWhole with
    | (none, rest') =>
      -- Only the digits of an integer are limited; a double may have any number.
      if (dialect.maxDigits.map fun m => decide (m < whole.length)).getD false then none
      else
        let n : Int := digitsValue whole
        some (.int (if negative then -n else n), rest')
    | (some e, rest') => some (.float (Double.ofDecimal negative (digitsValue whole) e), rest')
  | (places, afterPlaces) =>
    let (e, rest') := exponent afterPlaces
    let power : Int := e.getD 0 - (places.length : Int)
    some (.float (Double.ofDecimal negative (digitsValue (whole ++ places)) power), rest')

/-- A number after its sign: no leading zeros, and at least one digit. -/
def number (dialect : Dialect) (negative : Bool) (cs : List Char) :
    Option (Token × List Char) :=
  match cs with
  | '0' :: rest => numberWith dialect negative ['0'] rest
  | c :: rest =>
    if c.isDigit then
      let (ds, rest') := rest.span Char.isDigit
      numberWith dialect negative (c :: ds) rest'
    else none
  | [] => none

/-- The token a text starts with, and the text after it. -/
def first (dialect : Dialect) : List Char → Option (Token × List Char)
  | '[' :: rest => some (.openArray, rest)
  | ']' :: rest => some (.closeArray, rest)
  | '\x7b' :: rest => some (.openObject, rest)
  | '\x7d' :: rest => some (.closeObject, rest)
  | ',' :: rest => some (.comma, rest)
  | ':' :: rest => some (.colon, rest)
  | '\x22' :: rest => (stringBody [] rest).map fun r => (.string (String.ofList r.1), r.2)
  | 'n' :: 'u' :: 'l' :: 'l' :: rest => some (.null, rest)
  | 't' :: 'r' :: 'u' :: 'e' :: rest => some (.bool true, rest)
  | 'f' :: 'a' :: 'l' :: 's' :: 'e' :: rest => some (.bool false, rest)
  | 'N' :: 'a' :: 'N' :: rest => some (.float .nan, rest)
  | 'I' :: 'n' :: 'f' :: 'i' :: 'n' :: 'i' :: 't' :: 'y' :: rest =>
    some (.float (.infinite false), rest)
  | '-' :: 'I' :: 'n' :: 'f' :: 'i' :: 'n' :: 'i' :: 't' :: 'y' :: rest =>
    some (.float (.infinite true), rest)
  | '-' :: rest => number dialect true rest
  | cs => number dialect false cs

/-- All tokens of a text; `fuel` bounds their number. -/
def all (dialect : Dialect) : Nat → List Token → List Char → Option (List Token)
  | 0, _, _ => none
  | fuel + 1, acc, cs =>
    match cs.dropWhile isBlank with
    | [] => some acc.reverse
    | cs' =>
      match first dialect cs' with
      | some (t, rest) => all dialect fuel (t :: acc) rest
      | none => none

end Token

/-- The tokens of a text, or `none` if some part of it is no token. -/
def tokens (dialect : Dialect) (cs : List Char) : Option (List Token) :=
  Token.all dialect (cs.length + 1) [] cs

end Routebook.Json
