/-
  Routebook.Value

  Free values: what tag data, settings and documents are made of.  Integers
  and double-precision numbers are kept apart, and an object keeps the order
  of its keys.
-/
import Routebook.Entries
import Routebook.Double.Layout

namespace Routebook

/-- A free value. -/
inductive Value where
  | null
  | bool (b : Bool)
  | int (n : Int)
  | float (x : Double)
  | string (s : String)
  | array (items : List Value)
  | object (fields : List (String × Value))

namespace Value

instance : Inhabited Value := ⟨.null⟩

/-- A field of an object, or null. -/
def field (v : Value) (key : String) : Value :=
  match v with
  | .object fields => (Entries.get? key fields).getD .null
  | _ => .null

/-- The text of a string; the empty text for anything else. -/
def asString : Value → String
  | .string s => s
  | _ => ""

/-- The items of an array; none for anything else. -/
def asArray : Value → List Value
  | .array items => items
  | _ => []

/-- The fields of an object; none for anything else. -/
def asObject : Value → Entries Value
  | .object fields => fields
  | _ => []

/-- Empty and zero values do not hold; a NaN does. -/
def holds : Value → Bool
  | .null => false
  | .bool b => b
  | .int n => n != 0
  | .float x => !x.isZero
  | .string s => s != ""
  | .array items => !items.isEmpty
  | .object fields => !fields.isEmpty

/-- The number a numeric value counts as; truth values count as one and zero. -/
def number? : Value → Option (Int ⊕ Double)
  | .bool b => some (.inl (if b then 1 else 0))
  | .int n => some (.inl n)
  | .float x => some (.inr x)
  | _ => none

/-- Equality of numbers across integers, doubles and truth values; the flag
tells whether a NaN counts as equal to a NaN. -/
def sameNumber (nanToo : Bool) : Int ⊕ Double → Int ⊕ Double → Bool
  | .inl a, .inl b => a == b
  | .inl a, .inr y => y.equalsInt a
  | .inr x, .inl b => x.equalsInt b
  | .inr x, .inr y => x.sameNumber y || (nanToo && x == y)

mutual
/-- Equality of values: numbers by what they count as, arrays item by item,
objects by key whatever the order. -/
def sameWith (nanToo : Bool) : Value → Value → Bool
  | .null, b => match b with | .null => true | _ => false
  | .string s, b => match b with | .string t => s == t | _ => false
  | .array xs, b => match b with | .array ys => sameItems nanToo xs ys | _ => false
  | .object xs, b =>
    match b with
    | .object ys => xs.length == ys.length && sameFields nanToo xs ys
    | _ => false
  | .bool p, b =>
    match number? b with
    | some y => sameNumber nanToo (.inl (if p then 1 else 0)) y
    | none => false
  | .int n, b => match number? b with | some y => sameNumber nanToo (.inl n) y | none => false
  | .float x, b => match number? b with | some y => sameNumber nanToo (.inr x) y | none => false

/-- Equality of two lists of values. -/
def sameItems (nanToo : Bool) : List Value → List Value → Bool
  | [], ys => ys.isEmpty
  | x :: xs, ys =>
    match ys with
    | y :: ys => sameWith nanToo x y && sameItems nanToo xs ys
    | [] => false

/-- Every field is found with an equal value in the other fields. -/
def sameFields (nanToo : Bool) : List (String × Value) → List (String × Value) → Bool
  | [], _ => true
  | (k, x) :: xs, ys =>
    (match Entries.get? k ys with | some y => sameWith nanToo x y | none => false) &&
      sameFields nanToo xs ys
end

/-- Equality of values; a NaN equals nothing. -/
def same (a b : Value) : Bool := sameWith false a b

/-- The largest count of digits an integer may have when it is written as text. -/
def digitLimit : Nat := 4300

/-- Whether an integer has more digits than may be written. -/
def tooLong (n : Int) : Bool := decide (Nat.pow 10 digitLimit ≤ n.natAbs)

mutual
/-- Whether some integer inside is too long to be written. -/
def hasLongInt : Value → Bool
  | .int n => tooLong n
  | .array items => anyLongInt items
  | .object fields => anyLongField fields
  | _ => false

/-- `hasLongInt` for one of the items. -/
def anyLongInt : List Value → Bool
  | [] => false
  | x :: xs => hasLongInt x || anyLongInt xs

/-- `hasLongInt` for one of the fields. -/
def anyLongField : List (String × Value) → Bool
  | [] => false
  | (_, x) :: xs => hasLongInt x || anyLongField xs
end

mutual
/-- The same value with every infinite number and every NaN made null. -/
def finiteOnly : Value → Value
  | .float x => if x.isFinite then .float x else .null
  | .array items => .array (finiteItems items)
  | .object fields => .object (finiteFields fields)
  | v => v

/-- `finiteOnly` of every item. -/
def finiteItems : List Value → List Value
  | [] => []
  | x :: xs => finiteOnly x :: finiteItems xs

/-- `finiteOnly` of every field. -/
def finiteFields : List (String × Value) → List (String × Value)
  | [] => []
  | (k, x) :: xs => (k, finiteOnly x) :: finiteFields xs
end

end Value

end Routebook
