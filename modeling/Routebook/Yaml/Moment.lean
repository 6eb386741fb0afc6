/-
  Routebook.Yaml.Moment

  Dates, and dates with a time of day.
-/
import Routebook.Failure

namespace Routebook.Yaml

/-- A time of day. -/
structure TimeOfDay where
  hour : Nat
  minute : Nat
  second : Nat
  deriving DecidableEq

/-- A date, perhaps with a time of day. -/
structure Moment where
  year : Nat
  month : Nat
  day : Nat
  time : Option TimeOfDay
  deriving DecidableEq

namespace Moment

/-- The value of a run of digits. -/
def value (digits : List Char) : Nat := digits.foldl (fun n d => n * 10 + (d.toNat - 48)) 0

/-- One or two digits. -/
def short : List Char → Option (Nat × List Char)
  | a :: b :: rest =>
    if !a.isDigit then none
    else if b.isDigit then some (value [a, b], rest)
    else some (value [a], b :: rest)
  | [a] => if a.isDigit then some (value [a], []) else none
  | [] => none

/-- Exactly two digits. -/
def two : List Char → Option (Nat × List Char)
  | a :: b :: rest => if a.isDigit && b.isDigit then some (value [a, b], rest) else none
  | _ => none

/-- Past one given character. -/
def past (mark : Char) : List Char → Option (List Char)
  | c :: rest => if c = mark then some rest else none
  | [] => none

/-- A space or a tab. -/
def isGap (c : Char) : Bool := c == ' ' || c == '\t'

/-- Whether text is the distance from a time zone: nothing, `Z`, or a sign with
hours and perhaps minutes. -/
def isZone (cs : List Char) : Bool :=
  cs.isEmpty ||
    (match cs.dropWhile isGap with
     | ['Z'] => true
     | sign :: rest =>
       (sign == '+' || sign == '-') &&
         (match short rest with
          | some (_, []) => true
          | some (_, ':' :: more) => (two more).any fun m => m.2.isEmpty
          | _ => false)
     | [] => false)

/-- What follows the second: perhaps a fraction, perhaps a time zone. -/
def isTail : List Char → Bool
  | '.' :: rest => isZone (rest.dropWhile Char.isDigit)
  | rest => isZone rest

/-- A time of day after a date, or nothing. -/
def timeOf (cs : List Char) : Option (Option TimeOfDay) :=
  match cs with
  | [] => some none
  | c :: rest => do
    let cs ← if c == 'T' || c == 't' then some rest
      else if isGap c then some (rest.dropWhile isGap) else none
    let (hour, cs) ← short cs
    let (minute, cs) ← (past ':' cs).bind two
    let (second, cs) ← (past ':' cs).bind two
    if isTail cs then some (some ⟨hour, minute, second⟩) else none

/-- A moment from text. -/
def ofText? (text : String) : Option Moment := do
  let cs := text.toList
  let digits := cs.take 4
  if digits.length < 4 || !digits.all Char.isDigit then none
  let (month, cs) ← (past '-' (cs.drop 4)).bind short
  let (day, cs) ← (past '-' cs).bind short
  let time ← timeOf cs
  return ⟨value digits, month, day, time⟩

/-- Whether plain text looks like a moment: a date without a time has all its digits. -/
def looks (text : String) : Bool :=
  (ofText? text).any fun m => m.time.isSome || text.length == 10

/-- Whether a year has a leap day. -/
def isLeap (year : Nat) : Bool := year % 4 == 0 && (year % 100 != 0 || year % 400 == 0)

/-- The number of days of a month. -/
def daysOf (year month : Nat) : Nat :=
  if month = 2 then (if isLeap year then 29 else 28)
  else if month = 4 ∨ month = 6 ∨ month = 9 ∨ month = 11 then 30 else 31

/-- What is wrong with a time of day. -/
def TimeOfDay.refusal? (t : TimeOfDay) : Option String :=
  if 23 < t.hour then some "hour must be in 0..23"
  else if 59 < t.minute then some "minute must be in 0..59"
  else if 59 < t.second then some "second must be in 0..59"
  else none

/-- What is wrong with a moment. -/
def refusal? (m : Moment) : Option String :=
  if m.year = 0 then some "year 0 is out of range"
  else if m.month = 0 ∨ 12 < m.month then some "month must be in 1..12"
  else if m.day = 0 ∨ daysOf m.year m.month < m.day then some "day is out of range for month"
  else m.time.bind TimeOfDay.refusal?

/-- A moment as faults show it. -/
def text (m : Moment) : String :=
  let numbers := [m.year, m.month, m.day]
  match m.time with
  | none => "datetime.date(" ++ ", ".intercalate (numbers.map toString) ++ ")"
  | some t =>
    let seconds := if t.second = 0 then [] else [t.second]
    "datetime.datetime(" ++
      ", ".intercalate ((numbers ++ [t.hour, t.minute] ++ seconds).map toString) ++ ")"

end Moment

end Routebook.Yaml
