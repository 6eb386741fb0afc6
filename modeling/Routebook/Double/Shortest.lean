/-
  Routebook.Double.Shortest

  The fewest decimal digits that read back as a given number, and among
  those the digits nearest to it.  The search tries one digit, two digits and
  so on; on each grid only the two neighbours of the number can do.  When
  seventeen digits do not settle it the exact decimal expansion is taken, so
  the answer reads back in every case.
-/
import Routebook.Double.Basic

namespace Routebook.Double

/-- A decimal magnitude `digits * 10^power`. -/
structure Decimal where
  digits : Nat
  power : Int
  deriving DecidableEq, Repr

/-- The rank of the magnitude nearest to a decimal. -/
def rankOfDecimal (d : Decimal) : Nat :=
  if d.power ≥ 0 then rankOfRatio (d.digits * Nat.pow 10 d.power.toNat) 1
  else rankOfRatio d.digits (Nat.pow 10 (-d.power).toNat)

/-- The exponent of the first decimal digit of a positive ratio. -/
def leadingExponent (num den : Nat) : Int :=
  if den ≤ num then (digitCount (num / den) : Int) - 1
  else
    let places := digitCount (den / num)
    if den = num * Nat.pow 10 (places - 1) then 1 - (places : Int) else -(places : Int)

/-- The two grid points around a ratio, for a grid of step `10^power`; the
second component tells whether the lower one is the nearer (or the even one of
two equally near ones). -/
def gridNeighbours (num den : Nat) (power : Int) : Nat × Bool :=
  let a := if power ≥ 0 then num else num * Nat.pow 10 (-power).toNat
  let b := if power ≥ 0 then den * Nat.pow 10 power.toNat else den
  let low := a / b
  let r := a % b
  (low, decide (2 * r < b) || (decide (2 * r = b) && low % 2 == 0))

/-- The grid point with the wanted rank, the nearer one if both have it. -/
def pick (rank : Nat) (low : Nat) (lowerIsNearer : Bool) (power : Int) : Option Decimal :=
  let below : Decimal := ⟨low, power⟩
  let above : Decimal := ⟨low + 1, power⟩
  let first := if lowerIsNearer then below else above
  let second := if lowerIsNearer then above else below
  if rankOfDecimal first = rank then some first
  else if rankOfDecimal second = rank then some second
  else none

/-- Try grids of `17 - fuel` digits and more. -/
def search (rank num den : Nat) (lead : Int) : Nat → Option Decimal
  | 0 => none
  | fuel + 1 =>
    let power := lead - (16 - fuel : Nat)
    let (low, near) := gridNeighbours num den power
    match pick rank low near power with
    | some d => some d
    | none => search rank num den lead fuel

/-- The exact decimal expansion of a magnitude. -/
def exactDecimal (rank : Nat) : Decimal := ⟨units rank * Nat.pow 5 1074, -1074⟩

/-- Drop trailing zeros of the digits. -/
def Decimal.trim : Nat → Decimal → Decimal
  | 0, d => d
  | fuel + 1, d =>
    if d.digits % 10 = 0 ∧ d.digits ≠ 0 then
      Decimal.trim fuel ⟨d.digits / 10, d.power + 1⟩
    else d

/-- The shortest decimal of a positive magnitude. -/
def shortest (rank : Nat) : Decimal :=
  let num := units rank
  match search rank num unitsInOne (leadingExponent num unitsInOne) 17 with
  | some d => d.trim 400
  | none => exactDecimal rank

end Routebook.Double
