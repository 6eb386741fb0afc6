/-
  Routebook.Double.Basic

  Double-precision numbers as data.  A finite magnitude is named by its rank:
  the ranks 0, 1, 2, … run through the magnitudes from zero upward, so
  neighbouring numbers have neighbouring ranks and every rank is canonical.
  Rounding a ratio of naturals goes to the nearest magnitude, halves to the
  even rank.
-/

namespace Routebook

/-- Ranks below this one are finite; from here on a magnitude is infinite. -/
def Double.rankBound : Nat := 2047 * Nat.pow 2 52

/-- A double-precision number. -/
inductive Double where
  | nan
  | infinite (negative : Bool)
  | finite (negative : Bool) (rank : Fin Double.rankBound)
  deriving DecidableEq

namespace Double

/-! ## Magnitudes in units of the smallest positive one -/

/-- The significand of a rank: below `2^52` the rank itself, else 53 bits. -/
def significand (rank : Nat) : Nat :=
  if rank < Nat.pow 2 52 then rank else Nat.pow 2 52 + rank % Nat.pow 2 52

/-- How many binary places the significand of a rank is moved up. -/
def scale (rank : Nat) : Nat := rank / Nat.pow 2 52 - 1

/-- The magnitude of a rank, counted in units of `2^(-1074)`. -/
def units (rank : Nat) : Nat := significand rank * Nat.pow 2 (scale rank)

/-- `2^1074`, the number of units in one. -/
def unitsInOne : Nat := Nat.pow 2 1074

/-- A quotient rounded to the nearest natural, halves to the even one. -/
def roundHalfEven (num den : Nat) : Nat :=
  let q := num / den
  let r := num % den
  if 2 * r < den then q else if den < 2 * r then q + 1 else q + q % 2

/-- The rank of the magnitude nearest to `num / den`; it may reach `rankBound`. -/
def rankOfRatio (num den : Nat) : Nat :=
  let top := num * unitsInOne
  let s := (top / den).log2 - 52
  s * Nat.pow 2 52 + roundHalfEven top (den * Nat.pow 2 s)

/-- The number of a sign and a rank; a rank beyond the finite ones is infinite. -/
def ofRank (negative : Bool) (rank : Nat) : Double :=
  if h : rank < rankBound then .finite negative ⟨rank, h⟩ else .infinite negative

/-- The number nearest to a signed ratio. -/
def ofRatio (negative : Bool) (num den : Nat) : Double := ofRank negative (rankOfRatio num den)

/-- Zero with a sign. -/
def zero (negative : Bool) : Double := .finite negative ⟨0, by decide⟩

/-- The number of decimal digits of a natural, at least one. -/
def digitCount (n : Nat) : Nat := (Nat.toDigits 10 n).length

/-- The number nearest to `± significand * 10^power`.  Powers far outside the
finite range are settled by the number of digits alone. -/
def ofDecimal (negative : Bool) (significand : Nat) (power : Int) : Double :=
  if significand = 0 then zero negative
  else
    let lead := (digitCount significand : Int) + power
    if lead > 400 then .infinite negative
    else if lead < -400 then zero negative
    else if power ≥ 0 then ofRatio negative (significand * Nat.pow 10 power.toNat) 1
    else ofRatio negative significand (Nat.pow 10 (-power).toNat)

/-- The number nearest to an integer, unless that is infinite. -/
def ofInt? (n : Int) : Option Double :=
  match ofRatio (decide (n < 0)) n.natAbs 1 with
  | .infinite _ => none
  | x => some x

/-- The number with the other sign. -/
def negated : Double → Double
  | .nan => .nan
  | .infinite negative => .infinite !negative
  | .finite negative rank => .finite (!negative) rank

/-! ## Tests -/

/-- Greater than zero. -/
def isPositive : Double → Bool
  | .nan => false
  | .infinite negative => !negative
  | .finite negative rank => !negative && rank.val != 0

/-- Either of the two zeros. -/
def isZero : Double → Bool
  | .finite _ rank => rank.val == 0
  | _ => false

/-- Neither infinite nor a NaN. -/
def isFinite : Double → Bool
  | .finite _ _ => true
  | _ => false

/-- Equality of numbers: the two zeros are equal and a NaN equals nothing. -/
def sameNumber : Double → Double → Bool
  | .infinite a, .infinite b => a == b
  | .finite a i, .finite b j => (i.val == 0 && j.val == 0) || (a == b && i.val == j.val)
  | _, _ => false

/-- Equality with an integer, without rounding the integer. -/
def equalsInt : Double → Int → Bool
  | .finite negative rank, n =>
    let magnitude := units rank.val
    if n.natAbs * unitsInOne == magnitude then
      magnitude == 0 || negative == decide (n < 0)
    else false
  | _, _ => false

end Double

end Routebook
