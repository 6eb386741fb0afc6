/-
  Routebook.Double.Layout

  Writing a finite number: its shortest digits, placed positionally while the
  exponent lies in a range and with an exponent mark otherwise.  The library
  uses two layouts; both keep at least one place after the point.
-/
import Routebook.Double.Shortest

namespace Routebook.Double

/-- Where positional writing ends, and how wide an exponent is at least. -/
structure Layout where
  /-- The smallest exponent written positionally. -/
  lowest : Int
  /-- The first exponent that is no longer written positionally. -/
  highest : Int
  /-- Exponents are padded with zeros to this many digits. -/
  exponentWidth : Nat

/-- Displayed numbers are positional from `0.0001` up to below `10^16`. -/
def Layout.display : Layout := ⟨-4, 16, 2⟩

/-- Stored numbers are positional from `0.00001` up to below `10^16`. -/
def Layout.stored : Layout := ⟨-5, 16, 1⟩

/-- A text of zeros. -/
def zeros (n : Nat) : String := String.ofList (List.replicate n '0')

/-- The text of a positive decimal in a layout. -/
def Decimal.write (layout : Layout) (d : Decimal) : String :=
  let ds := Nat.toDigits 10 d.digits
  let count := ds.length
  let lead : Int := d.power + (count : Int) - 1
  if layout.lowest ≤ lead ∧ lead < layout.highest then
    if lead < 0 then "0." ++ zeros ((-lead).toNat - 1) ++ String.ofList ds
    else
      let whole := lead.toNat + 1
      if count ≤ whole then String.ofList ds ++ zeros (whole - count) ++ ".0"
      else String.ofList (ds.take whole) ++ "." ++ String.ofList (ds.drop whole)
  else
    let fraction := if count ≤ 1 then "" else "." ++ String.ofList (ds.drop 1)
    let mark := if lead < 0 then "e-" else "e+"
    let exponent := toString lead.natAbs
    String.ofList (ds.take 1) ++ fraction ++ mark ++
      zeros (layout.exponentWidth - exponent.length) ++ exponent

/-- The text of a finite number; `none` for an infinite one and for a NaN. -/
def write? (layout : Layout) : Double → Option String
  | .finite negative rank =>
    let magnitude := if rank.val = 0 then "0.0" else (shortest rank.val).write layout
    some (if negative then "-" ++ magnitude else magnitude)
  | _ => none

/-- The text of any number in running text. -/
def display (x : Double) : String :=
  match x with
  | .nan => "nan"
  | .infinite negative => if negative then "-inf" else "inf"
  | .finite .. => (x.write? .display).getD ""

end Routebook.Double
