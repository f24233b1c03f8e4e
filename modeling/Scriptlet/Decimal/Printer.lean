import Scriptlet.Decimal.Shortest

/-!
Two ways to write a float. In a script's own notation there is never an exponent. In JSON there is
one for very large and very small numbers.
-/

namespace Scriptlet.Decimal

def signText (negative : Bool) : String := if negative then "-" else ""

/-- The digits with a point in place, and without one if the number is whole. -/
def positional (digits : Nat) (exponent : Int) : String :=
  let ds := Nat.toDigits 10 digits
  if 0 ≤ exponent then String.ofList (ds ++ List.replicate exponent.toNat '0')
  else
    let places := (-exponent).toNat
    let padded := List.replicate (places + 1 - ds.length) '0' ++ ds
    let whole := padded.length - places
    String.ofList (padded.take whole ++ ['.'] ++ padded.drop whole)

/-- The power of ten of the first digit. -/
def leadingExponent (d : Decimal) : Int := digitCount d.digits + d.exponent - 1

/-- One digit, the others after the point, and an exponent with its sign. -/
def scientific (d : Decimal) : String :=
  let e := d.leadingExponent
  let mark := if e < 0 then "e-" else "e+"
  let ds := Nat.toDigits 10 d.digits
  let fraction := match ds.drop 1 with
    | [] => []
    | rest => '.' :: rest
  String.ofList (ds.take 1 ++ fraction) ++ mark ++ toString e.natAbs

/-- The text of a float in the language: a whole number with all its digits and `.0`, any other
one with the fewest digits that read back. -/
def display (x : Float) : String :=
  if x.isNaN then "NaN"
  else if x.isInf then signText (signBit x) ++ "inf"
  else
    let b := binary x
    if b.isWhole then signText (signBit x) ++ toString b.floor ++ ".0"
    else
      let d := shortest .up x
      signText d.negative ++ positional d.digits d.exponent

/-- The text of a float in JSON, where only finite numbers can be written. -/
def json (x : Float) : String :=
  if x.isFinite then
    let d := shortest .even x
    let e := d.leadingExponent
    signText d.negative ++
      if d.digits = 0 ∨ (-5 ≤ e ∧ e ≤ 15) then
        positional d.digits d.exponent ++ if 0 ≤ d.exponent then ".0" else ""
      else d.scientific
  else "null"

end Scriptlet.Decimal
