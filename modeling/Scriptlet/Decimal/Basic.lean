/-!
Decimal numbers: a sign, digits and a power of ten. Reading one from text, and the float nearest
to it.
-/

namespace Scriptlet

/-- The number `digits * 10 ^ exponent`, negated where the sign says so. -/
structure Decimal where
  negative : Bool
  digits : Nat
  exponent : Int
  deriving DecidableEq, Repr

namespace Decimal

/-- The number that a list of decimal digits denotes. -/
def digitsValue (cs : List Char) : Nat := cs.foldl (fun n c => 10 * n + (c.toNat - 48)) 0

def digitCount (n : Nat) : Nat := (Nat.toDigits 10 n).length

/-- The decimal with the given digits before and after the point. -/
def ofParts (negative : Bool) (whole fraction : List Char) (exponent : Int) : Decimal :=
  ⟨negative, digitsValue (whole ++ fraction), exponent - fraction.length⟩

/-- Takes a minus sign off the front. -/
def takeMinus : List Char → Bool × List Char
  | '-' :: cs => (true, cs)
  | cs => (false, cs)

/-- Takes a sign off the front. -/
def takeSign : List Char → Bool × List Char
  | '+' :: cs => (false, cs)
  | cs => takeMinus cs

def takeDigits (cs : List Char) : List Char × List Char :=
  (cs.takeWhile Char.isDigit, cs.dropWhile Char.isDigit)

/-- Reads an exponent mark, an optional sign and digits that reach the end of the text. -/
def exponent? : List Char → Option Int
  | [] => some 0
  | mark :: cs =>
    let (negative, cs) := takeSign cs
    let (digits, rest) := takeDigits cs
    if (mark = 'e' ∨ mark = 'E') ∧ digits ≠ [] ∧ rest = [] then
      some (if negative then -digitsValue digits else digitsValue digits)
    else none

/-- Beyond `10 ^ 310` there is no finite float, and below `10 ^ -330` none but zero. -/
def magnitude (digits : Nat) (exponent : Int) : Float :=
  let size := digitCount digits + exponent
  if digits = 0 ∨ size < -330 then 0
  else if 310 < size then 1 / 0
  else Float.ofScientific digits (exponent < 0) exponent.natAbs

/-- The nearest float. -/
def toFloat (d : Decimal) : Float :=
  let x := magnitude d.digits d.exponent
  if d.negative then -x else x

/-- Reads an optional sign, digits with at most one point, and an optional exponent. -/
def ofText? (cs : List Char) : Option Decimal :=
  let (negative, cs) := takeSign cs
  let (whole, cs) := takeDigits cs
  let (fraction, cs) := match cs with
    | '.' :: cs => takeDigits cs
    | cs => ([], cs)
  if whole = [] ∧ fraction = [] then none
  else (exponent? cs).map (ofParts negative whole fraction)

end Decimal

end Scriptlet
