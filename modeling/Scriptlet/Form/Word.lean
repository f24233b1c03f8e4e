import Scriptlet.Decimal.Basic
import Scriptlet.Form.Basic

/-!
Words: the longest runs of the characters that numbers, symbols and the names of literals are made
of. What a word means depends on its whole text.
-/

namespace Scriptlet

/-- The range of the integers of the language. -/
def fitsInt64 (i : Int) : Bool := Int64.minValue.toInt ≤ i && i ≤ Int64.maxValue.toInt

/-- The integer, if it is in the range. -/
def int64? (i : Int) : Option Int64 := if fitsInt64 i then some (Int64.ofInt i) else none

namespace Word

def isStart (c : Char) : Bool := c.isAlpha || "+-*/<>=!?_%&".toList.contains c

def isPart (c : Char) : Bool := isStart c || c.isDigit || c == '.'

/-- A symbol starts with a letter or a sign. -/
def isSymbol : List Char → Bool
  | [] => false
  | c :: cs => isStart c && cs.all isPart

/-- An optional minus sign and digits. -/
def integer? (cs : List Char) : Option Int :=
  let (negative, digits) := Decimal.takeMinus cs
  if digits ≠ [] ∧ digits.all Char.isDigit then
    some (if negative then -Decimal.digitsValue digits else Decimal.digitsValue digits)
  else none

/-- An optional minus sign, digits around a point on both sides, and an optional exponent. -/
def decimal? (cs : List Char) : Option Decimal :=
  let (negative, cs) := Decimal.takeMinus cs
  let (whole, cs) := Decimal.takeDigits cs
  match cs with
  | '.' :: cs =>
    let (fraction, cs) := Decimal.takeDigits cs
    if whole ≠ [] ∧ fraction ≠ [] then
      (Decimal.exponent? cs).map (Decimal.ofParts negative whole fraction)
    else none
  | _ => none

/-- The words that look like symbols and stand for values. -/
def literal? (name : String) : Option Atom :=
  if name = "nil" then some .nil
  else if name = "true" then some (.bool true)
  else if name = "false" then some (.bool false)
  else none

/-- The meaning of a word: none if it is not a word of the language, an error with its text for an
integer out of range. -/
def meaning? (cs : List Char) : Option (Except String Atom) :=
  let text := String.ofList cs
  match decimal? cs, integer? cs with
  | some d, _ => some (.ok (.float d.toFloat))
  | none, some i =>
    match int64? i with
    | some i => some (.ok (.int i))
    | none => some (.error text)
  | none, none =>
    match literal? text with
    | some a => some (.ok a)
    | none => if isSymbol cs then some (.ok (.symbol text)) else none

end Word

end Scriptlet
