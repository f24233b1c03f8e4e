import Scriptlet.Decimal.Basic
import Scriptlet.Form.Word
import Scriptlet.Json.Error
import Scriptlet.Value.Basic

/-!
Numbers in JSON. Digits are gathered into a natural number of 64 bits; what does not fit any more
counts as a power of ten. A float is that number, rounded, and then multiplied or divided by powers
of ten, so with many digits it can be off in the last place.
-/

namespace Scriptlet.Json

def maxSignificand : Nat := Nat.pow 2 64 - 1

/-- Adds digits to a significand as long as they fit. The rest is what did not fit. -/
def gather (significand : Nat) : List Char → Nat × List Char
  | [] => (significand, [])
  | c :: cs =>
    let next := 10 * significand + (c.toNat - 48)
    if next ≤ maxSignificand then gather next cs else (significand, c :: cs)

def powerOfTen (n : Nat) : Float := Float.ofScientific 1 false n

/-- Divides by a power of ten, at most 308 at a time. -/
def divide (x : Float) (n : Nat) : Float :=
  if n ≤ 308 then x / powerOfTen n
  else if x == 0 then x
  else divide (x / powerOfTen 308) (n - 308)
termination_by n

/-- The float of a significand and a power of ten. One that is too large for a float is refused. -/
def scale (significand : Nat) (exponent : Int) : Except ReadError Float :=
  let x := Float.ofNat significand
  if exponent < 0 then .ok (divide x exponent.natAbs)
  else if exponent ≤ 308 then
    let y := x * powerOfTen exponent.natAbs
    if y.isInf then .error .malformed else .ok y
  else if x == 0 then .ok x
  else .error .malformed

/-- The largest exponent that is read as a number. -/
def maxExponent : Nat := Nat.pow 2 31 - 1

/-- Reads the exponent of a float, if there is one, and puts the float together. -/
def withExponent (significand : Nat) (exponent : Int) :
    List Char → Except ReadError (Float × List Char)
  | mark :: cs =>
    if mark = 'e' ∨ mark = 'E' then
      let (negative, cs) := Decimal.takeSign cs
      let (digits, rest) := Decimal.takeDigits cs
      let n := Decimal.digitsValue digits
      if digits = [] then .error .malformed
      else if maxExponent < n then
        if significand ≠ 0 ∧ !negative then .error .malformed else .ok (0, rest)
      else (scale significand (if negative then exponent - n else exponent + n)).map (·, rest)
    else (scale significand exponent).map (·, mark :: cs)
  | [] => (scale significand exponent).map (·, [])

/-- Reads what follows the whole part of a float. -/
def withFraction (significand : Nat) (exponent : Int) (cs : List Char) :
    Except ReadError (Float × List Char) :=
  match cs with
  | '.' :: cs =>
    let (digits, rest) := Decimal.takeDigits cs
    if digits = [] then .error .malformed
    else
      let (significand, left) := gather significand digits
      withExponent significand (exponent - (digits.length - left.length : Nat)) rest
  | cs => withExponent significand exponent cs

def isFloatMark (c : Char) : Bool := c == '.' || c == 'e' || c == 'E'

/-- The value of a whole number that fits the significand. Zero keeps a minus sign only as a
float. -/
def whole (negative : Bool) (n : Nat) : Except ReadError Value :=
  if negative then
    match if n = 0 then none else int64? (-n) with
    | some i => .ok (.int i)
    | none => .ok (.float (-Float.ofNat n))
  else
    match int64? n with
    | some i => .ok (.int i)
    | none => .error (.integerTooLarge n)

/-- Reads a number that begins with a digit or a minus sign. -/
def number (cs : List Char) : Except ReadError (Value × List Char) :=
  let (negative, cs) := Decimal.takeMinus cs
  let (digits, rest) := Decimal.takeDigits cs
  if digits = [] ∨ (digits.head? = some '0' ∧ digits.length ≠ 1) then .error .malformed
  else
    let (significand, left) := gather 0 digits
    if left = [] ∧ !(rest.head?.map isFloatMark).getD false then
      (whole negative significand).map (·, rest)
    else
      (withFraction significand left.length rest).map fun (x, rest) =>
        (.float (if negative then -x else x), rest)

end Scriptlet.Json
