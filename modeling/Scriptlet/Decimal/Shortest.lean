import Scriptlet.Decimal.Basic

/-!
The decimal of a float: the fewest digits that read back as the same float, and of those the
nearest. All comparisons are made on natural numbers, so nothing is rounded on the way.
-/

namespace Scriptlet.Decimal

/-- The magnitude of a finite float is `significand * 2 ^ exponent`. -/
structure Binary where
  significand : Nat
  exponent : Int
  deriving DecidableEq, Repr

def signBit (x : Float) : Bool := x.toBits.toNat / Nat.pow 2 63 % 2 == 1

def binary (x : Float) : Binary :=
  let bits := x.toBits.toNat
  let biased : Nat := bits / Nat.pow 2 52 % Nat.pow 2 11
  let fraction := bits % Nat.pow 2 52
  if biased = 0 then ⟨fraction, -1074⟩ else ⟨fraction + Nat.pow 2 52, (biased : Int) - 1075⟩

namespace Binary

/-- The neighbour below is half as far away as the one above. -/
def isBoundary (b : Binary) : Bool := b.significand == Nat.pow 2 52 && -1074 < b.exponent

/-- The whole part. -/
def floor (b : Binary) : Nat :=
  b.significand * Nat.pow 2 b.exponent.toNat / Nat.pow 2 (-b.exponent).toNat

def isWhole (b : Binary) : Bool :=
  b.significand * Nat.pow 2 b.exponent.toNat % Nat.pow 2 (-b.exponent).toNat == 0

/-- The least `k` with the number below `10 ^ k`. No float is so small that 400 decimal places
leave nothing of it. -/
def decimalSize (b : Binary) : Int :=
  let scaled := b.significand * Nat.pow 2 b.exponent.toNat * Nat.pow 10 400
  (digitCount (scaled / Nat.pow 2 (-b.exponent).toNat) : Int) - 400

end Binary

/-- What to do with a number halfway between two candidates. -/
inductive Tie where
  | up
  | even
  deriving DecidableEq, Repr

/-- The interval of reals that round to a float, and the float itself, on a scale on which `unit`
is the distance of two decimals with the wanted number of digits. -/
structure Target where
  value : Nat
  low : Nat
  high : Nat
  closed : Bool
  unit : Nat
  deriving DecidableEq, Repr

namespace Target

/-- Quarters of the last binary place are whole on this scale, and so are multiples of
`10 ^ place`. -/
def ofBinary (b : Binary) (place : Int) : Target :=
  let quarter := Nat.pow 2 (b.exponent - 2).toNat * Nat.pow 10 (-place).toNat
  let unit := Nat.pow 10 place.toNat * Nat.pow 2 (2 - b.exponent).toNat
  { value := 4 * b.significand * quarter
    low := (4 * b.significand - if b.isBoundary then 1 else 2) * quarter
    high := (4 * b.significand + 2) * quarter
    closed := b.significand % 2 == 0
    unit }

/-- The multiple of the unit reads back as the float. -/
def admits (t : Target) (n : Nat) : Bool :=
  if t.closed then t.low ≤ n * t.unit && n * t.unit ≤ t.high
  else t.low < n * t.unit && n * t.unit < t.high

/-- The better of the two multiples around the value, if one of them reads back. -/
def nearest? (t : Target) (tie : Tie) : Option Nat :=
  let below := t.value / t.unit
  let gap := t.value - below * t.unit
  let pickAbove := t.unit < 2 * gap ∨ (t.unit = 2 * gap ∧ (tie = .up ∨ below % 2 = 1))
  match t.admits below, t.admits (below + 1) with
  | true, true => some (if pickAbove then below + 1 else below)
  | true, false => some below
  | false, true => some (below + 1)
  | false, false => none

end Target

/-- Moves zeros at the end of the digits into the exponent. The first argument bounds their
number. -/
def dropZeros : Nat → Nat → Int → Nat × Int
  | 0, digits, exponent => (digits, exponent)
  | fuel + 1, digits, exponent =>
    if digits ≠ 0 ∧ digits % 10 = 0 then dropZeros fuel (digits / 10) (exponent + 1)
    else (digits, exponent)

/-- The digits of a positive number, for a given count of them. -/
def withDigits? (b : Binary) (tie : Tie) (count : Nat) : Option (Nat × Int) :=
  let place := b.decimalSize - count
  ((Target.ofBinary b place).nearest? tie).map fun n => dropZeros 18 n place

/-- The shortest decimal of a finite float. Seventeen digits always suffice. -/
def shortest (tie : Tie) (x : Float) : Decimal :=
  let b := binary x
  if b.significand = 0 then ⟨signBit x, 0, 0⟩
  else
    let (digits, exponent) :=
      ((List.range' 1 17).findSome? (withDigits? b tie)).getD (b.floor, 0)
    ⟨signBit x, digits, exponent⟩

end Scriptlet.Decimal
