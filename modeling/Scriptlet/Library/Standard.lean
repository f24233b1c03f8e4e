import Scriptlet.Environment

/-!
The standard library as a registration, and the environment that holds nothing else.
-/

namespace Scriptlet

/-- The floats nearest to the two constants. -/
def pi : Float := (Decimal.mk false 3141592653589793 (-15)).toFloat
def eulerNumber : Float := (Decimal.mk false 2718281828459045 (-15)).toFloat

namespace Registration

def math : Registration Unit := do
  category "Math"
  constant "PI" (.float pi) "Ratio of a circle's circumference to its diameter"
  constant "E" (.float eulerNumber) "Euler's number, base of the natural logarithm"
  [.add, .subtract, .multiply, .divide, .quot, .rem, .mod, .inc, .dec, .abs, .min, .max].forM
    builtin

def comparison : Registration Unit := do
  category "Comparison"
  [.equal, .notEqual, .less, .greater, .atMost, .atLeast].forM builtin

def logic : Registration Unit := do
  category "Logic"
  [.not, .isNil, .isZero, .isEmpty, .isNumber, .isString].forM builtin

def strings : Registration Unit := do
  category "Strings"
  [.str, .upperCase, .lowerCase].forM builtin

def lists : Registration Unit := do
  category "Lists"
  [.list, .count, .first, .rest, .nth, .conj, .concat].forM builtin

def standard : Registration Unit := do
  math
  comparison
  logic
  strings
  lists

end Registration

/-- The number of the builder of the standard environment. -/
def standardMaker : Nat := 0

def Environment.standard : Environment :=
  (Registration.standard.run (Builder.start standardMaker)).2.environment

end Scriptlet
