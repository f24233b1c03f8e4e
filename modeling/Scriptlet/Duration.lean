/-!
Lengths of time, in nanoseconds.
-/

namespace Scriptlet

structure Duration where
  nanos : Nat
  deriving DecidableEq, Repr, Inhabited

namespace Duration

def ofMillis (n : Nat) : Duration := ⟨n * 1000000⟩

/-- The digits after the point of `part` out of `10 ^ places`, without trailing zeros. -/
def fraction (part places : Nat) : String :=
  let digits := (Nat.toDigits 10 (Nat.pow 10 places + part)).drop 1
  let kept := (digits.reverse.dropWhile (· == '0')).reverse
  if kept.isEmpty then "" else "." ++ String.ofList kept

/-- An amount of the unit that is `10 ^ places` nanoseconds. -/
def inUnit (d : Duration) (places : Nat) (unit : String) : String :=
  toString (d.nanos / Nat.pow 10 places) ++ fraction (d.nanos % Nat.pow 10 places) places ++ unit

/-- The largest unit of which there is at least one, and as many decimals as are needed. -/
def display (d : Duration) : String :=
  if 1000000000 ≤ d.nanos then d.inUnit 9 "s"
  else if 1000000 ≤ d.nanos then d.inUnit 6 "ms"
  else if 1000 ≤ d.nanos then d.inUnit 3 "µs"
  else d.inUnit 0 "ns"

end Duration

end Scriptlet
