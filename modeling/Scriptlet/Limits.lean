import Scriptlet.Duration

/-!
Limits on one evaluation.
-/

namespace Scriptlet

/-- The depth is always limited, steps and time only on demand. -/
structure Limits where
  depth : Nat := 1000
  steps : Option Nat := none
  time : Option Duration := none
  deriving DecidableEq, Repr

end Scriptlet
