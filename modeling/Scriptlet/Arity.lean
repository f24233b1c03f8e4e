/-!
How many arguments a function takes.
-/

namespace Scriptlet

inductive Arity where
  | exactly (n : Nat)
  | atLeast (n : Nat)
  | between (low high : Nat)
  deriving DecidableEq, Repr

namespace Arity

def accepts : Arity → Nat → Bool
  | exactly n, k => k == n
  | atLeast n, k => n ≤ k
  | between low high, k => low ≤ k && k ≤ high

def display : Arity → String
  | exactly n => s!"exactly {n}"
  | atLeast n => s!"at least {n}"
  | between low high => s!"between {low} and {high}"

@[simp] theorem accepts_exactly (n k : Nat) : (exactly n).accepts k = true ↔ k = n := by
  simp [accepts]

@[simp] theorem accepts_atLeast (n k : Nat) : (atLeast n).accepts k = true ↔ n ≤ k := by
  simp [accepts]

@[simp] theorem accepts_between (low high k : Nat) :
    (between low high).accepts k = true ↔ low ≤ k ∧ k ≤ high := by
  simp [accepts]

end Arity

end Scriptlet
