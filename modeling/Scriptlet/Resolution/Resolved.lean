import Scriptlet.Resolution.Error
import Scriptlet.Value.Basic

/-!
A result together with what was found on the way to it: errors, and uses of names that no enclosing
`quote` hides. Both are kept in the order of the source.
-/

namespace Scriptlet

/-- A symbol in value position that is not a global. The level of a local name is the number of
`fn` forms around the place that binds it; a free name has none. -/
structure Use where
  name : String
  span : Span
  level : Option Nat
  deriving DecidableEq, Repr

structure Resolved (α : Type) where
  value : α
  errors : List ResolutionError
  uses : List Use

namespace Resolved

variable {α β : Type}

def pure (a : α) : Resolved α := ⟨a, [], []⟩

def bind (x : Resolved α) (f : α → Resolved β) : Resolved β :=
  let y := f x.value
  ⟨y.value, x.errors ++ y.errors, x.uses ++ y.uses⟩

instance : Monad Resolved where
  pure := pure
  bind := bind

instance : LawfulMonad Resolved := LawfulMonad.mk' _
  (fun x => by cases x; simp [Functor.map, bind, pure])
  (fun a f => by simp [Bind.bind, Pure.pure, bind, pure])
  (fun x f g => by simp [Bind.bind, bind])

def error (e : ResolutionError) : Resolved Unit := ⟨(), [e], []⟩

def use (u : Use) : Resolved Unit := ⟨(), [], [u]⟩

/-- Shows the uses to what follows, without taking them out. -/
def withUses (x : Resolved α) : Resolved (α × List Use) := ⟨(x.value, x.uses), x.errors, x.uses⟩

end Resolved

end Scriptlet
