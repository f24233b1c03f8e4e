import Scriptlet.Proofs.Evaluation.Run

/-!
Two computations side by side. Where both give a value, the values and the states that they leave
are compared. An error on one side can excuse a pair from the comparison, for instance an error that
only says that a limit was reached.
-/

namespace Scriptlet

/-- How the errors of two computations are judged. -/
structure Terms (ε ε' : Type) where
  left : ε → Prop
  right : ε' → Prop
  both : ε → ε' → Prop

section Endings

variable {ε ε' α α' β β' σ τ : Type} {T : Terms ε ε'} {Q : α → σ → β → τ → Prop}

/-- Outcomes that two compared computations may end with. -/
inductive Ends (T : Terms ε ε') (Q : α → σ → β → τ → Prop) :
    Except ε α × σ → Except ε' β × τ → Prop where
  | values {a s b t} (h : Q a s b t) : Ends T Q (.ok a, s) (.ok b, t)
  | failures {e e' s t} (h : T.both e e') : Ends T Q (.error e, s) (.error e', t)
  | left {e s y} (h : T.left e) : Ends T Q (.error e, s) y
  | right {e' x t} (h : T.right e') : Ends T Q x (.error e', t)

namespace Ends

theorem mono {Q' : α → σ → β → τ → Prop} {x : Except ε α × σ} {y : Except ε' β × τ}
    (h : Ends T Q x y) (hQ : ∀ a s b t, Q a s b t → Q' a s b t) : Ends T Q' x y := by
  cases h with
  | values h => exact .values (hQ _ _ _ _ h)
  | failures h => exact .failures h
  | left h => exact .left h
  | right h => exact .right h

/-- Adds what is known of a value that the left computation gives. -/
theorem and_left {P : α → Prop} {x : Except ε α × σ} {y : Except ε' β × τ} (h : Ends T Q x y)
    (hP : ∀ a s, x = (.ok a, s) → P a) : Ends T (fun a s b t => Q a s b t ∧ P a) x y := by
  cases h with
  | values h => exact .values ⟨h, hP _ _ rfl⟩
  | failures h => exact .failures h
  | left h => exact .left h
  | right h => exact .right h

/-- Changes the states that are left behind. -/
theorem afterwards {Q' : α → σ → β → τ → Prop} {f : σ → σ} {g : τ → τ} {x : Except ε α × σ}
    {y : Except ε' β × τ} (h : Ends T Q x y) (hQ : ∀ a s b t, Q a s b t → Q' a (f s) b (g t)) :
    Ends T Q' (x.1, f x.2) (y.1, g y.2) := by
  cases h with
  | values h => exact .values (hQ _ _ _ _ h)
  | failures h => exact .failures h
  | left h => exact .left h
  | right h => exact .right h

theorem bind {Q' : α' → σ → β' → τ → Prop} {x : ExceptT ε (StateM σ) α}
    {y : ExceptT ε' (StateM τ) β} {f : α → ExceptT ε (StateM σ) α'}
    {g : β → ExceptT ε' (StateM τ) β'} {s : σ} {t : τ} (h : Ends T Q (x s) (y t))
    (hf : ∀ a s' b t', Q a s' b t' → Ends T Q' (f a s') (g b t')) :
    Ends T Q' ((x >>= f) s) ((y >>= g) t) := by
  rw [bind_run, bind_run]
  generalize x s = u at h
  generalize y t = v at h
  cases h with
  | values h => exact hf _ _ _ _ h
  | failures h => exact .failures h
  | left h => exact .left h
  | right h => exact .right h

end Ends

end Endings

end Scriptlet
