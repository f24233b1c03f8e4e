/-!
Results that are a value or an error, and what a change of the value makes of them.
-/

namespace Scriptlet

variable {ε α β : Type} {f : α → β} {x : Except ε α}

theorem except_map_eq_ok {b : β} (h : x.map f = .ok b) : ∃ a, x = .ok a ∧ f a = b := by
  cases x with
  | error => cases h
  | ok a => exact ⟨a, rfl, Except.ok.inj h⟩

theorem except_map_eq_error_iff {e : ε} : x.map f = .error e ↔ x = .error e := by
  cases x <;> simp [Except.map]

/-- A result is a value just where it is not an error. -/
theorem except_exists_ok_iff : (∃ a, x = .ok a) ↔ ∀ e, x ≠ .error e := by
  cases x <;> simp

end Scriptlet
