import Scriptlet.Proofs.Value.Equality

/-!
Values that are data: no functions and no floats in them.
-/

namespace Scriptlet

namespace Value

/-- Built from `nil`, booleans, integers, strings of the admitted characters, and lists of these. -/
inductive Data (admits : Char → Prop) : Value → Prop where
  | nil : Data admits .nil
  | bool (b) : Data admits (.bool b)
  | int (i) : Data admits (.int i)
  | str {s} (h : ∀ c ∈ s.toList, admits c) : Data admits (.str s)
  | list {items} (h : ∀ v ∈ items, Data admits v) : Data admits (.list items)

mutual

/-- How many lists stand in each other. -/
def depth : Value → Nat
  | .list items => depthAll items + 1
  | .nil | .bool _ | .int _ | .float _ | .str _ | .function _ => 0

def depthAll : List Value → Nat
  | [] => 0
  | v :: vs => max (depth v) (depthAll vs)

end

theorem depth_le_of_mem {v : Value} {vs : List Value} (h : v ∈ vs) : v.depth ≤ depthAll vs := by
  induction vs with
  | nil => cases h
  | cons w vs ih =>
    rw [depthAll]
    rcases List.mem_cons.1 h with rfl | h
    · exact Nat.le_max_left _ _
    · exact Nat.le_trans (ih h) (Nat.le_max_right _ _)

namespace Data

variable {admits : Char → Prop} {v : Value}

theorem not_hasNaN (h : v.Data admits) : ¬ v.HasNaN := by
  induction h with
  | nil | bool | int | str =>
    intro hnan
    cases hnan
  | list _ ih =>
    rw [hasNaN_list_iff]
    rintro ⟨w, hw, hnan⟩
    exact ih w hw hnan

/-- Data equals itself. -/
theorem beq_self (h : v.Data admits) : (v == v) = true := (beq_self_iff v).2 h.not_hasNaN

end Data

end Value

end Scriptlet
