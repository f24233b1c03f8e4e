import Scriptlet.Proofs.Form.Nesting
import Scriptlet.Proofs.Resolution.Origin

/-!
How deep compiled trees are. The nesting of the groups of a script bounds the levels of its tree: a
node stands one level above the nodes of the forms in its group, and the whole script may add one
more.
-/

namespace Scriptlet

section Trees

variable {α : Type} {t u : Tree α}

theorem Tree.depth_le_of_mem {ts : List (Tree α)} (h : t ∈ ts) :
    Tree.depth t ≤ Tree.depthAll ts := by
  induction ts with
  | nil => cases h
  | cons u ts ih =>
    rw [Tree.depthAll]
    rcases List.mem_cons.1 h with rfl | h
    · exact Nat.le_max_left _ _
    · exact (ih h).trans (Nat.le_max_right _ _)

theorem Tree.Within.depth_le (h : t.Within u) : Tree.depth t ≤ Tree.depth u := by
  induction h with
  | self => exact Nat.le_refl _
  | item hu _ ih =>
    rw [Tree.depth]
    exact ih.trans ((Tree.depth_le_of_mem hu).trans (Nat.le_succ _))

theorem Tree.Inside.depth_lt (h : t.Inside u) : Tree.depth t < Tree.depth u := by
  cases h with
  | item hu h =>
    rw [Tree.depth]
    exact Nat.lt_succ_of_le (h.depth_le.trans (Tree.depth_le_of_mem hu))

end Trees

/-- The node and what is evaluated for it has at most so many levels. The body of a `fn` does not
count, for it is not evaluated where it stands. -/
inductive Node.Shallow : Nat → Node → Prop where
  | lambda {k l} : Shallow (k + 1) (.lambda l)
  | parts {k n} (h : ∀ m ∈ n.parts, Shallow k m) : Shallow (k + 1) n

namespace Node

variable {n m : Node} {k k' : Nat}

theorem Shallow.mono (h : n.Shallow k) (hk : k ≤ k') : n.Shallow k' := by
  induction h generalizing k' with
  | lambda =>
    obtain ⟨j, rfl⟩ : ∃ j, k' = j + 1 := ⟨k' - 1, by omega⟩
    exact .lambda
  | parts _ ih =>
    obtain ⟨j, rfl⟩ : ∃ j, k' = j + 1 := ⟨k' - 1, by omega⟩
    exact .parts fun m hm => ih m hm (by omega)

theorem Shallow.pos (h : n.Shallow k) : 0 < k := by
  cases h <;> exact Nat.succ_pos _

theorem Shallow.part (h : n.Shallow (k + 1)) (hn : ∀ l, n ≠ .lambda l) (hm : m ∈ n.parts) :
    m.Shallow k := by
  cases h with
  | lambda => exact absurd rfl (hn _)
  | parts h => exact h m hm

/-- A node has one level more than its form has groups in each other. -/
theorem StandsFor.shallow {env : Environment} {f : Form} (h : n.StandsFor env f) :
    n.Shallow (Tree.depth f + 1) := by
  induction hd : Tree.depth f using Nat.strongRecOn generalizing n f with
  | ind d ih =>
    refine .parts fun m hm => ?_
    obtain ⟨g, hg, hstands⟩ := h.part_inside hm
    have hlt : Tree.depth g < d := hd ▸ hg.depth_lt
    exact (ih (Tree.depth g) hlt hstands rfl).mono hlt

end Node

theorem Script.depthAll_le_of_read {limit : Nat} {source : String} {script : Script}
    (h : read limit source = .ok script) : Tree.depthAll script.forms ≤ limit := by
  obtain ⟨hnesting, -, hlaid, -⟩ := readChars_eq_ok_iff.1 h
  exact (hlaid.withinNesting_iff limit).1 hnesting

/-- Every node of a compiled script has at most two levels more than the limit on the nesting. -/
theorem Engine.shallow_of_compile {e : Engine} {serial : Nat} {name source : String} {a : Artifact}
    (h : e.compile serial name source = .ok a) {n : Node} (hn : n.Within a.body) :
    n.Shallow (e.nesting + 2) := by
  obtain ⟨script, nodes, uses, hread, -, ha⟩ := Engine.compile_ok h
  have hdepth := Script.depthAll_le_of_read hread
  have hform : ∀ f ∈ script.forms, ∀ g, Tree.Within g f → ∀ m : Node,
      m.StandsFor e.environment g → m.Shallow (e.nesting + 1) := by
    intro f hf g hg m hm
    have hle := hg.depth_le.trans ((Tree.depth_le_of_mem hf).trans hdepth)
    exact hm.shallow.mono (Nat.succ_le_succ hle)
  rcases ha.within hn with ⟨f, hf, g, hg, hstands⟩ | rfl
  · exact (hform f hf g hg n hstands).mono (Nat.le_succ _)
  · refine .parts fun m hm => ?_
    obtain ⟨f, hf, hstands⟩ := ha.forms.standsFor hm
    exact hform f hf f .self m hstands

end Scriptlet
