import Scriptlet.Proofs.Resolution.WellFormed

/-!
Where the nodes of a compiled tree come from. Each of them stands for a form of the script at some
place and has the span of that form; only the node that holds several forms together has the span of
the script.
-/

namespace Scriptlet

theorem Tree.Within.trans {α : Type} {t u v : Tree α} (h : t.Within u) (h' : u.Within v) :
    t.Within v := by
  induction h' with
  | self => exact h
  | item hu _ ih => exact .item hu ih

/-- The tree stands in an item of the other. -/
inductive Tree.Inside {α : Type} (t : Tree α) : Tree α → Prop where
  | item {b items span u} (hu : u ∈ items) (h : t.Within u) : Inside t (.group b items span)

theorem Tree.Inside.within {α : Type} {t u : Tree α} (h : t.Inside u) : t.Within u := by
  cases h with
  | item hu h => exact .item hu h

theorem Tree.Inside.of_within {α : Type} {t u v : Tree α} (h : u.Inside v) (ht : t.Within u) :
    t.Inside v := by
  cases h with
  | item hu h => exact .item hu (ht.trans h)

/-- The node stands for the form, at some place. -/
def Node.StandsFor (env : Environment) (n : Node) (f : Form) : Prop :=
  ∃ p uses, Resolves env p f n uses

variable {env : Environment}

theorem ResolvesAll.exists_resolves {p : Place} {fs : List Form} {ns : List Node} {uses : List Use}
    (h : ResolvesAll env p fs ns uses) {n : Node} (hn : n ∈ ns) :
    ∃ f ∈ fs, ∃ us, Resolves env p f n us := by
  induction fs generalizing ns uses with
  | nil =>
    cases h with
    | nil => cases hn
  | cons f fs ih =>
    cases h with
    | cons hf h =>
      rcases List.mem_cons.1 hn with rfl | hn
      · exact ⟨f, List.mem_cons_self, _, hf⟩
      · obtain ⟨g, hg, hresolves⟩ := ih h hn
        exact ⟨g, List.mem_cons_of_mem _ hg, hresolves⟩

theorem ResolvesAll.standsFor {p : Place} {fs : List Form} {ns : List Node} {uses : List Use}
    (h : ResolvesAll env p fs ns uses) {n : Node} (hn : n ∈ ns) :
    ∃ f ∈ fs, n.StandsFor env f := by
  obtain ⟨f, hf, us, hresolves⟩ := h.exists_resolves hn
  exact ⟨f, hf, p, us, hresolves⟩

theorem ResolvesBindings.standsFor {p : Place} {pairs body : List Form}
    {bindings : List (String × Node)} {nodes : List Node} {uses : List Use}
    (h : ResolvesBindings env p pairs bindings body nodes uses) {n : Node}
    (hn : n ∈ bindings.map (·.2) ++ nodes) : ∃ f ∈ pairs ++ body, n.StandsFor env f := by
  induction bindings generalizing p pairs uses with
  | nil =>
    cases h with
    | nil h => exact h.standsFor hn
  | cons b bindings ih =>
    cases h with
    | @cons _ x s f rest n' _ _ _ us vs hf h =>
      rcases List.mem_cons.1 hn with rfl | hn
      · exact ⟨f, by simp, _, _, hf⟩
      · obtain ⟨g, hg, hstands⟩ := ih h hn
        exact ⟨g, List.mem_cons_of_mem _ (List.mem_cons_of_mem _ hg), hstands⟩

theorem Resolves.span_eq {p : Place} {f : Form} {n : Node} {uses : List Use}
    (h : Resolves env p f n uses) : n.span = f.span := by
  cases h with
  | freeName =>
    split <;> rfl
  | _ => rfl

/-- The parts of a node stand for forms inside the form that the node stands for. -/
theorem Node.StandsFor.part_inside {n m : Node} {f : Form} (h : n.StandsFor env f)
    (hm : m ∈ n.parts) : ∃ g, Tree.Inside g f ∧ m.StandsFor env g := by
  obtain ⟨p, uses, h⟩ := h
  cases h with
  | literal | localName | globalName | empty | quotation => cases hm
  | freeName =>
    split at hm <;> cases hm
  | vector h =>
    obtain ⟨g, hg, hstands⟩ := h.standsFor hm
    exact ⟨g, .item hg .self, hstands⟩
  | block _ h | allOf _ h | anyOf _ h | nativeCall _ _ _ _ h =>
    obtain ⟨g, hg, hstands⟩ := h.standsFor hm
    exact ⟨g, .item (List.mem_cons_of_mem _ hg) .self, hstands⟩
  | lambda _ _ _ h =>
    obtain ⟨g, hg, hstands⟩ := h.standsFor hm
    exact ⟨g, .item (List.mem_cons_of_mem _ (List.mem_cons_of_mem _ hg)) .self, hstands⟩
  | @bind _ _ _ pairs ps _ _ _ _ _ _ _ h =>
    obtain ⟨g, hg, hstands⟩ := h.standsFor hm
    rcases List.mem_append.1 hg with hg | hg
    · have hvalues : Tree.Within g (.group .square pairs ps) := .item hg .self
      exact ⟨g, .item (by simp) hvalues, hstands⟩
    · exact ⟨g, .item (by simp [hg]) .self, hstands⟩
  | @branch _ _ _ c y _ _ _ _ _ _ hcond hyes =>
    rcases List.mem_cons.1 hm with rfl | hm
    · exact ⟨c, .item (by simp) .self, _, _, hcond⟩
    · cases List.mem_singleton.1 hm
      exact ⟨y, .item (by simp) .self, _, _, hyes⟩
  | @branchElse _ _ _ c y e _ _ _ _ _ _ _ _ hcond hyes hno =>
    rcases List.mem_cons.1 hm with rfl | hm
    · exact ⟨c, .item (by simp) .self, _, _, hcond⟩
    · rcases List.mem_cons.1 hm with rfl | hm
      · exact ⟨y, .item (by simp) .self, _, _, hyes⟩
      · cases List.mem_singleton.1 hm
        exact ⟨e, .item (by simp) .self, _, _, hno⟩
  | @call _ head _ _ _ _ _ _ _ hhead h =>
    rcases List.mem_cons.1 hm with rfl | hm
    · exact ⟨head, .item (by simp) .self, _, _, hhead⟩
    · obtain ⟨g, hg, hstands⟩ := h.standsFor hm
      exact ⟨g, .item (List.mem_cons_of_mem _ hg) .self, hstands⟩

theorem Node.StandsFor.part {n m : Node} {f : Form} (h : n.StandsFor env f) (hm : m ∈ n.parts) :
    ∃ g, Tree.Within g f ∧ m.StandsFor env g := by
  obtain ⟨g, hg, hstands⟩ := h.part_inside hm
  exact ⟨g, hg.within, hstands⟩

/-- Every node of a tree stands for a form in the form that the tree stands for. -/
theorem Node.StandsFor.within {n m : Node} {f : Form} (h : n.StandsFor env f) (hm : m.Within n) :
    ∃ g, Tree.Within g f ∧ m.StandsFor env g := by
  induction hm generalizing f with
  | self => exact ⟨f, .self, h⟩
  | part hk _ ih =>
    obtain ⟨g, hg, hstands⟩ := h.part hk
    obtain ⟨g', hg', hstands'⟩ := ih hstands
    exact ⟨g', hg'.trans hg, hstands'⟩

/-- A call that was compiled to run a native function at once has a number of arguments that the
function takes. -/
theorem Node.StandsFor.accepts {native : Native} {args : List Node} {span : Span} {f : Form}
    (h : (Node.nativeCall native args span).StandsFor env f) :
    native.arity.accepts args.length = true := by
  obtain ⟨p, uses, h⟩ := h
  generalize hn : Node.nativeCall native args span = n at h
  cases h with
  | nativeCall _ _ _ harity _ =>
    cases hn
    exact harity
  | freeName => split at hn <;> cases hn
  | _ => cases hn

namespace Artifact.Renders

variable {a : Artifact} {script : Script} {nodes : List Node} {uses : List Use}

/-- A node of a compiled script stands for a form of it, or is the whole body and holds its forms
together. -/
theorem within (h : a.Renders env script nodes uses) {m : Node} (hm : m.Within a.body) :
    (∃ f ∈ script.forms, ∃ g, Tree.Within g f ∧ m.StandsFor env g) ∨
      m = .block nodes script.span := by
  rw [h.body] at hm
  obtain ⟨n, hn, hwithin⟩ | hall := Script.within_together hm
  · obtain ⟨f, hf, hstands⟩ := h.forms.standsFor hn
    exact .inl ⟨f, hf, hstands.within hwithin⟩
  · exact .inr hall

end Artifact.Renders

end Scriptlet
