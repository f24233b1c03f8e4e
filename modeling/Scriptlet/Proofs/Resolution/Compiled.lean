import Scriptlet.Engine
import Scriptlet.Proofs.Environment
import Scriptlet.Proofs.Resolution.Inputs
import Scriptlet.Proofs.Value.Likeness

/-!
Compiled scripts. The free names are the inputs of the source, each with its first place, in order;
the tree counts on them and on nothing else, and its constants are data or globals.
-/

namespace Scriptlet

theorem lookup_free (uses : List Use) (x : String) (span : Span) :
    (uses.map fun u => (u.name, u.span)).lookup x = some span ↔
      (uses.map fun u => FreeName.mk u.name u.span).find? (·.name == x) = some ⟨x, span⟩ := by
  induction uses with
  | nil => simp
  | cons u uses ih =>
    by_cases hu : u.name = x
    · simp [hu]
    · have hx : (x == u.name) = false := beq_false_of_ne (Ne.symm hu)
      simpa [List.lookup_cons, hx, hu] using ih

theorem mem_freeNames {uses : List Use} {v : FreeName} :
    v ∈ freeNames uses ↔ (freeUses uses).find? (·.name == v.name) = some v := by
  obtain ⟨x, span⟩ := v
  rw [freeUses, ← lookup_free, ← lookup_firstOfEach, ← lookup_sortByName (nodup_firstOfEach _),
    lookup_eq_some_iff_mem (nodup_sortByName (nodup_firstOfEach _))]
  simp [freeNames]

theorem mem_names_freeNames {uses : List Use} {x : String} :
    x ∈ (freeNames uses).map (·.name) ↔ ∃ u ∈ uses, u.level = none ∧ u.name = x := by
  have hmem : x ∈ (freeNames uses).map (·.name) ↔
      x ∈ (uses.filter fun u => u.level.isNone).map (·.name) := by
    let free := firstOfEach ((uses.filter fun u => u.level.isNone).map fun u => (u.name, u.span))
    have h : ((sortByName free).lookup x).isSome ↔ x ∈ (sortByName free).map (·.1) :=
      lookup_isSome_iff_mem
    rw [lookup_sortByName (nodup_firstOfEach _), lookup_firstOfEach, lookup_isSome_iff_mem] at h
    simpa [freeNames, Function.comp_def] using h.symm
  rw [hmem]
  simp [and_assoc]

theorem pairwise_freeNames (uses : List Use) :
    ((freeNames uses).map (·.name)).Pairwise (· < ·) := by
  have hnames : (freeNames uses).map (·.name) = (sortByName (firstOfEach
      ((uses.filter fun u => u.level.isNone).map fun u => (u.name, u.span)))).map (·.1) := by
    simp [freeNames, Function.comp_def]
  rw [hnames]
  refine pairwise_lt_of_nodup ?_ (nodup_sortByName (nodup_firstOfEach _))
  exact List.pairwise_map.2 (pairwise_sortBy _ _)

namespace Value

variable {R : Value → Value → Prop}

mutual

/-- Quoted forms are data, so they are like themselves. -/
theorem Likeness.quoted (hR : Likeness R) : ∀ f : Form, R (Form.quoted f) (Form.quoted f)
  | .leaf a _ => by cases a <;> exact hR.atom rfl
  | .group _ items _ => hR.list (hR.quotedAll items)

theorem Likeness.quotedAll (hR : Likeness R) :
    ∀ fs : List Form, List.Forall₂ R (Form.quotedAll fs) (Form.quotedAll fs)
  | [] => .nil
  | f :: fs => .cons (hR.quoted f) (hR.quotedAll fs)

end

end Value

theorem Node.mentions_constant {P : Value → Prop} {v : Value} {span : Span} (h : P v) :
    ∀ w, (Node.constant v span).Mentions w → P w := by
  intro w hw
  rw [Node.mentions_constant_iff.1 hw]
  exact h

theorem Node.mentions_parts {P : Value → Prop} {n : Node} (hn : ∀ v span, n ≠ .constant v span)
    (h : ∀ m ∈ n.parts, ∀ v, m.Mentions v → P v) : ∀ v, n.Mentions v → P v := by
  intro v hv
  obtain ⟨m, hm, hv⟩ := (Node.mentions_iff_parts hn).1 hv
  exact h m hm v hv

/-- Data of the source, or a global. -/
def Environment.Constant (env : Environment) (v : Value) : Prop :=
  (∃ f, v = Form.quoted f) ∨ ∃ x, env.get? x = some v

mutual

theorem Resolves.mentions {env : Environment} {p : Place} {f : Form} {n : Node} {uses : List Use}
    (h : Resolves env p f n uses) : ∀ v, n.Mentions v → env.Constant v :=
  match h with
  | @Resolves.literal _ _ a span _ => Node.mentions_constant (.inl ⟨.leaf a span, rfl⟩)
  | .globalName (x := x) _ hg => Node.mentions_constant (.inr ⟨x, hg⟩)
  | .quotation (f := f) _ => Node.mentions_constant (.inl ⟨f, rfl⟩)
  | .empty => Node.mentions_constant (.inl ⟨.group .round [] ⟨0, 0⟩, rfl⟩)
  | .localName _ => Node.mentions_parts (by simp) (by simp [Node.parts])
  | .freeName _ _ _ => by
    split <;> exact Node.mentions_parts (by simp) (by simp [Node.parts])
  | .vector h | .block _ h | .allOf _ h | .anyOf _ h | .nativeCall _ _ _ _ h
  | .lambda _ _ _ h => Node.mentions_parts (by simp) h.mentions
  | .bind _ _ h => Node.mentions_parts (by simp) h.mentions
  | .branch _ hcond hyes => Node.mentions_parts (by simp) <|
    List.forall_mem_cons.2 ⟨hcond.mentions, List.forall_mem_cons.2 ⟨hyes.mentions, by simp⟩⟩
  | .branchElse _ hcond hyes hno => Node.mentions_parts (by simp) <|
    List.forall_mem_cons.2 ⟨hcond.mentions, List.forall_mem_cons.2
      ⟨hyes.mentions, List.forall_mem_cons.2 ⟨hno.mentions, by simp⟩⟩⟩
  | .call _ hhead h => Node.mentions_parts (by simp) <|
    List.forall_mem_cons.2 ⟨hhead.mentions, h.mentions⟩

theorem ResolvesAll.mentions {env : Environment} {p : Place} {fs : List Form} {ns : List Node}
    {uses : List Use} (h : ResolvesAll env p fs ns uses) :
    ∀ n ∈ ns, ∀ v, n.Mentions v → env.Constant v :=
  match h with
  | .nil => fun _ hn => nomatch hn
  | .cons hf h => List.forall_mem_cons.2 ⟨hf.mentions, h.mentions⟩

theorem ResolvesBindings.mentions {env : Environment} {p : Place} {pairs body : List Form}
    {bindings : List (String × Node)} {nodes : List Node} {uses : List Use}
    (h : ResolvesBindings env p pairs bindings body nodes uses) :
    ∀ n ∈ bindings.map (·.2) ++ nodes, ∀ v, n.Mentions v → env.Constant v :=
  match h with
  | .nil h => h.mentions
  | .cons hf h => List.forall_mem_cons.2 ⟨hf.mentions, h.mentions⟩

end

/-- The nodes of a script as one node. -/
def Script.together (script : Script) : List Node → Node
  | [node] => node
  | nodes => .block nodes script.span

/-- A node in the tree of a script is in one of its nodes, or holds them together. -/
theorem Script.within_together {script : Script} {nodes : List Node} {m : Node}
    (h : m.Within (script.together nodes)) :
    (∃ n ∈ nodes, m.Within n) ∨ m = .block nodes script.span := by
  rw [Script.together.eq_def] at h
  split at h
  · exact .inl ⟨_, List.mem_singleton_self _, h⟩
  · cases h with
    | self => exact .inr rfl
    | part hn h => exact .inl ⟨_, hn, h⟩

/-- What compiling has made of a script. -/
structure Artifact.Renders (a : Artifact) (env : Environment) (script : Script) (nodes : List Node)
    (uses : List Use) : Prop where
  forms : ResolvesAll env .top script.forms nodes uses
  body : a.body = script.together nodes
  free : a.free = freeNames uses

theorem Script.resolve_ok {env : Environment} {script : Script} {resolved : ResolvedScript}
    (h : script.resolve env = .ok resolved) :
    ∃ nodes uses, ResolvesAll env .top script.forms nodes uses ∧ resolved.free = freeNames uses ∧
      resolved.body = script.together nodes := by
  simp only [Script.resolve] at h
  split at h
  · next herrors =>
    cases h
    exact ⟨_, _, Resolution.all_sound (fun f _ => Resolution.form_sound f)
      (List.isEmpty_iff.1 herrors), rfl, rfl⟩
  · cases h

theorem Engine.compile_ok {e : Engine} {serial : Nat} {name source : String} {a : Artifact}
    (h : e.compile serial name source = .ok a) :
    ∃ script nodes uses, Script.read e.nesting source = .ok script ∧ a.name = name ∧
      a.Renders e.environment script nodes uses := by
  unfold Engine.compile at h
  split at h
  · cases h
  · split at h
    · cases h
    · next script hread =>
      split at h
      · cases h
      · next resolved hresolve =>
        cases h
        obtain ⟨nodes, uses, hforms, hfree, hbody⟩ := Script.resolve_ok hresolve
        exact ⟨script, nodes, uses, hread, rfl, hforms, hbody, hfree⟩

theorem Environment.isAtom_of_get? {env : Environment}
    (h : ∀ g ∈ env.globals, g.value.isAtom = true) {x : String} {v : Value}
    (hv : env.get? x = some v) : v.isAtom = true := by
  obtain ⟨g, hg, -, rfl⟩ := Environment.get?_eq_some_iff.1 hv
  exact h g hg

/-- The standard library has no closures and no lists. -/
theorem Engine.standard_atoms :
    ∀ g ∈ Engine.standard.environment.globals, g.value.isAtom = true := by
  decide +kernel

theorem eq_ok_of_toOption {ε α : Type} {x : Except ε α} {a : α} (h : x.toOption = some a) :
    x = .ok a := by
  cases x with
  | error => cases h
  | ok => exact congrArg _ (Option.some.inj h)

/-- A computed fact about what a source compiles to. -/
theorem Engine.compile_of_map {α : Type} {e : Engine} {serial : Nat} {name source : String}
    {f : Artifact → α} {y : α} (h : (e.compile serial name source).toOption.map f = some y) :
    ∃ a, e.compile serial name source = .ok a ∧ f a = y := by
  obtain ⟨a, ha, hy⟩ := Option.map_eq_some_iff.1 h
  exact ⟨a, eq_ok_of_toOption ha, hy⟩

namespace Artifact.Renders

variable {a : Artifact} {env : Environment} {script : Script} {nodes : List Node} {uses : List Use}

theorem fits (h : a.Renders env script nodes uses) : Fits .top a.inputNames [] uses := by
  refine ⟨fun x hx => (nomatch hx), fun u _ l _ hlt => absurd hlt (Nat.not_lt_zero l), ?_⟩
  intro u hu hl
  have hmem : u.name ∈ a.inputNames := by
    rw [inputNames, h.free]
    exact mem_names_freeNames.2 ⟨u, hu, hl, rfl⟩
  exact hmem

/-- The body of a compiled script reads inputs, and holds nothing at first. -/
theorem body_scoped (h : a.Renders env script nodes uses) : a.body.Scoped a.inputNames [] := by
  have hnodes := h.forms.scoped Place.bounded_top h.fits
  rw [h.body, Script.together.eq_def]
  split
  · exact hnodes _ (by simp)
  · exact .block hnodes

theorem mentions (h : a.Renders env script nodes uses) :
    ∀ v, a.body.Mentions v → env.Constant v := by
  have hnodes := h.forms.mentions
  rw [h.body, Script.together.eq_def]
  split
  · exact hnodes _ (by simp)
  · exact Node.mentions_parts (by simp) hnodes

/-- The free names of a script are the names that its source reads from the binding. Each stands
once, with its first place. -/
theorem mem_free (h : a.Renders env script nodes uses) {v : FreeName} :
    v ∈ a.free ↔ (script.inputs env).find? (·.name == v.name) = some v := by
  rw [h.free, mem_freeNames, h.forms.freeUses]
  rfl

theorem pairwise_inputNames (h : a.Renders env script nodes uses) :
    a.inputNames.Pairwise (· < ·) := by
  rw [inputNames, h.free]
  exact pairwise_freeNames uses

end Artifact.Renders

end Scriptlet
