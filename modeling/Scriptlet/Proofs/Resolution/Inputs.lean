import Scriptlet.Proofs.Resolution.Scoping

/-!
Where a script reads from its binding: the symbols in value position that are neither locals nor
globals, in the order of the source. The free names that resolution finds are these.
-/

namespace Scriptlet

/-- A symbol in value position, where the bound names are locals. -/
def inputAt (env : Environment) (bound : List String) (x : String) (span : Span) : List FreeName :=
  if x ∈ bound ∨ (env.get? x).isSome then [] else [⟨x, span⟩]

/-- The names that the targets of a `let` or `fn` bind. -/
def targetNames (targets : List Form) : List String := targets.filterMap Form.symbol?

mutual

def Form.inputs (env : Environment) (bound : List String) : Form → List FreeName
  | .leaf (.symbol x) span => inputAt env bound x span
  | .leaf _ _ => []
  | .group .round (.leaf (.symbol name) s :: args) _ =>
    match SpecialForm.ofName? name with
    | some .quotation => []
    | some .bind => Form.inputsOfLet env bound args
    | some .lambda => Form.inputsOfFn env bound args
    | some _ => Form.inputsAll env bound args
    | none => inputAt env bound name s ++ Form.inputsAll env bound args
  | .group _ items _ => Form.inputsAll env bound items

def Form.inputsAll (env : Environment) (bound : List String) : List Form → List FreeName
  | [] => []
  | f :: fs => Form.inputs env bound f ++ Form.inputsAll env bound fs

def Form.inputsOfLet (env : Environment) (bound : List String) : List Form → List FreeName
  | .group .square pairs _ :: body =>
    Form.inputsOfPairs env bound pairs ++
      Form.inputsAll env ((targetNames (Resolution.firsts pairs)).reverse ++ bound) body
  | _ => []

def Form.inputsOfFn (env : Environment) (bound : List String) : List Form → List FreeName
  | .group .square params _ :: body => Form.inputsAll env (targetNames params ++ bound) body
  | _ => []

/-- The values of a `let`: a name is a local after its own value. -/
def Form.inputsOfPairs (env : Environment) (bound : List String) : List Form → List FreeName
  | target :: f :: rest =>
    Form.inputs env bound f ++ Form.inputsOfPairs env (target.symbol?.toList ++ bound) rest
  | _ => []

end

def Script.inputs (env : Environment) (script : Script) : List FreeName :=
  Form.inputsAll env [] script.forms

/-- The uses of names that are bound nowhere in the script. -/
def freeUses (uses : List Use) : List FreeName :=
  (uses.filter fun u => u.level.isNone).map fun u => ⟨u.name, u.span⟩

@[simp] theorem freeUses_append (us vs : List Use) :
    freeUses (us ++ vs) = freeUses us ++ freeUses vs := by
  simp [freeUses]

theorem inputAt_local {env : Environment} {p : Place} {x : String} {level : Nat} (span : Span)
    (h : p.level? x = some level) : inputAt env p.names x span = [] :=
  if_pos (.inl (Place.level?_isSome.1 (h ▸ rfl)))

theorem inputAt_global {env : Environment} {x : String} {v : Value} (bound : List String)
    (span : Span) (h : env.get? x = some v) : inputAt env bound x span = [] :=
  if_pos (.inr (h ▸ rfl))

theorem inputAt_free {env : Environment} {p : Place} {x : String} (span : Span)
    (hx : p.level? x = none) (h : env.get? x = none) :
    inputAt env p.names x span = [⟨x, span⟩] := by
  have hnone : ¬ (x ∈ p.names ∨ (env.get? x).isSome) := by
    rintro (hmem | hsome)
    · exact Place.level?_eq_none.1 hx hmem
    · simp [h] at hsome
  exact if_neg hnone

theorem targetNames_eq {targets : List Form} {names : List String}
    (h : targets.map Form.symbol? = names.map some) : targetNames targets = names := by
  have hf : targetNames targets = (targets.map Form.symbol?).filterMap id := by
    simp [targetNames, List.filterMap_map]
  rw [hf, h, List.filterMap_map]
  simp

/-- A list that begins with a symbol: its name says where the arguments stand. -/
theorem Form.inputs_list {env : Environment} {bound : List String} (name : String) (s span : Span)
    (args : List Form) :
    Form.inputs env bound (.group .round (.leaf (.symbol name) s :: args) span) =
      match SpecialForm.ofName? name with
      | some .quotation => []
      | some .bind => Form.inputsOfLet env bound args
      | some .lambda => Form.inputsOfFn env bound args
      | some _ => Form.inputsAll env bound args
      | none => inputAt env bound name s ++ Form.inputsAll env bound args :=
  rfl

/-- Forms whose arguments are all in value position. -/
theorem Form.inputs_sequence {env : Environment} {bound : List String} {name : String}
    {f : SpecialForm} (hf : SpecialForm.ofName? name = some f)
    (h : f = .block ∨ f = .allOf ∨ f = .anyOf ∨ f = .branch) (s span : Span) (args : List Form) :
    Form.inputs env bound (.group .round (.leaf (.symbol name) s :: args) span) =
      Form.inputsAll env bound args := by
  rw [Form.inputs_list, hf]
  rcases h with rfl | rfl | rfl | rfl <;> rfl

theorem Form.inputs_call {env : Environment} {bound : List String} {x : String}
    (hf : SpecialForm.ofName? x = none) (s span : Span) (args : List Form) :
    Form.inputs env bound (.group .round (.leaf (.symbol x) s :: args) span) =
      inputAt env bound x s ++ Form.inputsAll env bound args := by
  rw [Form.inputs_list, hf]

theorem Form.inputs_let {env : Environment} {bound : List String} {name : String}
    (hf : SpecialForm.ofName? name = some .bind) (s ps span : Span) (pairs body : List Form) :
    Form.inputs env bound
        (.group .round (.leaf (.symbol name) s :: .group .square pairs ps :: body) span) =
      Form.inputsOfPairs env bound pairs ++
        Form.inputsAll env ((targetNames (Resolution.firsts pairs)).reverse ++ bound) body := by
  rw [Form.inputs_list, hf]
  rfl

theorem Form.inputs_fn {env : Environment} {bound : List String} {name : String}
    (hf : SpecialForm.ofName? name = some .lambda) (s ps span : Span) (params body : List Form) :
    Form.inputs env bound
        (.group .round (.leaf (.symbol name) s :: .group .square params ps :: body) span) =
      Form.inputsAll env (targetNames params ++ bound) body := by
  rw [Form.inputs_list, hf]
  rfl

theorem Form.inputs_quote {env : Environment} {bound : List String} {name : String}
    (hf : SpecialForm.ofName? name = some .quotation) (s span : Span) (args : List Form) :
    Form.inputs env bound (.group .round (.leaf (.symbol name) s :: args) span) = [] := by
  rw [Form.inputs_list, hf]

/-- The head of a call is in value position, like the arguments. -/
theorem Form.inputs_callable {env : Environment} {p : Place} {head : Form}
    (hc : Form.Callable env p head) (bound : List String) (span : Span) (args : List Form) :
    Form.inputs env bound (.group .round (head :: args) span) =
      Form.inputs env bound head ++ Form.inputsAll env bound args := by
  cases hc with
  | list => rfl
  | localName hf _ => exact Form.inputs_call hf _ _ _
  | closure hf _ => exact Form.inputs_call hf _ _ _

mutual

theorem Resolves.freeUses {env : Environment} {p : Place} {f : Form} {n : Node} {uses : List Use}
    (h : Resolves env p f n uses) : freeUses uses = Form.inputs env p.names f :=
  match h with
  | @Resolves.literal _ _ a _ ha => by
    cases a <;> first | rfl | exact absurd rfl (ha _)
  | .localName hx => (inputAt_local _ hx).symm
  | .globalName _ hg => (inputAt_global _ _ hg).symm
  | .freeName hx hg _ => (inputAt_free _ hx hg).symm
  | .vector h => h.freeUses
  | .empty => rfl
  | .block hf h => h.freeUses.trans (Form.inputs_sequence hf (by simp) _ _ _).symm
  | .allOf hf h => h.freeUses.trans (Form.inputs_sequence hf (by simp) _ _ _).symm
  | .anyOf hf h => h.freeUses.trans (Form.inputs_sequence hf (by simp) _ _ _).symm
  | .quotation hf => (Form.inputs_quote hf _ _ _).symm
  | .branch hf hcond hyes => by
    rw [Form.inputs_sequence hf (by simp), freeUses_append, hcond.freeUses, hyes.freeUses]
    simp only [Form.inputsAll, List.append_nil]
  | .branchElse hf hcond hyes hno => by
    rw [Form.inputs_sequence hf (by simp), freeUses_append, freeUses_append, hcond.freeUses,
      hyes.freeUses, hno.freeUses]
    simp only [Form.inputsAll, List.append_nil]
  | .bind hf _ h => h.freeUses.trans (Form.inputs_let hf _ _ _ _ _).symm
  | .lambda hf hparams _ h => by
    rw [Form.inputs_fn hf, h.freeUses, Place.names_enter, targetNames_eq hparams]
  | .nativeCall hf _ hg _ h => by
    rw [Form.inputs_call hf, inputAt_global _ _ hg]
    exact h.freeUses
  | .call hc hhead h => by
    rw [freeUses_append, hhead.freeUses, h.freeUses, Form.inputs_callable hc]

theorem ResolvesAll.freeUses {env : Environment} {p : Place} {fs : List Form} {ns : List Node}
    {uses : List Use} (h : ResolvesAll env p fs ns uses) :
    freeUses uses = Form.inputsAll env p.names fs :=
  match h with
  | .nil => rfl
  | .cons hf h => by rw [freeUses_append, hf.freeUses, h.freeUses, Form.inputsAll]

theorem ResolvesBindings.freeUses {env : Environment} {p : Place} {pairs body : List Form}
    {bindings : List (String × Node)} {nodes : List Node} {uses : List Use}
    (h : ResolvesBindings env p pairs bindings body nodes uses) :
    freeUses uses = Form.inputsOfPairs env p.names pairs ++
      Form.inputsAll env ((targetNames (Resolution.firsts pairs)).reverse ++ p.names) body :=
  match h with
  | .nil h => h.freeUses
  | .cons hn h => by
    rw [freeUses_append, hn.freeUses, h.freeUses]
    simp [Form.inputsOfPairs, Resolution.firsts, targetNames, Form.symbol?]

end

end Scriptlet
