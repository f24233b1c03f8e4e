import Scriptlet.Proofs.Form.Reading
import Scriptlet.Proofs.Resolution.Compiled
import Scriptlet.Proofs.Text.Order

/-!
Free occurrences of names in a script. The free names that resolution finds are the names that occur
free, in the order of their bytes, each with the place of its leftmost free occurrence.
-/

namespace Scriptlet

mutual

/-- The name occurs free at the span, in a form in value position where the bound names are
locals. -/
inductive Form.FreeAt (env : Environment) : List String → Form → FreeName → Prop where
  | symbol {bound x span} (hx : x ∉ bound) (hg : env.get? x = none) :
      FreeAt env bound (.leaf (.symbol x) span) ⟨x, span⟩
  | vector {bound items span f v} (hf : f ∈ items) (h : FreeAt env bound f v) :
      FreeAt env bound (.group .square items span) v
  | values {bound name s args span form f v} (hname : SpecialForm.ofName? name = some form)
      (hform : form = .block ∨ form = .allOf ∨ form = .anyOf ∨ form = .branch) (hf : f ∈ args)
      (h : FreeAt env bound f v) :
      FreeAt env bound (.group .round (.leaf (.symbol name) s :: args) span) v
  | bind {bound name s pairs ps body span v} (hname : SpecialForm.ofName? name = some .bind)
      (h : FreeInLet env bound pairs body v) :
      FreeAt env bound
        (.group .round (.leaf (.symbol name) s :: .group .square pairs ps :: body) span) v
  | lambda {bound name s params ps body span names f v}
      (hname : SpecialForm.ofName? name = some .lambda)
      (hparams : params.map Form.symbol? = names.map some) (hf : f ∈ body)
      (h : FreeAt env (names ++ bound) f v) :
      FreeAt env bound
        (.group .round (.leaf (.symbol name) s :: .group .square params ps :: body) span) v
  | call {bound head args span f v}
      (hhead : ∀ x, head.symbol? = some x → SpecialForm.ofName? x = none) (hf : f ∈ head :: args)
      (h : FreeAt env bound f v) : FreeAt env bound (.group .round (head :: args) span) v

/-- The name occurs free in a value of a `let`, or in its body. A name of the `let` is bound after
its own value. -/
inductive Form.FreeInLet (env : Environment) :
    List String → List Form → List Form → FreeName → Prop where
  | value {bound x s f rest body v} (h : Form.FreeAt env bound f v) :
      FreeInLet env bound (.leaf (.symbol x) s :: f :: rest) body v
  | rest {bound x s f rest body v} (h : FreeInLet env (x :: bound) rest body v) :
      FreeInLet env bound (.leaf (.symbol x) s :: f :: rest) body v
  | body {bound body f v} (hf : f ∈ body) (h : Form.FreeAt env bound f v) :
      FreeInLet env bound [] body v

end

/-- The name occurs free at the span in one of the forms. -/
def Form.FreeIn (env : Environment) (bound : List String) (fs : List Form) (v : FreeName) : Prop :=
  ∃ f ∈ fs, Form.FreeAt env bound f v

namespace Form

variable {env : Environment} {bound : List String} {v : FreeName}

section Shapes

theorem not_freeAt_literal {a : Atom} {span : Span} (ha : ∀ x, a ≠ .symbol x) :
    ¬ FreeAt env bound (.leaf a span) v := by
  intro h
  cases h with
  | symbol => exact ha _ rfl

theorem freeAt_symbol {x : String} {span : Span} :
    FreeAt env bound (.leaf (.symbol x) span) v ↔
      x ∉ bound ∧ env.get? x = none ∧ v = ⟨x, span⟩ := by
  constructor
  · intro h
    cases h with
    | symbol hx hg => exact ⟨hx, hg, rfl⟩
  · rintro ⟨hx, hg, rfl⟩
    exact .symbol hx hg

theorem freeAt_vector {items : List Form} {span : Span} :
    FreeAt env bound (.group .square items span) v ↔ FreeIn env bound items v := by
  constructor
  · intro h
    cases h with
    | vector hf h => exact ⟨_, hf, h⟩
  · rintro ⟨f, hf, h⟩
    exact .vector hf h

theorem not_freeAt_empty {span : Span} : ¬ FreeAt env bound (.group .round [] span) v := by
  intro h
  cases h

variable {name : String} {s span : Span} {args : List Form}

/-- Where names occur free in a special form: in its values, in a `let`, or in the body of a `fn`. -/
theorem freeAt_special {form : SpecialForm} (hname : SpecialForm.ofName? name = some form) :
    FreeAt env bound (.group .round (.leaf (.symbol name) s :: args) span) v ↔
      ((form = .block ∨ form = .allOf ∨ form = .anyOf ∨ form = .branch) ∧
        FreeIn env bound args v) ∨
      (form = .bind ∧ ∃ pairs ps body, args = .group .square pairs ps :: body ∧
        FreeInLet env bound pairs body v) ∨
      (form = .lambda ∧ ∃ params ps body, args = .group .square params ps :: body ∧
        ∃ names, params.map Form.symbol? = names.map some ∧
          FreeIn env (names ++ bound) body v) := by
  constructor
  · intro h
    cases h with
    | values hname' hform hf h =>
      cases hname.symm.trans hname'
      exact .inl ⟨hform, _, hf, h⟩
    | bind hname' h =>
      cases hname.symm.trans hname'
      exact .inr (.inl ⟨rfl, _, _, _, rfl, h⟩)
    | lambda hname' hparams hf h =>
      cases hname.symm.trans hname'
      exact .inr (.inr ⟨rfl, _, _, _, rfl, _, hparams, _, hf, h⟩)
    | call hhead =>
      rw [hhead name rfl] at hname
      cases hname
  · rintro (⟨hform, f, hf, h⟩ | ⟨rfl, pairs, ps, body, rfl, h⟩ |
      ⟨rfl, params, ps, body, rfl, names, hparams, f, hf, h⟩)
    · exact .values hname hform hf h
    · exact .bind hname h
    · exact .lambda hname hparams hf h

/-- The parameters of a `fn` are names in one way. -/
theorem exists_names_iff {params : List Form} {names : List String}
    (hparams : params.map Form.symbol? = names.map some) {P : List String → Prop} :
    (∃ names', params.map Form.symbol? = names'.map some ∧ P names') ↔ P names := by
  constructor
  · rintro ⟨names', hparams', h⟩
    have hsame : names' = names := by
      rw [← targetNames_eq hparams', targetNames_eq hparams]
    exact hsame ▸ h
  · intro h
    exact ⟨names, hparams, h⟩

theorem freeAt_call {head : Form}
    (hhead : ∀ x, head.symbol? = some x → SpecialForm.ofName? x = none) :
    FreeAt env bound (.group .round (head :: args) span) v ↔ FreeIn env bound (head :: args) v := by
  constructor
  · intro h
    cases h with
    | call _ hf h => exact ⟨_, hf, h⟩
    | values hname | bind hname | lambda hname =>
      rw [hhead _ rfl] at hname
      cases hname
  · rintro ⟨f, hf, h⟩
    exact .call hhead hf h

theorem freeIn_nil : ¬ FreeIn env bound [] v := by
  rintro ⟨f, hf, -⟩
  cases hf

theorem freeIn_cons {f : Form} {fs : List Form} :
    FreeIn env bound (f :: fs) v ↔ FreeAt env bound f v ∨ FreeIn env bound fs v := by
  simp [FreeIn]

theorem freeInLet_cons {x : String} {f : Form} {rest body : List Form} :
    FreeInLet env bound (.leaf (.symbol x) s :: f :: rest) body v ↔
      FreeAt env bound f v ∨ FreeInLet env (x :: bound) rest body v := by
  constructor
  · intro h
    cases h with
    | value h => exact .inl h
    | rest h => exact .inr h
  · rintro (h | h)
    · exact .value h
    · exact .rest h

theorem freeInLet_nil {body : List Form} :
    FreeInLet env bound [] body v ↔ FreeIn env bound body v := by
  constructor
  · intro h
    cases h with
    | body hf h => exact ⟨_, hf, h⟩
  · rintro ⟨f, hf, h⟩
    exact .body hf h

end Shapes

end Form

section Occurrences

variable {env : Environment} {v : FreeName}

theorem Form.symbol?_head {x : String} (hf : SpecialForm.ofName? x = none) (s : Span) :
    ∀ y, Form.symbol? (.leaf (.symbol x) s) = some y → SpecialForm.ofName? y = none := by
  rintro _ ⟨⟩
  exact hf

theorem Form.Callable.head {p : Place} {head : Form} (h : head.Callable env p) :
    ∀ x, head.symbol? = some x → SpecialForm.ofName? x = none := by
  cases h with
  | list =>
    intro x hx
    cases hx
  | localName hf _ => exact Form.symbol?_head hf _
  | closure hf _ => exact Form.symbol?_head hf _

/-- The uses of one kind, as names with their places. -/
def usesOf (kind : Use → Bool) (uses : List Use) : List FreeName :=
  (uses.filter kind).map fun u => ⟨u.name, u.span⟩

/-- A kind of uses, as it is seen at the places that go with a list of bound names. A symbol has a
use of the kind just if its name is none of these, no global of `base`, and has the property. -/
structure UseKind (env base : Environment) (kind : Use → Bool) (P : String → Prop)
    (At : List String → Place → Prop) : Prop where
  bind {bound p} (x : String) (h : At bound p) : At (x :: bound) (p.bind x)
  enter {bound p} (names : List String) (h : At bound p) : At (names ++ bound) (p.enter names)
  localName {bound p x level} (span : Span) (h : At bound p) (hx : p.level? x = some level) :
    kind ⟨x, span, some level⟩ = true ↔ x ∉ bound ∧ base.get? x = none ∧ P x
  globalName {bound p x v} (h : At bound p) (hx : p.level? x = none) (hg : env.get? x = some v) :
    ¬(x ∉ bound ∧ base.get? x = none ∧ P x)
  freeName {bound p x} (span : Span) (h : At bound p) (hx : p.level? x = none)
    (hg : env.get? x = none) :
    kind ⟨x, span, none⟩ = true ↔ x ∉ bound ∧ base.get? x = none ∧ P x

section Kinds

variable {base : Environment} {kind : Use → Bool} {P : String → Prop}
  {At : List String → Place → Prop}

theorem mem_usesOf_nil : v ∉ usesOf kind [] := List.not_mem_nil

theorem mem_usesOf_append {us vs : List Use} :
    v ∈ usesOf kind (us ++ vs) ↔ v ∈ usesOf kind us ∨ v ∈ usesOf kind vs := by
  simp [usesOf]

theorem mem_usesOf_singleton {x : String} {span : Span} {level : Option Nat} :
    v ∈ usesOf kind [⟨x, span, level⟩] ↔ kind ⟨x, span, level⟩ = true ∧ v = ⟨x, span⟩ := by
  cases hkind : kind ⟨x, span, level⟩ <;> simp [usesOf, hkind]

/-- A symbol is the only free occurrence in it, if there is one. -/
theorem Form.freeAt_symbol_and {bound : List String} {x : String} {span : Span} :
    Form.FreeAt base bound (.leaf (.symbol x) span) v ∧ P v.name ↔
      (x ∉ bound ∧ base.get? x = none ∧ P x) ∧ v = ⟨x, span⟩ := by
  rw [Form.freeAt_symbol]
  constructor
  · rintro ⟨⟨hx, hg, rfl⟩, hP⟩
    exact ⟨⟨hx, hg, hP⟩, rfl⟩
  · rintro ⟨⟨hx, hg, hP⟩, rfl⟩
    exact ⟨⟨hx, hg, rfl⟩, hP⟩

mutual

/-- The uses of a kind in a form are the free occurrences of the names that the kind is about. -/
theorem Resolves.mem_usesOf (hk : UseKind env base kind P At) {bound : List String} {p : Place}
    {f : Form} {n : Node} {uses : List Use} (h : Resolves env p f n uses) (hp : At bound p) :
    v ∈ usesOf kind uses ↔ Form.FreeAt base bound f v ∧ P v.name :=
  match h with
  | .literal ha => by simp [mem_usesOf_nil, Form.not_freeAt_literal ha]
  | .localName hx => by
    rw [mem_usesOf_singleton, Form.freeAt_symbol_and, hk.localName _ hp hx]
  | .globalName hx hg => by
    rw [Form.freeAt_symbol_and]
    simp [mem_usesOf_nil, hk.globalName hp hx hg]
  | .freeName hx hg _ => by
    rw [mem_usesOf_singleton, Form.freeAt_symbol_and, hk.freeName _ hp hx hg]
  | .vector h => by rw [Form.freeAt_vector, h.mem_usesOf hk hp]
  | .empty => by simp [mem_usesOf_nil, Form.not_freeAt_empty]
  | .block hf h | .allOf hf h | .anyOf hf h => by
    rw [Form.freeAt_special hf, h.mem_usesOf hk hp]
    simp
  | .quotation hf => by
    rw [Form.freeAt_special hf]
    simp [mem_usesOf_nil]
  | .branch hf hcond hyes => by
    rw [Form.freeAt_special hf, mem_usesOf_append, hcond.mem_usesOf hk hp, hyes.mem_usesOf hk hp]
    simp [Form.freeIn_cons, Form.freeIn_nil, or_and_right]
  | .branchElse hf hcond hyes hno => by
    rw [Form.freeAt_special hf, mem_usesOf_append, mem_usesOf_append, hcond.mem_usesOf hk hp,
      hyes.mem_usesOf hk hp, hno.mem_usesOf hk hp]
    simp [Form.freeIn_cons, Form.freeIn_nil, or_and_right]
  | .bind hf _ h => by
    rw [Form.freeAt_special hf, h.mem_usesOf hk hp]
    simp
  | .lambda hf hparams _ h => by
    rw [Form.freeAt_special hf, h.mem_usesOf hk (hk.enter _ hp)]
    simp [Form.exists_names_iff hparams]
  | .nativeCall hf hx hg _ h => by
    rw [Form.freeAt_call (Form.symbol?_head hf _), Form.freeIn_cons, or_and_right,
      Form.freeAt_symbol_and, h.mem_usesOf hk hp]
    simp [hk.globalName hp hx hg]
  | .call hc hhead h => by
    rw [Form.freeAt_call hc.head, Form.freeIn_cons, or_and_right, mem_usesOf_append,
      hhead.mem_usesOf hk hp, h.mem_usesOf hk hp]

theorem ResolvesAll.mem_usesOf (hk : UseKind env base kind P At) {bound : List String} {p : Place}
    {fs : List Form} {ns : List Node} {uses : List Use} (h : ResolvesAll env p fs ns uses)
    (hp : At bound p) :
    v ∈ usesOf kind uses ↔ Form.FreeIn base bound fs v ∧ P v.name :=
  match h with
  | .nil => by simp [mem_usesOf_nil, Form.freeIn_nil]
  | .cons hf h => by
    rw [Form.freeIn_cons, or_and_right, mem_usesOf_append, hf.mem_usesOf hk hp,
      h.mem_usesOf hk hp]

theorem ResolvesBindings.mem_usesOf (hk : UseKind env base kind P At) {bound : List String}
    {p : Place} {pairs body : List Form} {bindings : List (String × Node)} {nodes : List Node}
    {uses : List Use} (h : ResolvesBindings env p pairs bindings body nodes uses)
    (hp : At bound p) :
    v ∈ usesOf kind uses ↔ Form.FreeInLet base bound pairs body v ∧ P v.name :=
  match h with
  | .nil h => by rw [Form.freeInLet_nil, h.mem_usesOf hk hp]
  | .cons hf h => by
    rw [Form.freeInLet_cons, or_and_right, mem_usesOf_append, hf.mem_usesOf hk hp,
      h.mem_usesOf hk (hk.bind _ hp)]

end

end Kinds

/-- The free uses are those of names that are no locals and no globals. -/
theorem UseKind.free (env : Environment) :
    UseKind env env (·.level.isNone) (fun _ => True) fun bound p => p.names = bound where
  bind _ h := by rw [Place.names_bind, h]
  enter _ h := by rw [Place.names_enter, h]
  localName _ h hx := by
    have hmem := Place.level?_isSome.1 (by rw [hx]; rfl : (Place.level? _ _).isSome = true)
    simp [← h, hmem]
  globalName _ _ hg := by simp [hg]
  freeName _ h hx hg := by simp [← h, Place.level?_eq_none.1 hx, hg]

/-- The free uses in forms are the free occurrences of names. -/
theorem ResolvesAll.mem_freeUses {p : Place} {fs : List Form} {ns : List Node} {uses : List Use}
    (h : ResolvesAll env p fs ns uses) :
    v ∈ Scriptlet.freeUses uses ↔ Form.FreeIn env p.names fs v :=
  (h.mem_usesOf (UseKind.free env) rfl).trans (and_iff_left trivial)

/-- The places of the free uses. -/
def freeSpans (uses : List Use) : List Span := (freeUses uses).map (·.span)

theorem freeSpans_append (us vs : List Use) :
    freeSpans (us ++ vs) = freeSpans us ++ freeSpans vs := by
  rw [freeSpans, freeUses_append, List.map_append]
  rfl

/-- The places of the leaves of trees, from left to right. -/
def leafSpans (fs : List Form) : List Span := (Tree.leavesAll fs).map (·.2)

theorem leafSpans_nil : leafSpans [] = [] := rfl

theorem leafSpans_leaf (a : Atom) (span : Span) (fs : List Form) :
    leafSpans (.leaf a span :: fs) = span :: leafSpans fs := rfl

theorem leafSpans_group (b : Bracket) (items : List Form) (span : Span) (fs : List Form) :
    leafSpans (.group b items span :: fs) = leafSpans items ++ leafSpans fs := by
  rw [leafSpans, Tree.leavesAll, List.map_append]
  rfl

theorem leafSpans_cons (f : Form) (fs : List Form) :
    leafSpans (f :: fs) = leafSpans [f] ++ leafSpans fs := by
  cases f with
  | leaf a span => rfl
  | group b items span => rw [leafSpans_group, leafSpans_group, leafSpans_nil, List.append_nil]

mutual

/-- Free uses are found from left to right. -/
theorem Resolves.sublist_freeSpans {p : Place} {f : Form} {n : Node} {uses : List Use}
    (h : Resolves env p f n uses) : (freeSpans uses).Sublist (leafSpans [f]) :=
  match h with
  | .literal _ => List.nil_sublist _
  | .localName _ => List.nil_sublist _
  | .globalName _ _ => List.nil_sublist _
  | .freeName _ _ _ => List.Sublist.refl _
  | .vector h => by
    rw [leafSpans_group, leafSpans_nil, List.append_nil]
    exact h.sublist_freeSpans
  | .empty => List.nil_sublist _
  | .quotation _ => List.nil_sublist _
  | .block _ h | .allOf _ h | .anyOf _ h | .nativeCall _ _ _ _ h => by
    rw [leafSpans_group, leafSpans_leaf, leafSpans_nil, List.append_nil]
    exact h.sublist_freeSpans.cons _
  | .branch _ hcond hyes => by
    rw [leafSpans_group, leafSpans_leaf, leafSpans_cons, leafSpans_nil, List.append_nil,
      freeSpans_append]
    exact (hcond.sublist_freeSpans.append hyes.sublist_freeSpans).cons _
  | @Resolves.branchElse _ _ _ _ c y z _ _ _ _ _ _ _ _ hcond hyes hno => by
    rw [leafSpans_group, leafSpans_leaf, leafSpans_cons c, leafSpans_cons y, leafSpans_nil,
      List.append_nil, freeSpans_append, freeSpans_append]
    exact (hcond.sublist_freeSpans.append
      (hyes.sublist_freeSpans.append hno.sublist_freeSpans)).cons _
  | .bind _ _ h => by
    rw [leafSpans_group, leafSpans_leaf, leafSpans_group, leafSpans_nil, List.append_nil]
    exact h.sublist_freeSpans.cons _
  | .lambda _ _ _ h => by
    rw [leafSpans_group, leafSpans_leaf, leafSpans_group, leafSpans_nil, List.append_nil]
    exact (h.sublist_freeSpans.trans (List.sublist_append_right _ _)).cons _
  | .call _ hhead h => by
    rw [leafSpans_group, leafSpans_cons, leafSpans_nil, List.append_nil, freeSpans_append]
    exact hhead.sublist_freeSpans.append h.sublist_freeSpans

theorem ResolvesAll.sublist_freeSpans {p : Place} {fs : List Form} {ns : List Node}
    {uses : List Use} (h : ResolvesAll env p fs ns uses) :
    (freeSpans uses).Sublist (leafSpans fs) :=
  match h with
  | .nil => List.nil_sublist _
  | .cons hf h => by
    rw [leafSpans_cons, freeSpans_append]
    exact hf.sublist_freeSpans.append h.sublist_freeSpans

theorem ResolvesBindings.sublist_freeSpans {p : Place} {pairs body : List Form}
    {bindings : List (String × Node)} {nodes : List Node} {uses : List Use}
    (h : ResolvesBindings env p pairs bindings body nodes uses) :
    (freeSpans uses).Sublist (leafSpans pairs ++ leafSpans body) :=
  match h with
  | .nil h => h.sublist_freeSpans
  | @ResolvesBindings.cons _ _ _ _ f _ _ _ _ _ _ _ hf h => by
    rw [leafSpans_leaf, leafSpans_cons f, freeSpans_append, List.cons_append, List.append_assoc]
    exact (hf.sublist_freeSpans.append h.sublist_freeSpans).cons _

end

end Occurrences

/-- In a list that is in order, the first item of a kind stands before the others. -/
theorem lt_of_find? {α : Type} {R : α → α → Prop} {as : List α} (has : as.Pairwise R) {P : α → Bool}
    {a b : α} (ha : as.find? P = some a) (hb : b ∈ as) (hP : P b = true) : a = b ∨ R a b := by
  obtain ⟨-, before, after, rfl, hbefore⟩ := List.find?_eq_some_iff_append.1 ha
  rcases List.mem_append.1 hb with hb | hb
  · have hnot := hbefore b hb
    rw [hP] at hnot
    cases hnot
  · rcases List.mem_cons.1 hb with rfl | hb
    · exact .inl rfl
    · exact .inr ((List.pairwise_cons.1 (List.pairwise_append.1 has).2.1).1 b hb)

/-- The free names of a script without errors are the names that occur free in it, in the order of
their bytes. Each has the place of a free occurrence, and in a script that was read from a source
that is the leftmost one. -/
theorem Script.resolve_free {env : Environment} {script : Script} {r : ResolvedScript}
    (h : script.resolve env = .ok r) :
    (r.free.map fun v => utf8Bytes v.name).Pairwise (· < ·) ∧
    (∀ x, (∃ v ∈ r.free, v.name = x) ↔ ∃ span, Form.FreeIn env [] script.forms ⟨x, span⟩) ∧
    ∀ v ∈ r.free, Form.FreeIn env [] script.forms v ∧
      ∀ limit source, Script.read limit source = .ok script →
        ∀ span, Form.FreeIn env [] script.forms ⟨v.name, span⟩ →
          v.span = span ∨ v.span.start < span.start := by
  obtain ⟨nodes, uses, hforms, hfree, -⟩ := Script.resolve_ok h
  have hoccurs : ∀ v, v ∈ freeUses uses ↔ Form.FreeIn env [] script.forms v := fun v =>
    hforms.mem_freeUses
  have hmem : ∀ v ∈ r.free, Form.FreeIn env [] script.forms v := by
    intro v hv
    rw [hfree, mem_freeNames] at hv
    exact (hoccurs v).1 (List.mem_of_find?_eq_some hv)
  refine ⟨?_, ?_, ?_⟩
  · have hnames := pairwise_freeNames uses
    rw [← hfree, List.pairwise_map] at hnames
    rw [List.pairwise_map]
    exact hnames.imp utf8Bytes_lt
  · intro x
    constructor
    · rintro ⟨v, hv, rfl⟩
      exact ⟨v.span, hmem v hv⟩
    · rintro ⟨span, hspan⟩
      have hfound : ((freeUses uses).find? (·.name == x)).isSome := by
        rw [List.find?_isSome]
        exact ⟨_, (hoccurs _).2 hspan, by simp⟩
      obtain ⟨v, hv⟩ := Option.isSome_iff_exists.1 hfound
      have hname : v.name = x := by simpa using List.find?_some hv
      refine ⟨v, ?_, hname⟩
      rw [hfree, mem_freeNames, hname]
      exact hv
  · intro v hv
    refine ⟨hmem v hv, ?_⟩
    intro limit source hread span hspan
    rw [hfree, mem_freeNames] at hv
    have hordered : (freeSpans uses).Pairwise fun s t => s.start < t.start :=
      (Script.read_ordered hread).sublist hforms.sublist_freeSpans
    rw [freeSpans, List.pairwise_map] at hordered
    rcases lt_of_find? hordered hv ((hoccurs _).2 hspan) (by simp) with heq | hlt
    · exact .inl (congrArg FreeName.span heq)
    · exact .inr hlt

/-- A name that occurs twice has the place of its first occurrence. -/
theorem Script.resolve_free_repeated :
    ∃ script r, Script.read 1 "[b a b]" = .ok script ∧ script.resolve ∅ = .ok r ∧
      r.free = [⟨"a", ⟨3, 4⟩⟩, ⟨"b", ⟨1, 2⟩⟩] ∧
      ∀ span, Form.FreeIn ∅ [] script.forms ⟨"b", span⟩ → ⟨1, 2⟩ = span ∨ 1 < span.start := by
  have hfacts : ((Script.read 1 "[b a b]").toOption.bind fun script =>
      (script.resolve ∅).toOption.map (·.free)) =
        some [⟨"a", ⟨3, 4⟩⟩, ⟨"b", ⟨1, 2⟩⟩] := by decide +kernel
  obtain ⟨script, hread, hresolve⟩ := Option.bind_eq_some_iff.1 hfacts
  obtain ⟨r, hr, hfree⟩ := Option.map_eq_some_iff.1 hresolve
  have hok : script.resolve ∅ = .ok r := eq_ok_of_toOption hr
  have hmem : (⟨"b", ⟨1, 2⟩⟩ : FreeName) ∈ r.free := by
    rw [hfree]
    simp
  refine ⟨script, r, eq_ok_of_toOption hread, hok, hfree, ?_⟩
  exact ((Script.resolve_free hok).2.2 _ hmem).2 1 "[b a b]" (eq_ok_of_toOption hread)

end Scriptlet
