import Scriptlet.Proofs.Environment
import Scriptlet.Proofs.Resolution.Compiled

/-!
The scripts that resolution accepts. Whether a form is well formed depends on the names that are
bound around it, and resolution finds no error just where all forms in value position are well
formed. The tree of such a script has no constants but those of its forms.
-/

namespace Scriptlet

mutual

/-- The form is well formed in value position, where the bound names are locals. -/
inductive Form.WellFormed (env : Environment) : List String → Form → Prop where
  | literal {bound a span} (h : ∀ x, a ≠ .symbol x) : WellFormed env bound (.leaf a span)
  | symbol {bound x span} (hx : isSpecialName x = false) :
      WellFormed env bound (.leaf (.symbol x) span)
  | vector {bound items span} (h : ∀ f ∈ items, WellFormed env bound f) :
      WellFormed env bound (.group .square items span)
  | empty {bound span} : WellFormed env bound (.group .round [] span)
  | sequence {bound name s args span form} (hf : SpecialForm.ofName? name = some form)
      (hform : form = .block ∨ form = .allOf ∨ form = .anyOf)
      (h : ∀ f ∈ args, WellFormed env bound f) :
      WellFormed env bound (.group .round (.leaf (.symbol name) s :: args) span)
  | branch {bound name s args span} (hf : SpecialForm.ofName? name = some .branch)
      (hcount : args.length = 2 ∨ args.length = 3) (h : ∀ f ∈ args, WellFormed env bound f) :
      WellFormed env bound (.group .round (.leaf (.symbol name) s :: args) span)
  | quotation {bound name s f span} (hf : SpecialForm.ofName? name = some .quotation) :
      WellFormed env bound (.group .round [.leaf (.symbol name) s, f] span)
  | bind {bound name s pairs ps body span names} (hf : SpecialForm.ofName? name = some .bind)
      (heven : pairs.length % 2 = 0)
      (htargets : (Resolution.firsts pairs).map Form.symbol? = names.map some)
      (hnames : Bindable names) (h : WellFormedLet env bound pairs body) :
      WellFormed env bound
        (.group .round (.leaf (.symbol name) s :: .group .square pairs ps :: body) span)
  | lambda {bound name s params ps body span names}
      (hf : SpecialForm.ofName? name = some .lambda)
      (hparams : params.map Form.symbol? = names.map some) (hnames : Bindable names)
      (h : ∀ f ∈ body, WellFormed env (names ++ bound) f) :
      WellFormed env bound
        (.group .round (.leaf (.symbol name) s :: .group .square params ps :: body) span)
  | callList {bound items s args span} (hhead : WellFormed env bound (.group .round items s))
      (h : ∀ f ∈ args, WellFormed env bound f) :
      WellFormed env bound (.group .round (.group .round items s :: args) span)
  | callLocal {bound x s args span} (hf : SpecialForm.ofName? x = none) (hx : x ∈ bound)
      (h : ∀ f ∈ args, WellFormed env bound f) :
      WellFormed env bound (.group .round (.leaf (.symbol x) s :: args) span)
  | callGlobal {bound x s args span f} (hf : SpecialForm.ofName? x = none) (hx : x ∉ bound)
      (hg : env.get? x = some (.function f))
      (harity : ∀ n, f = .native n → n.arity.accepts args.length = true)
      (h : ∀ f ∈ args, WellFormed env bound f) :
      WellFormed env bound (.group .round (.leaf (.symbol x) s :: args) span)

/-- The values of a `let` and its body are well formed, each where the names before it are bound. -/
inductive Form.WellFormedLet (env : Environment) :
    List String → List Form → List Form → Prop where
  | body {bound body} (h : ∀ f ∈ body, Form.WellFormed env bound f) :
      WellFormedLet env bound [] body
  | value {bound x s f rest body} (hf : Form.WellFormed env bound f)
      (h : WellFormedLet env (x :: bound) rest body) :
      WellFormedLet env bound (.leaf (.symbol x) s :: f :: rest) body

end

/-- What a form in value position is, if it is a constant: its own data, or a global. -/
inductive Form.Constant (env : Environment) : Form → Value → Prop where
  | literal {a span} (h : ∀ x, a ≠ .symbol x) : Constant env (.leaf a span) a.value
  | globalName {x span v} (h : env.get? x = some v) : Constant env (.leaf (.symbol x) span) v
  | empty {span} : Constant env (.group .round [] span) (.list [])
  | quotation {name s f span} (hf : SpecialForm.ofName? name = some .quotation) :
      Constant env (.group .round [.leaf (.symbol name) s, f] span) (Form.quoted f)

/-- The tree stands somewhere in another. -/
inductive Tree.Within {α : Type} (t : Tree α) : Tree α → Prop where
  | self : Within t t
  | item {b items span u} (hu : u ∈ items) (h : Within t u) : Within t (.group b items span)

/-- A constant at a place stands for a form in one of the trees. -/
def Form.Hold (env : Environment) (fs : List Form) (v : Value) (span : Span) : Prop :=
  ∃ f ∈ fs, ∃ g, Tree.Within g f ∧ g.span = span ∧ Form.Constant env g v

variable {env : Environment}

theorem ResolvesAll.length_eq {p : Place} {fs : List Form} {ns : List Node} {uses : List Use}
    (h : ResolvesAll env p fs ns uses) : ns.length = fs.length := by
  induction fs generalizing ns uses with
  | nil =>
    cases h
    rfl
  | cons f fs ih =>
    cases h with
    | cons _ h => rw [List.length_cons, List.length_cons, ih h]

section Accepted

theorem SpecialForm.isSpecialName_eq_false {x : String} (h : SpecialForm.ofName? x = none) :
    isSpecialName x = false := by
  rw [isSpecialName, h]
  rfl

theorem SpecialForm.ofName?_eq_none {x : String} (h : isSpecialName x = false) :
    SpecialForm.ofName? x = none := by
  simpa [isSpecialName] using h

/-- No local has the name of a special form. -/
def Place.Plain (p : Place) : Prop := ∀ x ∈ p.names, isSpecialName x = false

theorem Place.Plain.bind {p : Place} (h : p.Plain) {x : String} (hx : isSpecialName x = false) :
    (p.bind x).Plain := by
  intro y hy
  rw [Place.names_bind] at hy
  rcases List.mem_cons.1 hy with rfl | hy
  · exact hx
  · exact h y hy

theorem Place.Plain.enter {p : Place} (h : p.Plain) {params : List String}
    (hparams : Bindable params) : (p.enter params).Plain := by
  intro y hy
  rw [Place.names_enter] at hy
  rcases List.mem_append.1 hy with hy | hy
  · exact hparams.special y hy
  · exact h y hy

mutual

/-- What resolves is well formed. -/
theorem Resolves.wellFormed (henv : env.Built) {p : Place} {f : Form} {n : Node} {uses : List Use}
    (h : Resolves env p f n uses) (hp : p.Plain) : Form.WellFormed env p.names f :=
  match h with
  | .literal ha => .literal ha
  | .localName hx => .symbol (hp _ (Place.level?_isSome.1 (by rw [hx]; rfl)))
  | .globalName _ hg => .symbol (henv.isSpecialName_eq_false hg)
  | .freeName _ _ hs => .symbol hs
  | .vector h => .vector (h.wellFormed henv hp)
  | .empty => .empty
  | .block hf h => .sequence hf (.inl rfl) (h.wellFormed henv hp)
  | .allOf hf h => .sequence hf (.inr (.inl rfl)) (h.wellFormed henv hp)
  | .anyOf hf h => .sequence hf (.inr (.inr rfl)) (h.wellFormed henv hp)
  | .quotation hf => .quotation hf
  | .branch hf hcond hyes => .branch hf (.inl rfl) <|
    List.forall_mem_cons.2 ⟨hcond.wellFormed henv hp,
      List.forall_mem_cons.2 ⟨hyes.wellFormed henv hp, fun _ hmem => nomatch hmem⟩⟩
  | .branchElse hf hcond hyes hno => .branch hf (.inr rfl) <|
    List.forall_mem_cons.2 ⟨hcond.wellFormed henv hp,
      List.forall_mem_cons.2 ⟨hyes.wellFormed henv hp,
        List.forall_mem_cons.2 ⟨hno.wellFormed henv hp, fun _ hmem => nomatch hmem⟩⟩⟩
  | .bind hf hnames h =>
    have hlet := h.wellFormed henv hp hnames.special
    .bind hf hlet.1 hlet.2.1 hnames hlet.2.2
  | .lambda hf hparams hnames h =>
    have hbody := h.wellFormed henv (hp.enter hnames)
    .lambda hf hparams hnames (Place.names_enter p _ ▸ hbody)
  | .nativeCall hf hx hg harity h => by
    refine .callGlobal hf (Place.level?_eq_none.1 hx) hg ?_ (h.wellFormed henv hp)
    intro n hn
    cases hn
    rwa [← h.length_eq]
  | .call hc hhead h => by
    have hcallee := hhead.wellFormed henv hp
    have hargs := h.wellFormed henv hp
    cases hc with
    | list => exact .callList hcallee hargs
    | localName hf hx =>
      exact .callLocal hf (Place.level?_isSome.1 (by rw [hx]; rfl)) hargs
    | @closure x _ _ _ _ hf hg =>
      by_cases hx : x ∈ p.names
      · exact .callLocal hf hx hargs
      · exact .callGlobal hf hx hg (fun _ hn => nomatch hn) hargs

theorem ResolvesAll.wellFormed (henv : env.Built) {p : Place} {fs : List Form} {ns : List Node}
    {uses : List Use} (h : ResolvesAll env p fs ns uses) (hp : p.Plain) :
    ∀ f ∈ fs, Form.WellFormed env p.names f :=
  match h with
  | .nil => fun _ hf => nomatch hf
  | .cons hf h => List.forall_mem_cons.2 ⟨hf.wellFormed henv hp, h.wellFormed henv hp⟩

theorem ResolvesBindings.wellFormed (henv : env.Built) {p : Place} {pairs body : List Form}
    {bindings : List (String × Node)} {nodes : List Node} {uses : List Use}
    (h : ResolvesBindings env p pairs bindings body nodes uses) (hp : p.Plain)
    (hnames : ∀ x ∈ bindings.map (·.1), isSpecialName x = false) :
    pairs.length % 2 = 0 ∧
      (Resolution.firsts pairs).map Form.symbol? = (bindings.map (·.1)).map some ∧
      Form.WellFormedLet env p.names pairs body :=
  match h with
  | .nil h => ⟨rfl, rfl, .body (h.wellFormed henv hp)⟩
  | .cons hn h => by
    have hx := hnames _ List.mem_cons_self
    obtain ⟨heven, htargets, hlet⟩ :=
      h.wellFormed henv (hp.bind hx) fun y hy => hnames y (List.mem_cons_of_mem _ hy)
    refine ⟨?_, ?_, .value (hn.wellFormed henv hp) hlet⟩
    · simp only [List.length_cons]
      omega
    · rw [Resolution.firsts, List.map_cons, htargets]
      rfl

end

end Accepted

namespace Resolution

theorem all_errors_eq_nil {p : Place} {fs : List Form} (h : ∀ f ∈ fs, (form env p f).errors = []) :
    (all env p fs).errors = [] := by
  induction fs with
  | nil =>
    rw [all]
    rfl
  | cons f fs ih =>
    rw [all]
    simp only [Resolved.errors_bind, Resolved.errors_pure, List.append_eq_nil_iff]
    exact ⟨h f List.mem_cons_self, ih fun g hg => h g (List.mem_cons_of_mem _ hg), trivial⟩

theorem length_all (env : Environment) (p : Place) (fs : List Form) :
    (all env p fs).value.length = fs.length := by
  induction fs with
  | nil =>
    rw [all]
    rfl
  | cons f fs ih =>
    rw [all]
    simp only [Resolved.value_bind, Resolved.value_pure, List.length_cons, ih]

theorem symbol_errors_eq_nil {p : Place} {x : String} (hx : isSpecialName x = false) (span : Span) :
    (symbol env p x span).errors = [] := by
  unfold symbol
  cases p.level? x with
  | some level => rfl
  | none =>
    cases env.get? x with
    | some v => rfl
    | none =>
      simp only [hx]
      rfl

theorem badTarget_of_bindable {f : SpecialForm} {seen : List String} {target : Form} {x : String}
    (hx : target.symbol? = some x) (hspecial : isSpecialName x = false) (hnew : x ∉ seen) :
    badTarget f seen target = none := by
  simp [badTarget, hx, hspecial, hnew]

/-- Different symbols that name no special form are targets without errors. -/
theorem targets_of_bindable {f : SpecialForm} {seen names : List String} {ts : List Form}
    (hts : ts.map Form.symbol? = names.map some) (hnames : Bindable (seen.reverse ++ names)) :
    targets f seen ts = ⟨some (seen.reverse ++ names), [], []⟩ := by
  induction ts generalizing seen names with
  | nil =>
    have hnil : names = [] := List.map_eq_nil_iff.1 hts.symm
    subst hnil
    rw [List.append_nil]
    rfl
  | cons t ts ih =>
    obtain ⟨x, names', rfl, hx, hrest⟩ := List.map_eq_cons_iff.1 hts.symm
    have happend : seen.reverse ++ x :: names' = (x :: seen).reverse ++ names' := by simp
    have hspecial : isSpecialName x = false := hnames.special x (by simp)
    have hnew : x ∉ seen := by
      intro hmem
      have hdisjoint := (List.nodup_append.1 hnames.nodup).2.2
      exact hdisjoint x (List.mem_reverse.2 hmem) x List.mem_cons_self rfl
    rw [happend] at hnames ⊢
    rw [targets, badTarget_of_bindable hx.symm hspecial hnew, ← hx]
    exact ih hrest.symm hnames

theorem targets_eq {f : SpecialForm} {names : List String} {ts : List Form}
    (hts : ts.map Form.symbol? = names.map some) (hnames : Bindable names) :
    targets f [] ts = ⟨some names, [], []⟩ := @targets_of_bindable f [] names ts hts hnames

theorem globalCall_errors_eq_nil {name : String} {head span : Span} {args : List Node}
    {f : Function} (hg : env.get? name = some (.function f))
    (harity : ∀ n, f = .native n → n.arity.accepts args.length = true) :
    (globalCall env name head args span).errors = [] := by
  unfold globalCall
  cases f with
  | native n =>
    simp only [hg, harity n rfl, if_true]
    rfl
  | closure i l kept =>
    simp only [hg]
    rfl

theorem branch_errors_eq_nil {p : Place} {args : List Form} {span : Span}
    (hcount : args.length = 2 ∨ args.length = 3) (h : ∀ f ∈ args, (form env p f).errors = []) :
    (branch env p args span).errors = [] := by
  match args, hcount with
  | [cond, yes], _ =>
    rw [branch]
    simp only [Resolved.errors_bind, Resolved.errors_pure, List.append_eq_nil_iff]
    exact ⟨h cond (by simp), h yes (by simp), trivial⟩
  | [cond, yes, no], _ =>
    rw [branch]
    simp only [Resolved.errors_bind, Resolved.errors_pure, List.append_eq_nil_iff]
    exact ⟨h cond (by simp), h yes (by simp), h no (by simp), trivial⟩

end Resolution

open Resolution in
mutual

/-- What is well formed resolves without errors. -/
theorem Form.WellFormed.errors_eq_nil {bound : List String} {f : Form}
    (h : Form.WellFormed env bound f) (p : Place) (hp : p.names = bound) :
    (form env p f).errors = [] :=
  match h with
  | @Form.WellFormed.literal _ _ a _ ha => by
    cases a <;> first | exact absurd rfl (ha _) | (rw [form]; rfl; simp)
  | .symbol hx => by
    rw [form]
    exact symbol_errors_eq_nil hx _
  | .vector h => by
    have hitems := all_errors_eq_nil fun f hf => (h f hf).errors_eq_nil p hp
    rw [form]
    simp only [Resolved.errors_bind, Resolved.errors_pure, hitems, List.append_nil]
  | .empty => by
    rw [form, list]
    rfl
  | .sequence hf hform h => by
    have hargs := all_errors_eq_nil fun f hf => (h f hf).errors_eq_nil p hp
    rw [form, list]
    rcases hform with rfl | rfl | rfl <;>
      simp only [hf, Resolved.errors_bind, Resolved.errors_pure, hargs, List.append_nil]
  | .branch hf hcount h => by
    rw [form, list]
    simp only [hf]
    exact branch_errors_eq_nil hcount fun f hf => (h f hf).errors_eq_nil p hp
  | .quotation hf => by
    rw [form, list]
    simp only [hf]
    rfl
  | .bind hf heven htargets hnames h => by
    obtain ⟨hvalues, hbody⟩ := h.errors_eq_nil p hp htargets
    rw [form, list]
    simp only [hf]
    rw [bindForm, if_neg (by omega), targets_eq htargets hnames]
    simp only [Resolved.errors_bind, Resolved.errors_pure, List.append_eq_nil_iff]
    exact ⟨trivial, hvalues, hbody, trivial⟩
  | .lambda hf hparams hnames h => by
    have hbody := all_errors_eq_nil fun f hf =>
      (h f hf).errors_eq_nil (p.enter _) (by rw [Place.names_enter, hp])
    rw [form, list]
    simp only [hf]
    rw [lambda, targets_eq hparams hnames]
    simp only [Resolved.errors_bind, Resolved.errors_withUses, Resolved.errors_pure,
      List.append_eq_nil_iff]
    exact ⟨trivial, hbody, trivial⟩
  | .callList hhead h => by
    have hargs := all_errors_eq_nil fun f hf => (h f hf).errors_eq_nil p hp
    rw [form, list]
    simp only [Resolved.errors_bind, Resolved.errors_pure, hargs, hhead.errors_eq_nil p hp,
      List.append_nil]
  | .callLocal hf hx h => by
    have hargs := all_errors_eq_nil fun f hf => (h f hf).errors_eq_nil p hp
    obtain ⟨level, hlevel⟩ := Option.isSome_iff_exists.1 (Place.level?_isSome.2 (hp.symm ▸ hx))
    rw [form, list]
    simp only [hf, hlevel, Resolved.errors_bind, Resolved.errors_pure, hargs,
      symbol_errors_eq_nil (SpecialForm.isSpecialName_eq_false hf), List.append_nil]
  | .callGlobal hf hx hg harity h => by
    have hargs := all_errors_eq_nil fun f hf => (h f hf).errors_eq_nil p hp
    have hlevel : p.level? _ = none := Place.level?_eq_none.2 (hp.symm ▸ hx)
    rw [form, list]
    simp only [hf, hlevel, Resolved.errors_bind, hargs, List.nil_append]
    refine globalCall_errors_eq_nil hg fun n hn => ?_
    rw [length_all]
    exact harity n hn

theorem Form.WellFormedLet.errors_eq_nil {bound names : List String} {pairs body : List Form}
    (h : Form.WellFormedLet env bound pairs body) (p : Place) (hp : p.names = bound)
    (hnames : (firsts pairs).map Form.symbol? = names.map some) :
    (bindingsOf env p names pairs).errors = [] ∧
      (all env (bindingsOf env p names pairs).value.2 body).errors = [] :=
  match h with
  | .body h => by
    have hbody := all_errors_eq_nil fun f hf => (h f hf).errors_eq_nil p hp
    have hnil : names = [] := List.map_eq_nil_iff.1 hnames.symm
    subst hnil
    have hdone : bindingsOf env p [] [] = Pure.pure ([], p) := by
      rw [bindingsOf]
      simp
    rw [hdone]
    exact ⟨rfl, hbody⟩
  | .value hf h => by
    obtain ⟨x, names', rfl, hx, hrest⟩ := List.map_eq_cons_iff.1 hnames.symm
    cases hx
    have hvalue := hf.errors_eq_nil p hp
    obtain ⟨hvalues, hbody⟩ :=
      h.errors_eq_nil (p.bind _) (by rw [Place.names_bind, hp]) hrest.symm
    rw [bindingsOf]
    simp only [Resolved.errors_bind, Resolved.errors_pure, Resolved.value_bind,
      Resolved.value_pure, List.append_eq_nil_iff]
    exact ⟨⟨hvalue, hvalues, trivial⟩, hbody⟩

end

section Constants

variable {v : Value} {span : Span}

theorem Form.Constant.hold {f : Form} (h : Form.Constant env f v) : Form.Hold env [f] v f.span :=
  ⟨f, List.mem_singleton_self f, f, .self, rfl, h⟩

theorem Form.Hold.mono {fs gs : List Form} (h : Form.Hold env fs v span)
    (hsub : ∀ f ∈ fs, f ∈ gs) : Form.Hold env gs v span := by
  obtain ⟨f, hf, hg⟩ := h
  exact ⟨f, hsub f hf, hg⟩

theorem Form.Hold.group {items : List Form} (h : Form.Hold env items v span) (b : Bracket)
    (s : Span) : Form.Hold env [.group b items s] v span := by
  obtain ⟨f, hf, g, hg, hspan, hconst⟩ := h
  exact ⟨_, List.mem_singleton_self _, g, .item hf hg, hspan, hconst⟩

theorem Node.within_constant {P : Value → Span → Prop} (h : P v span) :
    ∀ w s, (Node.constant w s).Within (.constant v span) → P w s := by
  intro w s hw
  cases hw with
  | self => exact h
  | part hm => cases hm

theorem Node.within_parts {P : Value → Span → Prop} {n : Node}
    (hn : ∀ v span, n ≠ .constant v span)
    (h : ∀ m ∈ n.parts, ∀ w s, (Node.constant w s).Within m → P w s) :
    ∀ w s, (Node.constant w s).Within n → P w s := by
  intro w s hw
  cases hw with
  | self => exact absurd rfl (hn w s)
  | part hm hw => exact h _ hm w s hw

/-- The constants of the nodes stand for forms in the trees. -/
def Node.AllHeld (env : Environment) (ns : List Node) (fs : List Form) : Prop :=
  ∀ n ∈ ns, ∀ v span, (Node.constant v span).Within n → Form.Hold env fs v span

theorem Node.AllHeld.mono {ns : List Node} {fs gs : List Form} (h : Node.AllHeld env ns fs)
    (hsub : ∀ f ∈ fs, f ∈ gs) : Node.AllHeld env ns gs :=
  fun n hn v s hw => (h n hn v s hw).mono hsub

theorem Node.AllHeld.group {ns : List Node} {items : List Form} (h : Node.AllHeld env ns items)
    (b : Bracket) (s : Span) : Node.AllHeld env ns [.group b items s] :=
  fun n hn v span hw => (h n hn v span hw).group b s

theorem Node.AllHeld.cons {n : Node} {ns : List Node} {fs : List Form}
    (hn : Node.AllHeld env [n] fs) (h : Node.AllHeld env ns fs) : Node.AllHeld env (n :: ns) fs :=
  List.forall_mem_cons.2 ⟨hn n (List.mem_singleton_self n), h⟩

/-- A node whose parts stand for forms in a group. -/
theorem Node.AllHeld.node {n : Node} {items : List Form} (hn : ∀ v span, n ≠ .constant v span)
    (h : Node.AllHeld env n.parts items) (b : Bracket) (s : Span) :
    Node.AllHeld env [n] [.group b items s] := by
  intro m hm
  cases List.mem_singleton.1 hm
  exact Node.within_parts hn fun k hk v span hw => (h k hk v span hw).group b s

theorem Node.AllHeld.constant {f : Form} (h : Form.Constant env f v) :
    Node.AllHeld env [.constant v f.span] [f] := by
  intro m hm
  cases List.mem_singleton.1 hm
  exact Node.within_constant h.hold

theorem Node.AllHeld.leaf {n : Node} {fs : List Form} (hn : ∀ v span, n ≠ .constant v span)
    (hparts : n.parts = []) : Node.AllHeld env [n] fs := by
  intro m hm
  cases List.mem_singleton.1 hm
  refine Node.within_parts hn fun k hk => ?_
  rw [hparts] at hk
  cases hk

mutual

/-- Every constant stands for a form of the source. -/
theorem Resolves.held {p : Place} {f : Form} {n : Node} {uses : List Use}
    (h : Resolves env p f n uses) : Node.AllHeld env [n] [f] :=
  match h with
  | .literal ha => Node.AllHeld.constant (.literal ha)
  | .globalName _ hg => Node.AllHeld.constant (.globalName hg)
  | .empty => Node.AllHeld.constant .empty
  | .quotation hf => Node.AllHeld.constant (.quotation hf)
  | .localName _ => .leaf (by simp) rfl
  | .freeName _ _ _ => by split <;> exact .leaf (by simp) rfl
  | .vector h => .node (by simp) h.held _ _
  | .block _ h | .allOf _ h | .anyOf _ h | .nativeCall _ _ _ _ h =>
    .node (by simp) (h.held.mono fun _ hf => List.mem_cons_of_mem _ hf) _ _
  | .lambda _ _ _ h =>
    .node (by simp) (h.held.mono fun _ hf => List.mem_cons_of_mem _ (List.mem_cons_of_mem _ hf)) _ _
  | @Resolves.bind _ _ _ s pairs ps body _ _ _ _ _ _ h => by
    refine .node (by simp) ?_ _ _
    intro m hm v span hw
    obtain ⟨f, hf, g, hg, hspan, hconst⟩ := h.held m hm v span hw
    rcases List.mem_append.1 hf with hf | hf
    · exact ⟨.group .square pairs ps, by simp, g, .item hf hg, hspan, hconst⟩
    · exact ⟨f, by simp [hf], g, hg, hspan, hconst⟩
  | .branch _ hcond hyes => by
    refine .node (by simp) (.cons (hcond.held.mono ?_) (hyes.held.mono ?_)) _ _ <;> simp
  | .branchElse _ hcond hyes hno => by
    refine .node (by simp)
      (.cons (hcond.held.mono ?_) (.cons (hyes.held.mono ?_) (hno.held.mono ?_))) _ _ <;> simp
  | .call _ hhead h => by
    refine .node (by simp) (.cons (hhead.held.mono ?_) (h.held.mono ?_)) _ _
    · simp
    · intro f hf
      exact List.mem_cons_of_mem _ hf

theorem ResolvesAll.held {p : Place} {fs : List Form} {ns : List Node} {uses : List Use}
    (h : ResolvesAll env p fs ns uses) : Node.AllHeld env ns fs :=
  match h with
  | .nil => fun _ hn => nomatch hn
  | .cons hf h =>
    .cons (hf.held.mono (by simp)) (h.held.mono fun _ hg => List.mem_cons_of_mem _ hg)

theorem ResolvesBindings.held {p : Place} {pairs body : List Form}
    {bindings : List (String × Node)} {nodes : List Node} {uses : List Use}
    (h : ResolvesBindings env p pairs bindings body nodes uses) :
    Node.AllHeld env (bindings.map (·.2) ++ nodes) (pairs ++ body) :=
  match h with
  | .nil h => h.held
  | .cons hf h => by
    refine .cons (hf.held.mono (by simp)) (h.held.mono ?_)
    intro g hg
    exact List.mem_cons_of_mem _ (List.mem_cons_of_mem _ hg)

end

end Constants

/-- Resolution succeeds just where all forms of a script are well formed, and the tree that it gives
holds no constants but those of the forms. -/
theorem Script.resolve_iff_wellFormed (henv : env.Built) (script : Script) :
    ((∃ r, script.resolve env = .ok r) ↔ ∀ f ∈ script.forms, Form.WellFormed env [] f) ∧
    ∀ r, script.resolve env = .ok r → ∀ v span, (Node.constant v span).Within r.body →
      Form.Hold env script.forms v span := by
  constructor
  · constructor
    · rintro ⟨r, hr⟩
      obtain ⟨nodes, uses, hforms, -, -⟩ := Script.resolve_ok hr
      exact hforms.wellFormed henv fun x hx => nomatch hx
    · intro h
      have herrors := Resolution.all_errors_eq_nil fun f hf =>
        (h f hf).errors_eq_nil Place.top rfl
      rw [Script.resolve, herrors]
      exact ⟨_, rfl⟩
  · intro r hr
    obtain ⟨nodes, uses, hforms, -, hbody⟩ := Script.resolve_ok hr
    have hheld := hforms.held
    rw [hbody, Script.together.eq_def]
    split
    · exact hheld _ (List.mem_singleton_self _)
    · exact Node.within_parts (by simp) hheld

/-- A local that is bound to a function can be called, and so can a native with one argument. -/
theorem Script.resolve_iff_wellFormed_call :
    ∃ r, Script.resolve .standard ⟨[.group .round [.leaf (.symbol "let") ⟨1, 4⟩,
      .group .square [.leaf (.symbol "f") ⟨6, 7⟩, .leaf (.symbol "not") ⟨8, 11⟩] ⟨5, 12⟩,
      .group .round [.leaf (.symbol "not") ⟨14, 17⟩,
        .group .round [.leaf (.symbol "f") ⟨19, 20⟩] ⟨18, 21⟩] ⟨13, 22⟩] ⟨0, 23⟩], ⟨0, 23⟩⟩ =
      .ok r := by
  apply (Script.resolve_iff_wellFormed Environment.built_standard _).1.2
  intro f hf
  cases List.mem_singleton.1 hf
  have hnames : Bindable ["f"] := ⟨by decide, by decide⟩
  have harity : ((Environment.standard.get? "not").bind (·.function?)).map Function.arity =
      some (.exactly 1) := by
    decide +kernel
  obtain ⟨g, hget, hone⟩ := Option.map_eq_some_iff.1 harity
  obtain ⟨v, hv, hfunction⟩ := Option.bind_eq_some_iff.1 hget
  have hnot : Environment.standard.get? "not" = some (.function g) := by
    cases v <;> cases hfunction
    exact hv
  have hinner : Form.WellFormed .standard ["f"]
      (.group .round [.leaf (.symbol "f") ⟨19, 20⟩] ⟨18, 21⟩) :=
    .callLocal (by decide) (by simp) fun _ hmem => nomatch hmem
  have hcall : Form.WellFormed .standard ["f"] (.group .round [.leaf (.symbol "not") ⟨14, 17⟩,
      .group .round [.leaf (.symbol "f") ⟨19, 20⟩] ⟨18, 21⟩] ⟨13, 22⟩) := by
    refine .callGlobal (by decide) (by simp) hnot ?_ fun f hf => List.mem_singleton.1 hf ▸ hinner
    rintro n rfl
    change n.arity = .exactly 1 at hone
    rw [hone]
    rfl
  have hbody : Form.WellFormedLet .standard ["f"] []
      [.group .round [.leaf (.symbol "not") ⟨14, 17⟩,
        .group .round [.leaf (.symbol "f") ⟨19, 20⟩] ⟨18, 21⟩] ⟨13, 22⟩] :=
    .body fun f hf => List.mem_singleton.1 hf ▸ hcall
  exact .bind (by decide) rfl rfl hnames (.value (.symbol (by decide)) hbody)

end Scriptlet
