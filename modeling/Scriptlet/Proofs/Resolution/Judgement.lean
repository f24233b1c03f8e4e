import Mathlib.Data.List.Nodup
import Scriptlet.Resolution.Basic

/-!
What resolution does to a script without errors, form by form: the node that a form becomes at a
place, and the uses of names in it.
-/

namespace Scriptlet

/-- Forms that may stand at the head of a call and are evaluated there. -/
inductive Form.Callable (env : Environment) (p : Place) : Form → Prop where
  | list {items span} : Callable env p (.group .round items span)
  | localName {x span level} (hf : SpecialForm.ofName? x = none) (hx : p.level? x = some level) :
      Callable env p (.leaf (.symbol x) span)
  | closure {x span i l kept} (hf : SpecialForm.ofName? x = none)
      (hg : env.get? x = some (.function (.closure i l kept))) :
      Callable env p (.leaf (.symbol x) span)

/-- Names that one `let` or `fn` can bind. -/
structure Bindable (names : List String) : Prop where
  nodup : names.Nodup
  special : ∀ x ∈ names, isSpecialName x = false

mutual

inductive Resolves (env : Environment) : Place → Form → Node → List Use → Prop where
  | literal {p a span} (h : ∀ x, a ≠ .symbol x) :
      Resolves env p (.leaf a span) (.constant a.value span) []
  | localName {p x span level} (h : p.level? x = some level) :
      Resolves env p (.leaf (.symbol x) span) (.localName x span) [⟨x, span, some level⟩]
  | globalName {p x span v} (hx : p.level? x = none) (h : env.get? x = some v) :
      Resolves env p (.leaf (.symbol x) span) (.constant v span) []
  | freeName {p x span} (hx : p.level? x = none) (h : env.get? x = none)
      (hs : isSpecialName x = false) :
      Resolves env p (.leaf (.symbol x) span)
        (if p.level = 0 then .freeName x span else .localName x span) [⟨x, span, none⟩]
  | vector {p items span nodes uses} (h : ResolvesAll env p items nodes uses) :
      Resolves env p (.group .square items span) (.list nodes span) uses
  | empty {p span} : Resolves env p (.group .round [] span) (.constant (.list []) span) []
  | block {p name s args span nodes uses} (hf : SpecialForm.ofName? name = some .block)
      (h : ResolvesAll env p args nodes uses) :
      Resolves env p (.group .round (.leaf (.symbol name) s :: args) span) (.block nodes span) uses
  | allOf {p name s args span nodes uses} (hf : SpecialForm.ofName? name = some .allOf)
      (h : ResolvesAll env p args nodes uses) :
      Resolves env p (.group .round (.leaf (.symbol name) s :: args) span) (.allOf nodes span) uses
  | anyOf {p name s args span nodes uses} (hf : SpecialForm.ofName? name = some .anyOf)
      (h : ResolvesAll env p args nodes uses) :
      Resolves env p (.group .round (.leaf (.symbol name) s :: args) span) (.anyOf nodes span) uses
  | quotation {p name s f span} (hf : SpecialForm.ofName? name = some .quotation) :
      Resolves env p (.group .round [.leaf (.symbol name) s, f] span)
        (.constant (Form.quoted f) span) []
  | branch {p name s c y span cond yes us vs} (hf : SpecialForm.ofName? name = some .branch)
      (hcond : Resolves env p c cond us) (hyes : Resolves env p y yes vs) :
      Resolves env p (.group .round [.leaf (.symbol name) s, c, y] span)
        (.branch cond yes none span) (us ++ vs)
  | branchElse {p name s c y n span cond yes no us vs ws}
      (hf : SpecialForm.ofName? name = some .branch)
      (hcond : Resolves env p c cond us) (hyes : Resolves env p y yes vs)
      (hno : Resolves env p n no ws) :
      Resolves env p (.group .round [.leaf (.symbol name) s, c, y, n] span)
        (.branch cond yes (some no) span) (us ++ (vs ++ ws))
  | bind {p name s pairs ps body span bindings nodes uses}
      (hf : SpecialForm.ofName? name = some .bind) (hnames : Bindable (bindings.map (·.1)))
      (h : ResolvesBindings env p pairs bindings body nodes uses) :
      Resolves env p (.group .round (.leaf (.symbol name) s :: .group .square pairs ps :: body) span)
        (.bind bindings nodes span) uses
  | lambda {p name s params ps body span names nodes uses}
      (hf : SpecialForm.ofName? name = some .lambda)
      (hparams : params.map Form.symbol? = names.map some) (hnames : Bindable names)
      (h : ResolvesAll env (p.enter names) body nodes uses) :
      Resolves env p (.group .round (.leaf (.symbol name) s :: .group .square params ps :: body) span)
        (.lambda (.mk names (captures p.level uses) nodes span)) uses
  | nativeCall {p x s args span f nodes uses} (hf : SpecialForm.ofName? x = none)
      (hx : p.level? x = none) (hg : env.get? x = some (.function (.native f)))
      (harity : f.arity.accepts nodes.length) (h : ResolvesAll env p args nodes uses) :
      Resolves env p (.group .round (.leaf (.symbol x) s :: args) span) (.nativeCall f nodes span)
        uses
  | call {p head args span callee nodes us vs} (hc : head.Callable env p)
      (hhead : Resolves env p head callee us) (h : ResolvesAll env p args nodes vs) :
      Resolves env p (.group .round (head :: args) span) (.call callee nodes span) (us ++ vs)

inductive ResolvesAll (env : Environment) :
    Place → List Form → List Node → List Use → Prop where
  | nil {p} : ResolvesAll env p [] [] []
  | cons {p f fs n ns us vs} (hf : Resolves env p f n us) (h : ResolvesAll env p fs ns vs) :
      ResolvesAll env p (f :: fs) (n :: ns) (us ++ vs)

/-- The values and the body of a `let`. -/
inductive ResolvesBindings (env : Environment) :
    Place → List Form → List (String × Node) → List Form → List Node → List Use → Prop where
  | nil {p body nodes uses} (h : ResolvesAll env p body nodes uses) :
      ResolvesBindings env p [] [] body nodes uses
  | cons {p x s f rest n bindings body nodes us vs} (hn : Resolves env p f n us)
      (h : ResolvesBindings env (p.bind x) rest bindings body nodes vs) :
      ResolvesBindings env p (.leaf (.symbol x) s :: f :: rest) ((x, n) :: bindings) body nodes
        (us ++ vs)

end

namespace Resolved

variable {α β : Type} (x : Resolved α) (f : α → Resolved β)

@[simp] theorem value_bind : (x >>= f).value = (f x.value).value := rfl

@[simp] theorem errors_bind : (x >>= f).errors = x.errors ++ (f x.value).errors := rfl

@[simp] theorem uses_bind : (x >>= f).uses = x.uses ++ (f x.value).uses := rfl

@[simp] theorem value_pure (a : α) : (Pure.pure a : Resolved α).value = a := rfl

@[simp] theorem errors_pure (a : α) : (Pure.pure a : Resolved α).errors = [] := rfl

@[simp] theorem uses_pure (a : α) : (Pure.pure a : Resolved α).uses = [] := rfl

@[simp] theorem value_withUses : x.withUses.value = (x.value, x.uses) := rfl

@[simp] theorem errors_withUses : x.withUses.errors = x.errors := rfl

@[simp] theorem uses_withUses : x.withUses.uses = x.uses := rfl

end Resolved

namespace Resolution

variable {env : Environment}

/-- Without errors, a form resolves to the node that stands for it. -/
def Sound (env : Environment) (f : Form) : Prop :=
  ∀ p, (form env p f).errors = [] →
    Resolves env p f (form env p f).value (form env p f).uses

@[simp] theorem errors_fail (fault : ResolutionFault) (span : Span) (context : List Context) :
    (fail fault span context).errors = [⟨fault, span, context⟩] := rfl

@[simp] theorem errors_malformed_ne (f : SpecialForm) (message : String) (span : Span) :
    (malformed f message span).errors ≠ [] := List.cons_ne_nil _ _

theorem symbol_sound {p : Place} {x : String} {span : Span}
    (h : (symbol env p x span).errors = []) :
    Resolves env p (.leaf (.symbol x) span) (symbol env p x span).value
      (symbol env p x span).uses := by
  unfold symbol at h ⊢
  cases hx : p.level? x with
  | some level => exact .localName hx
  | none =>
    cases hg : env.get? x with
    | some v => exact .globalName hx hg
    | none =>
      simp only [hx, hg] at h ⊢
      split at h
      · exact absurd h (List.cons_ne_nil _ _)
      · next hs =>
        simp only [hs]
        exact .freeName hx hg (by simpa using hs)

theorem all_sound {p : Place} {fs : List Form} (ih : ∀ f ∈ fs, Sound env f)
    (h : (all env p fs).errors = []) :
    ResolvesAll env p fs (all env p fs).value (all env p fs).uses := by
  induction fs with
  | nil =>
    rw [all]
    exact .nil
  | cons f fs ihs =>
    rw [all] at h ⊢
    simp only [Resolved.errors_bind, Resolved.errors_pure, List.append_eq_nil_iff] at h
    simp only [Resolved.value_bind, Resolved.value_pure, Resolved.uses_bind, Resolved.uses_pure,
      List.append_nil]
    exact .cons (ih f (by simp) p h.1) (ihs (fun g hg => ih g (by simp [hg])) h.2.1)

theorem badTarget_eq_none {f : SpecialForm} {seen : List String} {target : Form}
    (h : badTarget f seen target = none) :
    ∃ x, target.symbol? = some x ∧ isSpecialName x = false ∧ x ∉ seen := by
  unfold badTarget at h
  cases hx : target.symbol? with
  | none => simp [hx] at h
  | some x =>
    simp only [hx] at h
    split at h
    · cases h
    · next hs =>
      split at h
      · cases h
      · next hmem => exact ⟨x, rfl, by simpa using hs, hmem⟩

/-- Targets without errors are symbols, all of them different. -/
theorem targets_sound {f : SpecialForm} {seen : List String} {ts : List Form}
    (h : (targets f seen ts).errors = []) (hseen : Bindable seen.reverse) :
    ∃ names, targets f seen ts = ⟨some (seen.reverse ++ names), [], []⟩ ∧
      ts.map Form.symbol? = names.map some ∧ Bindable (seen.reverse ++ names) := by
  induction ts generalizing seen with
  | nil => exact ⟨[], by rw [List.append_nil]; rfl, rfl, by rwa [List.append_nil]⟩
  | cons t ts ih =>
    rw [targets] at h ⊢
    cases hb : badTarget f seen t with
    | some e =>
      rw [hb] at h
      exact absurd h (List.cons_ne_nil _ _)
    | none =>
      obtain ⟨x, hx, hspecial, hnew⟩ := badTarget_eq_none hb
      have hseen' : Bindable (x :: seen).reverse := by
        refine ⟨List.nodup_reverse.2 (List.nodup_cons.2 ⟨hnew, ?_⟩), fun y hy => ?_⟩
        · exact List.nodup_reverse.1 hseen.nodup
        · rcases List.mem_cons.1 (List.mem_reverse.1 hy) with rfl | hy
          · exact hspecial
          · exact hseen.special y (List.mem_reverse.2 hy)
      simp only [hb, hx, Option.getD_some] at h ⊢
      obtain ⟨names, hvalue, hts, hnames⟩ := ih h hseen'
      have happend : (x :: seen).reverse ++ names = seen.reverse ++ (x :: names) := by simp
      refine ⟨x :: names, ?_, by simp [hx, hts], happend ▸ hnames⟩
      rw [hvalue, happend]

theorem quotation_sound {p : Place} {name : String} {s span : Span} {args : List Form}
    (hf : SpecialForm.ofName? name = some .quotation) (h : (quotation args span).errors = []) :
    Resolves env p (.group .round (.leaf (.symbol name) s :: args) span) (quotation args span).value
      (quotation args span).uses := by
  unfold quotation at h ⊢
  split at h
  · exact .quotation hf
  · exact absurd h (errors_malformed_ne _ _ _)

theorem branch_sound {p : Place} {name : String} {s span : Span} {args : List Form}
    (hf : SpecialForm.ofName? name = some .branch) (ih : ∀ f ∈ args, Sound env f)
    (h : (branch env p args span).errors = []) :
    Resolves env p (.group .round (.leaf (.symbol name) s :: args) span)
      (branch env p args span).value (branch env p args span).uses := by
  unfold branch at h ⊢
  split at h
  · next cond yes =>
    simp only [Resolved.errors_bind, Resolved.errors_pure, List.append_eq_nil_iff] at h
    simp only [Resolved.value_bind, Resolved.value_pure, Resolved.uses_bind, Resolved.uses_pure,
      List.append_nil]
    exact .branch hf (ih cond (by simp) p h.1) (ih yes (by simp) p h.2.1)
  · next cond yes no =>
    simp only [Resolved.errors_bind, Resolved.errors_pure, List.append_eq_nil_iff] at h
    simp only [Resolved.value_bind, Resolved.value_pure, Resolved.uses_bind, Resolved.uses_pure,
      List.append_nil]
    exact .branchElse hf (ih cond (by simp) p h.1) (ih yes (by simp) p h.2.1)
      (ih no (by simp) p h.2.2.1)
  · exact absurd h (errors_malformed_ne _ _ _)

theorem lambda_sound {p : Place} {name : String} {s span : Span} {args : List Form}
    (hf : SpecialForm.ofName? name = some .lambda)
    (ih : ∀ ps body s, args = .group .square ps s :: body → ∀ f ∈ body, Sound env f)
    (h : (lambda env p args span).errors = []) :
    Resolves env p (.group .round (.leaf (.symbol name) s :: args) span)
      (lambda env p args span).value (lambda env p args span).uses := by
  unfold lambda at h ⊢
  split at h
  · next params ps body =>
    simp only [Resolved.errors_bind, List.append_eq_nil_iff] at h
    obtain ⟨names, ht, hparams, hnames⟩ := targets_sound h.1 ⟨.nil, by simp⟩
    simp only [ht, List.reverse_nil, List.nil_append] at h hnames ⊢
    simp only [Resolved.errors_bind, Resolved.errors_withUses, Resolved.errors_pure,
      List.append_eq_nil_iff] at h
    have hbody := all_sound (ih _ _ _ rfl) h.2.1
    simp only [Resolved.value_bind, Resolved.value_pure, Resolved.uses_bind, Resolved.uses_pure,
      Resolved.value_withUses, Resolved.uses_withUses, List.append_nil, List.nil_append]
    exact .lambda hf hparams hnames hbody
  · exact absurd h (errors_malformed_ne _ _ _)

/-- The values of a `let`, and then its body where they are bound. -/
theorem bindingsOf_sound {names : List String} {pairs body : List Form} {p : Place}
    (ih : ∀ f ∈ pairs ++ body, Sound env f) (heven : pairs.length % 2 = 0)
    (hnames : (firsts pairs).map Form.symbol? = names.map some)
    (h : (bindingsOf env p names pairs).errors = [])
    (hbody : (all env (bindingsOf env p names pairs).value.2 body).errors = []) :
    (bindingsOf env p names pairs).value.1.map (·.1) = names ∧
      ResolvesBindings env p pairs (bindingsOf env p names pairs).value.1 body
        (all env (bindingsOf env p names pairs).value.2 body).value
        ((bindingsOf env p names pairs).uses ++
          (all env (bindingsOf env p names pairs).value.2 body).uses) := by
  match pairs, names, hnames with
  | [], [], _ =>
    have hnil : bindingsOf env p [] [] = Pure.pure ([], p) := by
      rw [bindingsOf]
      simp
    rw [hnil] at hbody ⊢
    exact ⟨rfl, .nil (all_sound (fun f hf => ih f (by simpa using hf)) hbody)⟩
  | [_], _, _ => cases heven
  | target :: f :: rest, x :: names, hnames =>
    obtain ⟨htarget, hrest⟩ := List.cons.inj hnames
    rw [bindingsOf] at h hbody ⊢
    simp only [Resolved.errors_bind, Resolved.errors_pure, List.append_eq_nil_iff] at h
    simp only [Resolved.value_bind, Resolved.value_pure] at hbody
    simp only [Resolved.value_bind, Resolved.value_pure, Resolved.uses_bind, Resolved.uses_pure,
      List.append_nil, List.map_cons, List.append_assoc]
    have heven' : rest.length % 2 = 0 := by
      simp only [List.length_cons] at heven
      omega
    obtain ⟨hfst, hbindings⟩ := bindingsOf_sound
      (fun g hg => ih g (by simp only [List.cons_append, List.mem_cons]; tauto)) heven' hrest h.2.1
      hbody
    have hf := ih f (by simp) p h.1
    match target, htarget with
    | .leaf (.symbol _) _, rfl => exact ⟨by rw [hfst], .cons hf hbindings⟩

theorem bindForm_sound {p : Place} {name : String} {s span : Span} {args : List Form}
    (hf : SpecialForm.ofName? name = some .bind)
    (ih : ∀ pairs ps body, args = .group .square pairs ps :: body →
      ∀ f ∈ pairs ++ body, Sound env f)
    (h : (bindForm env p args span).errors = []) :
    Resolves env p (.group .round (.leaf (.symbol name) s :: args) span)
      (bindForm env p args span).value (bindForm env p args span).uses := by
  unfold bindForm at h ⊢
  split at h
  · next pairs ps body =>
    split at h
    · exact absurd h (errors_malformed_ne _ _ _)
    · next heven =>
      rw [if_neg heven]
      simp only [Resolved.errors_bind, List.append_eq_nil_iff] at h
      obtain ⟨names, ht, hpairs, hnames⟩ := targets_sound h.1 ⟨.nil, by simp⟩
      simp only [ht, List.reverse_nil, List.nil_append] at h hnames ⊢
      simp only [Resolved.errors_bind, Resolved.errors_pure, List.append_eq_nil_iff] at h
      obtain ⟨hfst, hbindings⟩ := bindingsOf_sound (ih _ _ _ rfl) (by omega) hpairs h.2.1 h.2.2.1
      simp only [Resolved.value_bind, Resolved.value_pure, Resolved.uses_bind, Resolved.uses_pure,
        List.append_nil, List.nil_append]
      exact .bind hf (by rw [hfst]; exact hnames) hbindings
  · exact absurd h (errors_malformed_ne _ _ _)

theorem sizeOf_item {bracket : Bracket} {items : List Form} {span : Span} {f : Form}
    (hf : f ∈ items) : sizeOf f < sizeOf (Tree.group bracket items span : Form) := by
  have := List.sizeOf_lt_of_mem hf
  simp only [Tree.group.sizeOf_spec]
  omega

theorem globalCall_sound {p : Place} {name : String} {s span : Span} {args : List Form}
    (hf : SpecialForm.ofName? name = none) (hx : p.level? name = none)
    (ih : ∀ f ∈ args, Sound env f) (hargs : (all env p args).errors = [])
    (h : (globalCall env name s (all env p args).value span).errors = []) :
    Resolves env p (.group .round (.leaf (.symbol name) s :: args) span)
      (globalCall env name s (all env p args).value span).value
      ((all env p args).uses ++ (globalCall env name s (all env p args).value span).uses) := by
  have hall := all_sound ih hargs
  unfold globalCall at h ⊢
  cases hg : env.get? name with
  | none => simp [hg] at h
  | some v =>
    simp only [hg] at h ⊢
    split at h
    · next heq => cases heq
    · next f heq =>
      cases heq
      split at h
      · next harity =>
        simp only [harity, if_true, Resolved.value_pure, Resolved.uses_pure, List.append_nil]
        exact .nativeCall hf hx hg harity hall
      · exact absurd h (List.cons_ne_nil _ _)
    · next f hnative heq =>
      cases heq
      cases f with
      | native f => exact absurd rfl (hnative f)
      | closure i l kept =>
        simp only [Resolved.value_pure, Resolved.uses_pure, List.append_nil]
        exact .call (.closure hf hg) (.globalName hx hg) hall
    · exact absurd h (List.cons_ne_nil _ _)

theorem list_sound {p : Place} {items : List Form} {span : Span}
    (ih : ∀ g, sizeOf g < sizeOf (Tree.group .round items span : Form) → Sound env g)
    (h : (list env p items span).errors = []) :
    Resolves env p (.group .round items span) (list env p items span).value
      (list env p items span).uses := by
  have ihitems : ∀ g ∈ items, Sound env g := fun g hg => ih g (sizeOf_item hg)
  match items with
  | [] =>
    rw [list]
    exact .empty
  | .leaf (.symbol name) s :: args =>
    have ihargs : ∀ g ∈ args, Sound env g := fun g hg => ihitems g (by simp [hg])
    rw [list] at h ⊢
    cases hf : SpecialForm.ofName? name with
    | some f =>
      cases f with
      | block =>
        simp only [hf, Resolved.errors_bind, Resolved.errors_pure, List.append_nil] at h ⊢
        simp only [Resolved.value_bind, Resolved.value_pure, Resolved.uses_bind,
          Resolved.uses_pure, List.append_nil]
        exact .block hf (all_sound ihargs h)
      | allOf =>
        simp only [hf, Resolved.errors_bind, Resolved.errors_pure, List.append_nil] at h ⊢
        simp only [Resolved.value_bind, Resolved.value_pure, Resolved.uses_bind,
          Resolved.uses_pure, List.append_nil]
        exact .allOf hf (all_sound ihargs h)
      | anyOf =>
        simp only [hf, Resolved.errors_bind, Resolved.errors_pure, List.append_nil] at h ⊢
        simp only [Resolved.value_bind, Resolved.value_pure, Resolved.uses_bind,
          Resolved.uses_pure, List.append_nil]
        exact .anyOf hf (all_sound ihargs h)
      | quotation =>
        simp only [hf] at h ⊢
        exact quotation_sound hf h
      | branch =>
        simp only [hf] at h ⊢
        exact branch_sound hf ihargs h
      | bind =>
        simp only [hf] at h ⊢
        refine bindForm_sound hf (fun pairs ps body he f hmem => ?_) h
        subst he
        rcases List.mem_append.1 hmem with hmem | hmem
        · have hvector : Tree.group .square pairs ps ∈ Tree.leaf (.symbol name) s ::
            .group .square pairs ps :: body := by simp
          exact ih f (Nat.lt_trans (sizeOf_item hmem) (sizeOf_item hvector))
        · exact ihargs f (by simp [hmem])
      | lambda =>
        simp only [hf] at h ⊢
        refine lambda_sound hf (fun params body ps he f hmem => ?_) h
        subst he
        exact ihargs f (by simp [hmem])
    | none =>
      cases hx : p.level? name with
      | some level =>
        simp only [hf, hx, Resolved.errors_bind, Resolved.errors_pure, List.append_eq_nil_iff,
          Resolved.value_bind, Resolved.value_pure, Resolved.uses_bind, Resolved.uses_pure,
          List.append_nil] at h ⊢
        exact .call (.localName hf hx) (symbol_sound h.1) (all_sound ihargs h.2)
      | none =>
        simp only [hf, hx, Resolved.errors_bind, List.append_eq_nil_iff, Resolved.value_bind,
          Resolved.uses_bind] at h ⊢
        exact globalCall_sound hf hx ihargs h.1 h.2
  | .group .round inner s :: args =>
    rw [list] at h ⊢
    simp only [Resolved.errors_bind, Resolved.errors_pure, List.append_eq_nil_iff,
      Resolved.value_bind, Resolved.value_pure, Resolved.uses_bind, Resolved.uses_pure,
      List.append_nil] at h ⊢
    exact .call .list (ihitems _ (by simp) p h.1)
      (all_sound (fun g hg => ihitems g (by simp [hg])) h.2)
  | .group .square _ _ :: _ | .leaf .nil _ :: _ | .leaf (.bool _) _ :: _ | .leaf (.int _) _ :: _
  | .leaf (.float _) _ :: _ | .leaf (.str _) _ :: _ => simp [list] at h

theorem form_sound (f : Form) : Sound env f := by
  induction hn : sizeOf f using Nat.strongRecOn generalizing f with
  | _ n ih =>
    subst hn
    have ih' : ∀ g, sizeOf g < sizeOf f → Sound env g := fun g hg => ih _ hg g rfl
    intro p h
    match f with
    | .leaf a span =>
      cases a with
      | symbol x =>
        rw [form] at h ⊢
        exact symbol_sound h
      | _ =>
        rw [form]
        · exact .literal (by simp)
        all_goals simp
    | .group .square items span =>
      rw [form] at h ⊢
      simp only [Resolved.errors_bind, Resolved.errors_pure, List.append_nil,
        Resolved.value_bind, Resolved.value_pure, Resolved.uses_bind, Resolved.uses_pure] at h ⊢
      exact .vector (all_sound (fun g hg => ih' g (sizeOf_item hg)) h)
    | .group .round items span =>
      rw [form] at h ⊢
      exact list_sound ih' h

end Resolution

end Scriptlet
