import Scriptlet.Proofs.Resolution.Height
import Scriptlet.Proofs.Resolution.Scoping

/-!
What the resolution of a form depends on. Of the globals and of the scope, only the names count
that occur in the form as symbols; anything else may change without a trace in the node, the errors
or the uses.
-/

namespace Scriptlet

/-- The name occurs in the form as a symbol, at any depth. -/
def Form.Occurs (x : String) (f : Form) : Prop := ∃ span, Tree.Within (.leaf (.symbol x) span) f

theorem Form.Occurs.of_within {x : String} {f g : Form} (h : g.Occurs x) (hg : Tree.Within g f) :
    f.Occurs x := by
  obtain ⟨span, hx⟩ := h
  exact ⟨span, hx.trans hg⟩

theorem Tree.mem_leaves_of_within {α : Type} {a : α} {span : Span} {t : Tree α}
    (h : Tree.Within (.leaf a span) t) : (a, span) ∈ Tree.leaves t := by
  have hall : ∀ {u} {us : List (Tree α)}, u ∈ us → (a, span) ∈ Tree.leaves u →
      (a, span) ∈ Tree.leavesAll us := by
    intro u us hu ha
    induction us with
    | nil => cases hu
    | cons v us ih =>
      rw [Tree.leavesAll, List.mem_append]
      rcases List.mem_cons.1 hu with rfl | hu
      · exact .inl ha
      · exact .inr (ih hu)
  induction h with
  | self =>
    rw [Tree.leaves]
    exact List.mem_cons_self
  | item hu _ ih =>
    rw [Tree.leaves]
    exact hall hu ih

/-- The names in a form are those of its leaves that are symbols. -/
theorem Form.Occurs.exists_leaf {x : String} {f : Form} (h : f.Occurs x) :
    ∃ l ∈ Tree.leaves f, l.1 = .symbol x := by
  obtain ⟨span, hx⟩ := h
  exact ⟨_, Tree.mem_leaves_of_within hx, rfl⟩

theorem Form.not_occurs {x : String} {f : Form} (h : ((Tree.leaves f).all fun l =>
    Form.symbol? (.leaf l.1 l.2) != some x) = true) : ¬ f.Occurs x := by
  intro hx
  obtain ⟨⟨-, span⟩, hl, rfl⟩ := hx.exists_leaf
  simpa [Form.symbol?] using List.all_eq_true.1 h _ hl

namespace Resolution

variable {names : String → Prop} {env env' : Environment} {p p' : Place}

/-- In both scopes, with the globals of each, the names mean the same. -/
structure Agree (names : String → Prop) (env : Environment) (p : Place) (env' : Environment)
    (p' : Place) : Prop where
  level : p.level = p'.level
  locals : ∀ x, names x → p.level? x = p'.level? x
  globals : ∀ x, names x → env.get? x = env'.get? x

namespace Agree

theorem bind (h : Agree names env p env' p') (x : String) :
    Agree names env (p.bind x) env' (p'.bind x) := by
  refine ⟨h.level, fun y hy => ?_, h.globals⟩
  rw [Place.level?_bind, Place.level?_bind, h.level, h.locals y hy]

theorem enter (h : Agree names env p env' p') (params : List String) :
    Agree names env (p.enter params) env' (p'.enter params) := by
  refine ⟨congrArg (· + 1) h.level, fun y hy => ?_, h.globals⟩
  rw [Place.level?_enter, Place.level?_enter, h.level, h.locals y hy]

end Agree

theorem symbol_congr (h : Agree names env p env' p') {x : String} (hx : names x) (span : Span) :
    symbol env p x span = symbol env' p' x span := by
  unfold symbol
  rw [h.locals x hx, h.globals x hx, h.level]

theorem globalCall_congr (h : Agree names env p env' p') {x : String} (hx : names x) (head : Span)
    (args : List Node) (span : Span) :
    globalCall env x head args span = globalCall env' x head args span := by
  unfold globalCall
  rw [h.globals x hx]

section Parts

variable {f : Form} {args : List Form} {span : Span}
  (ih : ∀ g, Tree.Inside g f → ∀ p p', Agree names env p env' p' → form env p g = form env' p' g)
include ih

theorem all_congr_inside (h : Agree names env p env' p') {gs : List Form}
    (hgs : ∀ g ∈ gs, Tree.Inside g f) : all env p gs = all env' p' gs := by
  induction gs with
  | nil => rw [all, all]
  | cons g gs ihs =>
    obtain ⟨hg, hrest⟩ := List.forall_mem_cons.1 hgs
    rw [all, all, ih g hg p p' h, ihs hrest]

theorem branch_congr (h : Agree names env p env' p') (hargs : ∀ g ∈ args, Tree.Inside g f) :
    branch env p args span = branch env' p' args span := by
  unfold branch
  split
  · next cond yes =>
    rw [ih cond (hargs cond (by simp)) p p' h, ih yes (hargs yes (by simp)) p p' h]
  · next cond yes no =>
    rw [ih cond (hargs cond (by simp)) p p' h, ih yes (hargs yes (by simp)) p p' h,
      ih no (hargs no (by simp)) p p' h]
  · rfl

/-- The values are resolved alike, and after them the scopes still agree. -/
theorem bindingsOf_congr (h : Agree names env p env' p') (xs : List String) {pairs : List Form}
    (hpairs : ∀ g ∈ pairs, Tree.Inside g f) :
    ∃ bindings errors uses q q', bindingsOf env p xs pairs = ⟨(bindings, q), errors, uses⟩ ∧
      bindingsOf env' p' xs pairs = ⟨(bindings, q'), errors, uses⟩ ∧ Agree names env q env' q' := by
  induction xs generalizing p p' pairs with
  | nil =>
    refine ⟨[], [], [], p, p', ?_, ?_, h⟩ <;>
    · rw [bindingsOf]
      · rfl
      · simp
  | cons x xs ihs =>
    rcases pairs with _ | ⟨target, _ | ⟨value, rest⟩⟩
    · exact ⟨[], [], [], p, p', rfl, rfl, h⟩
    · exact ⟨[], [], [], p, p', rfl, rfl, h⟩
    · have hrest : ∀ g ∈ rest, Tree.Inside g f := fun g hg => hpairs g (by simp [hg])
      obtain ⟨bindings, errors, uses, q, q', heq, heq', hq⟩ := ihs (h.bind x) hrest
      have hvalue := ih value (hpairs value (by simp)) p p' h
      let r := form env p value
      refine ⟨(x, r.value) :: bindings, r.errors ++ (errors ++ []), r.uses ++ (uses ++ []), q, q',
        ?_, ?_, hq⟩
      · rw [bindingsOf, heq]
        rfl
      · rw [bindingsOf, heq', ← hvalue]
        rfl

theorem bindForm_congr (h : Agree names env p env' p') (hargs : ∀ g ∈ args, Tree.Inside g f) :
    bindForm env p args span = bindForm env' p' args span := by
  unfold bindForm
  split
  · next pairs vector body =>
    obtain ⟨hvector, hbody⟩ := List.forall_mem_cons.1 hargs
    have hpairs : ∀ g ∈ pairs, Tree.Inside g f := fun g hg => hvector.of_within (.item hg .self)
    split
    · rfl
    · refine congrArg (targets .bind [] (firsts pairs) >>= ·) (funext fun bound => ?_)
      cases bound with
      | none => rfl
      | some xs =>
        obtain ⟨bindings, errors, uses, q, q', heq, heq', hq⟩ := bindingsOf_congr ih h xs hpairs
        simp only [heq, heq', Bind.bind, Resolved.bind, all_congr_inside ih hq hbody]
  · rfl

theorem lambda_congr (h : Agree names env p env' p') (hargs : ∀ g ∈ args, Tree.Inside g f) :
    lambda env p args span = lambda env' p' args span := by
  unfold lambda
  split
  · next params vector body =>
    have hbody := (List.forall_mem_cons.1 hargs).2
    have hall : ∀ xs, all env (p.enter xs) body = all env' (p'.enter xs) body :=
      fun xs => all_congr_inside ih (h.enter xs) hbody
    simp only [hall, h.level]
  · rfl

theorem list_congr (h : Agree names env p env' p') {items : List Form}
    (hf : f = .group .round items span) (hnames : ∀ x, f.Occurs x → names x) :
    list env p items span = list env' p' items span := by
  have hitems : ∀ g ∈ items, Tree.Inside g f := fun g hg => hf ▸ .item hg .self
  rw [list.eq_def, list.eq_def]
  split
  · rfl
  · next head args =>
    obtain ⟨hhead, hargs⟩ := List.forall_mem_cons.1 hitems
    have hall := all_congr_inside ih h hargs
    split
    · next x headSpan =>
      have hx : names x := hnames x ⟨headSpan, hhead.within⟩
      simp only [hall, branch_congr ih h hargs, bindForm_congr ih h hargs,
        lambda_congr ih h hargs, h.locals x hx, symbol_congr h hx, globalCall_congr h hx]
    · rw [ih _ hhead p p' h, hall]
    · rw [hall]

end Parts

/-- A form is resolved alike wherever its names mean the same. The induction is on the nesting of
the form. -/
theorem form_congr {f : Form} (h : Agree names env p env' p') (hf : ∀ x, f.Occurs x → names x) :
    form env p f = form env' p' f := by
  induction hd : Tree.depth f using Nat.strongRecOn generalizing p p' f with
  | ind d ih =>
    subst hd
    have ih' : ∀ g, Tree.Inside g f → ∀ p p', Agree names env p env' p' →
        form env p g = form env' p' g := by
      intro g hg p p' h
      exact ih _ hg.depth_lt h (fun x hx => hf x (hx.of_within hg.within)) rfl
    rw [form.eq_def, form.eq_def]
    split
    · next x span => exact symbol_congr h (hf x ⟨span, .self⟩) span
    · rfl
    · rw [all_congr_inside ih' h fun g hg => .item hg .self]
    · exact list_congr ih' h rfl hf

theorem all_congr {fs : List Form} (h : Agree names env p env' p')
    (hfs : ∀ f ∈ fs, ∀ x, f.Occurs x → names x) : all env p fs = all env' p' fs := by
  induction fs with
  | nil => rw [all, all]
  | cons f fs ih =>
    obtain ⟨hf, hrest⟩ := List.forall_mem_cons.1 hfs
    rw [all, all, form_congr h hf, ih hrest]

end Resolution

end Scriptlet
