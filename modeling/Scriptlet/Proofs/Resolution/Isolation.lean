import Scriptlet.Engine
import Scriptlet.Proofs.Resolution.Walk
import Scriptlet.Proofs.Resolution.WellFormed

/-!
Errors do not spread. What is wrong with a form that is to be evaluated stands in a row among the
errors of its script, and all other errors are the same whatever the form is.
-/

namespace Scriptlet

/-- Puts a form at one place directly in another form, where it is to be evaluated. -/
inductive Form.Slot : (Form → Form) → Prop where
  | item (before after : List Form) (span : Span) :
      Slot fun f => .group .square (before ++ f :: after) span
  | argument (head : Form) (before after : List Form) (span : Span)
      (hhead : ∀ x, head.symbol? = some x → SpecialForm.ofName? x = none) :
      Slot fun f => .group .round (head :: (before ++ f :: after)) span
  | operand {name special} (hname : SpecialForm.ofName? name = some special)
      (hspecial : special ∈ [.block, .allOf, .anyOf, .branch]) (s : Span)
      (before after : List Form) (span : Span) :
      Slot fun f => .group .round (.leaf (.symbol name) s :: (before ++ f :: after)) span
  | value {name} (hname : SpecialForm.ofName? name = some .bind) (s : Span) (before : List Form)
      (heven : before.length % 2 = 0) (target : Form) (after : List Form) (ps : Span)
      (body : List Form) (span : Span) :
      Slot fun f => .group .round (.leaf (.symbol name) s ::
        .group .square (before ++ target :: f :: after) ps :: body) span
  | body {name special} (hname : SpecialForm.ofName? name = some special)
      (hspecial : special ∈ [.bind, .lambda]) (s : Span) (second : Form)
      (before after : List Form) (span : Span) :
      Slot fun f => .group .round (.leaf (.symbol name) s :: second :: (before ++ f :: after)) span
  | head {put} (h : Slot put) (args : List Form) (span : Span) :
      Slot fun f => .group .round (put f :: args) span

/-- Puts a form at one place in another form, at any depth, where it is to be evaluated. -/
inductive Form.Position : (Form → Form) → Prop where
  | self : Position id
  | inside {outer put} (hslot : Slot outer) (h : Position put) : Position fun f => outer (put f)

namespace Stacks.Shows

variable {s : Stacks} {p : Place}

theorem exists_bind (h : s.Shows p) (x : String) : ∃ t : Stacks, t.Shows (p.bind x) := by
  obtain ⟨scope, -, hscope⟩ := Scope.declare_ok (α := Unit) (List.nodup_singleton x)
  have hhidden : ∀ y, scope.lookup y = none := by
    intro y
    have hlookup := (hscope ∅).2 y
    rw [Scopes.lookup_push] at hlookup
    exact (Option.or_eq_none_iff.1 hlookup).1
  exact ⟨_, ((h.push hhidden).bind (hscope s.scopes).1 List.not_mem_nil h.below).1⟩

theorem exists_binds (h : s.Shows p) (names : List String) :
    ∃ t : Stacks, t.Shows (names.foldl Place.bind p) := by
  induction names generalizing s p with
  | nil => exact ⟨s, h⟩
  | cons x names ih =>
    obtain ⟨t, ht⟩ := h.exists_bind x
    exact ih ht

theorem exists_enter (h : s.Shows p) {names : List String} (hnames : names.Nodup) :
    ∃ t : Stacks, t.Shows (p.enter names) := by
  have hkeys : ((names.map fun n => (n, ())).map (·.1)).Nodup := by
    simpa [List.map_map, Function.comp_def] using hnames
  obtain ⟨scope, -, hlookup⟩ := Scope.ofEntries_ok hkeys
  exact ⟨_, h.enter hlookup⟩

end Stacks.Shows

namespace Resolution

/-- The errors of a form at a place. A form that is not resolved anywhere has none. -/
def errorsAt (env : Environment) (f : Form) : Option Place → List ResolutionError
  | some p => (form env p f).errors
  | none => []

/-- The errors of what depends on a form are those of the form at one place, between errors that do
not depend on it. -/
def Isolated {α : Type} (env : Environment) (p : Place) (x : Form → Resolved α) : Prop :=
  ∃ errors errors' q, (∀ s : Stacks, s.Shows p → ∀ p' ∈ q, ∃ t : Stacks, t.Shows p') ∧
    ∀ f, (x f).errors = errors ++ errorsAt env f q ++ errors'

namespace Isolated

variable {α β : Type} {env : Environment} {p : Place} {x : Form → Resolved α}
  {y : Form → Resolved β}

theorem form (env : Environment) (p : Place) : Isolated env p (form env p) := by
  refine ⟨[], [], some p, fun s hs p' hp' => ?_, fun f => ?_⟩
  · cases hp'
    exact ⟨s, hs⟩
  · rw [errorsAt, List.nil_append, List.append_nil]

theorem of_const (h : ∀ f g, (x f).errors = (x g).errors) : Isolated env p x := by
  refine ⟨(x (.leaf .nil ⟨0, 0⟩)).errors, [], none, fun s hs p' hp' => (nomatch hp'), fun f => ?_⟩
  rw [errorsAt, List.append_nil, List.append_nil]
  exact h f _

theorem prepend (hx : Isolated env p x) (errors : List ResolutionError)
    (h : ∀ f, (y f).errors = errors ++ (x f).errors) : Isolated env p y := by
  obtain ⟨es, es', q, hq, hes⟩ := hx
  refine ⟨errors ++ es, es', q, hq, fun f => ?_⟩
  rw [h, hes, List.append_assoc, List.append_assoc, List.append_assoc]

theorem append (hx : Isolated env p x) (errors : List ResolutionError)
    (h : ∀ f, (y f).errors = (x f).errors ++ errors) : Isolated env p y := by
  obtain ⟨es, es', q, hq, hes⟩ := hx
  refine ⟨es, es' ++ errors, q, hq, fun f => ?_⟩
  rw [h, hes, List.append_assoc]

/-- The form may stand deeper, where the walk comes to from the place. -/
theorem deeper {p' : Place} (hx : Isolated env p' x)
    (h : ∀ s : Stacks, s.Shows p → ∃ t : Stacks, t.Shows p') : Isolated env p x := by
  obtain ⟨es, es', q, hq, hes⟩ := hx
  refine ⟨es, es', q, fun s hs p'' hp'' => ?_, hes⟩
  obtain ⟨t, ht⟩ := h s hs
  exact hq t ht p'' hp''

end Isolated

variable {env : Environment} {p : Place}

theorem all_isolated (env : Environment) (p : Place) (before after : List Form) :
    Isolated env p fun f => all env p (before ++ f :: after) := by
  induction before with
  | nil =>
    refine (Isolated.form env p).append (all env p after).errors fun f => ?_
    rw [List.nil_append, all, Resolved.errors_bind, Resolved.errors_bind, Resolved.errors_pure,
      List.append_nil]
  | cons g before ih =>
    refine ih.prepend (form env p g).errors fun f => ?_
    rw [List.cons_append, all, Resolved.errors_bind, Resolved.errors_bind, Resolved.errors_pure,
      List.append_nil]

/-- What comes after the arguments knows only how many they are. -/
theorem call_isolated {α : Type} (p : Place) (before after : List Form)
    (call : List Node → Resolved α)
    (hcall : ∀ ns ms : List Node, ns.length = ms.length → (call ns).errors = (call ms).errors) :
    Isolated env p fun f => all env p (before ++ f :: after) >>= call := by
  let nodes := (all env p (before ++ .leaf .nil ⟨0, 0⟩ :: after)).value
  refine (all_isolated env p before after).append (call nodes).errors fun f => ?_
  rw [Resolved.errors_bind]
  congr 1
  apply hcall
  rw [length_all, length_all, List.length_append, List.length_append, List.length_cons,
    List.length_cons]

theorem errors_globalCall_congr (name : String) (head span : Span) {ns ms : List Node}
    (h : ns.length = ms.length) :
    (globalCall env name head ns span).errors = (globalCall env name head ms span).errors := by
  unfold globalCall
  rw [h]
  split
  · rfl
  · split <;> rfl
  · rfl
  · rfl

theorem errors_branch (args : List Form) (span : Span) :
    (branch env p args span).errors =
      if args.length = 2 ∨ args.length = 3 then (all env p args).errors
      else (malformed .branch s!"expects 2 or 3 forms, got {args.length}" span).errors := by
  unfold branch
  split
  · next cond yes =>
    simp only [List.length_cons, List.length_nil, all, Resolved.errors_bind, Resolved.errors_pure]
    simp
  · next cond yes no =>
    simp only [List.length_cons, List.length_nil, all, Resolved.errors_bind, Resolved.errors_pure]
    simp
  · next htwo hthree =>
    rw [if_neg]
    rintro (h | h)
    · obtain ⟨a, b, rfl⟩ := List.length_eq_two.1 h
      exact htwo a b rfl
    · obtain ⟨a, b, c, rfl⟩ := List.length_eq_three.1 h
      exact hthree a b c rfl

theorem branch_isolated (p : Place) (before after : List Form) (span : Span) :
    Isolated env p fun f => branch env p (before ++ f :: after) span := by
  by_cases h : (before.length + (after.length + 1)) = 2 ∨ (before.length + (after.length + 1)) = 3
  · refine (all_isolated env p before after).append [] fun f => ?_
    rw [errors_branch, List.length_append, List.length_cons, if_pos h, List.append_nil]
  · refine .of_const fun f g => ?_
    simp only [errors_branch, List.length_append, List.length_cons, if_neg h]

theorem firsts_append {before : List Form} (heven : before.length % 2 = 0) (target f : Form)
    (after : List Form) :
    firsts (before ++ target :: f :: after) = firsts before ++ target :: firsts after := by
  fun_induction firsts before with
  | case1 => rfl
  | case2 => simp at heven
  | case3 t v rest ih =>
    simp only [List.cons_append, firsts]
    rw [ih (by simp only [List.length_cons] at heven; omega)]

/-- The place after a `let` has bound names that it has values for. -/
theorem place_bindingsOf (names : List String) (pairs : List Form) :
    (bindingsOf env p names pairs).value.2 = (names.take (pairs.length / 2)).foldl Place.bind p := by
  induction names generalizing p pairs with
  | nil =>
    rw [bindingsOf]
    · simp
    · simp
  | cons x names ih =>
    match pairs with
    | [] | [_] =>
      rw [bindingsOf]
      · simp
      · simp
    | _ :: value :: rest =>
      rw [bindingsOf]
      have hhalf : (rest.length + 1 + 1) / 2 = rest.length / 2 + 1 := by omega
      rw [List.length_cons, List.length_cons, hhalf, List.take_succ_cons, List.foldl_cons, ← ih]
      rfl

/-- The values of a `let` see only the names before them. -/
theorem bindingsOf_isolated (p : Place) (names : List String) {before : List Form}
    (heven : before.length % 2 = 0) (target : Form) (after : List Form) :
    Isolated env p fun f => bindingsOf env p names (before ++ target :: f :: after) := by
  induction names generalizing p before with
  | nil =>
    refine .of_const fun f g => ?_
    rw [bindingsOf, bindingsOf]
    · simp
    · simp
  | cons x names ih =>
    match before, heven with
    | [], _ =>
      refine (Isolated.form env p).append
        (bindingsOf env (p.bind x) names after).errors fun f => ?_
      rw [List.nil_append, bindingsOf, Resolved.errors_bind, Resolved.errors_bind]
      exact congrArg _ (List.append_nil _)
    | t :: v :: rest, heven =>
      have hrest : rest.length % 2 = 0 := by
        simp only [List.length_cons] at heven
        omega
      have hdeeper := (ih (p.bind x) hrest).deeper fun s hs => hs.exists_bind x
      refine hdeeper.prepend (form env p v).errors fun f => ?_
      rw [List.cons_append, List.cons_append, bindingsOf, Resolved.errors_bind,
        Resolved.errors_bind]
      exact congrArg _ (List.append_nil _)

theorem errors_bindForm (p : Place) (pairs : List Form) (ps : Span) (body : List Form)
    (span : Span) :
    (bindForm env p (.group .square pairs ps :: body) span).errors =
      if pairs.length % 2 ≠ 0 then
        (malformed .bind "binding vector needs an even number of forms" span).errors
      else (targets .bind [] (firsts pairs)).errors ++
        match (targets .bind [] (firsts pairs)).value with
        | none => []
        | some names => (bindingsOf env p names pairs).errors ++
            (all env ((names.take (pairs.length / 2)).foldl Place.bind p) body).errors := by
  rw [bindForm]
  split
  · rfl
  · rw [Resolved.errors_bind]
    cases (targets .bind [] (firsts pairs)).value with
    | none => rfl
    | some names =>
      simp only [Resolved.errors_bind, Resolved.errors_pure, List.append_nil, place_bindingsOf]

theorem errors_lambda (p : Place) (params : List Form) (ps : Span) (body : List Form)
    (span : Span) :
    (lambda env p (.group .square params ps :: body) span).errors =
      (targets .lambda [] params).errors ++
        match (targets .lambda [] params).value with
        | none => []
        | some names => (all env (p.enter names) body).errors := by
  rw [lambda, Resolved.errors_bind]
  cases (targets .lambda [] params).value with
  | none => rfl
  | some names =>
    simp only [Resolved.errors_bind, Resolved.errors_pure, List.append_nil,
      Resolved.errors_withUses]

theorem value_isolated (p : Place) {before : List Form} (heven : before.length % 2 = 0)
    (target : Form) (after : List Form) (ps : Span) (body : List Form) (span : Span) :
    Isolated env p fun f =>
      bindForm env p (.group .square (before ++ target :: f :: after) ps :: body) span := by
  have hlength : ∀ f : Form, (before ++ target :: f :: after).length =
      before.length + (after.length + 1 + 1) := fun f => by
    rw [List.length_append, List.length_cons, List.length_cons]
  by_cases hodd : (before.length + (after.length + 1 + 1)) % 2 ≠ 0
  · refine .of_const fun f g => ?_
    simp only [errors_bindForm, hlength, if_pos hodd]
  · cases hvalue : (targets .bind [] (firsts before ++ target :: firsts after)).value with
    | none =>
      refine .of_const fun f g => ?_
      simp only [errors_bindForm, hlength, if_neg hodd, firsts_append heven, hvalue]
    | some names =>
      let place := (names.take ((before.length + (after.length + 1 + 1)) / 2)).foldl Place.bind p
      refine (Isolated.append (bindingsOf_isolated p names heven target after)
        (y := fun f => bindingsOf env p names (before ++ target :: f :: after) >>= fun _ =>
          all env place body) (all env place body).errors (fun f => rfl)).prepend
            (targets .bind [] (firsts before ++ target :: firsts after)).errors fun f => ?_
      rw [errors_bindForm, hlength, if_neg hodd, firsts_append heven, hvalue]
      rfl

/-- The body of a `let` sees all names of the `let`, and a malformed `let` is not looked into. -/
theorem letBody_isolated (p : Place) (second : Form) (before after : List Form) (span : Span) :
    Isolated env p fun f => bindForm env p (second :: (before ++ f :: after)) span := by
  cases second with
  | leaf a s =>
    refine .of_const fun f g => ?_
    simp only [bindForm]
  | group bracket pairs ps =>
    cases bracket with
    | round =>
      refine .of_const fun f g => ?_
      simp only [bindForm]
    | square =>
      by_cases hodd : pairs.length % 2 ≠ 0
      · refine .of_const fun f g => ?_
        simp only [errors_bindForm, if_pos hodd]
      · cases hvalue : (targets .bind [] (firsts pairs)).value with
        | none =>
          refine .of_const fun f g => ?_
          simp only [errors_bindForm, if_neg hodd, hvalue]
        | some names =>
          have hbody := all_isolated env ((names.take (pairs.length / 2)).foldl Place.bind p)
            before after
          have hdeeper := hbody.deeper fun s hs => hs.exists_binds _
          refine hdeeper.prepend ((targets .bind [] (firsts pairs)).errors ++
            (bindingsOf env p names pairs).errors) fun f => ?_
          rw [errors_bindForm, if_neg hodd, hvalue, List.append_assoc]

theorem lambdaBody_isolated (p : Place) (second : Form) (before after : List Form) (span : Span) :
    Isolated env p fun f => lambda env p (second :: (before ++ f :: after)) span := by
  cases second with
  | leaf a s =>
    refine .of_const fun f g => ?_
    simp only [lambda]
  | group bracket params ps =>
    cases bracket with
    | round =>
      refine .of_const fun f g => ?_
      simp only [lambda]
    | square =>
      cases hvalue : (targets .lambda [] params).value with
      | none =>
        refine .of_const fun f g => ?_
        simp only [errors_lambda, hvalue]
      | some names =>
        have hdeeper := (all_isolated env (p.enter names) before after).deeper
          fun s hs => hs.exists_enter (targets_some hvalue).2.nodup
        refine hdeeper.prepend (targets .lambda [] params).errors fun f => ?_
        rw [errors_lambda, hvalue]

theorem slot_group {put : Form → Form} (h : Form.Slot put) :
    ∃ (bracket : Bracket) (items : Form → List Form) (span : Span),
      ∀ f, put f = .group bracket (items f) span := by
  cases h <;> exact ⟨_, _, _, fun _ => rfl⟩

theorem argument_isolated (p : Place) {head : Form}
    (hhead : ∀ x, head.symbol? = some x → SpecialForm.ofName? x = none)
    (before after : List Form) (span : Span) :
    Isolated env p fun f => list env p (head :: (before ++ f :: after)) span := by
  have hcall : ∀ callee : Resolved Node, Isolated env p fun f => do
      let callee ← callee
      let args ← all env p (before ++ f :: after)
      return Node.call callee args span := by
    intro callee
    refine (all_isolated env p before after).prepend callee.errors fun f => ?_
    rw [Resolved.errors_bind, Resolved.errors_bind, Resolved.errors_pure, List.append_nil]
  cases head with
  | leaf a s =>
    cases a with
    | symbol x =>
      have hx : SpecialForm.ofName? x = none := hhead x rfl
      cases hlevel : p.level? x with
      | some level =>
        simp only [list, hx, hlevel]
        exact hcall (symbol env p x s)
      | none =>
        simp only [list, hx, hlevel]
        exact call_isolated p before after _ fun ns ms h => errors_globalCall_congr x s span h
    | _ => exact call_isolated p before after _ fun _ _ _ => rfl
  | group bracket items s =>
    cases bracket with
    | round =>
      simp only [list]
      exact hcall (form env p (.group .round items s))
    | square => exact call_isolated p before after _ fun _ _ _ => rfl

theorem operand_isolated (p : Place) {name : String} {special : SpecialForm}
    (hname : SpecialForm.ofName? name = some special)
    (hspecial : special ∈ [.block, .allOf, .anyOf, .branch]) (s : Span)
    (before after : List Form) (span : Span) :
    Isolated env p fun f =>
      list env p (.leaf (.symbol name) s :: (before ++ f :: after)) span := by
  simp only [list, hname]
  have hvalues : ∀ node : List Node → Node, Isolated env p fun f =>
      all env p (before ++ f :: after) >>= fun nodes => pure (node nodes) :=
    fun node => call_isolated p before after _ fun _ _ _ => rfl
  cases special with
  | block => exact hvalues fun nodes => .block nodes span
  | allOf => exact hvalues fun nodes => .allOf nodes span
  | anyOf => exact hvalues fun nodes => .anyOf nodes span
  | branch => exact branch_isolated p before after span
  | _ => simp at hspecial

/-- A form that is to be evaluated directly in another one. -/
theorem slot_isolated (env : Environment) {put : Form → Form} (h : Form.Slot put) (p : Place) :
    Isolated env p fun f => form env p (put f) := by
  induction h with
  | item before after span =>
    simp only [form]
    exact call_isolated p before after _ fun _ _ _ => rfl
  | argument head before after span hhead =>
    simp only [form]
    exact argument_isolated p hhead before after span
  | operand hname hspecial s before after span =>
    simp only [form]
    exact operand_isolated p hname hspecial s before after span
  | value hname s before heven target after ps body span =>
    simp only [form, list, hname]
    exact value_isolated p heven target after ps body span
  | @body name special hname hspecial s second before after span =>
    simp only [form, list, hname]
    cases special with
    | bind => exact letBody_isolated p second before after span
    | lambda => exact lambdaBody_isolated p second before after span
    | _ => simp at hspecial
  | @head put h args span ih =>
    obtain ⟨bracket, items, s, hput⟩ := slot_group h
    simp only [hput] at ih ⊢
    cases bracket with
    | round =>
      refine ih.append (all env p args).errors fun f => ?_
      simp only [form, list, Resolved.errors_bind, Resolved.errors_pure, List.append_nil]
    | square =>
      refine .of_const fun f g => ?_
      simp only [form, list]
      rfl

/-- A form that is to be evaluated, at any depth. -/
theorem position_isolated (env : Environment) {put : Form → Form} (h : Form.Position put)
    (p : Place) :
    Isolated env p fun f => form env p (put f) := by
  induction h generalizing p with
  | self => exact .form env p
  | @inside outer put hslot _ ih =>
    obtain ⟨es, es', q, hq, hes⟩ := slot_isolated env hslot p
    cases q with
    | none =>
      refine .of_const fun f g => ?_
      rw [hes, hes]
      rfl
    | some q =>
      have hinner := (ih q).deeper fun s hs => hq s hs q rfl
      refine (hinner.append (y := fun f => form env q (put f) >>= fun _ => ⟨(), es', []⟩) es'
        fun f => rfl).prepend es fun f => ?_
      rw [hes, errorsAt, List.append_assoc]
      rfl

end Resolution

/-- All that is wrong with a script, in order. -/
def Script.faults (env : Environment) (script : Script) : List ResolutionError :=
  match script.resolve env with
  | .ok _ => []
  | .error errors => errors

theorem Script.faults_eq (env : Environment) (script : Script) :
    script.faults env = (Resolution.all env .top script.forms).errors := by
  unfold faults Script.resolve
  by_cases h : (Resolution.all env .top script.forms).errors.isEmpty = true
  · simp only [h, if_true]
    exact (List.isEmpty_iff.1 h).symm
  · simp only [h]
    rfl

/-- The errors that the walk meets in a form, from the stacks that it has there. In a form that it
does not come to it meets none. -/
def Walk.errorsFrom (env : Environment) (f : Form) : Option Stacks → List ResolutionError
  | some s => ((Walk.form env f).run s).errors
  | none => []

/-- What is wrong with a form that is to be evaluated stands in a row among the errors of the
script. With `nil` in its place just these are missing. The errors are those of a walk with a stack
of scopes and a stack of `fn` forms, and each form leaves these stacks as they were. -/
theorem Script.faults_isolated (env : Environment) {put : Form → Form} (h : Form.Position put)
    (before after : List Form) (span : Span) :
    (∃ errors errors' start, ∀ f : Form,
      Script.faults env ⟨before ++ put f :: after, span⟩ =
          errors ++ Walk.errorsFrom env f start ++ errors' ∧
        Script.faults env ⟨before ++ put (.leaf .nil f.span) :: after, span⟩ = errors ++ errors') ∧
    (∀ script : Script,
      script.faults env = ((Walk.all env script.forms).run .empty).errors) ∧
    ∀ (f : Form) (s : Stacks),
      ((Walk.form env f).run s).value.2.scopes = s.scopes ∧
      ((Walk.form env f).run s).value.2.frames.map Frame.base = s.frames.map Frame.base := by
  refine ⟨?_, fun script => ?_, fun f s => ?_⟩
  · -- The forms of a script are resolved as the items of a vector are.
    obtain ⟨errors, errors', q, hq, herrors⟩ :=
      Resolution.position_isolated env (.inside (.item before after span) h) .top
    have hfaults : ∀ f : Form, Script.faults env ⟨before ++ put f :: after, span⟩ =
        errors ++ Resolution.errorsAt env f q ++ errors' := by
      intro f
      have hvector := herrors f
      simp only [Resolution.form, Resolved.errors_bind, Resolved.errors_pure,
        List.append_nil] at hvector
      rw [faults_eq]
      exact hvector
    obtain ⟨start, hstart⟩ : ∃ start, ∀ f,
        Resolution.errorsAt env f q = Walk.errorsFrom env f start := by
      cases q with
      | none => exact ⟨none, fun f => rfl⟩
      | some p =>
        obtain ⟨t, ht⟩ := hq .empty .top p rfl
        refine ⟨some t, fun f => ?_⟩
        rw [Resolution.errorsAt, Walk.errorsFrom, Walk.form_follows ht]
    have hnil : ∀ span : Span, Walk.errorsFrom env (.leaf .nil span) start = [] := by
      intro span
      cases start <;> rfl
    refine ⟨errors, errors', start, fun f => ⟨?_, ?_⟩⟩
    · rw [hfaults, hstart]
    · rw [hfaults, hstart, hnil, List.append_nil]
  · rw [faults_eq, Walk.all_follows .top]
  · have hkept : s.Kept ((Walk.form env f).run s).value.2 := Walk.form_restores f s
    exact ⟨hkept.scopes, hkept.bases⟩

/-- In `(do (nope) (let [a (1)] a) (inc))` the value of `a` is faulty, and so are its neighbours. -/
theorem Script.faults_isolated_value :
    ∃ (put : Form → Form) (f : Form) (span : Span) (errors errors' : List ResolutionError)
      (start : Option Stacks), Form.Position put ∧
      Script.faults Engine.standard.environment ⟨[put f], span⟩ =
        errors ++ Walk.errorsFrom Engine.standard.environment f start ++ errors' ∧
      Script.faults Engine.standard.environment ⟨[put (.leaf .nil f.span)], span⟩ =
        errors ++ errors' ∧
      (Script.faults Engine.standard.environment ⟨[put f], span⟩).length = 3 ∧
      (Script.faults Engine.standard.environment ⟨[put (.leaf .nil f.span)], span⟩).length = 2 := by
  let faulty : Form := .group .round [.leaf (.int 1) ⟨20, 21⟩] ⟨19, 22⟩
  have hletName : SpecialForm.ofName? "let" = some .bind := rfl
  have hdoName : SpecialForm.ofName? "do" = some .block := rfl
  have hlet := Form.Slot.value hletName ⟨12, 15⟩ [] rfl (.leaf (.symbol "a") ⟨17, 18⟩) []
    ⟨16, 23⟩ [.leaf (.symbol "a") ⟨24, 25⟩] ⟨11, 26⟩
  have hdo := Form.Slot.operand hdoName (by simp) ⟨1, 3⟩
    [.group .round [.leaf (.symbol "nope") ⟨5, 9⟩] ⟨4, 10⟩]
    [.group .round [.leaf (.symbol "inc") ⟨28, 31⟩] ⟨27, 32⟩] ⟨0, 33⟩
  have hposition := Form.Position.inside hdo (.inside hlet .self)
  obtain ⟨⟨errors, errors', start, hfaults⟩, -⟩ :=
    faults_isolated Engine.standard.environment hposition [] [] ⟨0, 33⟩
  refine ⟨_, faulty, ⟨0, 33⟩, errors, errors', start, hposition, (hfaults faulty).1,
    (hfaults faulty).2, ?_, ?_⟩
  · decide +kernel
  · decide +kernel

end Scriptlet
