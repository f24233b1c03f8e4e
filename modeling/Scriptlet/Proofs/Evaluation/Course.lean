import Scriptlet.Proofs.Evaluation.Run

/-!
The evaluations that evaluating a node asks for, in order. A node takes nothing else from the
evaluator of its parts, it takes no steps of its own, and the first part that fails ends it.
-/

namespace Scriptlet

/-- A node to be evaluated, and the state in which its evaluation begins. -/
structure Request where
  node : Node
  state : RunState

namespace Request

/-- What is asked for after a computation, if that gives a value. -/
def after {α : Type} (x : Except Failure α × RunState) (next : α → RunState → List Request) :
    List Request :=
  match x with
  | (.ok a, t) => next a t
  | (.error _, _) => []

variable (ev : Node → Eval Value)

/-- Nodes in order, up to the first value that decides. -/
def ofNodes (decides : Value → Bool) : List Node → RunState → List Request
  | [], _ => []
  | n :: rest, s =>
    ⟨n, s⟩ :: after (ev n s) fun v t => if decides v then [] else ofNodes decides rest t

/-- Nodes in order, all of them. -/
def ofAll : List Node → RunState → List Request := ofNodes ev fun _ => false

def ofBindings (span : Span) : List (String × Node) → RunState → List Request
  | [], _ => []
  | (name, n) :: rest, s =>
    ⟨n, s⟩ :: after (ev n s) fun v t =>
      after (Eval.bindName name v span t) fun _ u => ofBindings span rest u

def ofBind (bindings : List (String × Node)) (nodes : List Node) (span : Span) (s : RunState) :
    List Request :=
  match Scope.declare (bindings.map (·.1)) with
  | .error _ => []
  | .ok scope =>
    let t := { s with scopes := s.scopes.push scope }
    ofBindings ev span bindings t ++
      after (Evaluation.bindAll ev span bindings t) fun _ u => ofAll ev nodes u

def ofEnter (l : Lambda) (kept : List (String × Value)) (values : List Value) (s : RunState) :
    List Request :=
  match Scope.ofEntries (l.params.zip values) with
  | .error _ => []
  | .ok params => ofAll ev l.body { s with scopes := ⟨[params, Scope.ofSorted kept]⟩ }

/-- Only a closure that takes the arguments asks for more. -/
def ofApply (callee : Value) (values : List Value) (s : RunState) : List Request :=
  match callee with
  | .function (.closure _ l kept) =>
    if values.length = l.params.length then ofEnter ev l kept values s else []
  | _ => []

def ofNode : Node → RunState → List Request
  | .constant .., _ | .localName .., _ | .freeName .., _ | .lambda _, _ => []
  | .list nodes _, s | .block nodes _, s | .nativeCall _ nodes _, s => ofAll ev nodes s
  | .branch cond yes no _, s =>
    ⟨cond, s⟩ :: after (ev cond s) fun c t =>
      if c.isTruthy then [⟨yes, t⟩] else (no.map (⟨·, t⟩)).toList
  | .bind bindings nodes span, s => ofBind ev bindings nodes span s
  | .allOf nodes _, s => ofNodes ev (fun v => !v.isTruthy) nodes s
  | .anyOf nodes _, s => ofNodes ev Value.isTruthy nodes s
  | .call callee nodes _, s =>
    ⟨callee, s⟩ :: after (ev callee s) fun f t =>
      ofAll ev nodes t ++ after (Evaluation.args ev nodes t) fun values u => ofApply ev f values u

end Request

variable {invoke : Native → List Value → Except Fault Value} {ev : Node → Eval Value}
  {α β : Type}

/-- A failure with which a computation itself may end: resource faults come from natives only. -/
def Failure.Own (invoke : Native → List Value → Except Fault Value) (e : Failure) : Prop :=
  ∀ cause span, e = .fault cause span → cause.isResource = true →
    ∃ f args, invoke f args = .error cause

/-- The requests are answered one after the other, and the end is as given. Each begins with as many
steps as the one before it has left. A request that fails is the last, and its failure the end. -/
inductive Course (invoke : Native → List Value → Except Fault Value) (ev : Node → Eval Value) :
    Nat → List Request → Except Failure α × RunState → Prop where
  | done {steps x} (hsteps : x.2.steps = steps) (hown : ∀ e, x.1 = .error e → e.Own invoke) :
      Course invoke ev steps [] x
  | answered {steps r rs x v t} (hsteps : r.state.steps = steps)
      (hr : ev r.node r.state = (.ok v, t)) (h : Course invoke ev t.steps rs x) :
      Course invoke ev steps (r :: rs) x
  | failed {steps r e t u} (hsteps : r.state.steps = steps)
      (hr : ev r.node r.state = (.error e, t)) (hu : u.steps = t.steps) :
      Course invoke ev steps [r] (.error e, u)

namespace Course

variable {steps : Nat} {rs rs' : List Request} {x : Except Failure α × RunState}
  {y : Except Failure β × RunState}

/-- The scopes at the end have no part in the course. -/
theorem rescoped {y : Except Failure α × RunState} (h : Course invoke ev steps rs x)
    (hresult : y.1 = x.1) (hsteps : y.2.steps = x.2.steps) : Course invoke ev steps rs y := by
  induction h with
  | done h hown => exact .done (hsteps.trans h) fun e he => hown e (hresult ▸ he)
  | answered h hr _ ih => exact .answered h hr (ih hresult hsteps)
  | failed h hr hu =>
    obtain ⟨_, u⟩ := y
    cases hresult
    exact .failed h hr (hsteps.trans hu)

/-- A computation that gives a value is gone on from. -/
theorem append {a : α} {t : RunState} (h : Course invoke ev steps rs (.ok a, t))
    (h' : Course invoke ev t.steps rs' y) : Course invoke ev steps (rs ++ rs') y := by
  generalize hx : ((.ok a, t) : Except Failure α × RunState) = x at h
  induction h with
  | done hsteps _ =>
    subst hx
    have hsame : t.steps = _ := hsteps
    rw [hsame] at h'
    exact h'
  | answered hsteps hr _ ih => exact .answered hsteps hr (ih hx)
  | failed => cases hx

/-- A computation that fails fails for what comes after it. -/
theorem error {e : Failure} {t : RunState}
    (h : Course invoke ev steps rs ((.error e, t) : Except Failure α × RunState)) :
    Course invoke ev steps rs ((.error e, t) : Except Failure β × RunState) := by
  generalize hx : ((.error e, t) : Except Failure α × RunState) = x at h
  induction h with
  | done hsteps hown =>
    subst hx
    refine .done hsteps fun e' he => ?_
    cases he
    exact hown e rfl
  | answered hsteps hr _ ih => exact .answered hsteps hr (ih hx)
  | failed hsteps hr hu =>
    cases hx
    exact .failed hsteps hr hu

/-- The failure of a request is the failure of the whole. -/
theorem error_of_request (h : Course invoke ev steps rs x) {r : Request} (hr : r ∈ rs) {e : Failure}
    (he : (ev r.node r.state).1 = .error e) : x.1 = .error e := by
  induction h with
  | done => cases hr
  | answered _ hanswer _ ih =>
    rcases List.mem_cons.1 hr with rfl | hr
    · rw [hanswer] at he
      cases he
    · exact ih hr
  | failed _ hanswer _ =>
    cases List.mem_singleton.1 hr
    rw [hanswer] at he
    cases he
    rfl

/-- A failure is that of a request, or the computation's own. -/
theorem request_of_error (h : Course invoke ev steps rs x) {e : Failure} (he : x.1 = .error e) :
    (∃ r ∈ rs, (ev r.node r.state).1 = .error e) ∨ e.Own invoke := by
  induction h with
  | done _ hown => exact .inr (hown e he)
  | answered _ _ _ ih =>
    rcases ih he with ⟨r, hr, hfail⟩ | hown
    · exact .inl ⟨r, List.mem_cons_of_mem _ hr, hfail⟩
    · exact .inr hown
  | @failed _ r _ _ _ _ hanswer _ =>
    cases he
    refine .inl ⟨r, List.mem_cons_self, ?_⟩
    rw [hanswer]

end Course

/-- A computation that uses an evaluator asks for the requests: it takes nothing else from the
evaluator, and their course leads to its end. -/
structure Asks (invoke : Native → List Value → Except Fault Value) (ev : Node → Eval Value)
    (act : (Node → Eval Value) → Eval α) (s : RunState) (rs : List Request) : Prop where
  congr : ∀ ev', (∀ r ∈ rs, ev' r.node r.state = ev r.node r.state) → act ev' s = act ev s
  course : Course invoke ev s.steps rs (act ev s)

namespace Asks

variable {s : RunState} {act : (Node → Eval Value) → Eval α} {rs : List Request}

/-- A computation that asks for nothing. -/
theorem nothing {x : Eval α} (hsteps : (x s).2.steps = s.steps)
    (hown : ∀ e, (x s).1 = .error e → e.Own invoke) : Asks invoke ev (fun _ => x) s [] :=
  ⟨fun _ _ => rfl, .done hsteps hown⟩

theorem pure (a : α) : Asks invoke ev (fun _ => Pure.pure a) s [] :=
  nothing rfl fun _ he => nomatch he

theorem fault {cause : Fault} {span : Span}
    (h : cause.isResource = true → ∃ f args, invoke f args = .error cause) :
    Asks invoke ev (fun _ => (Eval.fault cause span : Eval α)) s [] := by
  refine nothing rfl fun e he => ?_
  cases he
  intro cause' span' hsame hresource
  cases hsame
  exact h hresource

theorem ofFault {span : Span} (f : Native) (args : List Value) :
    Asks invoke ev (fun _ => Eval.ofFault span (invoke f args)) s [] := by
  cases h : invoke f args with
  | ok v => exact pure v
  | error cause => exact fault fun _ => ⟨f, args, h⟩

/-- The evaluation of a node asks for just that. -/
theorem node (n : Node) : Asks invoke ev (fun ev => ev n) s [⟨n, s⟩] := by
  refine ⟨fun ev' h => h _ List.mem_cons_self, ?_⟩
  rcases h : ev n s with ⟨e | v, t⟩
  · exact .failed rfl h rfl
  · exact .answered rfl h (.done rfl fun _ he => nomatch he)

theorem bind {f : α → (Node → Eval Value) → Eval β} {next : α → RunState → List Request}
    (h : Asks invoke ev act s rs) (hf : ∀ a t, Asks invoke ev (f a) t (next a t)) :
    Asks invoke ev (fun ev => act ev >>= fun a => f a ev) s
      (rs ++ Request.after (act ev s) next) := by
  constructor
  · intro ev' hsame
    have hfirst : act ev' s = act ev s :=
      h.congr ev' fun r hr => hsame r (List.mem_append_left _ hr)
    rw [bind_run, bind_run, hfirst]
    rcases hact : act ev s with ⟨e | a, t⟩
    · rfl
    · refine (hf a t).congr ev' fun r hr => hsame r (List.mem_append_right _ ?_)
      rwa [hact]
  · have hcourse := h.course
    rw [bind_run]
    rcases hact : act ev s with ⟨e | a, t⟩
    · rw [hact] at hcourse
      rw [Request.after, List.append_nil]
      exact hcourse.error
    · rw [hact] at hcourse
      exact hcourse.append (hf a t).course

/-- What comes after a computation may ask for nothing. -/
theorem andThen {f : α → (Node → Eval Value) → Eval β} (h : Asks invoke ev act s rs)
    (hf : ∀ a t, Asks invoke ev (f a) t []) :
    Asks invoke ev (fun ev => act ev >>= fun a => f a ev) s rs := by
  have hnone : Request.after (act ev s) (fun _ _ => []) = [] := by
    rcases act ev s with ⟨_ | _, _⟩ <;> rfl
  have hboth := h.bind hf
  rwa [hnone, List.append_nil] at hboth

theorem inScope {scope : Scope Value}
    (h : Asks invoke ev act { s with scopes := s.scopes.push scope } rs) :
    Asks invoke ev (fun ev => Eval.inScope scope (act ev)) s rs := by
  constructor
  · intro ev' hsame
    rw [Eval.inScope_run, Eval.inScope_run, h.congr ev' hsame]
  · rw [Eval.inScope_run]
    refine h.course.rescoped rfl ?_
    simp only [RunState.popped]
    split <;> rfl

theorem inFrame {frame : Scopes Value} (h : Asks invoke ev act { s with scopes := frame } rs) :
    Asks invoke ev (fun ev => Eval.inFrame frame (act ev)) s rs := by
  constructor
  · intro ev' hsame
    rw [Eval.inFrame_run, Eval.inFrame_run, h.congr ev' hsame]
  · rw [Eval.inFrame_run]
    exact h.course.rescoped rfl rfl

section Evaluator

variable (nodes : List Node)

theorem firstDeciding (decides : Value → Bool) (last : Value) :
    Asks invoke ev (fun ev => Evaluation.firstDeciding ev decides last nodes) s
      (Request.ofNodes ev decides nodes s) := by
  induction nodes generalizing last s with
  | nil => exact pure last
  | cons n nodes ih =>
    refine (node n).bind fun v t => ?_
    by_cases hv : decides v = true
    · simp only [hv, if_true]
      exact pure v
    · simp only [hv]
      exact ih v

theorem body (last : Value) :
    Asks invoke ev (fun ev => Evaluation.body ev last nodes) s (Request.ofAll ev nodes s) := by
  induction nodes generalizing last s with
  | nil => exact pure last
  | cons n nodes ih => exact (node n).bind fun v t => ih v

theorem args :
    Asks invoke ev (fun ev => Evaluation.args ev nodes) s (Request.ofAll ev nodes s) := by
  induction nodes generalizing s with
  | nil => exact pure []
  | cons n nodes ih =>
    exact (node n).bind fun v t => ih.andThen fun vs u => pure (v :: vs)

theorem bindName (name : String) (v : Value) (span : Span) :
    Asks invoke ev (fun _ => Eval.bindName name v span) s [] := by
  have hrun := Eval.bindName_eq name v span s
  cases h : s.scopes.bind name v with
  | ok scopes =>
    rw [h] at hrun
    refine nothing ?_ fun e he => ?_
    · rw [hrun]
    · rw [hrun] at he
      cases he
  | error e =>
    rw [h] at hrun
    refine nothing ?_ fun e' he => ?_
    · rw [hrun]
    · rw [hrun] at he
      cases he
      intro cause span' hsame hresource
      cases hsame
      cases hresource

theorem bindAll (span : Span) (bindings : List (String × Node)) :
    Asks invoke ev (fun ev => Evaluation.bindAll ev span bindings) s
      (Request.ofBindings ev span bindings s) := by
  induction bindings generalizing s with
  | nil => exact pure ()
  | cons p bindings ih =>
    exact (node p.2).bind fun v t => (bindName p.1 v span).bind fun _ u => ih

theorem letIn (bindings : List (String × Node)) (span : Span) :
    Asks invoke ev (fun ev => Evaluation.bind ev bindings nodes span) s
      (Request.ofBind ev bindings nodes span s) := by
  unfold Evaluation.bind Request.ofBind
  cases Scope.declare (α := Value) (bindings.map (·.1)) with
  | error e => exact fault fun h => nomatch h
  | ok scope => exact ((bindAll span bindings).bind fun _ u => body nodes .nil).inScope

theorem enter (l : Lambda) (kept : List (String × Value)) (values : List Value) (span : Span) :
    Asks invoke ev (fun ev => Evaluation.enter ev l kept values span) s
      (Request.ofEnter ev l kept values s) := by
  unfold Evaluation.enter Request.ofEnter
  cases Scope.ofEntries (l.params.zip values) with
  | error e => exact fault fun h => nomatch h
  | ok params => exact (body l.body .nil).inFrame

end Evaluator

variable {run : Run}

theorem apply (callee : Value) (values : List Value) (span : Span) :
    Asks run.invoke ev (fun ev => Evaluation.apply run ev callee values span) s
      (Request.ofApply ev callee values s) := by
  cases callee with
  | function f =>
    cases f with
    | native f =>
      simp only [Evaluation.apply, Request.ofApply]
      by_cases haccepts : (Function.native f).arity.accepts values.length = true
      · simp only [haccepts, if_true]
        exact ofFault f values
      · simp only [haccepts]
        exact fault fun h => nomatch h
    | closure i l kept =>
      simp only [Evaluation.apply_closure, Request.ofApply]
      by_cases hlength : values.length = l.params.length
      · simp only [hlength, if_true]
        exact enter l kept values span
      · simp only [hlength, if_false]
        exact fault fun h => nomatch h
  | _ => exact fault fun h => nomatch h

/-- Looking names up and keeping them asks for nothing. -/
theorem capturedAll (span : Span) (names : List String) :
    Asks run.invoke ev (fun _ => Evaluation.capturedAll run span names) s [] := by
  induction names generalizing s with
  | nil => exact pure []
  | cons x names ih =>
    have hcaptured : Asks run.invoke ev (fun _ => Evaluation.captured run x span) s [] := by
      refine nothing ?_ fun e he => ?_
      · rw [Evaluation.captured_run]
      · rw [Evaluation.captured_run] at he
        cases h : (s.scopes.lookup x).or (run.binding.get? x) with
        | some v =>
          rw [h] at he
          cases he
        | none =>
          rw [h] at he
          cases he
          intro _ _ hsame
          cases hsame
    exact hcaptured.andThen fun v t => ih.andThen fun vs u => pure ((x, v) :: vs)

theorem unbound (name : String) (span : Span) :
    Asks invoke ev (fun _ => (throw (.unbound name span) : Eval α)) s [] := by
  refine nothing rfl fun e he => ?_
  cases he
  intro _ _ hsame
  cases hsame

/-- A node asks for the evaluation of its parts, and a call for that of a body. -/
theorem dispatch (n : Node) :
    Asks run.invoke ev (fun ev => Evaluation.dispatch run ev n) s (Request.ofNode ev n s) := by
  cases n with
  | constant v span => exact pure v
  | localName x span =>
    have hlookup : Asks run.invoke ev (fun _ => Eval.lookup x) s [] :=
      nothing rfl fun _ he => nomatch he
    refine hlookup.andThen fun v t => ?_
    cases v with
    | some v => exact pure v
    | none => exact unbound x span
  | freeName x span =>
    simp only [Evaluation.dispatch]
    cases run.binding.get? x with
    | some v => exact pure v
    | none => exact unbound x span
  | list nodes span => exact (args nodes).andThen fun vs t => pure (Value.list vs)
  | branch cond yes no span =>
    refine (node cond).bind fun c t => ?_
    by_cases hc : c.isTruthy = true
    · simp only [hc, if_true]
      exact node yes
    · simp only [hc]
      cases no with
      | some no => exact node no
      | none => exact pure Value.nil
  | block nodes span => exact body nodes .nil
  | bind bindings nodes span => exact letIn nodes bindings span
  | lambda l =>
    refine (capturedAll l.span l.captures).andThen fun kept t => ?_
    have hidentity : Asks run.invoke ev (fun _ => Eval.newIdentity run) t [] :=
      nothing rfl fun _ he => nomatch he
    exact hidentity.andThen fun i u => pure _
  | allOf nodes span => exact firstDeciding nodes (fun v => !v.isTruthy) (.bool true)
  | anyOf nodes span => exact firstDeciding nodes Value.isTruthy .nil
  | nativeCall f nodes span => exact (args nodes).andThen fun vs t => ofFault f vs
  | call callee nodes span =>
    exact (node callee).bind fun f t => (args nodes).bind fun vs u => apply f vs span

end Asks

end Scriptlet
