import Mathlib.Data.Set.Defs
import Scriptlet.Proofs.Evaluation.Course
import Scriptlet.Proofs.Library.Likeness
import Scriptlet.Proofs.Resolution.Compiled
import Scriptlet.Proofs.Scope

/-!
The code that an evaluation runs. If the script, the closures that it is given and the closures that
native functions hand out have code of one kind, then so has everything that the evaluation makes of
them: each node that it evaluates is of that kind, and each failure is at a node of that kind.
-/

namespace Scriptlet

/-- Every node of code in the value satisfies the property, also in constants of that code and in
values that closures have kept. -/
inductive Value.Over (C : Node → Prop) : Value → Prop where
  | atom {v} (h : v.isAtom = true) : Over C v
  | list {vs} (h : ∀ v ∈ vs, Over C v) : Over C (.list vs)
  | closure {i l kept} (hcode : ∀ n, n.Within (.lambda l) → C n)
      (hconstants : ∀ v, (Node.lambda l).Mentions v → Over C v) (hkept : ∀ p ∈ kept, Over C p.2) :
      Over C (.function (.closure i l kept))

/-- Every node of the tree satisfies the property, and so does the code in its constants. -/
structure Node.Over (C : Node → Prop) (n : Node) : Prop where
  code : ∀ m, m.Within n → C m
  constants : ∀ v, n.Mentions v → v.Over C

/-- The request is for such a node, where the scopes show such values. -/
structure Request.Over (C : Node → Prop) (r : Request) : Prop where
  node : r.node.Over C
  scopes : r.state.scopes.All (Value.Over C)

/-- The host's functions make nothing but such values from such values. -/
def Host.Keeps (host : Host) (P : Value → Prop) : Prop :=
  ∀ handle args v, (∀ a ∈ args, P a) → host.perform handle args = .ok v → P v

/-- Values from outside that an evaluation can meet. -/
structure Run.Over (C : Node → Prop) (run : Run) : Prop where
  binding : ∀ x v, run.binding.get? x = some v → v.Over C
  invoke : ∀ f args v, (∀ a ∈ args, a.Over C) → run.invoke f args = .ok v → v.Over C

variable {C : Node → Prop}

namespace Value.Over

theorem items {vs : List Value} (h : (Value.list vs).Over C) : ∀ v ∈ vs, v.Over C := by
  cases h with
  | atom h => cases h
  | list h => exact h

theorem code {i : Identity} {l : Lambda} {kept : List (String × Value)}
    (h : (Value.function (.closure i l kept)).Over C) : (Node.lambda l).Over C := by
  cases h with
  | atom h => cases h
  | closure hcode hconstants _ => exact ⟨hcode, hconstants⟩

theorem kept {i : Identity} {l : Lambda} {kept : List (String × Value)}
    (h : (Value.function (.closure i l kept)).Over C) : ∀ p ∈ kept, p.2.Over C := by
  cases h with
  | atom h => cases h
  | closure _ _ hkept => exact hkept

theorem mono {C' : Node → Prop} {v : Value} (h : v.Over C) (hC : ∀ n, C n → C' n) : v.Over C' := by
  induction h with
  | atom h => exact .atom h
  | list _ ih => exact .list ih
  | closure hcode _ _ ihconstants ihkept =>
    exact .closure (fun n hn => hC n (hcode n hn)) ihconstants ihkept

/-- Being equal and having such code is all that a native function has to respect. -/
theorem likeness (C : Node → Prop) : Likeness fun v w => v = w ∧ v.Over C where
  atom h := ⟨rfl, .atom h⟩
  list h := by
    have hsame : List.Forall₂ Eq _ _ := h.imp fun _ _ h => h.1
    obtain rfl := List.forall₂_eq_eq_eq ▸ hsame
    exact ⟨rfl, .list fun v hv => (List.forall₂_same.1 h v hv).2⟩
  shape := by
    rintro v w ⟨rfl, h⟩
    cases h with
    | atom h => exact .atom h
    | list h => exact .list (List.forall₂_same.2 fun v hv => ⟨rfl, h v hv⟩)
    | closure => exact .closure rfl
  same := by
    rintro f g f' g' ⟨hf, -⟩ ⟨hg, -⟩
    cases hf
    cases hg
    rfl

theorem quoted (f : Form) : (Form.quoted f).Over C := ((likeness C).quoted f).2

end Value.Over

theorem Node.Over.part {n m : Node} (h : n.Over C) (hm : m ∈ n.parts) : m.Over C :=
  ⟨fun k hk => h.code k (.part hm hk), fun v hv => h.constants v (hv.part hm)⟩

theorem Node.Over.within {n m : Node} (h : n.Over C) (hm : m.Within n) : m.Over C := by
  induction hm with
  | self => exact h
  | part hk _ ih => exact ih (h.part hk)

theorem Node.Over.self {n : Node} (h : n.Over C) : C n := h.code n .self

theorem Node.Over.mono {C' : Node → Prop} {n : Node} (h : n.Over C) (hC : ∀ m, C m → C' m) :
    n.Over C' :=
  ⟨fun m hm => hC m (h.code m hm), fun v hv => (h.constants v hv).mono hC⟩

theorem Node.Over.of_parts {n : Node} (hn : C n)
    (hparts : ∀ m ∈ n.parts, m.Over C) (hconstant : ∀ v span, n = .constant v span → v.Over C) :
    n.Over C := by
  constructor
  · intro m hm
    cases hm with
    | self => exact hn
    | part hk hm => exact (hparts _ hk).code m hm
  · rintro v ⟨span, hv⟩
    cases hv with
    | self => exact hconstant v span rfl
    | part hk hv => exact (hparts _ hk).constants v ⟨span, hv⟩

theorem Builtin.run_over {op : Builtin} {args : List Value} {v : Value}
    (h : ∀ a ∈ args, a.Over C) (hv : op.run args = .ok v) : v.Over C := by
  have hsame := Builtin.run_congr (Value.Over.likeness C) op
    (List.forall₂_same.2 fun a ha => ⟨rfl, h a ha⟩)
  rw [hv] at hsame
  cases hsame with
  | ok h => exact h.2

theorem Native.run_over {host : Host} (hhost : host.Keeps (Value.Over C)) (f : Native)
    (args : List Value) (v : Value) (h : ∀ a ∈ args, a.Over C) (hv : f.run host args = .ok v) :
    v.Over C := by
  unfold Native.run at hv
  split at hv
  · exact Builtin.run_over h hv
  · exact hhost _ _ _ h hv

/-- The end of a computation in such code: its result has the property, the scopes that it leaves
show such values, and if it fails, it fails at such a node. -/
structure Confined (C : Node → Prop) {α : Type} (Q : α → Prop)
    (x : Except Failure α × RunState) : Prop where
  value : ∀ a, x.1 = .ok a → Q a
  scopes : x.2.scopes.All (Value.Over C)
  failure : ∀ e, x.1 = .error e → ∃ n, C n ∧ n.span = e.span

/-- From scopes that show such values, the computation ends in that way. -/
def Keeps (C : Node → Prop) {α : Type} (Q : α → Prop) (act : Eval α) : Prop :=
  ∀ s, s.scopes.All (Value.Over C) → Confined C Q (act s)

namespace Keeps

variable {α β : Type} {P : α → Prop} {Q : β → Prop} {act : Eval α} {span : Span}

theorem pure {a : α} (h : P a) : Keeps C P (Pure.pure a) := by
  refine fun s hs => ⟨fun b hb => ?_, hs, fun e he => nomatch he⟩
  cases hb
  exact h

theorem mono {P' : α → Prop} (h : Keeps C P act) (hP : ∀ a, P a → P' a) : Keeps C P' act :=
  fun s hs => ⟨fun a ha => hP a ((h s hs).value a ha), (h s hs).scopes, (h s hs).failure⟩

theorem bind {f : α → Eval β} (h : Keeps C P act) (hf : ∀ a, P a → Keeps C Q (f a)) :
    Keeps C Q (act >>= f) := by
  intro s hs
  have hact := h s hs
  rw [bind_run]
  rcases hx : act s with ⟨e | a, t⟩
  · rw [hx] at hact
    exact ⟨fun b hb => (nomatch hb), hact.scopes, fun e' he => hact.failure e' (by cases he; rfl)⟩
  · rw [hx] at hact
    exact hf a (hact.value a rfl) t hact.scopes

theorem throw {e : Failure} (h : ∃ n, C n ∧ n.span = e.span) :
    Keeps C P (MonadExcept.throw e : Eval α) := by
  refine fun s hs => ⟨fun a ha => (nomatch ha), hs, fun e' he => ?_⟩
  cases he
  exact h

theorem ofFault {x : Except Fault α} (hspan : ∃ n, C n ∧ n.span = span)
    (h : ∀ a, x = .ok a → P a) : Keeps C P (Eval.ofFault span x) := by
  cases x with
  | ok a => exact pure (h a rfl)
  | error cause => exact throw hspan

theorem lookup (x : String) :
    Keeps C (fun v : Option Value => ∀ w, v = some w → w.Over C) (Eval.lookup x) := by
  intro s hs
  refine ⟨fun v hv w hw => ?_, hs, fun e he => nomatch he⟩
  cases hv
  exact hs.lookup hw

theorem inScope {scope : Scope Value} (hscope : scope.All (Value.Over C)) (h : Keeps C P act) :
    Keeps C P (Eval.inScope scope act) := by
  intro s hs
  have hact := h { s with scopes := s.scopes.push scope } (hs.push hscope)
  rw [Eval.inScope_run]
  refine ⟨hact.value, ?_, hact.failure⟩
  simp only [RunState.popped]
  split
  · next hpop => exact hact.scopes.pop hpop
  · exact hact.scopes

theorem inFrame {frame : Scopes Value} (hframe : frame.All (Value.Over C)) (h : Keeps C P act) :
    Keeps C P (Eval.inFrame frame act) := by
  intro s hs
  have hact := h { s with scopes := frame } hframe
  rw [Eval.inFrame_run]
  exact ⟨hact.value, hs, hact.failure⟩

theorem bindName {v : Value} (x : String) (hv : v.Over C) (hspan : ∃ n, C n ∧ n.span = span) :
    Keeps C (fun _ => True) (Eval.bindName x v span) := by
  intro s hs
  rw [Eval.bindName_eq]
  cases h : s.scopes.bind x v with
  | ok scopes => exact ⟨fun _ _ => trivial, hs.bind hv h, fun e he => nomatch he⟩
  | error cause => exact throw (α := Unit) (e := .fault (.other cause.message) span) hspan s hs

theorem newIdentity (run : Run) : Keeps C (fun _ => True) (Eval.newIdentity run) :=
  fun _ hs => ⟨fun _ _ => trivial, hs, fun _ he => nomatch he⟩

theorem tick (run : Run) (hspan : ∃ n, C n ∧ n.span = span) :
    Keeps C (fun _ => True) (Eval.tick run span) := by
  intro s hs
  rw [Eval.tick_run]
  refine ⟨fun _ _ => trivial, hs, fun e he => ?_⟩
  cases hlimit : run.limitAt? (s.steps + 1) with
  | none =>
    rw [hlimit] at he
    cases he
  | some cause =>
    rw [hlimit] at he
    cases he
    exact hspan

/-- The scopes of a call. -/
theorem frame {names : List String} {values : List Value} {params : Scope Value}
    {kept : List (String × Value)} (hparams : Scope.ofEntries (names.zip values) = .ok params)
    (hkept : ∀ p ∈ kept, p.2.Over C) (hvalues : ∀ v ∈ values, v.Over C) :
    (Scopes.mk [params, Scope.ofSorted kept]).All (Value.Over C) := by
  have hfirst : params.All (Value.Over C) :=
    Scope.all_ofEntries hparams fun p hp => hvalues p.2 (List.of_mem_zip hp).2
  have hsecond : (Scope.ofSorted kept).All (Value.Over C) := Scope.all_ofSorted hkept
  intro scope hscope
  simp only [List.mem_cons, List.not_mem_nil, or_false] at hscope
  rcases hscope with rfl | rfl
  · exact hfirst
  · exact hsecond

section Evaluator

variable {ev : Node → Eval Value} (hev : ∀ n, n.Over C → Keeps C (Value.Over C) (ev n))
include hev

theorem body {nodes : List Node} (h : ∀ n ∈ nodes, n.Over C) {last : Value} (hlast : last.Over C) :
    Keeps C (Value.Over C) (Evaluation.body ev last nodes) := by
  induction nodes generalizing last with
  | nil => exact pure hlast
  | cons n nodes ih =>
    obtain ⟨hn, hnodes⟩ := List.forall_mem_cons.1 h
    exact (hev n hn).bind fun v hv => ih hnodes hv

theorem firstDeciding (decides : Value → Bool) {nodes : List Node} (h : ∀ n ∈ nodes, n.Over C)
    {last : Value} (hlast : last.Over C) :
    Keeps C (Value.Over C) (Evaluation.firstDeciding ev decides last nodes) := by
  induction nodes generalizing last with
  | nil => exact pure hlast
  | cons n nodes ih =>
    obtain ⟨hn, hnodes⟩ := List.forall_mem_cons.1 h
    refine (hev n hn).bind fun v hv => ?_
    split
    · exact pure hv
    · exact ih hnodes hv

theorem args {nodes : List Node} (h : ∀ n ∈ nodes, n.Over C) :
    Keeps C (fun vs => ∀ v ∈ vs, v.Over C) (Evaluation.args ev nodes) := by
  induction nodes with
  | nil => exact pure fun _ hv => nomatch hv
  | cons n nodes ih =>
    obtain ⟨hn, hnodes⟩ := List.forall_mem_cons.1 h
    refine (hev n hn).bind fun v hv => (ih hnodes).bind fun vs hvs => pure ?_
    exact List.forall_mem_cons.2 ⟨hv, hvs⟩

theorem bindAll {bindings : List (String × Node)} (h : ∀ p ∈ bindings, p.2.Over C)
    (hspan : ∃ n, C n ∧ n.span = span) :
    Keeps C (fun _ => True) (Evaluation.bindAll ev span bindings) := by
  induction bindings with
  | nil => exact pure trivial
  | cons p bindings ih =>
    obtain ⟨hp, hbindings⟩ := List.forall_mem_cons.1 h
    exact (hev p.2 hp).bind fun v hv => (bindName p.1 hv hspan).bind fun _ _ => ih hbindings

theorem letIn {bindings : List (String × Node)} {nodes : List Node}
    (hbindings : ∀ p ∈ bindings, p.2.Over C) (h : ∀ n ∈ nodes, n.Over C)
    (hspan : ∃ n, C n ∧ n.span = span) :
    Keeps C (Value.Over C) (Evaluation.bind ev bindings nodes span) := by
  unfold Evaluation.bind
  cases hscope : Scope.declare (α := Value) (bindings.map (·.1)) with
  | error e => exact throw hspan
  | ok scope =>
    refine inScope (Scope.all_declare hscope) ?_
    exact (bindAll hev hbindings hspan).bind fun _ _ => body hev h (.atom rfl)

theorem enter {l : Lambda} (hl : (Node.lambda l).Over C) {kept : List (String × Value)}
    (hkept : ∀ p ∈ kept, p.2.Over C) {values : List Value} (hvalues : ∀ v ∈ values, v.Over C)
    (hspan : ∃ n, C n ∧ n.span = span) :
    Keeps C (Value.Over C) (Evaluation.enter ev l kept values span) := by
  unfold Evaluation.enter
  cases hparams : Scope.ofEntries (l.params.zip values) with
  | error e => exact throw hspan
  | ok params =>
    exact inFrame (frame hparams hkept hvalues) (body hev (fun n hn => hl.part hn) (.atom rfl))

end Evaluator

variable {run : Run} (hrun : run.Over C)
include hrun

theorem captured (x : String) (hspan : ∃ n, C n ∧ n.span = span) :
    Keeps C (Value.Over C) (Evaluation.captured run x span) := by
  refine (lookup x).bind fun v hv => ?_
  cases v with
  | some v => exact pure (hv v rfl)
  | none =>
    cases hb : run.binding.get? x with
    | some v =>
      simp only
      exact pure (hrun.binding x v hb)
    | none => exact throw hspan

theorem capturedAll (names : List String) (hspan : ∃ n, C n ∧ n.span = span) :
    Keeps C (fun kept => ∀ p ∈ kept, p.2.Over C) (Evaluation.capturedAll run span names) := by
  induction names with
  | nil => exact pure fun _ hp => nomatch hp
  | cons x names ih =>
    exact (captured hrun x hspan).bind fun v hv => ih.bind fun kept hkept =>
      pure (List.forall_mem_cons.2 ⟨hv, hkept⟩)

theorem closure {l : Lambda} (hl : (Node.lambda l).Over C) :
    Keeps C (Value.Over C) (Evaluation.closure run l) := by
  refine (capturedAll hrun l.captures ⟨_, hl.self, rfl⟩).bind fun kept hkept => ?_
  refine (newIdentity run).bind fun id _ => pure ?_
  exact .closure hl.code hl.constants fun p hp => hkept p ((sortBy_perm _ _).mem_iff.1 hp)

variable {ev : Node → Eval Value} (hev : ∀ n, n.Over C → Keeps C (Value.Over C) (ev n))
include hev

theorem apply {callee : Value} (hcallee : callee.Over C) {values : List Value}
    (hvalues : ∀ v ∈ values, v.Over C) (hspan : ∃ n, C n ∧ n.span = span) :
    Keeps C (Value.Over C) (Evaluation.apply run ev callee values span) := by
  unfold Evaluation.apply
  split
  · split
    · split
      · exact ofFault hspan fun v hv => hrun.invoke _ values v hvalues hv
      · exact enter hev hcallee.code hcallee.kept hvalues hspan
    · exact throw hspan
  · exact throw hspan

theorem dispatch {n : Node} (h : n.Over C) :
    Keeps C (Value.Over C) (Evaluation.dispatch run ev n) := by
  have hspan : ∃ m, C m ∧ m.span = n.span := ⟨n, h.self, rfl⟩
  cases n with
  | constant v span => exact pure (h.constants v .self)
  | localName x span =>
    refine (lookup x).bind fun v hv => ?_
    cases v with
    | some v => exact pure (hv v rfl)
    | none => exact throw hspan
  | freeName x span =>
    simp only [Evaluation.dispatch]
    cases hb : run.binding.get? x with
    | some v => exact pure (hrun.binding x v hb)
    | none => exact throw hspan
  | list nodes span =>
    exact (args hev fun m hm => h.part hm).bind fun vs hvs => pure (.list hvs)
  | branch cond yes no span =>
    refine (hev cond (h.part (by simp [Node.parts]))).bind fun c _ => ?_
    split
    · exact hev yes (h.part (by simp [Node.parts]))
    · cases no with
      | none => exact pure (.atom rfl)
      | some no => exact hev no (h.part (by simp [Node.parts]))
  | block nodes span => exact body hev (fun m hm => h.part hm) (.atom rfl)
  | bind bindings nodes span =>
    refine letIn hev (fun p hp => h.part ?_) (fun m hm => h.part ?_) hspan
    · exact List.mem_append_left _ (List.mem_map_of_mem hp)
    · exact List.mem_append_right _ hm
  | lambda l => exact closure hrun h
  | allOf nodes span => exact firstDeciding hev _ (fun m hm => h.part hm) (.atom rfl)
  | anyOf nodes span => exact firstDeciding hev _ (fun m hm => h.part hm) (.atom rfl)
  | nativeCall f nodes span =>
    exact (args hev fun m hm => h.part hm).bind fun vs hvs =>
      ofFault hspan fun v hv => hrun.invoke f vs v hvs hv
  | call callee nodes span =>
    refine (hev callee (h.part List.mem_cons_self)).bind fun f hf => ?_
    refine (args hev fun m hm => h.part (List.mem_cons_of_mem _ hm)).bind fun vs hvs => ?_
    exact apply hrun hev hf hvs hspan

omit hev

/-- Evaluating such a node ends with such a value or fails at such a node. -/
theorem eval (room : Nat) {n : Node} (h : n.Over C) :
    Keeps C (Value.Over C) (Evaluation.eval run room n) := by
  induction room generalizing n with
  | zero => exact throw ⟨n, h.self, rfl⟩
  | succ room ih =>
    exact (tick run ⟨n, h.self, rfl⟩).bind fun _ _ => dispatch hrun (fun _ hm => ih hm) h

end Keeps

namespace Request

variable {ev : Node → Eval Value} (hev : ∀ n, n.Over C → Keeps C (Value.Over C) (ev n))

theorem over_after {α : Type} {Q : α → Prop} {x : Except Failure α × RunState}
    {next : α → RunState → List Request} (hx : Confined C Q x)
    (hnext : ∀ a t, Q a → t.scopes.All (Value.Over C) → ∀ r ∈ next a t, r.Over C) :
    ∀ r ∈ after x next, r.Over C := by
  intro r hr
  rcases x with ⟨_ | a, t⟩
  · cases hr
  · exact hnext a t (hx.value a rfl) hx.scopes r hr

include hev

theorem over_ofNodes (decides : Value → Bool) {nodes : List Node} (h : ∀ n ∈ nodes, n.Over C)
    {s : RunState} (hs : s.scopes.All (Value.Over C)) :
    ∀ r ∈ ofNodes ev decides nodes s, r.Over C := by
  induction nodes generalizing s with
  | nil =>
    intro r hr
    cases hr
  | cons n nodes ih =>
    obtain ⟨hn, hnodes⟩ := List.forall_mem_cons.1 h
    refine List.forall_mem_cons.2 ⟨⟨hn, hs⟩, over_after (hev n hn s hs) fun v t _ ht => ?_⟩
    split
    · intro r hr
      cases hr
    · exact ih hnodes ht

theorem over_ofAll {nodes : List Node} (h : ∀ n ∈ nodes, n.Over C) {s : RunState}
    (hs : s.scopes.All (Value.Over C)) : ∀ r ∈ ofAll ev nodes s, r.Over C :=
  over_ofNodes hev _ h hs

theorem over_ofBindings {span : Span} (hspan : ∃ n, C n ∧ n.span = span)
    {bindings : List (String × Node)} (h : ∀ p ∈ bindings, p.2.Over C) {s : RunState}
    (hs : s.scopes.All (Value.Over C)) : ∀ r ∈ ofBindings ev span bindings s, r.Over C := by
  induction bindings generalizing s with
  | nil =>
    intro r hr
    cases hr
  | cons p bindings ih =>
    obtain ⟨hp, hbindings⟩ := List.forall_mem_cons.1 h
    refine List.forall_mem_cons.2 ⟨⟨hp, hs⟩, over_after (hev p.2 hp s hs) fun v t hv ht => ?_⟩
    exact over_after (Keeps.bindName p.1 hv hspan t ht) fun _ u _ hu => ih hbindings hu

theorem over_ofBind {span : Span} (hspan : ∃ n, C n ∧ n.span = span)
    {bindings : List (String × Node)} {nodes : List Node} (hbindings : ∀ p ∈ bindings, p.2.Over C)
    (h : ∀ n ∈ nodes, n.Over C) {s : RunState} (hs : s.scopes.All (Value.Over C)) :
    ∀ r ∈ ofBind ev bindings nodes span s, r.Over C := by
  unfold ofBind
  cases hscope : Scope.declare (α := Value) (bindings.map (·.1)) with
  | error e =>
    intro r hr
    cases hr
  | ok scope =>
    have hpush := hs.push (Scope.all_declare hscope)
    refine List.forall_mem_append.2 ⟨over_ofBindings hev hspan hbindings hpush, ?_⟩
    exact over_after (Keeps.bindAll hev hbindings hspan _ hpush) fun _ u _ hu =>
      over_ofAll hev h hu

theorem over_ofApply {callee : Value} (hcallee : callee.Over C) {values : List Value}
    (hvalues : ∀ v ∈ values, v.Over C) {s : RunState} :
    ∀ r ∈ ofApply ev callee values s, r.Over C := by
  unfold ofApply
  split
  · next l kept =>
    split
    · unfold ofEnter
      cases hparams : Scope.ofEntries (l.params.zip values) with
      | error e =>
        intro r hr
        cases hr
      | ok params =>
        exact over_ofAll hev (fun n hn => hcallee.code.part hn)
          (Keeps.frame hparams hcallee.kept hvalues)
    · intro r hr
      cases hr
  · intro r hr
    cases hr

/-- What such a node asks for is of the same kind. -/
theorem over_ofNode {n : Node} (h : n.Over C) {s : RunState} (hs : s.scopes.All (Value.Over C)) :
    ∀ r ∈ ofNode ev n s, r.Over C := by
  cases n with
  | constant | localName | freeName | lambda =>
    intro r hr
    cases hr
  | list nodes span | block nodes span | nativeCall f nodes span =>
    exact over_ofAll hev (fun m hm => h.part hm) hs
  | branch cond yes no span =>
    have hcond : cond.Over C := h.part (by simp [Node.parts])
    refine List.forall_mem_cons.2 ⟨⟨hcond, hs⟩, over_after (hev cond hcond s hs) fun c t _ ht => ?_⟩
    split
    · exact List.forall_mem_singleton.2 ⟨h.part (by simp [Node.parts]), ht⟩
    · cases no with
      | none =>
        intro r hr
        cases hr
      | some no => exact List.forall_mem_singleton.2 ⟨h.part (by simp [Node.parts]), ht⟩
  | bind bindings nodes span =>
    refine over_ofBind hev ⟨_, h.self, rfl⟩ (fun p hp => h.part ?_) (fun m hm => h.part ?_) hs
    · exact List.mem_append_left _ (List.mem_map_of_mem hp)
    · exact List.mem_append_right _ hm
  | allOf nodes span => exact over_ofNodes hev _ (fun m hm => h.part hm) hs
  | anyOf nodes span => exact over_ofNodes hev _ (fun m hm => h.part hm) hs
  | call callee nodes span =>
    have hcallee : callee.Over C := h.part List.mem_cons_self
    have hnodes : ∀ m ∈ nodes, m.Over C := fun m hm => h.part (List.mem_cons_of_mem _ hm)
    refine List.forall_mem_cons.2
      ⟨⟨hcallee, hs⟩, over_after (hev callee hcallee s hs) fun f t hf ht => ?_⟩
    refine List.forall_mem_append.2 ⟨over_ofAll hev hnodes ht, ?_⟩
    exact over_after (Keeps.args hev hnodes t ht) fun values u hvalues _ =>
      over_ofApply hev hf hvalues

end Request

theorem Binding.mem_of_ofEntries {entries : List (String × Value)} {b : Binding}
    (h : Binding.ofEntries entries = .ok b) {x : String} {v : Value} (hv : b.get? x = some v) :
    (x, v) ∈ entries := by
  rw [Binding.ofEntries] at h
  split at h
  · cases h
    exact (sortBy_perm _ _).mem_iff.1 (mem_of_lookup hv)
  · cases h

/-- The node stands in a script that some engine has compiled from one of the sources. -/
def Node.CompiledFrom (sources : Set String) (n : Node) : Prop :=
  ∃ (e : Engine) (serial : Nat) (name source : String) (a : Artifact),
    source ∈ sources ∧ e.compile serial name source = .ok a ∧ n.Within a.body

section Compiled

variable {e : Engine} {serial : Nat} {name source : String} {a : Artifact} {sources : Set String}

/-- The body of a script, where the closures among the globals have such code as well. -/
theorem Engine.over_body (hcompile : e.compile serial name source = .ok a)
    (hcode : ∀ m, m.Within a.body → C m)
    (hglobals : ∀ x v, e.environment.get? x = some v → v.Over C) : a.body.Over C := by
  obtain ⟨script, nodes, uses, -, -, ha⟩ := Engine.compile_ok hcompile
  refine ⟨hcode, fun v hv => ?_⟩
  rcases ha.mentions v hv with ⟨f, rfl⟩ | ⟨x, hx⟩
  · exact .quoted f
  · exact hglobals x v hx

theorem Engine.body_over (hcompile : e.compile serial name source = .ok a)
    (hsource : source ∈ sources)
    (hglobals : ∀ x v, e.environment.get? x = some v → v.Over (Node.CompiledFrom sources)) :
    a.body.Over (Node.CompiledFrom sources) :=
  Engine.over_body hcompile
    (fun _ hm => ⟨e, serial, name, source, a, hsource, hcompile, hm⟩) hglobals

variable {host : Host} {number : Nat} {limits : Limits} {b : Binding}

theorem Artifact.run_over (hhost : host.Keeps (Value.Over C))
    (hbinding : ∀ x v, b.get? x = some v → v.Over C) :
    (Artifact.run host number limits b).Over C :=
  ⟨hbinding, Native.run_over hhost⟩

theorem RunState.start_all {P : Value → Prop} : RunState.start.scopes.All P := by
  intro scope hscope
  cases hscope

/-- What an evaluation comes to is confined to the code that it is given. -/
theorem Artifact.confined (hbody : a.body.Over C) (hhost : host.Keeps (Value.Over C))
    (hbinding : ∀ x v, b.get? x = some v → v.Over C) :
    Confined C (Value.Over C)
      (Evaluation.eval (Artifact.run host number limits b) limits.depth a.body .start) :=
  Keeps.eval (Artifact.run_over hhost hbinding) _ hbody _ RunState.start_all

/-- A value that an evaluation returns can be handed to the next one. -/
theorem Artifact.evaluate_over (hbody : a.body.Over C) (hhost : host.Keeps (Value.Over C))
    (hbinding : ∀ x v, b.get? x = some v → v.Over C) {v : Value}
    (h : a.evaluate host number limits b = .ok v) : v.Over C := by
  have hconfined : Confined C (Value.Over C)
      (Evaluation.eval (Artifact.run host number limits b) limits.depth a.body .start) :=
    Artifact.confined hbody hhost hbinding
  rw [Artifact.evaluate] at h
  split at h
  · cases h
  · split at h
    · next hvalue =>
      cases h
      exact hconfined.value _ hvalue
    · cases h

end Compiled

end Scriptlet
