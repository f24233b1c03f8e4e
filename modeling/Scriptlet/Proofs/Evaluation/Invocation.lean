import Mathlib.Data.Set.Basic
import Scriptlet.Proofs.Evaluation.Code
import Scriptlet.Proofs.Evaluation.Limits
import Scriptlet.Proofs.Library.Fault
import Scriptlet.Proofs.Resolution.Origin

/-!
The native functions that an evaluation runs. They are run without counting the arguments: a call
that was compiled to run one has been counted when it was compiled, and any other call is counted
when it is made. So every function is given a number of arguments that it takes, and counting once
more would change nothing.
-/

namespace Scriptlet

/-- A native function that is run, and the arguments that it is given. -/
structure Invocation where
  native : Native
  args : List Value

namespace Invocation

/-- What is run after a computation, if that gives a value. -/
def after {α : Type} (x : Except Failure α × RunState) (next : α → RunState → List Invocation) :
    List Invocation :=
  match x with
  | (.ok a, t) => next a t
  | (.error _, _) => []

theorem mem_after {α : Type} {x : Except Failure α × RunState}
    {next : α → RunState → List Invocation} {i : Invocation} :
    i ∈ after x next ↔ ∃ a t, x = (.ok a, t) ∧ i ∈ next a t := by
  rcases x with ⟨_ | a, t⟩
  · simp [after]
  · constructor
    · intro hi
      exact ⟨a, t, rfl, hi⟩
    · rintro ⟨_, _, hx, hi⟩
      cases hx
      exact hi

/-- What is run when a computed value is called. -/
def ofCallee (callee : Value) (values : List Value) : List Invocation :=
  match callee with
  | .function (.native f) => if f.arity.accepts values.length then [⟨f, values⟩] else []
  | _ => []

theorem mem_ofCallee {callee : Value} {values : List Value} {i : Invocation} :
    i ∈ ofCallee callee values ↔
      callee = .function (.native i.native) ∧ values = i.args ∧
        i.native.arity.accepts i.args.length = true := by
  unfold ofCallee
  split
  · next f =>
    obtain ⟨native, args⟩ := i
    by_cases hcount : f.arity.accepts values.length = true
    · rw [if_pos hcount, List.mem_singleton]
      constructor
      · intro hi
        cases hi
        exact ⟨rfl, rfl, hcount⟩
      · rintro ⟨hf, rfl, -⟩
        cases hf
        rfl
    · rw [if_neg hcount]
      constructor
      · intro hi
        cases hi
      · rintro ⟨hf, rfl, hnative⟩
        cases hf
        exact absurd hnative hcount
  · next hnot =>
    constructor
    · intro hi
      cases hi
    · rintro ⟨rfl, -⟩
      exact absurd rfl (hnot i.native)

/-- What a node runs itself, once its parts have been evaluated. -/
def ofNode (ev : Node → Eval Value) : Node → RunState → List Invocation
  | .nativeCall f nodes _, s => after (Evaluation.args ev nodes s) fun values _ => [⟨f, values⟩]
  | .call callee nodes _, s =>
    after (ev callee s) fun f t =>
      after (Evaluation.args ev nodes t) fun values _ => ofCallee f values
  | _, _ => []

variable {ev : Node → Eval Value} {nodes : List Node} {span : Span} {s : RunState} {i : Invocation}

theorem mem_ofNode_nativeCall {f : Native} :
    i ∈ ofNode ev (.nativeCall f nodes span) s ↔
      i.native = f ∧ ∃ t, Evaluation.args ev nodes s = (.ok i.args, t) := by
  obtain ⟨native, args⟩ := i
  simp only [ofNode, mem_after, List.mem_singleton, mk.injEq]
  constructor
  · rintro ⟨values, t, hx, rfl, rfl⟩
    exact ⟨rfl, t, hx⟩
  · rintro ⟨rfl, t, hx⟩
    exact ⟨args, t, hx, rfl, rfl⟩

theorem mem_ofNode_call {callee : Node} :
    i ∈ ofNode ev (.call callee nodes span) s ↔
      i.native.arity.accepts i.args.length = true ∧
        ∃ t u, ev callee s = (.ok (.function (.native i.native)), t) ∧
          Evaluation.args ev nodes t = (.ok i.args, u) := by
  simp only [ofNode, mem_after, mem_ofCallee]
  constructor
  · rintro ⟨f, t, hf, values, u, hvalues, rfl, rfl, hcount⟩
    exact ⟨hcount, t, u, hf, hvalues⟩
  · rintro ⟨hcount, t, u, hf, hvalues⟩
    exact ⟨_, t, hf, _, u, hvalues, rfl, rfl, hcount⟩

end Invocation

/-- The function performs the operation of the standard library, with the operation's arity. -/
def Native.Performs (f : Native) (op : Builtin) : Prop :=
  f.action = .builtin op ∧ f.arity = op.arity

/-- The operation that the function performs, if it does. -/
def Native.operation? (f : Native) : Option Builtin :=
  match f.action with
  | .builtin op => if f.arity = op.arity then some op else none
  | .host _ => none

theorem Native.performs_of_operation? {f : Native} {op : Builtin} (h : f.operation? = some op) :
    f.Performs op := by
  unfold Native.operation? at h
  split at h
  · next haction =>
    split at h
    · next harity =>
      cases h
      exact ⟨haction, harity⟩
    · cases h
  · cases h

/-- Every function of the standard library performs an operation. -/
theorem Native.performs_of_standard {x : String} {f : Native}
    (hf : Environment.standard.get? x = some (.function (.native f))) : ∃ op, f.Performs op := by
  have hall : ∀ g ∈ Environment.standard.globals,
      (match g.value with
        | .function (.native f) => f.operation?.isSome
        | _ => true) = true := by
    decide +kernel
  obtain ⟨g, hg, -, hvalue⟩ := Environment.get?_eq_some_iff.1 hf
  have hsome := hall g hg
  rw [hvalue] at hsome
  obtain ⟨op, hop⟩ := Option.isSome_iff_exists.1 hsome
  exact ⟨op, performs_of_operation? hop⟩

namespace Evaluation

/-- The functions that are run when a node is evaluated, in order. -/
def invocations (run : Run) : Nat → Node → RunState → List Invocation
  | 0, _, _ => []
  | room + 1, n, s =>
    match run.limitAt? (s.steps + 1) with
    | some _ => []
    | none =>
      let t := { s with steps := s.steps + 1 }
      ((Request.ofNode (eval run room) n t).flatMap fun r => invocations run room r.node r.state) ++
        Invocation.ofNode (eval run room) n t

section Completeness

variable {run : Run} {invoke : Native → List Value → Except Fault Value} {ev : Node → Eval Value}

theorem captured_reinvoking (x : String) (span : Span) :
    captured { run with invoke } x span = captured run x span := rfl

theorem capturedAll_reinvoking (span : Span) (names : List String) :
    capturedAll { run with invoke } span names = capturedAll run span names := by
  induction names with
  | nil => rfl
  | cons x names ih => rw [capturedAll, capturedAll, captured_reinvoking, ih]

/-- A node runs nothing but its invocations. -/
theorem dispatch_reinvoking {n : Node} {s : RunState}
    (h : ∀ i ∈ Invocation.ofNode ev n s, invoke i.native i.args = run.invoke i.native i.args) :
    dispatch { run with invoke } ev n s = dispatch run ev n s := by
  cases n with
  | lambda l =>
    change closure { run with invoke } l s = closure run l s
    rw [closure, closure, capturedAll_reinvoking]
    rfl
  | nativeCall f nodes span =>
    simp only [dispatch, bind_run]
    rcases hx : args ev nodes s with ⟨e | values, t⟩
    · rfl
    · have hsame : invoke f values = run.invoke f values :=
        h ⟨f, values⟩ (Invocation.mem_ofNode_nativeCall.2 ⟨rfl, t, hx⟩)
      simp only [hsame]
  | call callee nodes span =>
    simp only [dispatch, bind_run]
    rcases hx : ev callee s with ⟨e | f, t⟩
    · rfl
    · simp only
      rcases hy : args ev nodes t with ⟨e | values, u⟩
      · rfl
      · simp only [apply]
        split
        · split
          · next hcount =>
            split
            · next f =>
              have hsame : invoke f values = run.invoke f values :=
                h ⟨f, values⟩ (Invocation.mem_ofNode_call.2 ⟨hcount, t, u, hx, hy⟩)
              rw [hsame]
            · rfl
          · rfl
        · rfl
  | _ => rfl

/-- Nothing else is run: however other functions behave, the evaluation is the same. -/
theorem eval_reinvoking {room : Nat} {n : Node} {s : RunState}
    (h : ∀ i ∈ invocations run room n s, invoke i.native i.args = run.invoke i.native i.args) :
    eval { run with invoke } room n s = eval run room n s := by
  induction room generalizing n s with
  | zero => rfl
  | succ room ih =>
    rw [invocations] at h
    rw [eval_succ, eval_succ]
    change (match run.limitAt? (s.steps + 1) with | some _ => _ | none => _) = _
    cases hlimit : run.limitAt? (s.steps + 1) with
    | some cause => rfl
    | none =>
      simp only [hlimit] at h
      obtain ⟨hparts, hown⟩ := List.forall_mem_append.1 h
      have hasks : Asks invoke (eval run room) (fun ev => dispatch { run with invoke } ev n)
          { s with steps := s.steps + 1 }
          (Request.ofNode (eval run room) n { s with steps := s.steps + 1 }) :=
        @Asks.dispatch _ _ { run with invoke } n
      have hsame := hasks.congr (eval { run with invoke } room) fun r hr =>
        ih fun i hi => hparts i (List.mem_flatMap.2 ⟨r, hr, hi⟩)
      exact hsame.trans (dispatch_reinvoking hown)

end Completeness

section Counted

variable {C : Node → Prop} {run : Run} {n : Node} {s : RunState}

/-- A node gives functions as many arguments as they take, if those that it has been compiled to
run take as many as it has. -/
theorem accepts_ofNode {ev : Node → Eval Value}
    (hcalls : ∀ f nodes span, C (.nativeCall f nodes span) → f.arity.accepts nodes.length = true)
    (h : n.Over C) :
    ∀ i ∈ Invocation.ofNode ev n s, i.native.arity.accepts i.args.length = true := by
  intro i hi
  cases n with
  | nativeCall f nodes span =>
    obtain ⟨hf, t, hx⟩ := Invocation.mem_ofNode_nativeCall.1 hi
    rw [hf, length_args hx]
    exact hcalls f nodes span h.self
  | call callee nodes span => exact (Invocation.mem_ofNode_call.1 hi).1
  | _ => cases hi

variable (hrun : run.Over C)
include hrun

theorem accepts_of_mem_invocations
    (hcalls : ∀ f nodes span, C (.nativeCall f nodes span) → f.arity.accepts nodes.length = true)
    {room : Nat} (h : n.Over C) (hs : s.scopes.All (Value.Over C)) :
    ∀ i ∈ invocations run room n s, i.native.arity.accepts i.args.length = true := by
  induction room generalizing n s with
  | zero =>
    intro i hi
    cases hi
  | succ room ih =>
    rw [invocations]
    cases run.limitAt? (s.steps + 1) with
    | some cause =>
      intro i hi
      cases hi
    | none =>
      have hev : ∀ m, m.Over C → Keeps C (Value.Over C) (eval run room m) :=
        fun m hm => Keeps.eval hrun room hm
      refine List.forall_mem_append.2 ⟨fun i hi => ?_, accepts_ofNode hcalls h⟩
      obtain ⟨r, hr, hmem⟩ := List.mem_flatMap.1 hi
      have hover := Request.over_ofNode hev h (s := { s with steps := s.steps + 1 }) hs r hr
      exact ih hover.node hover.scopes i hmem

/-- Every node that is dispatched is in the code that the evaluation has been given. -/
theorem over_of_mem_history {room depth : Nat} (h : n.Over C) (hs : s.scopes.All (Value.Over C))
    {m : Node} {at' : Nat} (hm : .dispatched m at' ∈ history run room depth n s) : m.Over C := by
  induction room generalizing n s depth with
  | zero => cases List.mem_singleton.1 hm
  | succ room ih =>
    rw [history] at hm
    cases hlimit : run.limitAt? (s.steps + 1) with
    | some cause =>
      rw [hlimit] at hm
      cases List.mem_singleton.1 hm
    | none =>
      simp only [hlimit, List.mem_cons, Event.dispatched.injEq, List.mem_flatMap] at hm
      rcases hm with ⟨rfl, -⟩ | ⟨r, hr, hmem⟩
      · exact h
      · have hev : ∀ k, k.Over C → Keeps C (Value.Over C) (eval run room k) :=
          fun k hk => Keeps.eval hrun room hk
        have hover := Request.over_ofNode hev h (s := { s with steps := s.steps + 1 }) hs r hr
        exact ih hover.node hover.scopes hmem

end Counted

end Evaluation

/-- A call that was compiled to run an operation of the standard library at once never complains of
the number of its arguments: it fails because of them, or as one of them has failed. -/
theorem Evaluation.dispatch_performs {run : Run} {host : Host} (hrun : run.invoke = Native.run host)
    {f : Native} {op : Builtin} (hop : f.Performs op) {nodes : List Node}
    (hcount : f.arity.accepts nodes.length = true) {ev : Node → Eval Value} {span : Span}
    {s : RunState} {e : Failure} (he : (dispatch run ev (.nativeCall f nodes span) s).1 = .error e) :
    (args ev nodes s).1 = .error e ∨ ∃ cause, e = .fault cause span ∧ cause.ofArguments = true := by
  simp only [dispatch, bind_run] at he
  rcases hx : args ev nodes s with ⟨e' | values, t⟩
  · left
    rw [hx] at he
    cases he
    rfl
  · right
    have hground : Library.Grounded (op.run values) := by
      apply Builtin.run_grounded
      rw [length_args hx, ← hop.2]
      exact hcount
    have hanswer : run.invoke f values = op.run values := by
      rw [hrun, Native.run, hop.1]
    simp only [hx, hanswer] at he
    cases hresult : op.run values with
    | ok v =>
      rw [hresult] at he
      cases he
    | error cause =>
      rw [hresult] at he
      cases he
      exact ⟨cause, rfl, hground cause hresult⟩

namespace Artifact

variable (host : Host) (number : Nat) (limits : Limits) (a : Artifact) (b : Binding)

/-- The native functions that an evaluation runs, in order. -/
def invocations : List Invocation :=
  match a.missing? b with
  | some _ => []
  | none => Evaluation.invocations (run host number limits b) limits.depth a.body .start

/-- The evaluation, where native functions are run in another way. -/
def evaluateInvoking (invoke : Native → List Value → Except Fault Value) : Except RunError Value :=
  match a.missing? b with
  | some v => .error ⟨a.name, .unbound v.name v.span⟩
  | none =>
    let r := { run host number limits b with invoke }
    (Evaluation.eval r limits.depth a.body .start).1.mapError fun failure => ⟨a.name, failure⟩

variable {host number limits a b}

/-- The invocations are all that an evaluation takes from native functions. -/
theorem evaluateInvoking_congr {invoke : Native → List Value → Except Fault Value}
    (h : ∀ i ∈ a.invocations host number limits b,
      invoke i.native i.args = i.native.run host i.args) :
    a.evaluateInvoking host number limits b invoke = a.evaluate host number limits b := by
  cases hmissing : a.missing? b with
  | some v =>
    rw [evaluate_of_missing hmissing, evaluateInvoking, hmissing]
  | none =>
    rw [invocations, hmissing] at h
    rw [evaluate_of_supplied hmissing, evaluateInvoking, hmissing, ← Evaluation.eval_reinvoking h]

end Artifact

theorem Node.CompiledFrom.accepts {sources : Set String} {f : Native} {nodes : List Node}
    {span : Span} (h : (Node.nativeCall f nodes span).CompiledFrom sources) :
    f.arity.accepts nodes.length = true := by
  obtain ⟨e, serial, name, source, a, -, hcompile, hwithin⟩ := h
  obtain ⟨script, forms, uses, -, -, ha⟩ := Engine.compile_ok hcompile
  rcases ha.within hwithin with ⟨_, _, _, _, hstands⟩ | hbody
  · exact hstands.accepts
  · cases hbody

/-- An evaluation gives every native function that it runs a number of arguments that the function
takes, so that counting them changes nothing. The functions are those of the script, and those that
come in with the globals, the binding or the host, as long as the closures there have been compiled.
An operation of the standard library then fails because of its arguments only and never runs out of
them, and a call that was compiled to run it at once never complains of their number. -/
theorem Artifact.invocations_accepted {e : Engine} {serial : Nat} {name source : String}
    {a : Artifact} (hcompile : e.compile serial name source = .ok a) {host : Host}
    (hhost : host.Keeps (Value.Over (Node.CompiledFrom Set.univ)))
    (hglobals : ∀ x v, e.environment.get? x = some v → v.Over (Node.CompiledFrom Set.univ))
    {b : Binding} (hbinding : ∀ x v, b.get? x = some v → v.Over (Node.CompiledFrom Set.univ))
    (number : Nat) (limits : Limits) :
    (∀ i ∈ a.invocations host number limits b, i.native.arity.accepts i.args.length = true) ∧
    (∀ invoke, (∀ i ∈ a.invocations host number limits b,
        invoke i.native i.args = i.native.run host i.args) →
      a.evaluateInvoking host number limits b invoke = a.evaluate host number limits b) ∧
    a.evaluateInvoking host number limits b (Native.call host) =
      a.evaluate host number limits b ∧
    (∀ i ∈ a.invocations host number limits b, ∀ op, i.native.Performs op →
      ∀ cause, i.native.run host i.args = .error cause → cause.ofArguments = true) ∧
    (∀ f nodes span depth,
      .dispatched (.nativeCall f nodes span) depth ∈ a.history host number limits b →
        f.arity.accepts nodes.length = true ∧
        ∀ op, f.Performs op → ∀ room s function expected found place,
          (Evaluation.dispatch (run host number limits b)
            (Evaluation.eval (run host number limits b) room) (.nativeCall f nodes span) s).1 =
              .error (.fault (.wrongCount function expected found) place) →
          (Evaluation.args (Evaluation.eval (run host number limits b) room) nodes s).1 =
              .error (.fault (.wrongCount function expected found) place)) ∧
    ∀ x f, Environment.standard.get? x = some (.function (.native f)) → ∃ op, f.Performs op := by
  have hbody := Engine.body_over hcompile (Set.mem_univ source) hglobals
  have hrun : (run host number limits b).Over (Node.CompiledFrom Set.univ) :=
    run_over hhost hbinding
  have haccepted : ∀ i ∈ a.invocations host number limits b,
      i.native.arity.accepts i.args.length = true := by
    intro i hi
    rw [invocations] at hi
    split at hi
    · cases hi
    · exact Evaluation.accepts_of_mem_invocations hrun (fun _ _ _ h => h.accepts) hbody
        RunState.start_all i hi
  refine ⟨haccepted, fun invoke h => evaluateInvoking_congr h, ?_, ?_, ?_, ?_⟩
  · apply evaluateInvoking_congr
    intro i hi
    rw [Native.call, if_pos (haccepted i hi)]
  · intro i hi op hop cause hcause
    have hcount := haccepted i hi
    rw [hop.2] at hcount
    rw [Native.run, hop.1] at hcause
    exact Builtin.run_grounded hcount cause hcause
  · intro f nodes span depth hdispatched
    have hover : (Node.nativeCall f nodes span).Over (Node.CompiledFrom Set.univ) := by
      rw [history] at hdispatched
      split at hdispatched
      · cases hdispatched
      · exact Evaluation.over_of_mem_history hrun hbody RunState.start_all hdispatched
    have hcount := hover.self.accepts
    refine ⟨hcount, fun op hop room s function expected found place he => ?_⟩
    rcases Evaluation.dispatch_performs rfl hop hcount he with hargs | ⟨cause, hcause, hground⟩
    · exact hargs
    · cases hcause
      cases hground
  · intro x f hf
    exact Native.performs_of_standard hf

/-- A closure that an earlier evaluation has made and a native function come in through the binding,
and two operations are called directly. -/
theorem Artifact.invocations_accepted_closure :
    ∃ a₀ f a g b, Engine.standard.compile 0 "make" "(fn [x] (+ x 1))" = .ok a₀ ∧
      a₀.evaluate .bare 1 {} ∅ = .ok f ∧
      Engine.standard.compile 1 "apply" "(let [h f k g] (list (h 1) (k 2 3) (- 5)))" = .ok a ∧
      Engine.standard.environment.get? "max" = some g ∧
      Binding.ofEntries [("f", f), ("g", g)] = .ok b ∧
      (a.invocations .bare 2 {} b).map (fun i => (i.native.name, i.args.length)) =
        [("+", 2), ("max", 2), ("-", 1), ("list", 3)] ∧
      ∀ i ∈ a.invocations .bare 2 {} b, i.native.arity.accepts i.args.length = true := by
  have hfacts : ((Engine.standard.compile 0 "make" "(fn [x] (+ x 1))").toOption.bind fun a₀ =>
      (a₀.evaluate .bare 1 {} ∅).toOption.bind fun f =>
      (Engine.standard.compile 1 "apply"
        "(let [h f k g] (list (h 1) (k 2 3) (- 5)))").toOption.bind fun a =>
      (Engine.standard.environment.get? "max").bind fun g =>
      (Binding.ofEntries [("f", f), ("g", g)]).toOption.map fun b =>
        (a.invocations .bare 2 {} b).map fun i => (i.native.name, i.args.length)) =
      some [("+", 2), ("max", 2), ("-", 1), ("list", 3)] := by decide +kernel
  obtain ⟨a₀, hmake, hfacts⟩ := Option.bind_eq_some_iff.1 hfacts
  obtain ⟨f, hf, hfacts⟩ := Option.bind_eq_some_iff.1 hfacts
  obtain ⟨a, happly, hfacts⟩ := Option.bind_eq_some_iff.1 hfacts
  obtain ⟨g, hg, hfacts⟩ := Option.bind_eq_some_iff.1 hfacts
  obtain ⟨b, hb, hnames⟩ := Option.map_eq_some_iff.1 hfacts
  have hhost : Host.bare.Keeps (Value.Over (Node.CompiledFrom Set.univ)) := by
    intro handle args v _ hv
    cases hv
  have hglobals : ∀ x v, Engine.standard.environment.get? x = some v →
      v.Over (Node.CompiledFrom Set.univ) :=
    fun x v hv => .atom (Environment.isAtom_of_get? Engine.standard_atoms hv)
  have hmade : f.Over (Node.CompiledFrom Set.univ) := by
    refine evaluate_over ?_ hhost (fun x v hv => ?_) (eq_ok_of_toOption hf)
    · exact Engine.body_over (eq_ok_of_toOption hmake) (Set.mem_univ _) hglobals
    · cases hv
  have hbinding : ∀ x v, b.get? x = some v → v.Over (Node.CompiledFrom Set.univ) := by
    intro x v hv
    have hmem := Binding.mem_of_ofEntries (eq_ok_of_toOption hb) hv
    simp only [List.mem_cons, Prod.mk.injEq, List.not_mem_nil, or_false] at hmem
    rcases hmem with ⟨-, rfl⟩ | ⟨-, rfl⟩
    · exact hmade
    · exact hglobals _ _ hg
  have hall := invocations_accepted (eq_ok_of_toOption happly) hhost hglobals hbinding 2 {}
  exact ⟨a₀, f, a, g, b, eq_ok_of_toOption hmake, eq_ok_of_toOption hf, eq_ok_of_toOption happly, hg,
    eq_ok_of_toOption hb, hnames, hall.1⟩

end Scriptlet
