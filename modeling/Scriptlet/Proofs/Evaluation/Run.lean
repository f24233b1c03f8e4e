import Scriptlet.Evaluation.Basic

/-!
What the parts of a run do to its state: the result and the state that is left, for any state that
they start from.
-/

namespace Scriptlet

/-- A sequence goes on from the value and the state of its first part. -/
theorem bind_run {ε α β σ : Type} (x : ExceptT ε (StateM σ) α) (f : α → ExceptT ε (StateM σ) β)
    (s : σ) :
    (x >>= f) s =
      match x s with
      | (.ok a, t) => f a t
      | (.error e, t) => (.error e, t) := by
  change (ExceptT.bind x f) s = _
  simp only [ExceptT.bind, ExceptT.mk, Bind.bind, StateT.bind, ExceptT.bindCont]
  rcases x s with ⟨a | e, t⟩ <;> rfl

/-- The limit that is reached with a step, if one is. -/
def Run.limitAt? (run : Run) (steps : Nat) : Option Fault :=
  (run.limits.steps.bind fun limit =>
    if limit < steps then some (.tooManySteps limit) else none).or
  (run.limits.time.bind fun limit =>
    if steps % 256 = 0 ∧ limit.nanos < (run.elapsed steps).nanos then
      some (.tooLong (run.elapsed steps) limit)
    else none)

theorem Run.isResource_limitAt? {run : Run} {steps : Nat} {cause : Fault}
    (h : run.limitAt? steps = some cause) : cause.isResource := by
  rcases Option.or_eq_some_iff.1 h with h | ⟨_, h⟩
  · obtain ⟨limit, _, h⟩ := Option.bind_eq_some_iff.1 h
    split at h <;> cases h
    rfl
  · obtain ⟨limit, _, h⟩ := Option.bind_eq_some_iff.1 h
    split at h <;> cases h
    rfl

theorem Eval.tick_run (run : Run) (span : Span) (s : RunState) :
    Eval.tick run span s =
      (match run.limitAt? (s.steps + 1) with
        | some cause => .error (.fault cause span)
        | none => .ok (), { s with steps := s.steps + 1 }) := by
  obtain ⟨number, binding, ⟨depth, steps, time⟩, elapsed, invoke⟩ := run
  have h : ∀ (f : RunState → Eval Unit), ((get : Eval RunState) >>= f) s = f s s := fun f => by
    rw [bind_run]; rfl
  have h' : ∀ t (f : Unit → Eval Unit) s, ((set t : Eval Unit) >>= f) s = f () t := fun t f s => by
    rw [bind_run]; rfl
  rw [Eval.tick, h, h']
  cases steps with
  | none =>
    cases time with
    | none => rfl
    | some limit =>
      simp only [Run.limitAt?, Option.bind_none, Option.bind_some, Option.none_or]
      split <;> rfl
  | some n =>
    simp only [Run.limitAt?, Option.bind_some]
    by_cases hn : n < s.steps + 1
    · simp only [hn, if_true]
      rfl
    · simp only [hn, if_false, Option.none_or]
      cases time with
      | none => rfl
      | some limit =>
        simp only [Option.bind_some]
        change (if _ then _ else _ : Eval Unit) _ = _
        split <;> rfl

theorem Eval.lookup_run (name : String) (s : RunState) :
    Eval.lookup name s = (.ok (s.scopes.lookup name), s) := rfl

theorem Eval.newIdentity_run (run : Run) (s : RunState) :
    Eval.newIdentity run s = (.ok ⟨run.number, s.made⟩, { s with made := s.made + 1 }) := rfl

theorem Eval.inFrame_run {α : Type} (frame : Scopes Value) (act : Eval α) (s : RunState) :
    Eval.inFrame frame act s =
      ((act { s with scopes := frame }).1,
        { (act { s with scopes := frame }).2 with scopes := s.scopes }) := rfl

/-- The state after the innermost scope is taken away. -/
def RunState.popped (s : RunState) : RunState :=
  match s.scopes.pop with
  | .ok scopes => { s with scopes }
  | .error _ => s

theorem Eval.inScope_run {α : Type} (scope : Scope Value) (act : Eval α) (s : RunState) :
    Eval.inScope scope act s =
      ((act { s with scopes := s.scopes.push scope }).1,
        (act { s with scopes := s.scopes.push scope }).2.popped) := by
  rcases h : act { s with scopes := s.scopes.push scope } with ⟨result, t⟩
  simp only [Eval.inScope, RunState.popped, h]
  cases t.scopes.pop <;> rfl

theorem Eval.bindName_eq (name : String) (v : Value) (span : Span) (s : RunState) :
    Eval.bindName name v span s =
      match s.scopes.bind name v with
      | .ok scopes => (.ok (), { s with scopes })
      | .error e => (.error (.fault (.other e.message) span), s) := by
  rw [Eval.bindName, bind_run]
  change (match s.scopes.bind name v with
    | .ok scopes => set { s with scopes }
    | .error e => Eval.fault (.other e.message) span : Eval Unit) s = _
  cases s.scopes.bind name v <;> rfl

theorem Eval.bindName_run {name : String} {v : Value} {s : RunState} {scopes : Scopes Value}
    (span : Span) (h : s.scopes.bind name v = .ok scopes) :
    Eval.bindName name v span s = (.ok (), { s with scopes }) := by
  rw [Eval.bindName_eq, h]

/-- A capture is looked up in the scopes first, and then in the binding. -/
theorem Evaluation.captured_run (run : Run) (x : String) (span : Span) (s : RunState) :
    Evaluation.captured run x span s =
      (match (s.scopes.lookup x).or (run.binding.get? x) with
        | some v => .ok v
        | none => .error (.unbound x span), s) := by
  rw [Evaluation.captured, bind_run, Eval.lookup_run]
  cases s.scopes.lookup x with
  | some v => rfl
  | none =>
    simp only [Option.none_or]
    cases run.binding.get? x <;> rfl

theorem Evaluation.capturedAll_ok {run : Run} {span : Span} {names : List String} {s t : RunState}
    {kept : List (String × Value)}
    (h : Evaluation.capturedAll run span names s = (.ok kept, t)) :
    t = s ∧ kept.map (·.1) = names ∧ ∀ x v, kept.lookup x = some v →
      x ∈ names ∧ (s.scopes.lookup x).or (run.binding.get? x) = some v := by
  induction names generalizing kept t with
  | nil =>
    cases h
    exact ⟨rfl, rfl, fun _ _ hx => nomatch hx⟩
  | cons y names ih =>
    rw [Evaluation.capturedAll, bind_run, Evaluation.captured_run] at h
    cases hy : (s.scopes.lookup y).or (run.binding.get? y) with
    | none =>
      rw [hy] at h
      cases h
    | some w =>
      simp only [hy, bind_run] at h
      rcases hrest : Evaluation.capturedAll run span names s with ⟨_ | kept', t'⟩
      · rw [hrest] at h
        cases h
      · rw [hrest] at h
        cases h
        obtain ⟨rfl, hnames, hkept⟩ := ih hrest
        refine ⟨rfl, by simp [hnames], fun x v hx => ?_⟩
        rw [List.lookup_cons] at hx
        split at hx
        · next he =>
          cases hx
          rw [eq_of_beq he]
          exact ⟨List.mem_cons_self, hy⟩
        · exact ⟨List.mem_cons_of_mem y (hkept x v hx).1, (hkept x v hx).2⟩

/-- Captures that can be found are all kept. -/
theorem Evaluation.capturedAll_isOk {run : Run} {names : List String} {s : RunState}
    (h : ∀ x ∈ names, ((s.scopes.lookup x).or (run.binding.get? x)).isSome) (span : Span) :
    ∃ kept, Evaluation.capturedAll run span names s = (.ok kept, s) := by
  induction names with
  | nil => exact ⟨[], rfl⟩
  | cons y names ih =>
    obtain ⟨v, hv⟩ := Option.isSome_iff_exists.1 (h y (by simp))
    obtain ⟨kept, hkept⟩ := ih fun x hx => h x (by simp [hx])
    refine ⟨(y, v) :: kept, ?_⟩
    rw [Evaluation.capturedAll, bind_run, Evaluation.captured_run, hv]
    simp only [bind_run, hkept]
    rfl

/-- Arguments that are all evaluated are as many as their nodes. -/
theorem Evaluation.length_args {ev : Node → Eval Value} {nodes : List Node} {s t : RunState}
    {values : List Value} (h : Evaluation.args ev nodes s = (.ok values, t)) :
    values.length = nodes.length := by
  induction nodes generalizing s t values with
  | nil =>
    cases h
    rfl
  | cons n nodes ih =>
    rw [Evaluation.args, bind_run] at h
    rcases hn : ev n s with ⟨_ | v, u⟩
    · rw [hn] at h
      cases h
    · simp only [hn, bind_run] at h
      rcases hrest : Evaluation.args ev nodes u with ⟨_ | vs, u'⟩
      · rw [hrest] at h
        cases h
      · rw [hrest] at h
        cases h
        rw [List.length_cons, List.length_cons, ih hrest]

theorem Evaluation.apply_closure (run : Run) (ev : Node → Eval Value) (i : Identity) (l : Lambda)
    (kept : List (String × Value)) (values : List Value) (span : Span) :
    Evaluation.apply run ev (.function (.closure i l kept)) values span =
      if values.length = l.params.length then Evaluation.enter ev l kept values span
      else Eval.fault (.wrongCount "fn" (.exactly l.params.length) values.length) span := by
  have h : (Function.closure i l kept).arity.accepts values.length ↔
      values.length = l.params.length := Arity.accepts_exactly _ _
  by_cases hlength : values.length = l.params.length
  · rw [if_pos hlength]
    exact if_pos (h.2 hlength)
  · rw [if_neg hlength]
    exact if_neg (mt h.1 hlength)

end Scriptlet
