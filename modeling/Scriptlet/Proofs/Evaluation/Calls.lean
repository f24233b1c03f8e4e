import Scriptlet.Proofs.Environment
import Scriptlet.Proofs.Evaluation.Weakening
import Scriptlet.Proofs.Resolution.Captures
import Scriptlet.Proofs.Resolution.Locality

/-!
Two ways to call a native function. A global at the head of a list becomes a call that is ready to
run, with its arguments counted by the compiler. A global that is bound to a local name first is a
value like any other: it is found when the call runs, and the arguments are counted then.
-/

namespace Scriptlet

/-- The form is `(name args ..)`. -/
def Form.Calls (name : String) (args : List Form) (f : Form) : Prop :=
  ∃ head span, f = .group .round (.leaf (.symbol name) head :: args) span

/-- The form is `(let [name target] (name args ..))`. -/
def Form.CallsBound (name target : String) (args : List Form) (f : Form) : Prop :=
  ∃ head place value vector body span, Form.Calls name args body ∧
    f = .group .round [.leaf (.symbol SpecialForm.bind.name) head,
      .group .square [.leaf (.symbol name) place, .leaf (.symbol target) value] vector, body] span

section Occurrences

variable {env : Environment} {u : Use} {x : String}

mutual

/-- A name that is used occurs in the form. -/
theorem Resolves.occurs {p : Place} {f : Form} {n : Node} {uses : List Use}
    (h : Resolves env p f n uses) (hu : u ∈ uses) : f.Occurs u.name :=
  match h with
  | .literal _ | .globalName _ _ | .empty | .quotation _ => nomatch hu
  | @Resolves.localName _ _ _ span _ _ | @Resolves.freeName _ _ _ span _ _ _ => by
    cases List.mem_singleton.1 hu
    exact ⟨span, .self⟩
  | .vector h => by
    obtain ⟨g, hg, hx⟩ := h.occurs hu
    exact hx.of_within (.item hg .self)
  | .block _ h | .allOf _ h | .anyOf _ h | .nativeCall _ _ _ _ h => by
    obtain ⟨g, hg, hx⟩ := h.occurs hu
    exact hx.of_within (.item (List.mem_cons_of_mem _ hg) .self)
  | .branch _ hcond hyes => by
    rcases List.mem_append.1 hu with hu | hu
    · exact (hcond.occurs hu).of_within (.item (by simp) .self)
    · exact (hyes.occurs hu).of_within (.item (by simp) .self)
  | .branchElse _ hcond hyes hno => by
    rcases List.mem_append.1 hu with hu | hu
    · exact (hcond.occurs hu).of_within (.item (by simp) .self)
    · rcases List.mem_append.1 hu with hu | hu
      · exact (hyes.occurs hu).of_within (.item (by simp) .self)
      · exact (hno.occurs hu).of_within (.item (by simp) .self)
  | @Resolves.bind _ _ _ _ pairs ps _ _ _ _ _ _ _ h => by
    obtain ⟨g, hg, hx⟩ := h.occurs hu
    rcases List.mem_append.1 hg with hg | hg
    · have hvector : Tree.Within g (.group .square pairs ps) := .item hg .self
      exact hx.of_within (.item (by simp) hvector)
    · exact hx.of_within (.item (by simp [hg]) .self)
  | .lambda _ _ _ h => by
    obtain ⟨g, hg, hx⟩ := h.occurs hu
    exact hx.of_within (.item (List.mem_cons_of_mem _ (List.mem_cons_of_mem _ hg)) .self)
  | .call _ hhead h => by
    rcases List.mem_append.1 hu with hu | hu
    · exact (hhead.occurs hu).of_within (.item List.mem_cons_self .self)
    · obtain ⟨g, hg, hx⟩ := h.occurs hu
      exact hx.of_within (.item (List.mem_cons_of_mem _ hg) .self)

theorem ResolvesAll.occurs {p : Place} {fs : List Form} {ns : List Node} {uses : List Use}
    (h : ResolvesAll env p fs ns uses) (hu : u ∈ uses) : ∃ f ∈ fs, f.Occurs u.name :=
  match h with
  | .nil => nomatch hu
  | @ResolvesAll.cons _ _ f _ _ _ _ _ hf h => by
    rcases List.mem_append.1 hu with hu | hu
    · exact ⟨f, List.mem_cons_self, hf.occurs hu⟩
    · obtain ⟨g, hg, hx⟩ := h.occurs hu
      exact ⟨g, List.mem_cons_of_mem _ hg, hx⟩

theorem ResolvesBindings.occurs {p : Place} {pairs body : List Form}
    {bindings : List (String × Node)} {nodes : List Node} {uses : List Use}
    (h : ResolvesBindings env p pairs bindings body nodes uses) (hu : u ∈ uses) :
    ∃ f ∈ pairs ++ body, f.Occurs u.name :=
  match h with
  | .nil h => h.occurs hu
  | @ResolvesBindings.cons _ _ _ _ f _ _ _ _ _ _ _ hf h => by
    rcases List.mem_append.1 hu with hu | hu
    · exact ⟨f, by simp, hf.occurs hu⟩
    · obtain ⟨g, hg, hx⟩ := h.occurs hu
      exact ⟨g, List.mem_cons_of_mem _ (List.mem_cons_of_mem _ hg), hx⟩

end

theorem Resolves.of_localName {p : Place} {f : Form} {span : Span} {uses : List Use}
    (h : Resolves env p f (.localName x span) uses) : f = .leaf (.symbol x) span := by
  generalize hn : Node.localName x span = n at h
  cases h with
  | localName =>
    cases hn
    rfl
  | freeName =>
    split at hn <;> cases hn
    rfl
  | _ => cases hn

/-- What a node reads occurs in the form that it stands for. -/
theorem Node.StandsFor.occurs {n : Node} {f : Form} (h : n.StandsFor env f) (hx : n.Reads x) :
    f.Occurs x := by
  cases hx with
  | @localName span hx =>
    obtain ⟨g, hg, p, uses, hresolves⟩ := h.within hx
    cases hresolves.of_localName
    exact ⟨span, hg⟩
  | captured hl hx =>
    obtain ⟨g, hg, p, uses, hresolves⟩ := h.within hl
    obtain ⟨body, hfn, hcaptures, hall⟩ := hresolves.of_lambda
    rw [hcaptures] at hx
    obtain ⟨u, hu, -, rfl⟩ := mem_captures.1 hx
    obtain ⟨b, hb, hoccurs⟩ := hall.occurs hu
    cases hfn with
    | mk =>
      refine (hoccurs.of_within (.item ?_ .self)).of_within hg
      exact List.mem_cons_of_mem _ (List.mem_cons_of_mem _ hb)

end Occurrences

namespace Resolution

variable {env : Environment} {p : Place} {x : String} {args : List Form} {head span : Span}

theorem form_call_global (hname : isSpecialName x = false) (hx : p.level? x = none) :
    form env p (.group .round (.leaf (.symbol x) head :: args) span) =
      all env p args >>= fun nodes => globalCall env x head nodes span := by
  rw [form, list.eq_def]
  simp only [SpecialForm.ofName?_eq_none hname, hx]

theorem form_call_local {level : Nat} (hname : isSpecialName x = false)
    (hx : p.level? x = some level) :
    form env p (.group .round (.leaf (.symbol x) head :: args) span) = do
      Resolved.use ⟨x, head, some level⟩
      let nodes ← all env p args
      return .call (.localName x head) nodes span := by
  rw [form, list.eq_def]
  simp only [SpecialForm.ofName?_eq_none hname, hx, symbol, bind_assoc, pure_bind]

theorem form_let_one (hname : isSpecialName x = false) (place vector : Span) (value body : Form) :
    form env p (.group .round [.leaf (.symbol SpecialForm.bind.name) head,
        .group .square [.leaf (.symbol x) place, value] vector, body] span) = do
      let node ← form env p value
      let inner ← form env (p.bind x) body
      return .bind [(x, node)] [inner] span := by
  have htarget : badTarget .bind [] (.leaf (.symbol x) place) = none := by
    simp [badTarget, Form.symbol?, hname]
  have htargets : targets .bind [] (firsts [.leaf (.symbol x) place, value]) = pure (some [x]) := by
    simp only [firsts, targets, htarget]
    rfl
  rw [form, list.eq_def]
  simp only [SpecialForm.ofName?_name, bindForm, htargets, bindingsOf, all, pure_bind, bind_assoc]
  exact if_neg (by simp)

variable {f : String} {native : Native} {call : Form}

/-- A call of a global native function is compiled to a node that runs the function, if the function
takes that many arguments. -/
theorem form_of_calls (henv : env.Built) (hp : p.level? f = none)
    (hf : env.get? f = some (.function (.native native))) (hcall : Form.Calls f args call)
    (haccepts : native.arity.accepts args.length = true) :
    form env p call = ⟨.nativeCall native (all env p args).value call.span, (all env p args).errors,
      (all env p args).uses⟩ := by
  obtain ⟨head, span, rfl⟩ := hcall
  rw [form_call_global (henv.isSpecialName_eq_false hf) hp]
  simp only [Bind.bind, Resolved.bind, globalCall, hf, length_all, haccepts, if_true, Pure.pure,
    Resolved.pure, List.append_nil]
  rfl

/-- With any other number of arguments, that is one error more than the arguments have. -/
theorem errors_of_calls (henv : env.Built) (hp : p.level? f = none)
    (hf : env.get? f = some (.function (.native native))) (hcall : Form.Calls f args call)
    (hrefuses : native.arity.accepts args.length = false) :
    ∃ context, (form env p call).errors = (all env p args).errors ++
      [⟨.wrongCount f native.arity args.length, call.span, context⟩] := by
  obtain ⟨head, span, rfl⟩ := hcall
  refine ⟨[.functionCall (some f) head], ?_⟩
  rw [form_call_global (henv.isSpecialName_eq_false hf) hp, Resolved.errors_bind]
  simp only [globalCall, hf, length_all, hrefuses, Bool.false_eq_true, if_false, errors_fail]
  rfl

/-- What the call is compiled to when the function is bound to a local name first. The arguments are
resolved as in the direct call, since the name does not occur in them. -/
theorem form_of_callsBound (hp : p.level? f = none)
    (hf : env.get? f = some (.function (.native native))) (hname : isSpecialName x = false)
    (hargs : ∀ a ∈ args, ¬ Form.Occurs x a) (hcall : Form.CallsBound x f args call) :
    ∃ value head inner uses, form env p call =
      ⟨.bind [(x, .constant (.function (.native native)) value)]
        [.call (.localName x head) (all env p args).value inner] call.span,
        (all env p args).errors, uses⟩ := by
  obtain ⟨word, place, value, vector, body, span, ⟨head, inner, rfl⟩, rfl⟩ := hcall
  have hagree : Agree (· ≠ x) env (p.bind x) env p := by
    refine ⟨rfl, fun y hy => ?_, fun y _ => rfl⟩
    rw [Place.level?_bind, if_neg hy]
  have hall : all env (p.bind x) args = all env p args := by
    refine all_congr hagree fun a ha y hy => ?_
    rintro rfl
    exact hargs a ha hy
  have hvalue : form env p (.leaf (.symbol f) value) =
      pure (.constant (.function (.native native)) value) := by
    rw [form, symbol, hp, hf]
  have hx : (p.bind x).level? x = some p.level := by rw [Place.level?_bind, if_pos rfl]
  refine ⟨value, head, inner, ⟨x, head, some p.level⟩ :: (all env p args).uses, ?_⟩
  rw [form_let_one hname, hvalue, form_call_local hname hx, hall]
  simp only [Bind.bind, Resolved.bind, Pure.pure, Resolved.pure, Resolved.use, List.nil_append,
    List.append_nil]
  rfl

end Resolution

/-- Two evaluations end with one value or with failures of one cause. A limit that stops one of them
settles nothing about the other. -/
def EndsAlike {α : Type} (u v : Except Failure α × RunState) : Prop :=
  Ends Failure.alike (fun a _ b _ => a = b) u v

theorem EndsAlike.symm {α : Type} {u v : Except Failure α × RunState} (h : EndsAlike u v) :
    EndsAlike v u := by
  cases h with
  | values h => exact .values h.symm
  | failures h =>
    cases h with
    | unbound => exact .failures .unbound
    | fault => exact .failures .fault
  | left h => exact .right h
  | right h => exact .left h

theorem Scope.declare_singleton {α : Type} (x : String) :
    Scope.declare [x] = .ok (.growing [(x, (none : Option α))]) := rfl

theorem Scopes.bind_declared {α : Type} (s : Scopes α) (x : String) (v : α) :
    (s.push (.growing [(x, none)])).bind x v = .ok (s.push (.growing [(x, some v)])) := by
  simp [Scopes.bind, Scopes.push, Scope.bind, Scope.fill, Except.map]

namespace Evaluation

variable {run : Run} {α : Type} {u : Except Failure α × RunState} {n : Node} {t : RunState}

/-- The step that a node takes on one side is only counted there. -/
theorem endsAlike_eval {k : Value → Eval α}
    (h : ∀ room steps, EndsAlike u ((dispatch run (eval run room) n >>= k) { t with steps }))
    (room : Nat) : EndsAlike u ((eval run room n >>= k) t) := by
  cases room with
  | zero =>
    rw [bind_run]
    exact .right rfl
  | succ room =>
    rw [eval, bind_assoc, bind_run, Eval.tick_run]
    cases hl : run.limitAt? (t.steps + 1) with
    | some cause => exact .right (Run.isResource_limitAt? hl)
    | none => exact h room (t.steps + 1)

section Bound

variable {x : String} {nodes : List Node} {native : Native} {head value inner span : Span}
  {v : Except Failure Value × RunState}

/-- Arguments that do not read the name are evaluated alike where it is bound on one side. -/
theorem endsAlike_args {extra : List (Scope Value)} {s : RunState} {f f' : List Value → Eval α}
    (hs : RunState.Beside extra 0 s t)
    (hnodes : ∀ n ∈ nodes, ∀ y, n.Reads y → Scopes.Silent extra y)
    (hf : ∀ values, values.length = nodes.length → Eval.Matches extra 0 (f values) (f' values))
    (room room' : Nat) :
    EndsAlike ((args (eval run room) nodes >>= f) s) ((args (eval run room') nodes >>= f') t) := by
  have hargs : Eval.Matches extra 0 (args (eval run room) nodes) (args (eval run room') nodes) :=
    args_matches fun n hn => eval_weakens run room room' extra 0 n (hnodes n hn)
  refine ((hargs s t hs).and_left fun values s' => length_args).bind fun values s' _ t' hq => ?_
  obtain ⟨⟨rfl, hs'⟩, hlength⟩ := hq
  exact (hf values hlength s' t' hs').mono fun _ _ _ _ hq => hq.1

/-- The code of a bound call evaluates the arguments where the name is bound, and then applies the
function to their values. -/
theorem endsAlike_bound
    (h : ∀ room steps, EndsAlike v ((args (eval run room) nodes >>= fun values =>
      apply run (eval run room) (.function (.native native)) values inner)
        ⟨t.scopes.push (.growing [(x, some (.function (.native native)))]), steps, t.made⟩))
    (room : Nat) :
    EndsAlike v (eval run room (.bind [(x, .constant (.function (.native native)) value)]
      [.call (.localName x head) nodes inner] span) t) := by
  rw [← bind_pure (eval run room _)]
  refine endsAlike_eval (fun room steps => ?_) room
  rw [bind_pure, dispatch, bind, List.map_singleton, Scope.declare_singleton]
  simp only [Eval.inScope_run]
  refine Ends.afterwards (f := id) (g := RunState.popped) ?_ fun _ _ _ _ hq => hq
  simp only [bindAll, body, bind_assoc]
  refine endsAlike_eval (fun _ steps => ?_) room
  rw [dispatch, pure_bind, bind_run, Eval.bindName_run _ (Scopes.bind_declared t.scopes x _)]
  simp only [pure_bind]
  refine endsAlike_eval (fun room steps => ?_) room
  rw [bind_pure, dispatch]
  refine endsAlike_eval (fun _ steps => ?_) room
  have hx : (t.scopes.push (.growing [(x, some (.function (.native native)))])).lookup x =
      some (Value.function (.native native)) := by
    simp [Scopes.lookup_push, Scope.lookup]
  rw [dispatch, bind_assoc, bind_run, Eval.lookup_run]
  simp only [hx, pure_bind]
  exact h room steps

/-- A direct call and a bound one: what follows on the arguments must match. -/
theorem endsAlike_call {s : RunState} (hs : s.scopes = t.scopes) (hmade : s.made = t.made)
    (hnodes : ∀ n ∈ nodes, ¬ n.Reads x) {f : List Value → Eval Value}
    (hf : ∀ values, values.length = nodes.length → ∀ ev extra, Eval.Matches extra 0 (f values)
      (apply run ev (.function (.native native)) values inner)) (room room' : Nat) :
    EndsAlike ((args (eval run room) nodes >>= f) s)
      (eval run room' (.bind [(x, .constant (.function (.native native)) value)]
        [.call (.localName x head) nodes inner] span) t) := by
  refine endsAlike_bound (fun room' steps => ?_) room'
  have hbeside : RunState.Beside [.growing [(x, some (.function (.native native)))]] 0 s
      ⟨t.scopes.push (.growing [(x, some (.function (.native native)))]), steps, t.made⟩ :=
    ⟨hs ▸ .of_push s.scopes _, hmade⟩
  refine endsAlike_args hbeside (fun n hn y hy => ?_) (fun values hlength => hf values hlength _ _)
    room room'
  have hne : y ≠ x := by
    rintro rfl
    exact hnodes n hn hy
  intro scope hscope
  cases List.mem_singleton.1 hscope
  simp [Scope.lookup, List.lookup_cons, beq_false_of_ne hne]

end Bound

end Evaluation

section Agreement

open Resolution Evaluation

variable {env : Environment} {p : Place} {f x : String} {native : Native} {args : List Form}
  {direct bound : Form}

/-- A native function that is called by its global name, and one that is bound to a local name and
called by that. If it takes so many arguments, the calls have the same errors; without errors they
give the same value or fail alike, in any scopes. If it does not, the first call is an error of the
script, and the second evaluates its arguments before the count is found to be wrong. -/
theorem Form.Calls.agree (hdirect : Form.Calls f args direct)
    (hbound : Form.CallsBound x f args bound) (henv : env.Built) (hp : p.level? f = none)
    (hf : env.get? f = some (.function (.native native))) (hname : isSpecialName x = false)
    (hargs : ∀ a ∈ args, ¬ Form.Occurs x a) :
    (native.arity.accepts args.length = true →
      (form env p direct).errors = (form env p bound).errors ∧
      ((form env p direct).errors = [] → ∀ run room room' s,
        EndsAlike (eval run room (form env p direct).value s)
          (eval run room' (form env p bound).value s))) ∧
    (native.arity.accepts args.length = false → (all env p args).errors = [] →
      (∃ context, (form env p direct).errors =
        [⟨.wrongCount f native.arity args.length, direct.span, context⟩]) ∧
      (form env p bound).errors = [] ∧ ∀ run room room' s,
        EndsAlike
          ((Evaluation.args (eval run room) (all env p args).value >>= fun _ =>
            Eval.fault (.wrongCount native.name native.arity args.length) bound.span) s)
          (eval run room' (form env p bound).value s)) := by
  obtain ⟨value, head, inner, uses, hbound⟩ := form_of_callsBound hp hf hname hargs hbound
  have hlength := length_all env p args
  have hnodes : (all env p args).errors = [] → ∀ n ∈ (all env p args).value, ¬ n.Reads x := by
    intro herrors n hn hx
    obtain ⟨a, ha, hstands⟩ := (all_sound (fun f _ => form_sound f) herrors).standsFor hn
    exact hargs a ha (hstands.occurs hx)
  constructor
  · intro haccepts
    rw [form_of_calls henv hp hf hdirect haccepts, hbound]
    refine ⟨rfl, fun herrors run room room' s => EndsAlike.symm ?_⟩
    -- The step that the direct call takes, and then the arguments on both sides.
    rw [← bind_pure (eval run room _)]
    refine endsAlike_eval (fun room steps => EndsAlike.symm ?_) room
    rw [bind_pure, dispatch]
    refine endsAlike_call (s := { s with steps }) (t := s) rfl rfl (hnodes herrors)
      (fun values hvalues ev extra => ?_) room room'
    rw [apply, if_pos (by rwa [Function.arity, hvalues, hlength])]
    exact .ofFault direct.span inner (run.invoke native values)
  · intro hrefuses herrors
    obtain ⟨context, hcount⟩ := errors_of_calls henv hp hf hdirect hrefuses
    rw [herrors, List.nil_append] at hcount
    rw [hbound]
    refine ⟨⟨context, hcount⟩, herrors, fun run room room' s => ?_⟩
    refine endsAlike_call rfl rfl (hnodes herrors) (fun values hvalues ev extra => ?_) room room'
    rw [apply, if_neg (by simp [Function.arity, hvalues, hlength, hrefuses]), hvalues, hlength]
    exact .fault _ _ inner

/-- The arity of a global that is a native function. -/
def Environment.nativeArity? (env : Environment) (name : String) : Option Arity :=
  match env.get? name with
  | some (.function (.native f)) => some f.arity
  | _ => none

theorem Environment.exists_native {name : String} {arity : Arity}
    (h : env.nativeArity? name = some arity) :
    ∃ native, env.get? name = some (.function (.native native)) ∧ native.arity = arity := by
  unfold nativeArity? at h
  split at h
  · next native hget =>
    cases h
    exact ⟨native, hget, rfl⟩
  · cases h

/-- The calls `(inc ((fn [y] (+ x y)) 2))` and `(let [g inc] (g ((fn [y] (+ x y)) 2)))`, and the same
two calls with one argument more. -/
theorem Form.Calls.agree_inc :
    ∃ native, ∃ direct bound direct' bound' a b : Form,
      Environment.standard.get? "inc" = some (.function (.native native)) ∧
      Form.Calls "inc" [a] direct ∧ Form.CallsBound "g" "inc" [a] bound ∧
      (form .standard .top direct).errors = [] ∧ (form .standard .top bound).errors = [] ∧
      (∀ run room room' s, EndsAlike (eval run room (form .standard .top direct).value s)
        (eval run room' (form .standard .top bound).value s)) ∧
      Form.Calls "inc" [a, b] direct' ∧ Form.CallsBound "g" "inc" [a, b] bound' ∧
      (∃ context, (form .standard .top direct').errors =
        [⟨.wrongCount "inc" (.exactly 1) 2, direct'.span, context⟩]) ∧
      (form .standard .top bound').errors = [] ∧
      ∀ run room room' s, EndsAlike
        ((Evaluation.args (eval run room) (all .standard .top [a, b]).value >>= fun _ =>
          Eval.fault (.wrongCount native.name (.exactly 1) 2) bound'.span) s)
        (eval run room' (form .standard .top bound').value s) := by
  obtain ⟨native, hget, harity⟩ := Environment.exists_native
    (show Environment.standard.nativeArity? "inc" = some (.exactly 1) by decide +kernel)
  let a : Form := .group .round
    [.group .round [.leaf (.symbol "fn") ⟨18, 20⟩,
      .group .square [.leaf (.symbol "y") ⟨22, 23⟩] ⟨21, 24⟩,
      .group .round [.leaf (.symbol "+") ⟨26, 27⟩, .leaf (.symbol "x") ⟨28, 29⟩,
        .leaf (.symbol "y") ⟨30, 31⟩] ⟨25, 32⟩] ⟨17, 33⟩,
      .leaf (.int 2) ⟨34, 35⟩] ⟨16, 36⟩
  let b : Form := .leaf (.int 3) ⟨37, 38⟩
  have hunread : ∀ c ∈ [a, b], ¬ Form.Occurs "g" c := by
    have hleaves : ([a, b].all fun c => (Tree.leaves c).all fun l =>
        Form.symbol? (.leaf l.1 l.2) != some "g") = true := by decide +kernel
    exact fun c hc => Form.not_occurs (List.all_eq_true.1 hleaves c hc)
  have hcalls : ∀ args, Form.Calls "inc" args
      (.group .round (.leaf (.symbol "inc") ⟨12, 15⟩ :: args) ⟨11, 37⟩) :=
    fun args => ⟨_, _, rfl⟩
  have hcallsBound : ∀ args, Form.CallsBound "g" "inc" args (.group .round
      [.leaf (.symbol "let") ⟨1, 4⟩, .group .square [.leaf (.symbol "g") ⟨6, 7⟩,
        .leaf (.symbol "inc") ⟨8, 11⟩] ⟨5, 12⟩,
        .group .round (.leaf (.symbol "g") ⟨14, 15⟩ :: args) ⟨13, 37⟩] ⟨0, 38⟩) :=
    fun args => ⟨_, _, _, _, _, _, ⟨_, _, rfl⟩, rfl⟩
  have hone := (hcalls [a]).agree (hcallsBound [a]) Environment.built_standard (p := .top) rfl hget
    rfl fun c hc => hunread c (List.mem_append_left [b] hc)
  have htwo := (hcalls [a, b]).agree (hcallsBound [a, b]) Environment.built_standard (p := .top) rfl
    hget rfl hunread
  rw [harity] at hone htwo
  obtain ⟨hsame, hend⟩ := hone.1 rfl
  have herrors := (show (form .standard .top (.group .round
    (.leaf (.symbol "inc") ⟨12, 15⟩ :: [a]) ⟨11, 37⟩)).errors = [] by decide +kernel)
  obtain ⟨hdirect, hbound, hfault⟩ := htwo.2 rfl (by decide +kernel)
  exact ⟨native, _, _, _, _, a, b, hget, hcalls [a], hcallsBound [a], herrors, hsame ▸ herrors,
    hend herrors, hcalls [a, b], hcallsBound [a, b], hdirect, hbound, hfault⟩

end Agreement

end Scriptlet
