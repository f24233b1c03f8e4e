import Scriptlet.Proofs.Evaluation.Limits
import Scriptlet.Proofs.Result

/-!
What an evaluation gives back. It leaves the scopes as it found them, whatever it comes to: a scope
that is filled meanwhile lies above them and is taken away again. A counter of the nodes that are
being evaluated is back where it was, and the steps have gone up by the nodes that were counted.
-/

namespace Scriptlet

theorem Scopes.pop_bind {α : Type} {s s' : Scopes α} {x : String} {v : α}
    (h : s.bind x v = .ok s') : s'.pop = s.pop := by
  obtain ⟨_ | ⟨scope, rest⟩⟩ := s
  · cases h
  · obtain ⟨scope', -, rfl⟩ := except_map_eq_ok h
    rfl

/-- After the computation the scopes show the same as before, whatever it comes to. -/
def Eval.Restores {α γ : Type} (view : Scopes Value → γ) (act : Eval α) : Prop :=
  ∀ s, view (act s).2.scopes = view s.scopes

namespace Eval.Restores

variable {α β γ : Type} {view : Scopes Value → γ} {act : Eval α}

theorem of_id (h : Restores id act) : Restores view act := fun s => congrArg view (h s)

theorem pure (a : α) : Restores view (Pure.pure a : Eval α) := fun _ => rfl

theorem throw (e : Failure) : Restores view (MonadExcept.throw e : Eval α) := fun _ => rfl

theorem ofFault (span : Span) (x : Except Fault α) : Restores view (Eval.ofFault span x) := by
  cases x with
  | ok a => exact pure a
  | error cause => exact throw _

theorem bind {f : α → Eval β} (h : Restores view act) (hf : ∀ a, Restores view (f a)) :
    Restores view (act >>= f) := by
  intro s
  have hact := h s
  rw [bind_run]
  rcases hx : act s with ⟨e | a, t⟩
  · rwa [hx] at hact
  · rw [hx] at hact
    exact (hf a t).trans hact

theorem lookup (x : String) : Restores view (Eval.lookup x) := fun _ => rfl

theorem newIdentity (run : Run) : Restores view (Eval.newIdentity run) := fun _ => rfl

theorem inFrame (frame : Scopes Value) (act : Eval α) : Restores view (Eval.inFrame frame act) :=
  fun _ => rfl

/-- A binding changes the innermost scope only. -/
theorem bindName (x : String) (v : Value) (span : Span) :
    Restores Scopes.pop (Eval.bindName x v span) := by
  intro s
  rw [Eval.bindName_eq]
  cases h : s.scopes.bind x v with
  | ok scopes => exact Scopes.pop_bind h
  | error e => rfl

/-- A scope that was added is the one that is taken away. -/
theorem inScope (scope : Scope Value) (h : Restores Scopes.pop act) :
    Restores view (Eval.inScope scope act) := by
  intro s
  have hpop : (act { s with scopes := s.scopes.push scope }).2.scopes.pop = .ok s.scopes :=
    h { s with scopes := s.scopes.push scope }
  rw [Eval.inScope_run, RunState.popped, hpop]

section Evaluator

variable {ev : Node → Eval Value} (hev : ∀ n, Restores id (ev n))
include hev

theorem body (last : Value) (nodes : List Node) :
    Restores view (Evaluation.body ev last nodes) := by
  induction nodes generalizing last with
  | nil => exact pure last
  | cons n nodes ih => exact (hev n).of_id.bind fun v => ih v

theorem firstDeciding (decides : Value → Bool) (last : Value) (nodes : List Node) :
    Restores view (Evaluation.firstDeciding ev decides last nodes) := by
  induction nodes generalizing last with
  | nil => exact pure last
  | cons n nodes ih =>
    refine (hev n).of_id.bind fun v => ?_
    split
    · exact pure v
    · exact ih v

theorem args (nodes : List Node) : Restores view (Evaluation.args ev nodes) := by
  induction nodes with
  | nil => exact pure []
  | cons n nodes ih => exact (hev n).of_id.bind fun v => ih.bind fun vs => pure (v :: vs)

theorem bindAll (span : Span) (bindings : List (String × Node)) :
    Restores Scopes.pop (Evaluation.bindAll ev span bindings) := by
  induction bindings with
  | nil => exact pure ()
  | cons p bindings ih =>
    exact (hev p.2).of_id.bind fun v => (bindName p.1 v span).bind fun _ => ih

theorem letIn (bindings : List (String × Node)) (nodes : List Node) (span : Span) :
    Restores view (Evaluation.bind ev bindings nodes span) := by
  unfold Evaluation.bind
  cases Scope.declare (α := Value) (bindings.map (·.1)) with
  | error e => exact throw _
  | ok scope => exact inScope scope ((bindAll hev span bindings).bind fun _ => body hev .nil nodes)

end Evaluator

theorem enter (ev : Node → Eval Value) (l : Lambda) (kept : List (String × Value))
    (values : List Value) (span : Span) :
    Restores view (Evaluation.enter ev l kept values span) := by
  unfold Evaluation.enter
  cases Scope.ofEntries (l.params.zip values) with
  | error e => exact throw _
  | ok params => exact inFrame _ _

variable {run : Run}

/-- A closure runs in scopes of its own. -/
theorem apply (ev : Node → Eval Value) (callee : Value) (values : List Value) (span : Span) :
    Restores view (Evaluation.apply run ev callee values span) := by
  cases callee with
  | function f =>
    unfold Evaluation.apply
    dsimp only
    split
    · cases f with
      | native f => exact ofFault span _
      | closure i l kept => exact enter ev l kept values span
    · exact throw _
  | _ => exact throw _

theorem captured (x : String) (span : Span) : Restores view (Evaluation.captured run x span) := by
  intro s
  rw [Evaluation.captured_run]

theorem capturedAll (span : Span) (names : List String) :
    Restores view (Evaluation.capturedAll run span names) := by
  induction names with
  | nil => exact pure []
  | cons x names ih => exact (captured x span).bind fun v => ih.bind fun vs => pure ((x, v) :: vs)

theorem dispatch {ev : Node → Eval Value} (hev : ∀ n, Restores id (ev n)) (n : Node) :
    Restores view (Evaluation.dispatch run ev n) := by
  cases n with
  | constant v span => exact pure v
  | localName x span =>
    refine (lookup x).bind fun v => ?_
    cases v with
    | some v => exact pure v
    | none => exact throw _
  | freeName x span =>
    simp only [Evaluation.dispatch]
    cases run.binding.get? x with
    | some v => exact pure v
    | none => exact throw _
  | list nodes span => exact (args hev nodes).bind fun vs => pure (Value.list vs)
  | branch cond yes no span =>
    refine (hev cond).of_id.bind fun c => ?_
    split
    · exact (hev yes).of_id
    · cases no with
      | some no => exact (hev no).of_id
      | none => exact pure Value.nil
  | block nodes span => exact body hev .nil nodes
  | bind bindings nodes span => exact letIn hev bindings nodes span
  | lambda l =>
    exact (capturedAll l.span l.captures).bind fun kept => (newIdentity run).bind fun i => pure _
  | allOf nodes span => exact firstDeciding hev _ _ nodes
  | anyOf nodes span => exact firstDeciding hev _ _ nodes
  | nativeCall f nodes span => exact (args hev nodes).bind fun vs => ofFault span _
  | call callee nodes span =>
    exact (hev callee).of_id.bind fun f => (args hev nodes).bind fun vs => apply ev f vs span

theorem eval (run : Run) (room : Nat) (n : Node) : Restores view (Evaluation.eval run room n) := by
  refine of_id ?_
  -- On the depth that is left, for the body of a closure is no part of the node that calls it.
  induction room generalizing n with
  | zero => exact throw _
  | succ room ih =>
    intro s
    rw [Evaluation.eval_succ]
    cases run.limitAt? (s.steps + 1) with
    | some cause => rfl
    | none => exact dispatch ih n { s with steps := s.steps + 1 }

end Eval.Restores

/-- What an evaluator counts: the nodes that it is evaluating, and those for which it has taken a
step. -/
structure Counters where
  depth : Nat
  ticks : Nat

namespace Evaluation

mutual

/-- The end of evaluating a node, and the counters before and after. The depth goes up before a node
is dispatched. It goes down after, whatever came of the node. -/
inductive Counted (run : Run) :
    Counters → Node → RunState → Except Failure Value × RunState → Counters → Prop where
  | tooDeep {c n s} (h : run.limits.depth ≤ c.depth) :
      Counted run c n s (.error (.fault (.tooDeep c.depth run.limits.depth) n.span), s) c
  | refused {c n s cause} (hdepth : c.depth < run.limits.depth)
      (hlimit : run.limitAt? (s.steps + 1) = some cause) :
      Counted run c n s (.error (.fault cause n.span), { s with steps := s.steps + 1 })
        ⟨c.depth, c.ticks + 1⟩
  | dispatched {c n s depth ticks} (answer : Node → Eval Value)
      (hdepth : c.depth < run.limits.depth) (hlimit : run.limitAt? (s.steps + 1) = none)
      (hparts : CountedAll run answer ⟨c.depth + 1, c.ticks + 1⟩
        (Request.ofNode answer n { s with steps := s.steps + 1 }) ⟨depth + 1, ticks⟩) :
      Counted run c n s (dispatch run answer n { s with steps := s.steps + 1 }) ⟨depth, ticks⟩

/-- The requests are evaluated one after the other, each with the counters that the one before it
has left. -/
inductive CountedAll (run : Run) :
    (Node → Eval Value) → Counters → List Request → Counters → Prop where
  | nil {answer c} : CountedAll run answer c [] c
  | cons {answer c c' c'' r rs} (h : Counted run c r.node r.state (answer r.node r.state) c')
      (hrest : CountedAll run answer c' rs c'') : CountedAll run answer c (r :: rs) c''

end

end Evaluation

/-- The depth is as before, and there are as many ticks more as steps. -/
def Counters.Back (c : Counters) (steps : Nat) (c' : Counters) (steps' : Nat) : Prop :=
  ∃ k, c' = ⟨c.depth, c.ticks + k⟩ ∧ steps' = steps + k

namespace Counters.Back

variable {c c' c'' : Counters} {steps steps' steps'' : Nat}

theorem refl (c : Counters) (steps : Nat) : Back c steps c steps := ⟨0, rfl, rfl⟩

theorem trans (h : Back c steps c' steps') (h' : Back c' steps' c'' steps'') :
    Back c steps c'' steps'' := by
  obtain ⟨k, rfl, rfl⟩ := h
  obtain ⟨k', rfl, rfl⟩ := h'
  refine ⟨k + k', ?_, Nat.add_assoc steps k k'⟩
  rw [Nat.add_assoc]

theorem depth_eq (h : Back c steps c' steps') : c'.depth = c.depth := by
  obtain ⟨k, rfl, -⟩ := h
  rfl

theorem unique (h : Back c steps c' steps') (h' : Back c steps c'' steps') : c' = c'' := by
  obtain ⟨k, rfl, hk⟩ := h
  obtain ⟨k', rfl, hk'⟩ := h'
  rw [Nat.add_left_cancel (hk.symm.trans hk')]

end Counters.Back

namespace Evaluation

variable {run : Run} {c c' : Counters} {n : Node} {s : RunState} {ev answer : Node → Eval Value}
  {invoke : Native → List Value → Except Fault Value} {steps : Nat} {rs : List Request}
  {x : Except Failure Value × RunState}

/-- Requests that can each be counted can be counted one after the other. -/
theorem countedAll_course (h : Course invoke ev steps rs x)
    (hrs : ∀ r ∈ rs, ∀ c₁ : Counters, c₁.depth = c.depth → ∃ c₂,
      Counted run c₁ r.node r.state (ev r.node r.state) c₂ ∧
        c₁.Back r.state.steps c₂ (ev r.node r.state).2.steps) :
    ∃ c', CountedAll run ev c rs c' ∧ c.Back steps c' x.2.steps := by
  induction h generalizing c with
  | done hsteps _ => exact ⟨c, .nil, hsteps ▸ .refl c _⟩
  | @answered steps r rs x v t hsteps hr _ ih =>
    obtain ⟨c₁, hfirst, hback⟩ := hrs r List.mem_cons_self c rfl
    obtain ⟨c₂, hrest, hback'⟩ := ih (c := c₁) fun q hq c' hc' =>
      hrs q (List.mem_cons_of_mem _ hq) c' (hc'.trans hback.depth_eq)
    rw [hr, hsteps] at hback
    exact ⟨c₂, .cons hfirst hrest, hback.trans hback'⟩
  | @failed steps r e t u hsteps hr hu =>
    obtain ⟨c₁, hfirst, hback⟩ := hrs r List.mem_cons_self c rfl
    rw [hr, hsteps] at hback
    rw [hu]
    exact ⟨c₁, .cons hfirst .nil, hback⟩

/-- Up to the limit on the depth, the evaluator's end can be counted. -/
theorem counted_eval {room : Nat} (h : room + c.depth = run.limits.depth) :
    ∃ c', Counted run c n s (eval run room n s) c' ∧
      c.Back s.steps c' (eval run room n s).2.steps := by
  induction room generalizing c n s with
  | zero =>
    have hdepth : run.limits.depth = c.depth := by omega
    have hend : Counted run c n s _ c := .tooDeep (Nat.le_of_eq hdepth)
    rw [eval, hdepth]
    rw [hdepth] at hend
    exact ⟨c, hend, .refl c _⟩
  | succ room ih =>
    have hdepth : c.depth < run.limits.depth := by omega
    rw [eval_succ]
    cases hlimit : run.limitAt? (s.steps + 1) with
    | some cause => exact ⟨_, .refused hdepth hlimit, 1, rfl, rfl⟩
    | none =>
      obtain ⟨c', hparts, k, rfl, hk⟩ := countedAll_course (c := ⟨c.depth + 1, c.ticks + 1⟩)
        (course_dispatch run room n { s with steps := s.steps + 1 }) fun r _ c₁ hc₁ =>
          ih (by simp only at hc₁; omega)
      refine ⟨⟨c.depth, c.ticks + 1 + k⟩, .dispatched (eval run room) hdepth hlimit hparts,
        1 + k, ?_, ?_⟩
      · rw [Nat.add_assoc]
      · rw [← Nat.add_assoc]
        exact hk

/-- Whatever was counted for requests, the answers were the evaluator's, and the counters that are
left belong to their course. -/
theorem CountedAll.answers (ev : Node → Eval Value) (h : CountedAll run answer c rs c')
    (heval : ∀ c₁ n s x c₂, c₁.depth = c.depth → Counted run c₁ n s x c₂ →
      x = ev n s ∧ c₁.Back s.steps c₂ x.2.steps) :
    (∀ r ∈ rs, ev r.node r.state = answer r.node r.state) ∧
      ∀ steps (x : Except Failure Value × RunState), Course invoke answer steps rs x →
        c.Back steps c' x.2.steps := by
  induction rs generalizing c with
  | nil =>
    cases h with | nil =>
    refine ⟨nofun, fun steps x hx => ?_⟩
    cases hx with
    | done hsteps => exact hsteps ▸ .refl _ _
  | cons r rs ih =>
    cases h with | cons h hrest =>
    obtain ⟨hanswer, hback⟩ := heval _ _ _ _ _ rfl h
    obtain ⟨hanswers, hcourse⟩ := ih hrest fun c₁ n s x c₂ hc₁ =>
      heval c₁ n s x c₂ (hc₁.trans hback.depth_eq)
    refine ⟨List.forall_mem_cons.2 ⟨hanswer.symm, hanswers⟩, fun steps x hx => ?_⟩
    cases hx with
    | answered hsteps hr hx =>
      rw [hr, hsteps] at hback
      exact hback.trans (hcourse _ _ hx)
    | failed hsteps hr hu =>
      cases hrest
      rw [hr, hsteps] at hback
      rw [hu]
      exact hback

/-- There is no other end, and no other count. -/
theorem Counted.eq_eval {room : Nat} (h : Counted run c n s x c')
    (hroom : room + c.depth = run.limits.depth) :
    x = eval run room n s ∧ c.Back s.steps c' x.2.steps := by
  -- Each request is counted from the depth that the one before it has left. That this is one more
  -- than the node's own comes from the induction as well.
  induction room generalizing c n s x c' with
  | zero =>
    have hdepth : run.limits.depth = c.depth := by omega
    cases h with
    | tooDeep =>
      rw [eval, hdepth]
      exact ⟨rfl, .refl c _⟩
    | refused hlt => omega
    | dispatched _ hlt => omega
  | succ room ih =>
    rw [eval_succ]
    cases h with
    | tooDeep hle => omega
    | refused _ hlimit =>
      rw [hlimit]
      exact ⟨rfl, 1, rfl, rfl⟩
    | dispatched answer _ hlimit hparts =>
      rw [hlimit]
      obtain ⟨hanswers, hcourse⟩ := hparts.answers (eval run room) fun c₁ n s x c₂ hc₁ hx =>
        ih hx (by simp only at hc₁; omega)
      refine ⟨((Asks.dispatch n).congr (eval run room) hanswers).symm, ?_⟩
      obtain ⟨k, hk, hsteps⟩ := hcourse _ _ (Asks.dispatch n).course
      cases hk
      exact ⟨1 + k, by rw [Nat.add_assoc], by rw [← Nat.add_assoc]; exact hsteps⟩

/-- At the limit on the depth, or beyond it, nothing is counted. -/
theorem counted_tooDeep_iff (hdeep : run.limits.depth ≤ c.depth) : Counted run c n s x c' ↔
    x = (.error (.fault (.tooDeep c.depth run.limits.depth) n.span), s) ∧ c' = c := by
  constructor
  · intro h
    cases h with
    | tooDeep => exact ⟨rfl, rfl⟩
    | refused hlt => omega
    | dispatched _ hlt => omega
  · rintro ⟨rfl, rfl⟩
    exact .tooDeep hdeep

/-- Evaluating a node comes to one end, from any depth and with any limits, and whatever that end
is, the depth and the scopes are as they were before. The steps have gone up by the number of nodes
that were counted. -/
theorem eval_restores (run : Run) (c : Counters) (n : Node) (s : RunState) :
    ∃ y ticks, (∀ x c', Counted run c n s x c' ↔ x = y ∧ c' = ⟨c.depth, c.ticks + ticks⟩) ∧
      y.2.scopes = s.scopes ∧ y.2.steps = s.steps + ticks ∧
      ∀ room, room + c.depth = run.limits.depth → y = eval run room n s := by
  by_cases hdeep : run.limits.depth ≤ c.depth
  · refine ⟨_, 0, fun x c' => counted_tooDeep_iff hdeep, rfl, rfl, fun room hroom => ?_⟩
    obtain ⟨rfl, hdepth⟩ : room = 0 ∧ c.depth = run.limits.depth := by omega
    rw [hdepth]
    rfl
  · obtain ⟨room, hroom⟩ : ∃ room, room + c.depth = run.limits.depth :=
      ⟨run.limits.depth - c.depth, by omega⟩
    obtain ⟨c', hcounted, hback⟩ := counted_eval (n := n) (s := s) hroom
    obtain ⟨ticks, rfl, hsteps⟩ := id hback
    have hscopes : Eval.Restores id (eval run room n) := .eval run room n
    refine ⟨eval run room n s, ticks, fun x c'' => ⟨fun h => ?_, ?_⟩, hscopes s, hsteps,
      fun room' hroom' => ?_⟩
    · obtain ⟨rfl, hback'⟩ := h.eq_eval hroom
      exact ⟨rfl, hback'.unique hback⟩
    · rintro ⟨rfl, rfl⟩
      exact hcounted
    · obtain rfl : room' = room := by omega
      rfl

/-- A `let` that the limit on the depth ends inside its body, when its own scope is filled. -/
theorem eval_restores_let :
    Counted ⟨0, ∅, ⟨2, none, none⟩, fun _ => ⟨0⟩, fun _ _ => .ok .nil⟩ ⟨0, 7⟩
      (.bind [("a", .constant .nil ⟨6, 9⟩)] [.list [.constant .nil ⟨12, 15⟩] ⟨11, 16⟩] ⟨0, 17⟩)
      ⟨⟨[.fixed [("x", .bool true)]]⟩, 5, 1⟩
      (.error (.fault (.tooDeep 2 2) ⟨12, 15⟩), ⟨⟨[.fixed [("x", .bool true)]]⟩, 8, 1⟩)
      ⟨0, 10⟩ := by
  obtain ⟨y, ticks, hcounted, -, hsteps, heval⟩ := eval_restores
    ⟨0, ∅, ⟨2, none, none⟩, fun _ => ⟨0⟩, fun _ _ => .ok .nil⟩ ⟨0, 7⟩
    (.bind [("a", .constant .nil ⟨6, 9⟩)] [.list [.constant .nil ⟨12, 15⟩] ⟨11, 16⟩] ⟨0, 17⟩)
    ⟨⟨[.fixed [("x", .bool true)]]⟩, 5, 1⟩
  have hy : y = (.error (.fault (.tooDeep 2 2) ⟨12, 15⟩),
      ⟨⟨[.fixed [("x", .bool true)]]⟩, 8, 1⟩) := heval 2 rfl
  obtain rfl : ticks = 3 := by
    rw [hy] at hsteps
    exact (Nat.add_left_cancel hsteps).symm
  exact (hcounted _ _).2 ⟨hy.symm, rfl⟩

end Evaluation

end Scriptlet
