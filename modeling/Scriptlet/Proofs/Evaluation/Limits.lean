import Scriptlet.Proofs.Evaluation.Course
import Scriptlet.Proofs.Evaluation.Produced

/-!
What limits do to an evaluation. Its history lists the nodes that it dispatches and the node that a
limit refuses, if one is refused. Without a refusal looser limits give the same outcome, and a
refusal is the outcome.
-/

namespace Scriptlet

/-- What happens to a node that is to be evaluated, and how many nodes are being evaluated around
it. -/
inductive Event where
  | dispatched (n : Node) (depth : Nat)
  | refused (cause : Fault) (span : Span) (depth : Nat)

namespace Event

def isDispatch : Event → Bool
  | dispatched .. => true
  | refused .. => false

/-- Nodes are dispatched below the limit on the depth, and a node is refused at that depth or by
another limit. -/
def Bounded (run : Run) : Event → Prop
  | dispatched _ depth => depth < run.limits.depth
  | refused cause _ depth =>
    (cause = .tooDeep depth run.limits.depth ∧ depth = run.limits.depth) ∨
      ∃ steps, run.limitAt? steps = some cause

end Event

namespace Evaluation

/-- The events of evaluating a node at a depth, where so many levels are left. -/
def history (run : Run) : Nat → Nat → Node → RunState → List Event
  | 0, depth, n, _ => [.refused (.tooDeep depth run.limits.depth) n.span depth]
  | room + 1, depth, n, s =>
    match run.limitAt? (s.steps + 1) with
    | some cause => [.refused cause n.span depth]
    | none =>
      .dispatched n depth ::
        (Request.ofNode (eval run room) n { s with steps := s.steps + 1 }).flatMap fun r =>
          history run room (depth + 1) r.node r.state

theorem eval_succ (run : Run) (room : Nat) (n : Node) (s : RunState) :
    eval run (room + 1) n s =
      match run.limitAt? (s.steps + 1) with
      | some cause => (.error (.fault cause n.span), { s with steps := s.steps + 1 })
      | none => dispatch run (eval run room) n { s with steps := s.steps + 1 } := by
  rw [eval, bind_run, Eval.tick_run]
  cases run.limitAt? (s.steps + 1) <;> rfl

variable {run : Run} {room depth : Nat} {n : Node} {s : RunState}

/-- The end of a node that is dispatched is the end of the course of its requests. -/
theorem course_dispatch (run : Run) (room : Nat) (n : Node) (s : RunState) :
    Course run.invoke (eval run room) s.steps (Request.ofNode (eval run room) n s)
      (dispatch run (eval run room) n s) :=
  (Asks.dispatch n).course

/-- A node that is refused ends the evaluation with the cause. -/
theorem eval_of_refused (h : room + depth = run.limits.depth) {cause : Fault} {span : Span}
    {at' : Nat} (hrefused : .refused cause span at' ∈ history run room depth n s) :
    (eval run room n s).1 = .error (.fault cause span) := by
  induction room generalizing depth n s with
  | zero =>
    have hdepth : depth = run.limits.depth := by omega
    cases List.mem_singleton.1 hrefused
    rw [hdepth]
    rfl
  | succ room ih =>
    rw [history] at hrefused
    rw [eval_succ]
    cases hlimit : run.limitAt? (s.steps + 1) with
    | some cause' =>
      rw [hlimit] at hrefused
      cases List.mem_singleton.1 hrefused
      rfl
    | none =>
      simp only [hlimit, List.mem_cons, reduceCtorEq, false_or, List.mem_flatMap] at hrefused
      obtain ⟨r, hr, hmem⟩ := hrefused
      have hroom : room + (depth + 1) = run.limits.depth := by omega
      exact (course_dispatch run room n _).error_of_request hr (ih hroom hmem)

/-- An evaluation ends with a resource fault if a node is refused, or if a native fails with it. -/
theorem refused_of_eval (h : room + depth = run.limits.depth) {cause : Fault} {span : Span}
    (hfault : (eval run room n s).1 = .error (.fault cause span))
    (hresource : cause.isResource = true) :
    (∃ at', .refused cause span at' ∈ history run room depth n s) ∨
      ∃ f args, run.invoke f args = .error cause := by
  induction room generalizing depth n s with
  | zero =>
    have hdepth : depth = run.limits.depth := by omega
    cases hfault
    left
    refine ⟨depth, ?_⟩
    rw [history, hdepth]
    exact List.mem_singleton_self _
  | succ room ih =>
    rw [eval_succ] at hfault
    rw [history]
    cases hlimit : run.limitAt? (s.steps + 1) with
    | some cause' =>
      rw [hlimit] at hfault
      cases hfault
      exact .inl ⟨depth, List.mem_singleton_self _⟩
    | none =>
      rw [hlimit] at hfault
      rcases (course_dispatch run room n _).request_of_error hfault with ⟨r, hr, hfail⟩ | hown
      · have hroom : room + (depth + 1) = run.limits.depth := by omega
        rcases ih hroom hfail with ⟨at', hmem⟩ | hnative
        · left
          refine ⟨at', List.mem_cons_of_mem _ ?_⟩
          exact List.mem_flatMap.2 ⟨r, hr, hmem⟩
        · exact .inr hnative
      · exact .inr (hown cause span rfl hresource)

theorem bounded_of_mem_history (h : room + depth = run.limits.depth) {e : Event}
    (he : e ∈ history run room depth n s) : e.Bounded run := by
  induction room generalizing depth n s with
  | zero =>
    have hdepth : depth = run.limits.depth := by omega
    cases List.mem_singleton.1 he
    exact .inl ⟨rfl, hdepth⟩
  | succ room ih =>
    rw [history] at he
    cases hlimit : run.limitAt? (s.steps + 1) with
    | some cause =>
      rw [hlimit] at he
      cases List.mem_singleton.1 he
      exact .inr ⟨_, hlimit⟩
    | none =>
      simp only [hlimit, List.mem_cons, List.mem_flatMap] at he
      rcases he with rfl | ⟨r, _, hmem⟩
      · show depth < run.limits.depth
        omega
      · have hroom : room + (depth + 1) = run.limits.depth := by omega
        exact ih hroom hmem

section Counting

/-- The number of nodes that are dispatched. -/
def dispatches (events : List Event) : Nat := events.countP Event.isDispatch

theorem dispatches_cons (n : Node) (depth : Nat) (events : List Event) :
    dispatches (.dispatched n depth :: events) = dispatches events + 1 :=
  List.countP_cons_of_pos rfl

theorem dispatches_append (events events' : List Event) :
    dispatches (events ++ events') = dispatches events + dispatches events' := List.countP_append

/-- The steps that a run has taken say how many nodes it has dispatched: just as many, if no node
was refused, and never more than the limit. With a value it ends only if no node was refused. -/
structure Counts (limit : Option Nat) (steps : Nat) (events : List Event) {α : Type}
    (x : Except Failure α × RunState) : Prop where
  value : ∀ a, x.1 = .ok a → ∀ e ∈ events, e.isDispatch = true
  exact : (∀ e ∈ events, e.isDispatch = true) → x.2.steps = steps + dispatches events
  within : ∀ k, limit = some k → steps ≤ k → steps + dispatches events ≤ k

/-- Requests that count make a course that counts. -/
theorem counts_course {α : Type} {limit : Option Nat}
    {invoke : Native → List Value → Except Fault Value} {ev : Node → Eval Value}
    {events : Request → List Event} {steps : Nat} {rs : List Request}
    {x : Except Failure α × RunState} (h : Course invoke ev steps rs x)
    (hrs : ∀ r ∈ rs, Counts limit r.state.steps (events r) (ev r.node r.state)) :
    Counts limit steps (rs.flatMap events) x := by
  induction h with
  | done hsteps _ => exact ⟨fun _ _ _ he => (nomatch he), fun _ => hsteps, fun _ _ hle => hle⟩
  | @answered steps r rs x v t hsteps hr _ ih =>
    have hfirst := hrs r List.mem_cons_self
    have hrest := ih fun q hq => hrs q (List.mem_cons_of_mem _ hq)
    rw [hr] at hfirst
    have hdispatched := hfirst.value v rfl
    have hvalue : t.steps = steps + dispatches (events r) := by
      rw [← hsteps]
      exact hfirst.exact hdispatched
    rw [List.flatMap_cons]
    constructor
    · intro a ha e he
      rcases List.mem_append.1 he with he | he
      · exact hdispatched e he
      · exact hrest.value a ha e he
    · intro hall
      have hexact := hrest.exact fun e he => hall e (List.mem_append_right _ he)
      rw [hexact, hvalue, dispatches_append, Nat.add_assoc]
    · intro k hk hle
      have hwithin := hfirst.within k hk (hsteps ▸ hle)
      have hmore := hrest.within k hk (by omega)
      rw [dispatches_append]
      omega
  | @failed steps r e t u hsteps hr hu =>
    have hfirst := hrs r List.mem_cons_self
    rw [hr, hsteps] at hfirst
    rw [List.flatMap_cons, List.flatMap_nil, List.append_nil]
    constructor
    · intro a ha
      cases ha
    · intro hall
      exact hu.trans (hfirst.exact hall)
    · exact hfirst.within

theorem le_of_limitAt?_eq_none {steps k : Nat} (h : run.limitAt? steps = none)
    (hk : run.limits.steps = some k) : steps ≤ k := by
  have hnone := (Option.or_eq_none_iff.1 h).1
  rw [hk, Option.bind_some] at hnone
  refine Nat.not_lt.1 fun hlt => ?_
  rw [if_pos hlt] at hnone
  cases hnone

theorem counts_refused (limit : Option Nat) (steps : Nat) (cause : Fault) (span : Span)
    (depth : Nat) {α : Type} (e : Failure) (t : RunState) :
    Counts limit steps [.refused cause span depth] ((.error e, t) : Except Failure α × RunState) := by
  constructor
  · intro a ha
    cases ha
  · intro hall
    cases hall _ (List.mem_singleton_self _)
  · intro k _ hle
    exact hle

theorem counts_eval (run : Run) (room depth : Nat) (n : Node) (s : RunState) :
    Counts run.limits.steps s.steps (history run room depth n s) (eval run room n s) := by
  induction room generalizing depth n s with
  | zero => exact counts_refused ..
  | succ room ih =>
    rw [history, eval_succ]
    cases hlimit : run.limitAt? (s.steps + 1) with
    | some cause => exact counts_refused ..
    | none =>
      have hparts := counts_course (course_dispatch run room n { s with steps := s.steps + 1 })
        fun r _ => ih (depth + 1) r.node r.state
      constructor
      · intro a ha e he
        rcases List.mem_cons.1 he with rfl | he
        · rfl
        · exact hparts.value a ha e he
      · intro hall
        have hexact := hparts.exact fun e he => hall e (List.mem_cons_of_mem _ he)
        rw [hexact, dispatches_cons]
        exact Nat.add_right_comm s.steps 1 _
      · intro k hk _
        have hwithin := hparts.within k hk (le_of_limitAt?_eq_none hlimit hk)
        rw [dispatches_cons]
        change s.steps + 1 + _ ≤ k at hwithin
        omega

end Counting

section Loosening

variable {limits : Limits}

theorem captured_relimited (x : String) (span : Span) :
    captured { run with limits } x span = captured run x span := rfl

theorem capturedAll_relimited (span : Span) (names : List String) :
    capturedAll { run with limits } span names = capturedAll run span names := by
  induction names with
  | nil => rfl
  | cons x names ih => rw [capturedAll, capturedAll, captured_relimited, ih]

/-- Limits stop nothing but the evaluation of nodes. -/
theorem dispatch_relimited (ev : Node → Eval Value) (n : Node) :
    dispatch { run with limits } ev n = dispatch run ev n := by
  cases n with
  | lambda l =>
    rw [dispatch, dispatch, closure, closure, capturedAll_relimited]
    rfl
  | _ => rfl

end Loosening

end Evaluation

/-- The limits hold wherever the others do. -/
structure Limits.Looser (limits' limits : Limits) : Prop where
  depth : limits.depth ≤ limits'.depth
  steps : ∀ k', limits'.steps = some k' → ∃ k, limits.steps = some k ∧ k ≤ k'
  time : limits'.time = none

namespace Evaluation

variable {run : Run} {room depth : Nat} {n : Node} {s : RunState}

theorem limitAt?_loosened {limits : Limits} (h : limits.Looser run.limits) {steps : Nat}
    (hnone : run.limitAt? steps = none) : Run.limitAt? { run with limits } steps = none := by
  rw [Run.limitAt?, h.time, Option.bind_none, Option.or_none]
  cases hsteps : limits.steps with
  | none => rfl
  | some k' =>
    obtain ⟨k, hk, hle⟩ := h.steps k' hsteps
    have hwithin := le_of_limitAt?_eq_none hnone hk
    exact if_neg (by omega)

/-- Where no node is refused, looser limits leave the outcome as it is. -/
theorem eval_loosened {limits : Limits} (h : limits.Looser run.limits) {room' : Nat}
    (hroom : room ≤ room')
    (hhistory : ∀ cause span at', .refused cause span at' ∉ history run room depth n s) :
    eval { run with limits } room' n s = eval run room n s := by
  induction room generalizing room' depth n s with
  | zero => exact absurd (List.mem_singleton_self _) (hhistory _ _ _)
  | succ room ih =>
    obtain ⟨room', rfl⟩ : ∃ m, room' = m + 1 := ⟨room' - 1, by omega⟩
    rw [history] at hhistory
    rw [eval_succ, eval_succ]
    cases hlimit : run.limitAt? (s.steps + 1) with
    | some cause =>
      rw [hlimit] at hhistory
      exact absurd (List.mem_singleton_self _) (hhistory _ _ _)
    | none =>
      rw [limitAt?_loosened h hlimit]
      simp only [hlimit, List.mem_cons, reduceCtorEq, false_or, List.mem_flatMap] at hhistory
      rw [dispatch_relimited]
      refine (Asks.dispatch n).congr _ fun r hr => ?_
      refine @ih (depth + 1) r.node r.state room' (by omega) fun cause span at' hmem => ?_
      exact hhistory cause span at' ⟨r, hr, hmem⟩

theorem limitAt?_untimed (htime : run.limits.time = none) {steps : Nat} {cause : Fault}
    (h : run.limitAt? steps = some cause) :
    ∃ k, run.limits.steps = some k ∧ cause = .tooManySteps k := by
  rw [Run.limitAt?, htime, Option.bind_none, Option.or_none] at h
  obtain ⟨k, hk, hcause⟩ := Option.bind_eq_some_iff.1 h
  split at hcause <;> cases hcause
  exact ⟨k, hk, rfl⟩

end Evaluation

namespace Artifact

/-- The history of an evaluation. Nothing happens where the binding lacks a name. -/
def history (host : Host) (number : Nat) (limits : Limits) (a : Artifact) (b : Binding) :
    List Event :=
  match a.missing? b with
  | some _ => []
  | none => Evaluation.history (run host number limits b) limits.depth 0 a.body .start

theorem history_of_supplied {host : Host} {number : Nat} {limits : Limits} {a : Artifact}
    {b : Binding} (h : a.missing? b = none) :
    a.history host number limits b =
      Evaluation.history (run host number limits b) limits.depth 0 a.body .start := by
  rw [history, h]

theorem evaluate_eq_fault_iff {host : Host} {number : Nat} {limits : Limits} {a : Artifact}
    {b : Binding} (h : a.missing? b = none) {cause : Fault} {span : Span} :
    a.evaluate host number limits b = .error ⟨a.name, .fault cause span⟩ ↔
      (Evaluation.eval (run host number limits b) limits.depth a.body .start).1 =
        .error (.fault cause span) := by
  rw [evaluate_of_supplied h]
  constructor
  · intro herror
    cases hend : (Evaluation.eval (run host number limits b) limits.depth a.body .start).1 with
    | ok v =>
      rw [hend] at herror
      cases herror
    | error e =>
      rw [hend] at herror
      cases herror
      rfl
  · intro hend
    rw [hend]
    rfl

/-- Limits on depth and steps are transparent. If they refuse no node, looser limits give the same
outcome. If they refuse one, its refusal is the outcome, and it reports the limit itself; no other
resource faults are there but those of natives. At most as many nodes are dispatched as steps are
allowed, and only at depths below the limit. -/
theorem evaluate_limits (host : Host) (number : Nat) (a : Artifact) (b : Binding)
    {limits limits' : Limits} (htime : limits.time = none) (hlooser : limits'.Looser limits) :
    ((∀ cause span depth, .refused cause span depth ∉ a.history host number limits b) →
      a.evaluate host number limits' b = a.evaluate host number limits b) ∧
    (∀ cause span depth, .refused cause span depth ∈ a.history host number limits b →
      a.evaluate host number limits b = .error ⟨a.name, .fault cause span⟩ ∧
        (cause = .tooDeep limits.depth limits.depth ∨
          ∃ k, limits.steps = some k ∧ cause = .tooManySteps k)) ∧
    (∀ cause span, a.evaluate host number limits b = .error ⟨a.name, .fault cause span⟩ →
      cause.isResource = true →
        (∃ depth, .refused cause span depth ∈ a.history host number limits b) ∨
          ∃ f args, Native.run host f args = .error cause) ∧
    (∀ k, limits.steps = some k →
      Evaluation.dispatches (a.history host number limits b) ≤ k) ∧
    ∀ n depth, .dispatched n depth ∈ a.history host number limits b → depth < limits.depth := by
  cases hmissing : a.missing? b with
  | some v =>
    have hnone : a.history host number limits b = [] := by rw [history, hmissing]
    rw [hnone, evaluate_of_missing hmissing, evaluate_of_missing hmissing]
    refine ⟨?_, ?_, ?_, ?_, ?_⟩
    · intro _
      rfl
    · intro cause span depth h
      cases h
    · intro cause span h
      cases h
    · intro k _
      exact Nat.zero_le k
    · intro n depth h
      cases h
  | none =>
    have hroom : limits.depth + 0 = (run host number limits b).limits.depth := rfl
    rw [history_of_supplied hmissing]
    refine ⟨?_, ?_, ?_, ?_, ?_⟩
    · intro hhistory
      have hlimits : limits'.Looser (run host number limits b).limits := hlooser
      have hsame : Evaluation.eval (run host number limits' b) limits'.depth a.body .start =
          Evaluation.eval (run host number limits b) limits.depth a.body .start :=
        Evaluation.eval_loosened hlimits hlooser.depth hhistory
      rw [evaluate_of_supplied hmissing, evaluate_of_supplied hmissing, hsame]
    · intro cause span depth hrefused
      constructor
      · rw [evaluate_eq_fault_iff hmissing]
        exact Evaluation.eval_of_refused hroom hrefused
      · rcases Evaluation.bounded_of_mem_history hroom hrefused with ⟨hcause, hdepth⟩ | ⟨_, hlimit⟩
        · left
          rw [hcause, hdepth]
          rfl
        · right
          exact Evaluation.limitAt?_untimed htime hlimit
    · intro cause span herror hresource
      rw [evaluate_eq_fault_iff hmissing] at herror
      exact Evaluation.refused_of_eval hroom herror hresource
    · intro k hk
      have hcounts := Evaluation.counts_eval (run host number limits b) limits.depth 0 a.body .start
      have hwithin := hcounts.within k hk (Nat.zero_le k)
      change 0 + _ ≤ k at hwithin
      rwa [Nat.zero_add] at hwithin
    · intro n depth hdispatched
      exact Evaluation.bounded_of_mem_history hroom hdispatched

/-- A list that just fits its limits, and does not fit a smaller depth. -/
theorem evaluate_limits_list :
    (⟨0, "list", .list [.constant .nil ⟨1, 4⟩] ⟨0, 5⟩, []⟩ : Artifact).evaluate .bare 0 {} ∅ =
      (⟨0, "list", .list [.constant .nil ⟨1, 4⟩] ⟨0, 5⟩, []⟩ : Artifact).evaluate .bare 0
        ⟨2, some 2, none⟩ ∅ ∧
    (⟨0, "list", .list [.constant .nil ⟨1, 4⟩] ⟨0, 5⟩, []⟩ : Artifact).evaluate .bare 0
        ⟨1, some 2, none⟩ ∅ = .error ⟨"list", .fault (.tooDeep 1 1) ⟨1, 4⟩⟩ := by
  constructor
  · have hlooser : Limits.Looser {} ⟨2, some 2, none⟩ := by
      refine ⟨by decide, ?_, rfl⟩
      intro k hk
      cases hk
    refine (evaluate_limits .bare 0 _ ∅ rfl hlooser).1 fun cause span depth h => ?_
    have hhistory : (⟨0, "list", .list [.constant .nil ⟨1, 4⟩] ⟨0, 5⟩, []⟩ : Artifact).history .bare
        0 ⟨2, some 2, none⟩ ∅ =
          [.dispatched (.list [.constant .nil ⟨1, 4⟩] ⟨0, 5⟩) 0,
            .dispatched (.constant .nil ⟨1, 4⟩) 1] := rfl
    rw [hhistory] at h
    simp at h
  · have hlooser : Limits.Looser ⟨1, some 2, none⟩ ⟨1, some 2, none⟩ :=
      ⟨Nat.le_refl 1, fun k hk => ⟨k, hk, Nat.le_refl k⟩, rfl⟩
    have hhistory : (⟨0, "list", .list [.constant .nil ⟨1, 4⟩] ⟨0, 5⟩, []⟩ : Artifact).history .bare
        0 ⟨1, some 2, none⟩ ∅ =
          [.dispatched (.list [.constant .nil ⟨1, 4⟩] ⟨0, 5⟩) 0,
            .refused (.tooDeep 1 1) ⟨1, 4⟩ 1] := rfl
    refine ((evaluate_limits .bare 0 _ ∅ rfl hlooser).2.1 (.tooDeep 1 1) ⟨1, 4⟩ 1 ?_).1
    rw [hhistory]
    simp

end Artifact

end Scriptlet
