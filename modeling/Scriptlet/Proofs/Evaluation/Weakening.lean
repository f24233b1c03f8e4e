import Scriptlet.Proofs.Evaluation.Comparison

/-!
Evaluation where some scopes more stand in the middle of the stack. A node that reads no name of
these scopes does not notice them: the scopes that it opens itself are above them, and the code of a
closure runs in a stack of its own.
-/

namespace Scriptlet

/-- Failures that differ in their place at most. -/
inductive Failure.SameCause : Failure → Failure → Prop where
  | unbound {x span span'} : SameCause (.unbound x span) (.unbound x span')
  | fault {cause span span'} : SameCause (.fault cause span) (.fault cause span')

/-- Failures have the same cause, except that each side may reach a limit of its own. -/
def Failure.alike : Terms Failure Failure where
  left e := e.isResource
  right e := e.isResource
  both := SameCause

namespace Scopes

variable {α : Type} {extra : List (Scope α)} {k : Nat} {s t : Scopes α}

/-- No scope of the list shows the name. -/
def Silent (extra : List (Scope α)) (x : String) : Prop := ∀ scope ∈ extra, scope.lookup x = none

theorem lookup_append (inner outer : List (Scope α)) (x : String) :
    (Scopes.mk (inner ++ outer)).lookup x = ((Scopes.mk inner).lookup x).or
      ((Scopes.mk outer).lookup x) := by
  induction inner with
  | nil => rfl
  | cons scope inner ih => rw [List.cons_append, lookup_cons, lookup_cons, ih, Option.or_assoc]

theorem Silent.lookup {x : String} (h : Silent extra x) : (Scopes.mk extra).lookup x = none := by
  induction extra with
  | nil => rfl
  | cons scope extra ih =>
    obtain ⟨hscope, hrest⟩ := List.forall_mem_cons.1 h
    rw [lookup_cons, hscope, Option.none_or, ih hrest]

/-- The second stack has some scopes more, right under the innermost `k`. -/
def Inserted (extra : List (Scope α)) (k : Nat) (s t : Scopes α) : Prop :=
  ∃ inner outer, inner.length = k ∧ s.toList = inner ++ outer ∧ t.toList = inner ++ (extra ++ outer)

namespace Inserted

theorem refl (s : Scopes α) : Inserted [] 0 s s := ⟨[], s.toList, rfl, rfl, rfl⟩

theorem of_push (s : Scopes α) (scope : Scope α) : Inserted [scope] 0 s (s.push scope) :=
  ⟨[], s.toList, rfl, rfl, rfl⟩

theorem lookup (h : Inserted extra k s t) {x : String} (hx : Silent extra x) :
    s.lookup x = t.lookup x := by
  obtain ⟨inner, outer, -, hs, ht⟩ := h
  have hst : s = ⟨inner ++ outer⟩ ∧ t = ⟨inner ++ (extra ++ outer)⟩ :=
    ⟨congrArg Scopes.mk hs, congrArg Scopes.mk ht⟩
  rw [hst.1, hst.2, lookup_append, lookup_append, lookup_append extra, hx.lookup, Option.none_or]

theorem push (h : Inserted extra k s t) (scope : Scope α) :
    Inserted extra (k + 1) (s.push scope) (t.push scope) := by
  obtain ⟨inner, outer, hk, hs, ht⟩ := h
  refine ⟨scope :: inner, outer, by rw [List.length_cons, hk], ?_, ?_⟩
  · rw [Scopes.push, hs, List.cons_append]
  · rw [Scopes.push, ht, List.cons_append]

theorem pop (h : Inserted extra (k + 1) s t) :
    ∃ s' t', s.pop = .ok s' ∧ t.pop = .ok t' ∧ Inserted extra k s' t' := by
  obtain ⟨_ | ⟨scope, inner⟩, outer, hk, hs, ht⟩ := h
  · cases hk
  · refine ⟨⟨inner ++ outer⟩, ⟨inner ++ (extra ++ outer)⟩, ?_, ?_, inner, outer, ?_, rfl, rfl⟩
    · rw [Scopes.pop, hs, List.cons_append]
    · rw [Scopes.pop, ht, List.cons_append]
    · exact Nat.succ.inj hk

/-- Binding goes to the innermost scope, which is the same in both stacks. -/
theorem bind (h : Inserted extra (k + 1) s t) (x : String) (v : α) :
    (∃ e, s.bind x v = .error e ∧ t.bind x v = .error e) ∨
      ∃ s' t', s.bind x v = .ok s' ∧ t.bind x v = .ok t' ∧ Inserted extra (k + 1) s' t' := by
  obtain ⟨_ | ⟨scope, inner⟩, outer, hk, hs, ht⟩ := h
  · cases hk
  · rw [Scopes.bind, Scopes.bind, hs, ht, List.cons_append, List.cons_append]
    cases hscope : scope.bind x v with
    | error e =>
      refine .inl ⟨e, ?_, ?_⟩ <;>
      · simp only [hscope]
        rfl
    | ok scope' =>
      refine .inr ⟨⟨scope' :: (inner ++ outer)⟩, ⟨scope' :: (inner ++ (extra ++ outer))⟩, ?_, ?_,
        scope' :: inner, outer, hk, rfl, rfl⟩ <;>
      · simp only [hscope]
        rfl

end Inserted

end Scopes

/-- States of which the second has some scopes more. The next closures get the same identities. -/
structure RunState.Beside (extra : List (Scope Value)) (k : Nat) (s t : RunState) : Prop where
  scopes : s.scopes.Inserted extra k t.scopes
  made : s.made = t.made

/-- The computations end alike from such states, with one value, and leave such states. -/
def Eval.Matches (extra : List (Scope Value)) (k : Nat) {α : Type} (x y : Eval α) : Prop :=
  ∀ s t, RunState.Beside extra k s t →
    Ends Failure.alike (fun a s' b t' => a = b ∧ RunState.Beside extra k s' t') (x s) (y t)

/-- Evaluating the node reads the name in the scopes, as a local name or to keep it in a closure. -/
inductive Node.Reads (x : String) (n : Node) : Prop where
  | localName {span} (h : (Node.localName x span).Within n)
  | captured {l} (h : (Node.lambda l).Within n) (hx : x ∈ l.captures)

theorem Node.Reads.part {x : String} {n m : Node} (h : m.Reads x) (hm : m ∈ n.parts) :
    n.Reads x := by
  cases h with
  | localName h => exact .localName (.part hm h)
  | captured h hx => exact .captured (.part hm h) hx

namespace Eval.Matches

variable {extra : List (Scope Value)} {k : Nat} {α β : Type} {x y : Eval α}

theorem pure (a : α) : Matches extra k (Pure.pure a) (Pure.pure a) :=
  fun _ _ hs => .values ⟨rfl, hs⟩

theorem bind {f g : α → Eval β} (h : Matches extra k x y) (hf : ∀ a, Matches extra k (f a) (g a)) :
    Matches extra k (x >>= f) (y >>= g) := by
  intro s t hs
  refine (h s t hs).bind fun a s' b t' hq => ?_
  obtain ⟨rfl, hs'⟩ := hq
  exact hf a s' t' hs'

theorem fault (cause : Fault) (span span' : Span) :
    Matches extra k (Eval.fault (α := α) cause span) (Eval.fault cause span') :=
  fun _ _ _ => .failures .fault

theorem unbound (name : String) (span : Span) :
    Matches extra k (throw (.unbound name span) : Eval α) (throw (.unbound name span)) :=
  fun _ _ _ => .failures .unbound

theorem ofFault (span span' : Span) (r : Except Fault α) :
    Matches extra k (Eval.ofFault span r) (Eval.ofFault span' r) := by
  cases r with
  | ok a => exact .pure a
  | error cause => exact .fault cause span span'

theorem lookup {name : String} (h : Scopes.Silent extra name) :
    Matches extra k (Eval.lookup name) (Eval.lookup name) :=
  fun _ _ hs => .values ⟨hs.scopes.lookup h, hs⟩

theorem newIdentity (run : Run) :
    Matches extra k (Eval.newIdentity run) (Eval.newIdentity run) := by
  intro s t hs
  rw [Eval.newIdentity_run, Eval.newIdentity_run, hs.made]
  exact .values ⟨rfl, hs.scopes, rfl⟩

/-- In a frame of their own, both sides have the same scopes. -/
theorem inFrame {frame : Scopes Value} (h : Matches [] 0 x y) :
    Matches extra k (Eval.inFrame frame x) (Eval.inFrame frame y) := by
  intro s t hs
  rw [Eval.inFrame_run, Eval.inFrame_run]
  have hframe : RunState.Beside [] 0 { s with scopes := frame } { t with scopes := frame } :=
    ⟨.refl frame, hs.made⟩
  refine (h _ _ hframe).afterwards (f := fun u => { u with scopes := s.scopes })
    (g := fun u => { u with scopes := t.scopes }) fun a s' b t' hq => ?_
  exact ⟨hq.1, hs.scopes, hq.2.made⟩

/-- A scope that is opened stands above those that were inserted. -/
theorem inScope {scope : Scope Value} (h : Matches extra (k + 1) x y) :
    Matches extra k (Eval.inScope scope x) (Eval.inScope scope y) := by
  intro s t hs
  rw [Eval.inScope_run, Eval.inScope_run]
  have hopen : RunState.Beside extra (k + 1) { s with scopes := s.scopes.push scope }
      { t with scopes := t.scopes.push scope } :=
    ⟨hs.scopes.push scope, hs.made⟩
  refine (h _ _ hopen).afterwards fun a s' b t' hq => ?_
  obtain ⟨rfl, hs'⟩ := hq
  obtain ⟨ss, ts, hpop, hpop', hscopes⟩ := hs'.scopes.pop
  rw [RunState.popped, RunState.popped, hpop, hpop']
  exact ⟨rfl, hscopes, hs'.made⟩

theorem bindName (name : String) (v : Value) (span : Span) :
    Matches extra (k + 1) (Eval.bindName name v span) (Eval.bindName name v span) := by
  intro s t hs
  rw [Eval.bindName_eq, Eval.bindName_eq]
  rcases hs.scopes.bind name v with ⟨e, hbind, hbind'⟩ | ⟨ss, ts, hbind, hbind', hscopes⟩
  · rw [hbind, hbind']
    exact .failures .fault
  · rw [hbind, hbind']
    exact .values ⟨rfl, hscopes, hs.made⟩

/-- The sides may have taken different numbers of steps, so that a limit stops one of them only. -/
theorem tick (run : Run) (span : Span) :
    Matches extra k (Eval.tick run span) (Eval.tick run span) := by
  intro s t hs
  rw [Eval.tick_run, Eval.tick_run]
  cases hl : run.limitAt? (s.steps + 1) with
  | some cause => exact .left (Run.isResource_limitAt? hl)
  | none =>
    cases hr : run.limitAt? (t.steps + 1) with
    | some cause => exact .right (Run.isResource_limitAt? hr)
    | none => exact .values ⟨rfl, hs.scopes, hs.made⟩

end Eval.Matches

namespace Evaluation

open Eval (Matches)
open Scopes (Silent)

variable {run : Run} {ev ev' : Node → Eval Value} {extra : List (Scope Value)} {k : Nat}
  {nodes : List Node}

/-- The evaluators end alike on nodes that read no name of the scopes that were inserted. -/
def Weakens (ev ev' : Node → Eval Value) : Prop :=
  ∀ extra k n, (∀ x, n.Reads x → Silent extra x) → Matches extra k (ev n) (ev' n)

theorem body_matches (h : ∀ n ∈ nodes, Matches extra k (ev n) (ev' n)) (last : Value) :
    Matches extra k (body ev last nodes) (body ev' last nodes) := by
  induction nodes generalizing last with
  | nil => exact .pure last
  | cons n nodes ih =>
    obtain ⟨hn, hrest⟩ := List.forall_mem_cons.1 h
    exact hn.bind fun v => ih hrest v

theorem firstDeciding_matches (h : ∀ n ∈ nodes, Matches extra k (ev n) (ev' n))
    (decides : Value → Bool) (last : Value) :
    Matches extra k (firstDeciding ev decides last nodes)
      (firstDeciding ev' decides last nodes) := by
  induction nodes generalizing last with
  | nil => exact .pure last
  | cons n nodes ih =>
    obtain ⟨hn, hrest⟩ := List.forall_mem_cons.1 h
    refine hn.bind fun v => ?_
    split
    · exact .pure v
    · exact ih hrest v

theorem args_matches (h : ∀ n ∈ nodes, Matches extra k (ev n) (ev' n)) :
    Matches extra k (args ev nodes) (args ev' nodes) := by
  induction nodes with
  | nil => exact .pure []
  | cons n nodes ih =>
    obtain ⟨hn, hrest⟩ := List.forall_mem_cons.1 h
    refine hn.bind fun v => ?_
    exact (ih hrest).bind fun vs => .pure (v :: vs)

theorem bindAll_matches {bindings : List (String × Node)}
    (h : ∀ p ∈ bindings, Matches extra (k + 1) (ev p.2) (ev' p.2)) (span : Span) :
    Matches extra (k + 1) (bindAll ev span bindings) (bindAll ev' span bindings) := by
  induction bindings with
  | nil => exact .pure ()
  | cons p bindings ih =>
    obtain ⟨hp, hrest⟩ := List.forall_mem_cons.1 h
    refine hp.bind fun v => ?_
    exact (Matches.bindName p.1 v span).bind fun _ => ih hrest

theorem bind_matches {bindings : List (String × Node)} {span : Span}
    (h : ∀ p ∈ bindings, Matches extra (k + 1) (ev p.2) (ev' p.2))
    (hnodes : ∀ n ∈ nodes, Matches extra (k + 1) (ev n) (ev' n)) :
    Matches extra k (bind ev bindings nodes span) (bind ev' bindings nodes span) := by
  unfold bind
  split
  · exact .fault _ span span
  · refine Matches.inScope ?_
    exact (bindAll_matches h span).bind fun _ => body_matches hnodes .nil

theorem captured_matches {x : String} (hx : Silent extra x) (span : Span) :
    Matches extra k (captured run x span) (captured run x span) := by
  refine (Matches.lookup hx).bind fun v => ?_
  cases v with
  | some v => exact .pure v
  | none =>
    cases run.binding.get? x with
    | some v => exact .pure v
    | none => exact .unbound x span

theorem capturedAll_matches {names : List String} (h : ∀ x ∈ names, Silent extra x) (span : Span) :
    Matches extra k (capturedAll run span names) (capturedAll run span names) := by
  induction names with
  | nil => exact .pure []
  | cons x names ih =>
    obtain ⟨hx, hrest⟩ := List.forall_mem_cons.1 h
    refine (captured_matches hx span).bind fun v => ?_
    exact (ih hrest).bind fun kept => .pure ((x, v) :: kept)

theorem closure_matches {l : Lambda} (h : ∀ x ∈ l.captures, Silent extra x) :
    Matches extra k (closure run l) (closure run l) := by
  refine (capturedAll_matches h l.span).bind fun kept => ?_
  exact (Matches.newIdentity run).bind fun i => .pure _

/-- The code of a closure sees nothing of what was inserted. -/
theorem enter_matches (hev : Weakens ev ev') (l : Lambda) (kept : List (String × Value))
    (values : List Value) (span : Span) :
    Matches extra k (enter ev l kept values span) (enter ev' l kept values span) := by
  unfold enter
  split
  · exact .fault _ span span
  · refine Matches.inFrame (body_matches (fun n _ => ?_) .nil)
    exact hev [] 0 n fun x _ scope hscope => nomatch hscope

theorem apply_matches (hev : Weakens ev ev') (callee : Value) (values : List Value) (span : Span) :
    Matches extra k (apply run ev callee values span) (apply run ev' callee values span) := by
  cases callee with
  | function f =>
    simp only [apply]
    split
    · cases f with
      | native f => exact .ofFault span span (run.invoke f values)
      | closure i l kept => exact enter_matches hev l kept values span
    · exact .fault _ span span
  | _ => exact .fault _ span span

/-- One step: if the parts of nodes do not notice the scopes, neither do the nodes. -/
theorem dispatch_weakens (hev : Weakens ev ev') :
    Weakens (dispatch run ev) (dispatch run ev') := by
  intro extra k n hn
  have hpart : ∀ {m}, m ∈ n.parts → ∀ j, Matches extra j (ev m) (ev' m) :=
    fun hm j => hev extra j _ fun x hx => hn x (hx.part hm)
  cases n with
  | constant v span => exact .pure v
  | localName x span =>
    refine (Matches.lookup (hn x (.localName .self))).bind fun v => ?_
    cases v with
    | some v => exact .pure v
    | none => exact .unbound x span
  | freeName x span =>
    simp only [dispatch]
    cases run.binding.get? x with
    | some v => exact .pure v
    | none => exact .unbound x span
  | list items span => exact (args_matches fun m hm => hpart hm k).bind fun vs => .pure _
  | branch cond yes no span =>
    refine (hpart (by simp [Node.parts]) k).bind fun v => ?_
    split
    · exact hpart (by simp [Node.parts]) k
    · cases no with
      | none => exact .pure Value.nil
      | some no => exact hpart (by simp [Node.parts]) k
  | block nodes span => exact body_matches (fun m hm => hpart hm k) Value.nil
  | bind bindings nodes span =>
    refine bind_matches (fun p hp => hpart ?_ (k + 1)) fun m hm => hpart ?_ (k + 1)
    · exact List.mem_append_left _ (List.mem_map_of_mem hp)
    · exact List.mem_append_right _ hm
  | lambda l => exact closure_matches fun x hx => hn x (.captured .self hx)
  | allOf items span => exact firstDeciding_matches (fun m hm => hpart hm k) _ _
  | anyOf items span => exact firstDeciding_matches (fun m hm => hpart hm k) _ _
  | nativeCall f args span =>
    exact (args_matches fun m hm => hpart hm k).bind fun vs => .ofFault span span _
  | call callee args span =>
    refine (hpart List.mem_cons_self k).bind fun v => ?_
    refine (args_matches fun m hm => hpart (List.mem_cons_of_mem _ hm) k).bind fun vs => ?_
    exact apply_matches hev v vs span

/-- At any depths, a node does not notice scopes of which it reads no name. -/
theorem eval_weakens (run : Run) (room room' : Nat) :
    Weakens (eval run room) (eval run room') := by
  induction room generalizing room' with
  | zero => exact fun extra k n _ s t _ => .left rfl
  | succ room ih =>
    cases room' with
    | zero => exact fun extra k n _ s t _ => .right rfl
    | succ room' =>
      intro extra k n hn
      refine (Matches.tick run n.span).bind fun _ => ?_
      exact dispatch_weakens (ih room') extra k n hn

end Evaluation

end Scriptlet
