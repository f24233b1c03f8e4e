import Mathlib.Algebra.Order.Ring.GeomSum
import Scriptlet.Proofs.Evaluation.Code
import Scriptlet.Proofs.Evaluation.Limits
import Scriptlet.Proofs.Evaluation.Parts

/-!
Evaluation ends, whatever the script does, and the limit on the depth alone bounds the steps. Each
node that is evaluated asks for a number of evaluations that its code bounds, and a call for those
of a closure's body besides; the limit cuts the tree of these requests at a height.
-/

namespace Scriptlet

namespace Evaluation

/-- The evaluation of a node around which so many nodes are being evaluated comes to an end. All
that the node asks for is evaluated one level deeper, and has to come to its end first. -/
inductive ComesTo (run : Run) : Nat → Node → RunState → Except Failure Value × RunState → Prop where
  | tooDeep {depth n s} (h : run.limits.depth ≤ depth) :
      ComesTo run depth n s (.error (.fault (.tooDeep depth run.limits.depth) n.span), s)
  | refused {depth n s cause} (hdepth : depth < run.limits.depth)
      (hlimit : run.limitAt? (s.steps + 1) = some cause) :
      ComesTo run depth n s (.error (.fault cause n.span), { s with steps := s.steps + 1 })
  | dispatched {depth n s} (answer : Node → Eval Value) (hdepth : depth < run.limits.depth)
      (hlimit : run.limitAt? (s.steps + 1) = none)
      (hanswer : ∀ r ∈ Request.ofNode answer n { s with steps := s.steps + 1 },
        ComesTo run (depth + 1) r.node r.state (answer r.node r.state)) :
      ComesTo run depth n s (dispatch run answer n { s with steps := s.steps + 1 })

variable {run : Run} {room depth : Nat} {n : Node} {s : RunState}

/-- The evaluator comes to an end from every depth up to the limit. -/
theorem comesTo_eval (h : room + depth = run.limits.depth) :
    ComesTo run depth n s (eval run room n s) := by
  induction room generalizing depth n s with
  | zero =>
    have hdepth : run.limits.depth = depth := by omega
    have hend : ComesTo run depth n s _ := .tooDeep hdepth.le
    rw [hdepth] at hend
    rw [eval, hdepth]
    exact hend
  | succ room ih =>
    have hdepth : depth < run.limits.depth := by omega
    have hroom : room + (depth + 1) = run.limits.depth := by omega
    rw [eval_succ]
    cases hlimit : run.limitAt? (s.steps + 1) with
    | some cause => exact .refused hdepth hlimit
    | none => exact .dispatched (eval run room) hdepth hlimit fun r _ => ih hroom

/-- There is no other end. -/
theorem ComesTo.eq_eval {x : Except Failure Value × RunState} (hx : ComesTo run depth n s x)
    (h : room + depth = run.limits.depth) : x = eval run room n s := by
  induction hx generalizing room with
  | @tooDeep depth n s hdeep =>
    have hzero : room = 0 := by omega
    have hdepth : depth = run.limits.depth := by omega
    subst hzero
    rw [hdepth]
    rfl
  | @refused depth n s cause hdepth hlimit =>
    obtain ⟨room, rfl⟩ : ∃ m, room = m + 1 := ⟨room - 1, by omega⟩
    rw [eval_succ, hlimit]
  | @dispatched depth n s answer hdepth hlimit _ ih =>
    obtain ⟨room, rfl⟩ : ∃ m, room = m + 1 := ⟨room - 1, by omega⟩
    have hroom : room + (depth + 1) = run.limits.depth := by omega
    rw [eval_succ, hlimit]
    exact ((Asks.dispatch n).congr (eval run room) fun r hr => (ih r hr hroom).symm).symm

end Evaluation

section Spread

/-- The most evaluations that a node can ask for itself, where no body of a closure has more nodes
than given. -/
def Node.spread (longest : Nat) : Node → Nat
  | .constant .. | .localName .. | .freeName .. | .lambda _ => 0
  | .list nodes _ | .block nodes _ | .allOf nodes _ | .anyOf nodes _ | .nativeCall _ nodes _ =>
    nodes.length
  | .branch .. => 2
  | .bind bindings nodes _ => bindings.length + nodes.length
  | .call _ nodes _ => 1 + nodes.length + longest

/-- The node asks for at most so many evaluations, and as a `fn` it has at most so many nodes in its
body. -/
structure Node.Fits (width longest : Nat) (n : Node) : Prop where
  spread : n.spread longest ≤ width
  body : ∀ l, n = .lambda l → l.body.length ≤ longest

namespace Request

variable {ev : Node → Eval Value} {s : RunState}

theorem length_after_le {α : Type} {x : Except Failure α × RunState}
    {next : α → RunState → List Request} {k : Nat}
    (h : ∀ a t, x = (.ok a, t) → (next a t).length ≤ k) : (after x next).length ≤ k := by
  rcases x with ⟨_ | a, t⟩
  · exact Nat.zero_le k
  · exact h a t rfl

theorem length_ofParts_le (n : Node) : (ofParts ev n s).length ≤ n.spread 0 := by
  have hparts : (ofParts ev n s).length ≤ n.parts.length := by
    rw [← List.length_map (·.node)]
    exact (sublist_ofParts n).length_le
  cases n with
  | constant | localName | freeName | lambda => exact Nat.le_refl 0
  | list | block | allOf | anyOf | nativeCall => exact hparts
  | branch cond yes no span =>
    -- Only one of the two branches is evaluated.
    refine Nat.succ_le_succ (length_after_le fun c t _ => ?_)
    split
    · exact Nat.le_refl 1
    · cases no with
      | none => exact Nat.zero_le 1
      | some no => exact Nat.le_refl 1
  | bind bindings nodes span =>
    rw [Node.parts, List.length_append, List.length_map] at hparts
    exact hparts
  | call callee nodes span =>
    rw [Node.parts, List.length_cons] at hparts
    rw [Node.spread]
    omega

variable {width longest : Nat}

/-- A closure asks for the nodes of its body. -/
theorem length_ofApply_le {callee : Value} (h : callee.Over (Node.Fits width longest))
    (values : List Value) : (ofApply ev callee values s).length ≤ longest := by
  unfold ofApply
  split
  · next l kept =>
    have hbody : l.body.length ≤ longest := h.code.self.body l rfl
    split
    · unfold ofEnter
      split
      · exact Nat.zero_le _
      · rw [← List.length_map (·.node)]
        exact (sublist_ofNodes _ l.body).length_le.trans hbody
    · exact Nat.zero_le _
  · exact Nat.zero_le _

/-- A node asks for no more evaluations than its code says. -/
theorem length_ofNode_le {n : Node} (hn : n.Over (Node.Fits width longest))
    (hev : ∀ m, m.Over (Node.Fits width longest) →
      Keeps (Node.Fits width longest) (Value.Over (Node.Fits width longest)) (ev m))
    (hs : s.scopes.All (Value.Over (Node.Fits width longest))) :
    (ofNode ev n s).length ≤ n.spread longest := by
  have hparts : (ofParts ev n s).length ≤ n.spread 0 := length_ofParts_le n
  rw [ofNode_eq, List.length_append]
  cases n with
  | call callee nodes span =>
    have hcallee := hev callee (hn.part List.mem_cons_self) s hs
    have hbody : (ofBody ev (.call callee nodes span) s).length ≤ longest := by
      refine length_after_le fun f t hf => length_after_le fun values u _ => ?_
      exact length_ofApply_le (hcallee.value f (by rw [hf])) values
    rw [Node.spread] at hparts ⊢
    omega
  | _ => exact hparts

end Request

/-- Steps are bounded by the requests and what each of them takes. -/
theorem Course.steps_le {α : Type} {invoke : Native → List Value → Except Fault Value}
    {ev : Node → Eval Value} {steps most : Nat} {rs : List Request}
    {x : Except Failure α × RunState} (h : Course invoke ev steps rs x)
    (hrs : ∀ r ∈ rs, (ev r.node r.state).2.steps ≤ r.state.steps + most) :
    x.2.steps ≤ steps + rs.length * most := by
  induction h with
  | done hsteps _ => exact hsteps.le.trans (Nat.le_add_right _ _)
  | @answered steps r rs x v t hsteps hr _ ih =>
    obtain ⟨hfirst, hrest⟩ := List.forall_mem_cons.1 hrs
    have hmore := ih hrest
    rw [hr, hsteps] at hfirst
    rw [List.length_cons, Nat.succ_mul]
    simp only at hfirst
    omega
  | @failed steps r e t u hsteps hr hu =>
    have hfirst := List.forall_mem_singleton.1 hrs
    rw [hr, hsteps] at hfirst
    rw [List.length_singleton, Nat.one_mul, hu]
    exact hfirst

/-- A node takes one step for itself, and each of its requests goes one level deeper. -/
theorem Evaluation.steps_eval_le {run : Run} {width longest : Nat}
    (hrun : run.Over (Node.Fits width longest)) (room : Nat) {n : Node}
    (hn : n.Over (Node.Fits width longest)) {s : RunState}
    (hs : s.scopes.All (Value.Over (Node.Fits width longest))) :
    (eval run room n s).2.steps ≤ s.steps + ∑ i ∈ Finset.range room, width ^ i := by
  -- Not on the node: the body of a closure that it calls is no part of it.
  induction room generalizing n s with
  | zero => exact Nat.le_add_right _ _
  | succ room ih =>
    rw [eval_succ, geom_sum_succ]
    cases run.limitAt? (s.steps + 1) with
    | some cause =>
      simp only
      omega
    | none =>
      have hev : ∀ m, m.Over (Node.Fits width longest) →
          Keeps (Node.Fits width longest) (Value.Over (Node.Fits width longest))
            (eval run room m) := fun m hm => Keeps.eval hrun room hm
      have hover : ∀ r ∈ Request.ofNode (eval run room) n { s with steps := s.steps + 1 },
          r.Over (Node.Fits width longest) := Request.over_ofNode hev hn hs
      have hcourse := (course_dispatch run room n { s with steps := s.steps + 1 }).steps_le
        fun r hr => ih (hover r hr).node (hover r hr).scopes
      have hlength : (Request.ofNode (eval run room) n { s with steps := s.steps + 1 }).length ≤
          n.spread longest := Request.length_ofNode_le hn hev hs
      have hmost := Nat.mul_le_mul_right (∑ i ∈ Finset.range room, width ^ i)
        (hlength.trans hn.self.spread)
      simp only at hcourse ⊢
      omega

end Spread

section Size

theorem length_le_sizeOf {α : Type} [SizeOf α] (as : List α) : as.length ≤ sizeOf as := by
  induction as with
  | nil => exact Nat.zero_le _
  | cons a as ih =>
    simp only [List.length_cons, List.cons.sizeOf_spec]
    omega

variable {size : Nat}

/-- All code in a value is smaller than the value. -/
theorem Value.over_sizeOf (v : Value) (h : sizeOf v ≤ size) :
    v.Over fun n => sizeOf n ≤ size := by
  induction hv : sizeOf v using Nat.strongRecOn generalizing v with
  | ind k ih =>
    subst hv
    have ih' : ∀ w : Value, sizeOf w < sizeOf v → w.Over fun n => sizeOf n ≤ size :=
      fun w hw => ih _ hw w (hw.le.trans h) rfl
    cases v with
    | nil | bool | int | float | str => exact .atom rfl
    | list vs =>
      simp only [Value.list.sizeOf_spec] at h ih'
      refine .list fun w hw => ih' w ?_
      have hsize := List.sizeOf_lt_of_mem hw
      omega
    | function f =>
      cases f with
      | native => exact .atom rfl
      | closure i l kept =>
        simp only [Value.function.sizeOf_spec, Function.closure.sizeOf_spec] at h ih'
        refine .closure (fun n hn => ?_) (fun w hw => ih' w ?_) fun p hp => ih' p.2 ?_
        · have hsize := Node.sizeOf_within hn
          simp only [Node.lambda.sizeOf_spec] at hsize
          omega
        · have hsize := Node.sizeOf_mentions hw
          simp only [Node.lambda.sizeOf_spec] at hsize
          omega
        · have hsize := sizeOf_snd_lt hp
          omega

theorem Node.over_sizeOf {n : Node} (h : sizeOf n ≤ size) : n.Over fun m => sizeOf m ≤ size :=
  ⟨fun _ hm => (sizeOf_within hm).trans h,
    fun v hv => Value.over_sizeOf v ((sizeOf_mentions hv).le.trans h)⟩

/-- A small node asks for little. -/
theorem Node.fits_sizeOf {n : Node} (h : sizeOf n ≤ size) : n.Fits (2 * size) size := by
  constructor
  · cases n with
    | constant | localName | freeName | lambda => exact Nat.zero_le _
    | list nodes span | block nodes span | allOf nodes span | anyOf nodes span
    | nativeCall f nodes span =>
      have hlength := length_le_sizeOf nodes
      simp only [Node.list.sizeOf_spec, Node.block.sizeOf_spec, Node.allOf.sizeOf_spec,
        Node.anyOf.sizeOf_spec, Node.nativeCall.sizeOf_spec] at h
      simp only [spread]
      omega
    | branch cond yes no span =>
      simp only [Node.branch.sizeOf_spec] at h
      simp only [spread]
      omega
    | bind bindings nodes span =>
      have hbindings := length_le_sizeOf bindings
      have hlength := length_le_sizeOf nodes
      simp only [Node.bind.sizeOf_spec] at h
      simp only [spread]
      omega
    | call callee nodes span =>
      have hlength := length_le_sizeOf nodes
      simp only [Node.call.sizeOf_spec] at h
      simp only [spread]
      omega
  · rintro ⟨params, captures, body, span⟩ rfl
    have hlength := length_le_sizeOf body
    simp only [Node.lambda.sizeOf_spec, Lambda.mk.sizeOf_spec] at h
    simp only [Lambda.body]
    omega

end Size

namespace Artifact

open Evaluation (ComesTo)

/-- An evaluation comes to one end and no other, under all limits on steps and time and without any,
and reports that end. There are a width that fits each node of the code that it can reach and a
length that fits each body of a closure, and for all such numbers the evaluation takes no more steps
than a tree of that width has nodes above the limit on the depth. -/
theorem evaluate_ends (host : Host) (number : Nat) (limits : Limits) (a : Artifact) (b : Binding) :
    (∃ x, ComesTo (run host number limits b) 0 a.body .start x ∧
      (∀ y, ComesTo (run host number limits b) 0 a.body .start y → y = x) ∧
      (a.missing? b = none →
        a.evaluate host number limits b = x.1.mapError fun failure => ⟨a.name, failure⟩)) ∧
    (∃ width longest, 1 ≤ width ∧ a.body.Over (Node.Fits width longest) ∧
      ∀ x v, b.get? x = some v → v.Over (Node.Fits width longest)) ∧
    ∀ width longest, a.body.Over (Node.Fits width longest) →
      (∀ x v, b.get? x = some v → v.Over (Node.Fits width longest)) →
      host.Keeps (Value.Over (Node.Fits width longest)) →
      ∀ x, ComesTo (run host number limits b) 0 a.body .start x →
        x.2.steps ≤ ∑ i ∈ Finset.range limits.depth, width ^ i := by
  have hroom : limits.depth + 0 = (run host number limits b).limits.depth := rfl
  refine ⟨?_, ?_, ?_⟩
  · exact ⟨_, Evaluation.comesTo_eval hroom, fun y hy => hy.eq_eval hroom, evaluate_of_supplied⟩
  · obtain ⟨size, hsize⟩ : ∃ size, size = 1 + sizeOf a.body + sizeOf b.entries := ⟨_, rfl⟩
    have hfits : ∀ n : Node, sizeOf n ≤ size → n.Fits (2 * size) size :=
      fun n hn => Node.fits_sizeOf hn
    have hbody : sizeOf a.body ≤ size := by omega
    refine ⟨2 * size, size, by omega, (Node.over_sizeOf hbody).mono hfits, fun x v hv => ?_⟩
    have hentry := sizeOf_snd_lt (mem_of_lookup hv)
    have hvalue : sizeOf v ≤ size := by
      simp only at hentry
      omega
    exact (Value.over_sizeOf v hvalue).mono hfits
  · intro width longest hbody hbinding hhost x hx
    have hrun : (run host number limits b).Over (Node.Fits width longest) :=
      run_over hhost hbinding
    have hsteps := Evaluation.steps_eval_le hrun limits.depth hbody RunState.start_all
    have hstart : RunState.start.steps = 0 := rfl
    rw [hstart, Nat.zero_add] at hsteps
    rwa [hx.eq_eval hroom]

/-- `((fn [f] (f f)) (fn [f] (f f)))` -/
def selfApplied : Artifact where
  serial := 0
  name := "self"
  body := .call
    (.lambda (.mk ["f"] []
      [.call (.localName "f" ⟨10, 11⟩) [.localName "f" ⟨12, 13⟩] ⟨9, 14⟩] ⟨1, 15⟩))
    [.lambda (.mk ["f"] []
      [.call (.localName "f" ⟨25, 26⟩) [.localName "f" ⟨27, 28⟩] ⟨24, 29⟩] ⟨16, 30⟩)] ⟨0, 31⟩
  free := []

theorem selfApplied_over : selfApplied.body.Over (Node.Fits 3 1) := by
  have hname : ∀ x span, (Node.localName x span).Over (Node.Fits 3 1) := fun x span =>
    .of_parts ⟨Nat.zero_le 3, fun l hl => nomatch hl⟩ (fun m hm => nomatch hm)
      fun v s h => nomatch h
  have hcall : ∀ callee arg span, callee.Over (Node.Fits 3 1) → arg.Over (Node.Fits 3 1) →
      (Node.call callee [arg] span).Over (Node.Fits 3 1) := fun callee arg span hcallee harg =>
    .of_parts ⟨Nat.le_refl 3, fun l hl => nomatch hl⟩
      (List.forall_mem_cons.2 ⟨hcallee, List.forall_mem_singleton.2 harg⟩) fun v s h => nomatch h
  have hlambda : ∀ params captures n span, n.Over (Node.Fits 3 1) →
      (Node.lambda (.mk params captures [n] span)).Over (Node.Fits 3 1) := by
    intro params captures n span hn
    refine .of_parts ⟨Nat.zero_le 3, fun l hl => ?_⟩ (List.forall_mem_singleton.2 hn)
      fun v s h => nomatch h
    cases hl
    exact Nat.le_refl 1
  exact hcall _ _ _ (hlambda _ _ _ _ (hcall _ _ _ (hname _ _) (hname _ _)))
    (hlambda _ _ _ _ (hcall _ _ _ (hname _ _) (hname _ _)))

theorem evaluate_ends_selfApplied :
    ∃ x, ComesTo (run .bare 0 ⟨4, none, none⟩ ∅) 0 selfApplied.body .start x ∧ x.2.steps ≤ 40 := by
  obtain ⟨⟨x, hx, -, -⟩, -, hsteps⟩ := evaluate_ends .bare 0 ⟨4, none, none⟩ selfApplied ∅
  refine ⟨x, hx, hsteps 3 1 selfApplied_over (fun x v hv => nomatch hv) ?_ x hx⟩
  intro handle args v _ hv
  cases hv

end Artifact

end Scriptlet
