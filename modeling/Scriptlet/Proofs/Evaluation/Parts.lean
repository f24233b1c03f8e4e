import Scriptlet.Proofs.Evaluation.Course
import Scriptlet.Proofs.Node

/-!
The two kinds of evaluations that a node asks for: those of its parts, and then, where it calls a
closure, those of the body of the closure in a frame of their own.
-/

namespace Scriptlet

namespace Request

variable (ev : Node → Eval Value)

/-- What a node asks for where it stands: everything but the body of the closure that it calls. -/
def ofParts : Node → RunState → List Request
  | .call callee nodes _, s => ⟨callee, s⟩ :: after (ev callee s) fun _ t => ofAll ev nodes t
  | n, s => ofNode ev n s

/-- The body of the closure that a node calls. -/
def ofBody : Node → RunState → List Request
  | .call callee nodes _, s =>
    after (ev callee s) fun f t =>
      after (Evaluation.args ev nodes t) fun values u => ofApply ev f values u
  | _, _ => []

variable {ev} {s : RunState}

theorem ofNode_eq (n : Node) : ofNode ev n s = ofParts ev n s ++ ofBody ev n s := by
  cases n with
  | call callee nodes span =>
    simp only [ofNode, ofParts, ofBody, List.cons_append]
    rcases ev callee s with ⟨_ | f, t⟩ <;> rfl
  | _ => exact (List.append_nil _).symm

theorem sublist_after {α : Type} {x : Except Failure α × RunState}
    {next : α → RunState → List Request} {nodes : List Node}
    (h : ∀ a t, ((next a t).map (·.node)).Sublist nodes) :
    ((after x next).map (·.node)).Sublist nodes := by
  rcases x with ⟨_ | a, t⟩
  · exact List.nil_sublist _
  · exact h a t

theorem sublist_ofNodes (decides : Value → Bool) (nodes : List Node) :
    ((ofNodes ev decides nodes s).map (·.node)).Sublist nodes := by
  induction nodes generalizing s with
  | nil => exact .slnil
  | cons n nodes ih =>
    refine (sublist_after fun v t => ?_).cons_cons n
    split
    · exact List.nil_sublist _
    · exact ih

theorem sublist_ofBindings (span : Span) (bindings : List (String × Node)) :
    ((ofBindings ev span bindings s).map (·.node)).Sublist (bindings.map (·.2)) := by
  induction bindings generalizing s with
  | nil => exact .slnil
  | cons p bindings ih =>
    exact (sublist_after fun v t => sublist_after fun _ u => ih).cons_cons p.2

theorem sublist_ofBind (bindings : List (String × Node)) (nodes : List Node) (span : Span) :
    ((ofBind ev bindings nodes span s).map (·.node)).Sublist (bindings.map (·.2) ++ nodes) := by
  unfold ofBind
  split
  · exact List.nil_sublist _
  · rw [List.map_append]
    exact (sublist_ofBindings span bindings).append
      (sublist_after fun _ u => sublist_ofNodes _ nodes)

/-- What a node asks for where it stands are parts of it, in their order. -/
theorem sublist_ofParts (n : Node) : ((ofParts ev n s).map (·.node)).Sublist n.parts := by
  cases n with
  | constant | localName | freeName | lambda => exact List.nil_sublist _
  | list nodes | block nodes | allOf nodes | anyOf nodes | nativeCall _ nodes =>
    exact sublist_ofNodes _ nodes
  | branch cond yes no span =>
    refine (sublist_after fun c t => ?_).cons_cons cond
    split
    · exact (List.nil_sublist _).cons_cons yes
    · cases no with
      | none => exact List.nil_sublist _
      | some no => exact (List.Sublist.refl _).cons yes
  | bind bindings nodes span => exact sublist_ofBind bindings nodes span
  | call callee nodes span =>
    exact (sublist_after fun _ t => sublist_ofNodes _ nodes).cons_cons callee

theorem mem_parts_of_mem_ofParts {n : Node} {q : Request} (h : q ∈ ofParts ev n s) :
    q.node ∈ n.parts :=
  (sublist_ofParts n).subset (List.mem_map_of_mem h)

/-- A `fn` asks for nothing where it stands. -/
theorem ne_lambda_of_mem_ofParts {n : Node} {q : Request} (h : q ∈ ofParts ev n s) (l : Lambda) :
    n ≠ .lambda l := by
  rintro rfl
  cases h

end Request

end Scriptlet
