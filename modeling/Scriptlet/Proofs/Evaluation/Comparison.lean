import Scriptlet.Evaluation.Basic
import Scriptlet.Proofs.Evaluation.Ending
import Scriptlet.Proofs.Scope
import Scriptlet.Proofs.Value.Twin

/-!
Two runs of one compiled tree, where values on the two sides are twins. A strict comparison counts
the steps and levels of both sides together, so that they reach a limit at the same time. In any
other, each side may run into limits of its own.
-/

namespace Scriptlet

/-- A limit was reached. -/
def Failure.isResource : Failure → Bool
  | .fault cause _ => cause.isResource
  | .unbound .. => false

/-- Not a name without a value, and not a complaint of the scopes: a fault that is only a message is
the answer of a native function. -/
def Failure.Regular (invoke : Native → List Value → Except Fault Value) (e : Failure) : Prop :=
  ∃ cause span, e = .fault cause span ∧
    ∀ message, cause = .other message → ∃ f args, invoke f args = .error cause

theorem Run.limitAt?_congr {run run' : Run} (h : run.limits = run'.limits)
    (he : run.limits.time = none ∨ run.elapsed = run'.elapsed) (steps : Nat) :
    run.limitAt? steps = run'.limitAt? steps := by
  rcases he with ht | he
  · have ht' : run'.limits.time = none := h ▸ ht
    rw [Run.limitAt?, Run.limitAt?, ht, ht', h]
    rfl
  · rw [Run.limitAt?, Run.limitAt?, h, he]

open Value (Twin)

/-- Two runs to compare, and the identities that correspond: each has one counterpart at most, and
native functions answer twins with twins. -/
structure Comparison where
  strict : Prop
  ids : Identity → Identity → Prop
  left : Run
  right : Run
  unique : ∀ i j i' j', ids i j → ids i' j' → (i = i' ↔ j = j')
  invoke : ∀ f vs ws, List.Forall₂ (Twin ids) vs ws →
    SameUpTo (Twin ids) (left.invoke f vs) (right.invoke f ws)
  limits : strict → left.limits = right.limits
  elapsed : strict → left.limits.time = none ∨ left.elapsed = right.elapsed

namespace Comparison

variable (c : Comparison)

/-- Errors are the same on both sides. Unless the comparison is strict, a limit may be reached on one
side only. -/
def terms : Terms Failure Failure where
  left e := ¬ c.strict ∧ e.isResource
  right e := ¬ c.strict ∧ e.isResource
  both e e' := e = e' ∧ e.Regular c.left.invoke

/-- The same names are seen in two stacks of scopes, held names among them, and stand for twins. -/
structure Seen (held : List String) (A B : Scopes Value) : Prop where
  twin : ∀ x, Option.Rel (Twin c.ids) (A.lookup x) (B.lookup x)
  held : ∀ x ∈ held, (A.lookup x).isSome

/-- Both bindings have the inputs, and they stand for twins. -/
def Supplied (inputs : List String) : Prop :=
  ∀ x ∈ inputs, ∃ v w, c.left.binding.get? x = some v ∧ c.right.binding.get? x = some w ∧
    Twin c.ids v w

/-- States that the runs may be in, with the scopes that they have. The closures that they make from
here on get identities that correspond. -/
structure Abreast (A B : Scopes Value) (s t : RunState) : Prop where
  left : s.scopes = A
  right : t.scopes = B
  steps : c.strict → s.steps = t.steps
  made : ∀ d, c.ids ⟨c.left.number, s.made + d⟩ ⟨c.right.number, t.made + d⟩

/-- From states that are abreast, two computations end abreast and with related results. -/
def Follows (A B : Scopes Value) {α β : Type} (S : α → β → Prop) (x : Eval α) (y : Eval β) : Prop :=
  ∀ s t, c.Abreast A B s t →
    Ends c.terms (fun a s' b t' => S a b ∧ c.Abreast A B s' t') (x s) (y t)

namespace Follows

variable {c : Comparison} {A B : Scopes Value} {α α' β β' : Type} {S : α → β → Prop}
  {S' : α' → β' → Prop}

theorem pure {a : α} {b : β} (h : S a b) : c.Follows A B S (Pure.pure a) (Pure.pure b) :=
  fun _ _ hs => .values ⟨h, hs⟩

theorem bind {x : Eval α} {y : Eval β} {f : α → Eval α'} {g : β → Eval β'}
    (h : c.Follows A B S x y) (hf : ∀ a b, S a b → c.Follows A B S' (f a) (g b)) :
    c.Follows A B S' (x >>= f) (y >>= g) :=
  fun s t hs => (h s t hs).bind fun _ _ _ _ hq => hf _ _ hq.1 _ _ hq.2

theorem fault {cause : Fault} (span : Span)
    (h : ∀ message, cause = .other message → ∃ f args, c.left.invoke f args = .error cause) :
    c.Follows A B S (Eval.fault cause span) (Eval.fault cause span) :=
  fun _ _ _ => .failures ⟨rfl, cause, span, rfl, h⟩

theorem lookup {L : List String} (h : c.Seen L A B) (x : String) :
    c.Follows A B (fun v w => Option.Rel (Twin c.ids) v w ∧ v = A.lookup x) (Eval.lookup x)
      (Eval.lookup x) := by
  intro s t hs
  have hx := h.twin x
  rw [← hs.left, ← hs.right] at hx
  exact .values ⟨⟨hx, by rw [hs.left]⟩, hs⟩

theorem invoke (f : Native) (span : Span) {vs ws : List Value}
    (hvs : List.Forall₂ (Twin c.ids) vs ws) :
    c.Follows A B (Twin c.ids) (Eval.ofFault span (c.left.invoke f vs))
      (Eval.ofFault span (c.right.invoke f ws)) := by
  have hs := c.invoke f vs ws hvs
  generalize hv : c.left.invoke f vs = v at hs
  generalize c.right.invoke f ws = w at hs
  cases hs with
  | ok hvw => exact .pure hvw
  | error e => exact .fault span fun _ _ => ⟨f, vs, hv⟩

theorem newIdentity :
    c.Follows A B c.ids (Eval.newIdentity c.left) (Eval.newIdentity c.right) := by
  intro s t hs
  have hs' : c.Abreast A B { s with made := s.made + 1 } { t with made := t.made + 1 } := by
    refine ⟨hs.left, hs.right, hs.steps, fun d => ?_⟩
    have hd := hs.made (d + 1)
    rwa [← Nat.add_assoc, ← Nat.add_assoc, Nat.add_right_comm, Nat.add_right_comm t.made] at hd
  rw [Eval.newIdentity_run, Eval.newIdentity_run]
  exact .values ⟨hs.made 0, hs'⟩

/-- The scopes of a call are gone after it. -/
theorem inFrame {A' B' : Scopes Value} {x : Eval α} {y : Eval β} (h : c.Follows A' B' S x y) :
    c.Follows A B S (Eval.inFrame A' x) (Eval.inFrame B' y) := by
  intro s t hs
  have hs' : c.Abreast A' B' { s with scopes := A' } { t with scopes := B' } :=
    ⟨rfl, rfl, hs.steps, hs.made⟩
  rw [Eval.inFrame_run, Eval.inFrame_run]
  refine (h _ _ hs').afterwards (f := fun u => { u with scopes := s.scopes })
    (g := fun u => { u with scopes := t.scopes }) fun _ _ _ _ hq => ?_
  exact ⟨hq.1, hs.left, hs.right, hq.2.steps, hq.2.made⟩

/-- A step counts on both sides. A limit that stops one side stops a strict comparison on both. -/
theorem tick (span : Span) :
    c.Follows A B (fun _ _ => True) (Eval.tick c.left span) (Eval.tick c.right span) := by
  intro s t hs
  rw [Eval.tick_run, Eval.tick_run]
  by_cases hstrict : c.strict
  · rw [Run.limitAt?_congr (c.limits hstrict) (c.elapsed hstrict), hs.steps hstrict]
    cases hl : c.right.limitAt? (t.steps + 1) with
    | some cause =>
      have hc := Run.isResource_limitAt? hl
      exact .failures ⟨rfl, cause, span, rfl, fun message he => by rw [he] at hc; cases hc⟩
    | none => exact .values ⟨trivial, hs.left, hs.right, fun _ => rfl, hs.made⟩
  · cases hl : c.left.limitAt? (s.steps + 1) with
    | some cause => exact .left ⟨hstrict, Run.isResource_limitAt? hl⟩
    | none =>
      cases hr : c.right.limitAt? (t.steps + 1) with
      | some cause => exact .right ⟨hstrict, Run.isResource_limitAt? hr⟩
      | none => exact .values ⟨trivial, hs.left, hs.right, fun h => (hstrict h).elim, hs.made⟩

end Follows

end Comparison

end Scriptlet
