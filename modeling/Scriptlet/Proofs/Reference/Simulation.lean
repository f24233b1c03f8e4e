import Scriptlet.Proofs.Evaluation.Comparison
import Scriptlet.Proofs.Reference.Interpreter
import Scriptlet.Proofs.Resolution.Scoping

/-!
The evaluator and the reference interpreter side by side. A closure and a token with the same
identity correspond if the code of the closure is what the forms of the token resolve to, and if what
the closure has kept corresponds to what the names mean in the environment of the token.
-/

namespace Scriptlet

namespace Reference

/-- A run gives code to functions of its own that had none. All others stay as they are. -/
structure Extends (number : Nat) (code code' : Identity → Option Code) : Prop where
  keeps : ∀ i c, code i = some c → code' i = some c
  others : ∀ i : Identity, i.maker ≠ number → code' i = code i

namespace Extends

variable {number : Nat} {code code' code'' : Identity → Option Code}

theorem refl (number : Nat) (code : Identity → Option Code) : Extends number code code :=
  ⟨fun _ _ h => h, fun _ _ => rfl⟩

theorem trans (h : Extends number code code') (h' : Extends number code' code'') :
    Extends number code code'' :=
  ⟨fun i c hc => h'.keeps i c (h.keeps i c hc), fun i hi => (h'.others i hi).trans (h.others i hi)⟩

end Extends

/-- Values that correspond, by the code that there is. -/
inductive Sim (code : Identity → Option Code) : Value → Value → Prop where
  | atom {v} (h : v.isAtom) : Sim code v v
  | list {as bs} (hlength : as.length = bs.length) (h : ∀ p ∈ as.zip bs, Sim code p.1 p.2) :
      Sim code (.list as) (.list bs)
  | closure {i : Identity} {params captured : List String} {nodes : List Node} {span : Span}
      {kept : List (String × Value)} {c : Code} {globals : Environment} {p : Place}
      {uses : List Use} (hcode : code i = some c)
      (hparams : params = c.params) (hnodup : c.params.Nodup)
      (hlocals : p.names = c.env.locals.map (·.1)) (hbounded : p.Bounded)
      (hforms : ResolvesAll globals (p.enter c.params) c.body nodes uses)
      (hcaptures : captured = captures p.level uses) (hkeys : kept.map (·.1) = captured)
      (hfound : ∀ x v, kept.lookup x = some v → (c.env.value? x).isSome)
      (hkept : ∀ x v w, kept.lookup x = some v → c.env.value? x = some w → Sim code v w)
      (hsame : ∀ x, (globals.get? x).isSome = (c.env.globals x).isSome)
      (hglobals : ∀ x v w, globals.get? x = some v → c.env.globals x = some w → Sim code v w) :
      Sim code (.function (.closure i (.mk params captured nodes span) kept)) (token i c.params)

namespace Sim

variable {code code' : Identity → Option Code} {v w : Value}

theorem mono {number : Nat} (h : Sim code v w) (he : Extends number code code') :
    Sim code' v w := by
  induction h with
  | atom ha => exact .atom ha
  | list hlength _ ih => exact .list hlength ih
  | closure hcode hparams hnodup hlocals hbounded hforms hcaptures hkeys hfound _ hsame _ ihkept
      ihglobals =>
    exact .closure (he.keeps _ _ hcode) hparams hnodup hlocals hbounded hforms hcaptures hkeys hfound
      ihkept hsame ihglobals

theorem of_forall₂ {as bs : List Value} (h : List.Forall₂ (Sim code) as bs) :
    Sim code (.list as) (.list bs) := by
  obtain ⟨hlength, hzip⟩ := List.forall₂_iff_zip.1 h
  exact .list hlength fun p hp => hzip (a := p.1) (b := p.2) hp

theorem likeness (code : Identity → Option Code) : Value.Likeness (Sim code) where
  atom := .atom
  list := of_forall₂
  shape h := by
    cases h with
    | atom ha => exact .atom ha
    | list hlength hzip => exact .list (List.forall₂_iff_zip.2 ⟨hlength, fun hp => hzip _ hp⟩)
    | closure _ hparams => exact .closure hparams
  same := by
    intro f g f' g' h h'
    cases h with
    | atom ha =>
      cases f with
      | closure => cases ha
      | native f =>
        cases h' with
        | atom _ => rfl
        | closure => rfl
    | closure =>
      cases h' with
      | atom ha =>
        cases f' with
        | closure => cases ha
        | native f' => rfl
      | closure => rfl

end Sim

/-- A run of the evaluator and a run of the reference interpreter. If the run is limited, its limits
may end it early; else the fuel may. -/
structure Simulation where
  limited : Prop
  run : Run
  world : World
  number : run.number = world.number
  invoke : ∀ code f vs ws, List.Forall₂ (Sim code) vs ws →
    SameUpTo (Sim code) (run.invoke f vs) (world.invoke f ws)
  unlimited : ¬ limited → run.limits.steps = none ∧ run.limits.time = none

namespace Simulation

variable (c : Simulation)

def terms : Terms Failure Stop where
  left e := c.limited ∧ e.isResource
  right e := ¬ c.limited ∧ e = .spent
  both e e' := e' = .failed e

/-- Both sides have made the same closures, and there is no code yet for those to come. -/
structure Abreast (A : Scopes Value) (code : Identity → Option Code) (s : RunState) (t : Store) :
    Prop where
  scopes : s.scopes = A
  known : t.code = code
  made : s.made = t.made
  fresh : ∀ d, code ⟨c.run.number, s.made + d⟩ = none

/-- Two computations that end alike. The results correspond by the code that there is then. -/
def Follows (A : Scopes Value) (code : Identity → Option Code) {α β : Type}
    (S : (Identity → Option Code) → α → β → Prop) (x : Eval α) (y : Interp β) : Prop :=
  ∀ s t, c.Abreast A code s t →
    Ends c.terms
      (fun a s' b t' => Extends c.world.number code t'.code ∧ S t'.code a b ∧
        c.Abreast A t'.code s' t')
      (x s) (y t)

/-- What the scopes show and the bindings hold corresponds to what the names mean in an environment.
The place says which names are locals of the forms. -/
structure Covers (code : Identity → Option Code) (globals : Environment) (p : Place)
    (inputs held : List String) (A : Scopes Value) (env : Env) : Prop where
  locals : p.names = env.locals.map (·.1)
  bounded : p.Bounded
  held : ∀ x ∈ held, (A.lookup x).isSome
  seen : ∀ x v, A.lookup x = some v → ∃ w, env.value? x = some w ∧ Sim code v w
  inputs : ∀ x ∈ inputs, ∃ v w, c.run.binding.get? x = some v ∧ env.binding x = some w ∧ Sim code v w
  globals : ∀ x, Option.Rel (Sim code) (globals.get? x) (env.globals x)

variable {c : Simulation} {A : Scopes Value} {code code' : Identity → Option Code} {α α' β β' : Type}

theorem Covers.mono {globals : Environment} {p : Place} {I L : List String} {env : Env}
    (h : c.Covers code globals p I L A env) (he : Extends c.world.number code code') :
    c.Covers code' globals p I L A env where
  locals := h.locals
  bounded := h.bounded
  held := h.held
  seen x v hv := by
    obtain ⟨w, hw, hvw⟩ := h.seen x v hv
    exact ⟨w, hw, hvw.mono he⟩
  inputs x hx := by
    obtain ⟨v, w, hv, hw, hvw⟩ := h.inputs x hx
    exact ⟨v, w, hv, hw, hvw.mono he⟩
  globals x := rel_mono (h.globals x) fun _ _ hvw => hvw.mono he

namespace Follows

variable {S : (Identity → Option Code) → α → β → Prop}
  {S' : (Identity → Option Code) → α' → β' → Prop}

theorem pure {a : α} {b : β} (h : S code a b) :
    c.Follows A code S (Pure.pure a) (Pure.pure b) := by
  intro s t hs
  have hcode := hs.known
  subst hcode
  exact .values ⟨.refl .., h, hs⟩

theorem bind {x : Eval α} {y : Interp β} {f : α → Eval α'} {g : β → Interp β'}
    (h : c.Follows A code S x y)
    (hf : ∀ code' a b, Extends c.world.number code code' → S code' a b →
      c.Follows A code' S' (f a) (g b)) :
    c.Follows A code S' (x >>= f) (y >>= g) := by
  intro s t hs
  refine (h s t hs).bind fun a s' b t' hq => ?_
  obtain ⟨he, hab, hs'⟩ := hq
  exact (hf _ a b he hab s' t' hs').mono fun _ _ _ _ hq => ⟨he.trans hq.1, hq.2⟩

theorem fault (cause : Fault) (span : Span) :
    c.Follows A code S (Eval.fault cause span) (Reference.fault cause span) :=
  fun _ _ _ => .failures rfl

theorem invoke (f : Native) (span : Span) {vs ws : List Value}
    (hvs : List.Forall₂ (Sim code) vs ws) :
    c.Follows A code Sim (Eval.ofFault span (c.run.invoke f vs))
      (Reference.ofFault span (c.world.invoke f ws)) := by
  have hs := c.invoke code f vs ws hvs
  generalize c.run.invoke f vs = v at hs
  generalize c.world.invoke f ws = w at hs
  cases hs with
  | ok hvw => exact .pure hvw
  | error e => exact .fault e span

/-- The scopes of a call are gone after it. -/
theorem inFrame {B : Scopes Value} {x : Eval α} {y : Interp β} (h : c.Follows B code S x y) :
    c.Follows A code S (Eval.inFrame B x) y := by
  intro s t hs
  have hs' : c.Abreast B code { s with scopes := B } t := ⟨rfl, hs.known, hs.made, hs.fresh⟩
  rw [Eval.inFrame_run]
  refine (h _ _ hs').afterwards (f := fun u => { u with scopes := s.scopes }) (g := id)
    fun _ _ _ _ hq => ?_
  exact ⟨hq.1, hq.2.1, hs.scopes, rfl, hq.2.2.made, hq.2.2.fresh⟩

/-- A step of the evaluator has no counterpart. It can only reach a limit. -/
theorem tick {x : Eval α} {y : Interp β} (span : Span) (h : c.Follows A code S x y) :
    c.Follows A code S (Eval.tick c.run span >>= fun _ => x) y := by
  intro s t hs
  rw [bind_run, Eval.tick_run]
  cases hl : c.run.limitAt? (s.steps + 1) with
  | none => exact h _ t ⟨hs.scopes, hs.known, hs.made, hs.fresh⟩
  | some cause =>
    by_cases hlimited : c.limited
    · exact .left ⟨hlimited, Run.isResource_limitAt? hl⟩
    · obtain ⟨hsteps, htime⟩ := c.unlimited hlimited
      simp [Run.limitAt?, hsteps, htime] at hl

end Follows

end Simulation

end Reference

end Scriptlet
