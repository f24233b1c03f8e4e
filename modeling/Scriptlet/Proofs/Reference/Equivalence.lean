import Scriptlet.Proofs.Reference.Steps

/-!
The evaluator gives for the nodes of a script what the reference interpreter gives for its forms. One
step carries this from the parts of a form to the form, and so it holds at every depth.
-/

namespace Scriptlet

namespace Reference

namespace Simulation

variable {c : Simulation} {ev : Node → Eval Value} {rev : Meaning}
  {code : Identity → Option Code} {globals : Environment} {p : Place} {I L : List String}
  {A : Scopes Value} {env : Env}

theorem form_special {name : String} {f : SpecialForm} (hf : SpecialForm.ofName? name = some f)
    (w : World) (rev : Meaning) (env : Env) (args : List Form) (s span : Span) :
    form w rev env (.group .round (.leaf (.symbol name) s :: args) span) =
      special w rev env args span f := by
  simp [form, Form.symbol?, hf]

theorem form_call {head : Form} (hf : (Form.symbol? head).bind SpecialForm.ofName? = none)
    (w : World) (rev : Meaning) (env : Env) (args : List Form) (span : Span) :
    form w rev env (.group .round (head :: args) span) =
      rev env head >>= fun callee => all (rev env) args >>= fun values =>
        apply w rev callee values span := by
  rw [form, hf]

theorem notSpecial {head : Form} (h : Form.Callable globals p head) :
    (Form.symbol? head).bind SpecialForm.ofName? = none := by
  cases h with
  | list => rfl
  | localName hf _ => exact hf
  | closure hf _ => exact hf

theorem localName_follows (hcovers : c.Covers code globals p I L A env) {x : String} (hx : x ∈ L)
    (span : Span) :
    c.Follows A code Sim (Evaluation.dispatch c.run ev (.localName x span)) (symbol env x span) := by
  obtain ⟨v, hv⟩ := Option.isSome_iff_exists.1 (hcovers.held x hx)
  obtain ⟨w, hw, hvw⟩ := hcovers.seen x v hv
  intro s t hs
  have hfound := Follows.pure (c := c) (A := A) hvw s t hs
  rw [Evaluation.dispatch, symbol, hw, bind_run, Eval.lookup_run, hs.scopes, hv]
  exact hfound

theorem freeName_follows (hcovers : c.Covers code globals p I L A env) {x : String} (hx : x ∈ I)
    (hlocal : x ∉ p.names) (hglobal : globals.get? x = none) (span : Span) :
    c.Follows A code Sim (Evaluation.dispatch c.run ev (.freeName x span)) (symbol env x span) := by
  obtain ⟨v, w, hv, hw, hvw⟩ := hcovers.input hx hlocal hglobal
  rw [Evaluation.dispatch, symbol, hw, hv]
  exact .pure hvw

/-- The head of a call that was resolved at compile time is read without a step of the evaluator. -/
theorem Follows.reads {α β : Type} {S : (Identity → Option Code) → α → β → Prop}
    (hev : c.Simulates ev rev) {x : String} {w : Value} (hw : env.value? x = some w) (span : Span)
    {act : Eval α} {f : Value → Interp β} (h : c.Follows A code S act (f w)) :
    c.Follows A code S act (rev env (.leaf (.symbol x) span) >>= f) := by
  intro s t hs
  rcases hev.symbols env x span w t hw with hread | ⟨hlimited, hread⟩
  · rw [bind_run, hread]
    exact h s t hs
  · rw [bind_run, hread]
    exact .right ⟨hlimited, rfl⟩

theorem nativeCall_follows (hev : c.Simulates ev rev) {x : String} {args : List Form}
    {f : Native} {nodes : List Node} {uses : List Use} (hx : p.level? x = none)
    (hg : globals.get? x = some (.function (.native f))) (harity : f.arity.accepts nodes.length)
    (h : ResolvesAll globals p args nodes uses) (hfits : Fits p I L uses)
    (hcovers : c.Covers code globals p I L A env) (s span : Span) :
    c.Follows A code Sim (Evaluation.dispatch c.run ev (.nativeCall f nodes span))
      (rev env (.leaf (.symbol x) s) >>= fun callee => all (rev env) args >>= fun values =>
        apply c.world rev callee values span) := by
  obtain ⟨w, hw, hvw⟩ := hcovers.global (Place.level?_eq_none.1 hx) hg
  cases hvw with
  | atom =>
    refine Follows.reads hev hw s ?_
    refine (all_follows hev h hfits hcovers).bind fun code' vs ws he hvs => ?_
    have haccepts : f.arity.accepts ws.length := hvs.2 ▸ harity
    rw [apply, if_pos haccepts]
    exact .invoke f span hvs.1

/-- One step: if the meaning of the parts of forms is followed, so is that of the forms. -/
theorem dispatch_simulates (hev : c.Simulates ev rev) :
    c.Simulates (Evaluation.dispatch c.run ev) (form c.world rev) := by
  refine ⟨?_, fun env x span v t hv => .inl (by rw [form, symbol, hv]; rfl)⟩
  intro code globals p I L A env f n uses h hfits hcovers
  have hscope := h.scoped hcovers.bounded hfits
  cases h with
  | @literal _ a span ha =>
    cases a with
    | symbol x => exact absurd rfl (ha x)
    | _ => exact .pure (.atom rfl)
  | localName hx =>
    cases hscope with
    | localName hL => exact localName_follows hcovers hL _
  | globalName hx hg =>
    obtain ⟨w, hw, hvw⟩ := hcovers.global (Place.level?_eq_none.1 hx) hg
    rw [form, symbol, hw]
    exact .pure hvw
  | freeName hx hg =>
    rw [form]
    split at hscope
    · next h0 =>
      cases hscope with
      | freeName hI =>
        rw [if_pos h0]
        exact freeName_follows hcovers hI (Place.level?_eq_none.1 hx) hg _
    · next h0 =>
      cases hscope with
      | localName hL =>
        rw [if_neg h0]
        exact localName_follows hcovers hL _
  | vector h =>
    refine (all_follows hev h hfits hcovers).bind fun code' vs ws he hvs => ?_
    exact .pure (.of_forall₂ hvs.1)
  | empty => exact .pure (.of_forall₂ .nil)
  | block hf h =>
    rw [form_special hf]
    exact body_follows hev h hfits hcovers (.atom rfl)
  | allOf hf h =>
    rw [form_special hf]
    exact firstDeciding_follows hev h hfits hcovers
      (fun code v w hvw => by rw [(Sim.likeness code).isTruthy hvw]) (.atom rfl)
  | anyOf hf h =>
    rw [form_special hf]
    exact firstDeciding_follows hev h hfits hcovers (fun code _ _ => (Sim.likeness code).isTruthy)
      (.atom rfl)
  | quotation hf =>
    rw [form_special hf]
    exact .pure ((Sim.likeness code).quoted _)
  | branch hf hcond hyes =>
    rw [form_special hf]
    refine (hev.forms hcond hfits.left hcovers).bind fun code' v w he hvw => ?_
    rw [(Sim.likeness code').isTruthy hvw]
    split
    · exact hev.forms hyes hfits.right (hcovers.mono he)
    · exact .pure (.atom rfl)
  | branchElse hf hcond hyes hno =>
    rw [form_special hf]
    refine (hev.forms hcond hfits.left hcovers).bind fun code' v w he hvw => ?_
    rw [(Sim.likeness code').isTruthy hvw]
    split
    · exact hev.forms hyes hfits.right.left (hcovers.mono he)
    · exact hev.forms hno hfits.right.right (hcovers.mono he)
  | bind hf hnames h =>
    rw [form_special hf]
    exact bind_follows hev h hfits hcovers hnames.nodup _
  | lambda hf hparams hnames h =>
    rw [form_special hf]
    exact function_follows hparams hnames.nodup h hfits hcovers _
  | @nativeCall _ x headSpan _ _ _ _ _ hf hx hg harity h =>
    have hhead : (Form.symbol? (.leaf (.symbol x) headSpan)).bind SpecialForm.ofName? = none := hf
    rw [form_call hhead]
    exact nativeCall_follows hev hx hg harity h hfits hcovers _ _
  | call hc hhead h =>
    rw [form_call (notSpecial hc)]
    refine (hev.forms hhead hfits.left hcovers).bind fun code' v w he hvw => ?_
    refine (all_follows hev h hfits.right (hcovers.mono he)).bind fun code'' vs ws he' hvs => ?_
    exact apply_follows hev (hvw.mono he') hvs.1 _

/-- A limited run with less room than fuel reaches its limit first, and any other run has at least as
much room as there is fuel. -/
theorem eval_simulates {room fuel : Nat} (hlimited : c.limited → room < fuel)
    (hunlimited : ¬ c.limited → fuel ≤ room) :
    c.Simulates (Evaluation.eval c.run room) (Reference.eval c.world fuel) := by
  -- Every form uses up fuel, also the head of a native call, for which the evaluator takes no step.
  induction fuel generalizing room with
  | zero =>
    have hnot : ¬ c.limited := fun h => Nat.not_lt_zero _ (hlimited h)
    exact ⟨fun _ _ _ _ _ _ => .right ⟨hnot, rfl⟩, fun _ _ _ _ _ _ => .inr ⟨hnot, rfl⟩⟩
  | succ fuel ih =>
    refine ⟨?_, fun env x span v t hv => .inl (by rw [Reference.eval, form, symbol, hv]; rfl)⟩
    intro code globals p I L A env f n uses h hfits hcovers
    cases room with
    | zero =>
      by_cases hc : c.limited
      · exact fun s t _ => .left ⟨hc, rfl⟩
      · exact absurd (hunlimited hc) (Nat.not_succ_le_zero fuel)
    | succ room =>
      have hev := ih (fun hc => Nat.lt_of_succ_lt_succ (hlimited hc))
        fun hc => Nat.le_of_succ_le_succ (hunlimited hc)
      exact .tick n.span ((dispatch_simulates hev).forms h hfits hcovers)

/-- The evaluation of a compiled script and the interpretation of its forms. -/
theorem script_ends {a : Artifact} {script : Script} {nodes : List Node} {uses : List Use}
    (ha : a.Renders globals script nodes uses)
    (hcovers : c.Covers code globals .top a.inputNames [] ∅ env)
    (hfresh : ∀ d, code ⟨c.run.number, d⟩ = none) (room fuel : Nat)
    (hlimited : c.limited → room < fuel) (hunlimited : ¬ c.limited → fuel < room) :
    Ends c.terms (fun v _ w t => Extends c.world.number code t.code ∧ Sim t.code v w)
      (Evaluation.eval c.run room a.body .start)
      (Reference.script c.world fuel env script ⟨code, 0⟩) := by
  have hstart : c.Abreast ∅ code .start ⟨code, 0⟩ := by
    refine ⟨rfl, rfl, rfl, fun d => ?_⟩
    simpa [RunState.start] using hfresh d
  have hfollows : c.Follows ∅ code Sim (Evaluation.eval c.run room a.body)
      (Reference.script c.world fuel env script) := by
    rw [Reference.script, ha.body, Script.together.eq_def]
    -- A single form has no block around it, so it stands one level higher than one of many.
    split
    · next node =>
      have hev := eval_simulates hlimited fun hc => Nat.le_of_lt (hunlimited hc)
      have hbody := body_follows hev ha.forms ha.fits hcovers (v := .nil) (w := .nil) (.atom rfl)
      simpa [Evaluation.body] using hbody
    · cases room with
      | zero =>
        by_cases hc : c.limited
        · exact fun s t _ => .left ⟨hc, rfl⟩
        · exact absurd (hunlimited hc) (Nat.not_lt_zero fuel)
      | succ room =>
        have hev : c.Simulates (Evaluation.eval c.run room) (Reference.eval c.world fuel) :=
          eval_simulates (fun hc => Nat.lt_of_succ_lt (hlimited hc))
            fun hc => Nat.le_of_lt_succ (hunlimited hc)
        exact .tick _ (body_follows hev ha.forms ha.fits hcovers (.atom rfl))
  exact (hfollows _ _ hstart).mono fun _ _ _ _ hq => ⟨hq.1, hq.2.1⟩

end Simulation

/-- Values without closures correspond to themselves. -/
theorem Sim.of_known {code : Identity → Option Code} {v : Value} (h : v.Known 0) :
    Sim code v v := by
  suffices hsim : ∀ v w, Value.Twin (fun i j => i = j ∧ i.maker < 0) v w → Sim code v w from
    hsim v v h
  intro v w h
  induction h with
  | atom ha => exact .atom ha
  | list hlength _ ih => exact .list hlength ih
  | closure hid => exact absurd hid.2 (Nat.not_lt_zero _)

/-- The reference interpreter by the side of a run of the evaluator, with functions of the host that
hold no closures of their own. -/
def Simulation.ofRun (limited : Prop) {host : Host} (hblind : host.Blind 0) (number : Nat)
    (limits : Limits) (b : Binding)
    (hlimits : ¬ limited → limits.steps = none ∧ limits.time = none) : Simulation where
  limited := limited
  run := Artifact.run host number limits b
  world := ⟨number, Native.run host⟩
  number := rfl
  invoke code f _ _ hvs := hblind.run_congr rfl (Sim.likeness code) (fun _ => Sim.of_known) f hvs
  unlimited := hlimits

/-- An evaluation and the reference interpreter have ended alike: with values that correspond by the
code that there is in the end, or with the same failure. -/
inductive SameOutcome (name : String) (number : Nat) (code : Identity → Option Code) :
    Except RunError Value → Except Stop Value × Store → Prop where
  | value {v w t} (he : Extends number code t.code) (h : Sim t.code v w) :
      SameOutcome name number code (.ok v) (.ok w, t)
  | failure {failure t} :
      SameOutcome name number code (.error ⟨name, failure⟩) (.error (.failed failure), t)

theorem SameOutcome.of_ok {name : String} {number : Nat} {code : Identity → Option Code} {v : Value}
    {y : Except Stop Value × Store} (h : SameOutcome name number code (.ok v) y) :
    ∃ w, y.1 = .ok w ∧ Extends number code y.2.code ∧ Sim y.2.code v w := by
  cases h with
  | value he hw => exact ⟨_, rfl, he, hw⟩

theorem Simulation.outcome {c : Simulation} {code : Identity → Option Code}
    {x : Except Failure Value × RunState} {y : Except Stop Value × Store}
    (h : Ends c.terms (fun v _ w t => Extends c.world.number code t.code ∧ Sim t.code v w) x y)
    (hx : c.limited → ∀ e, x.1 = .error e → e.isResource = false)
    (hy : ¬ c.limited → y.1 ≠ .error .spent) (name : String) :
    SameOutcome name c.world.number code (x.1.mapError fun failure => ⟨name, failure⟩) y := by
  cases h with
  | values h => exact .value h.1 h.2
  | failures h =>
    cases h
    exact .failure
  | left h => exact absurd h.2 (by simp [hx h.1 _ rfl])
  | right h => exact absurd (h.2 ▸ rfl) (hy h.1)

/-- The evaluation of a rendered script ends as the reference interpreter does, unless a limit stops
it or, where the limits are no matter, the fuel. -/
theorem evaluate_outcome {a : Artifact} {env : Environment} {parsed : Script} {nodes : List Node}
    {uses : List Use} (ha : a.Renders env parsed nodes uses) {host : Host} (hblind : host.Blind 0)
    {number : Nat} {code : Identity → Option Code} (hfresh : ∀ d, code ⟨number, d⟩ = none)
    {globals binding : String → Option Value} {b : Binding}
    (hglobals : ∀ x, Option.Rel (Sim code) (env.get? x) (globals x))
    (hinputs : ∀ x ∈ a.inputNames, ∃ v w, b.get? x = some v ∧ binding x = some w ∧ Sim code v w)
    (limited : Prop) (limits : Limits) (fuel : Nat)
    (hlimits : ¬ limited → limits.steps = none ∧ limits.time = none)
    (hlimited : limited → limits.depth < fuel ∧
      ∀ e, a.evaluate host number limits b = .error e → e.failure.isResource = false)
    (hunlimited : ¬ limited → fuel < limits.depth ∧
      (script ⟨number, Native.run host⟩ fuel ⟨[], globals, binding⟩ parsed ⟨code, 0⟩).1 ≠
        .error .spent) :
    SameOutcome a.name number code (a.evaluate host number limits b)
      (script ⟨number, Native.run host⟩ fuel ⟨[], globals, binding⟩ parsed ⟨code, 0⟩) := by
  let c := Simulation.ofRun limited hblind number limits b hlimits
  have hcovers : c.Covers code env .top a.inputNames [] ∅ ⟨[], globals, binding⟩ :=
    ⟨rfl, Place.bounded_top, fun _ hx => (nomatch hx), fun _ _ hv => (nomatch hv), hinputs, hglobals⟩
  have hends := Simulation.script_ends (c := c) ha hcovers hfresh limits.depth fuel
    (fun h => (hlimited h).1) fun h => (hunlimited h).1
  have hmissing : a.missing? b = none := by
    refine Artifact.missing?_eq_none.2 fun x hx => ?_
    obtain ⟨v, w, hv, _⟩ := hinputs x hx
    rw [hv]
    rfl
  rw [Artifact.evaluate_of_supplied hmissing] at hlimited ⊢
  refine Simulation.outcome hends (fun h failure hf => ?_) (fun h => (hunlimited h).2) a.name
  exact (hlimited h).2 ⟨a.name, failure⟩ (congrArg (Except.mapError _) hf)

end Reference

end Scriptlet
