import Scriptlet.Proofs.Evaluation.Produced
import Scriptlet.Proofs.Reference.Simulation

/-!
What the evaluator does with the parts of a node, against what the reference interpreter does with
the parts of the form. A call carries the correspondence from the frame of a closure, which shows
captures and parameters only, to the whole environment that the token has kept.
-/

namespace Scriptlet

namespace Reference

namespace Simulation

variable {c : Simulation} {ev : Node → Eval Value} {rev : Meaning}
  {code : Identity → Option Code} {globals : Environment} {p : Place} {I L : List String}
  {A outer : Scopes Value} {env : Env}

/-- The evaluator of nodes follows the meaning of the forms that they come from. The meaning of a
symbol that has a value is the value, unless there is no more fuel. -/
structure Simulates (c : Simulation) (ev : Node → Eval Value) (rev : Meaning) : Prop where
  forms : ∀ {code globals p I L A env f n uses}, Resolves globals p f n uses → Fits p I L uses →
    c.Covers code globals p I L A env → c.Follows A code Sim (ev n) (rev env f)
  symbols : ∀ env x span v t, env.value? x = some v →
    rev env (.leaf (.symbol x) span) t = (.ok v, t) ∨
      ¬ c.limited ∧ rev env (.leaf (.symbol x) span) t = (.error .spent, t)

section Sequences

variable {forms : List Form} {nodes : List Node} {uses : List Use}

theorem body_follows (hev : c.Simulates ev rev) (h : ResolvesAll globals p forms nodes uses)
    (hfits : Fits p I L uses) (hcovers : c.Covers code globals p I L A env) {v w : Value}
    (hvw : Sim code v w) :
    c.Follows A code Sim (Evaluation.body ev v nodes) (Reference.body (rev env) w forms) := by
  induction forms generalizing nodes uses code v w with
  | nil =>
    cases h
    exact .pure hvw
  | cons f forms ih =>
    cases h with
    | cons hf h =>
      refine (hev.forms hf hfits.left hcovers).bind fun code' v w he hvw => ?_
      exact ih h hfits.right (hcovers.mono he) hvw

theorem firstDeciding_follows (hev : c.Simulates ev rev)
    (h : ResolvesAll globals p forms nodes uses) (hfits : Fits p I L uses)
    (hcovers : c.Covers code globals p I L A env) {decides : Value → Bool}
    (hd : ∀ code v w, Sim code v w → decides v = decides w) {v w : Value} (hvw : Sim code v w) :
    c.Follows A code Sim (Evaluation.firstDeciding ev decides v nodes)
      (Reference.firstDeciding (rev env) decides w forms) := by
  induction forms generalizing nodes uses code v w with
  | nil =>
    cases h
    exact .pure hvw
  | cons f forms ih =>
    cases h with
    | cons hf h =>
      refine (hev.forms hf hfits.left hcovers).bind fun code' v w he hvw => ?_
      rw [hd code' v w hvw]
      split
      · exact .pure hvw
      · exact ih h hfits.right (hcovers.mono he) hvw

theorem all_follows (hev : c.Simulates ev rev) (h : ResolvesAll globals p forms nodes uses)
    (hfits : Fits p I L uses) (hcovers : c.Covers code globals p I L A env) :
    c.Follows A code (fun code vs ws => List.Forall₂ (Sim code) vs ws ∧ ws.length = nodes.length)
      (Evaluation.args ev nodes) (Reference.all (rev env) forms) := by
  induction forms generalizing nodes uses code with
  | nil =>
    cases h
    exact .pure ⟨.nil, rfl⟩
  | cons f forms ih =>
    cases h with
    | cons hf h =>
      refine (hev.forms hf hfits.left hcovers).bind fun code' v w he hvw => ?_
      refine (ih h hfits.right (hcovers.mono he)).bind fun code'' vs ws he' hvs => ?_
      exact .pure ⟨.cons (hvw.mono he') hvs.1, congrArg Nat.succ hvs.2⟩

end Sequences

section Names

/-- A name that is neither a local nor a global means its entry of the binding. -/
theorem Covers.input (hcovers : c.Covers code globals p I L A env) {x : String} (hx : x ∈ I)
    (hlocal : x ∉ p.names) (hglobal : globals.get? x = none) :
    ∃ v w, c.run.binding.get? x = some v ∧ env.value? x = some w ∧ Sim code v w := by
  obtain ⟨v, w, hv, hw, hvw⟩ := hcovers.inputs x hx
  have hlocals : env.locals.lookup x = none := by
    rw [lookup_eq_none_iff_notMem, ← hcovers.locals]
    exact hlocal
  have hsome := (rel_iff.1 (hcovers.globals x)).1
  rw [hglobal] at hsome
  have hglobals : env.globals x = none := by simpa using hsome.symm
  exact ⟨v, w, hv, by rw [Env.value?, hlocals, hglobals]; exact hw, hvw⟩

theorem Covers.global (hcovers : c.Covers code globals p I L A env) {x : String} {v : Value}
    (hlocal : x ∉ p.names) (hglobal : globals.get? x = some v) :
    ∃ w, env.value? x = some w ∧ Sim code v w := by
  have hlocals : env.locals.lookup x = none := by
    rw [lookup_eq_none_iff_notMem, ← hcovers.locals]
    exact hlocal
  obtain ⟨hsome, hrel⟩ := rel_iff.1 (hcovers.globals x)
  rw [hglobal] at hsome
  obtain ⟨w, hw⟩ := Option.isSome_iff_exists.1 hsome.symm
  exact ⟨w, by rw [Env.value?, hlocals, hw]; rfl, hrel v w hglobal hw⟩

/-- What a `fn` captures has a value where the `fn` stands, and the value corresponds to what the name
means there. -/
theorem Covers.captured {uses : List Use} {params : List String}
    (hcovers : c.Covers code globals p I L A env) (hfits : Fits p I L uses)
    (hground : Grounded globals (p.enter params) uses) {x : String}
    (hx : x ∈ captures p.level uses) :
    ∃ v w, (A.lookup x).or (c.run.binding.get? x) = some v ∧ env.value? x = some w ∧
      Sim code v w := by
  cases hlookup : A.lookup x with
  | some v =>
    obtain ⟨w, hw, hvw⟩ := hcovers.seen x v hlookup
    exact ⟨v, w, rfl, hw, hvw⟩
  | none =>
    rcases hfits.captures hground hx with hL | ⟨hin, hlocal, hglobal⟩
    · have hheld := hcovers.held x hL
      simp [hlookup] at hheld
    · exact hcovers.input hin hlocal hglobal

end Names

section Closures

theorem function_run {params forms : List Form} {names : List String}
    (hparams : params.map Form.symbol? = names.map some) (w : World) (env : Env) (span : Span)
    (t : Store) :
    Reference.function w env params forms span t =
      (.ok (token ⟨w.number, t.made⟩ names), t.add ⟨w.number, t.made⟩ ⟨names, forms, env⟩) := by
  have hnames : params.mapM Form.symbol? = some names := by
    induction params generalizing names with
    | nil =>
      cases names with
      | nil => rfl
      | cons => cases hparams
    | cons f params ih =>
      cases names with
      | nil => cases hparams
      | cons x names =>
        obtain ⟨hf, hrest⟩ := List.cons.inj hparams
        rw [List.mapM_cons, hf, ih hrest]
        rfl
  rw [Reference.function, hnames]
  rfl

theorem Extends.add {number : Nat} {t : Store} (hnew : t.code ⟨number, t.made⟩ = none) (c : Code) :
    Extends number t.code (t.add ⟨number, t.made⟩ c).code := by
  refine ⟨fun i c' hi => ?_, fun i hi => ?_⟩
  · have hne : i ≠ ⟨number, t.made⟩ := by
      rintro rfl
      simp [hnew] at hi
    exact (if_neg hne).trans hi
  · have hne : i ≠ ⟨number, t.made⟩ := by
      rintro rfl
      exact hi rfl
    exact if_neg hne

/-- A `fn` makes a closure and a token of the same identity. -/
theorem function_follows {params forms : List Form} {names : List String} {nodes : List Node}
    {uses : List Use} (hparams : params.map Form.symbol? = names.map some) (hnames : names.Nodup)
    (h : ResolvesAll globals (p.enter names) forms nodes uses) (hfits : Fits p I L uses)
    (hcovers : c.Covers code globals p I L A env) (span : Span) :
    c.Follows A code Sim
      (Evaluation.closure c.run (.mk names (captures p.level uses) nodes span))
      (Reference.function c.world env params forms span) := by
  intro s t hs
  have hfound : ∀ x ∈ captures p.level uses,
      ((s.scopes.lookup x).or (c.run.binding.get? x)).isSome := by
    intro x hx
    obtain ⟨v, _, hv, _⟩ := hcovers.captured hfits h.grounded hx
    rw [hs.scopes, hv]
    rfl
  obtain ⟨kept, hmade, hkeys, hvalues⟩ := Evaluation.closure_run (s := s)
    (l := .mk names (captures p.level uses) nodes span) (pairwise_captures _ _) hfound
  have hid : (⟨c.run.number, s.made⟩ : Identity) = ⟨c.world.number, t.made⟩ := by
    rw [c.number, hs.made]
  have hknown := hs.known
  subst hknown
  -- Nothing had the identity of the new closure, so values that correspond still do.
  have hnew : t.code ⟨c.world.number, t.made⟩ = none := hid ▸ hs.fresh 0
  have he := Extends.add hnew ⟨names, forms, env⟩
  rw [hmade, function_run hparams, hid]
  have hmeans : ∀ x v, kept.lookup x = some v → ∃ w, env.value? x = some w ∧ Sim t.code v w := by
    intro x v hx
    obtain ⟨hmem, hv⟩ := hvalues x v hx
    obtain ⟨v', w, hv', hw, hvw⟩ := hcovers.captured hfits h.grounded hmem
    rw [hs.scopes, hv'] at hv
    cases hv
    exact ⟨w, hw, hvw⟩
  refine .values ⟨he, ?_, hs.scopes, rfl, by rw [Store.add, hs.made], fun d => ?_⟩
  · refine .closure (c := ⟨names, forms, env⟩) (if_pos rfl) rfl hnames hcovers.locals
      hcovers.bounded h rfl hkeys (fun x v hx => ?_) (fun x v w hx hw => ?_)
      (fun x => (rel_iff.1 (hcovers.globals x)).1)
      fun x v w hv hw => ((rel_iff.1 (hcovers.globals x)).2 v w hv hw).mono he
    · obtain ⟨w, hw, _⟩ := hmeans x v hx
      exact Option.isSome_iff_exists.2 ⟨w, hw⟩
    · obtain ⟨w', hw', hvw⟩ := hmeans x v hx
      cases hw.symm.trans hw'
      exact hvw.mono he
  · have hne : (⟨c.run.number, s.made + 1 + d⟩ : Identity) ≠ ⟨c.world.number, t.made⟩ := by
      simp [hs.made, Nat.add_assoc]
    exact (if_neg hne).trans (Nat.add_assoc .. ▸ hs.fresh (1 + d))

/-- The frame of a call covers the environment that the code of the token runs in. -/
theorem covers_call {d : Code} {kept : List (String × Value)} {vs ws : List Value}
    {uses : List Use} (hnodup : d.params.Nodup) (hlocals : p.names = d.env.locals.map (·.1))
    (hbounded : p.Bounded) (hkeys : kept.map (·.1) = captures p.level uses)
    (hmeans : ∀ x v, kept.lookup x = some v → ∃ w, d.env.value? x = some w ∧ Sim code v w)
    (hglobals : ∀ x, Option.Rel (Sim code) (globals.get? x) (d.env.globals x))
    (hvs : List.Forall₂ (Sim code) vs ws) (hlength : d.params.length = vs.length) :
    ∃ params, Scope.ofEntries (d.params.zip vs) = .ok params ∧
      c.Covers code globals (p.enter d.params) [] (d.params ++ captures p.level uses)
        ⟨[params, Scope.ofSorted kept]⟩ (d.env.enter d.params ws) := by
  have hfst : (d.params.zip vs).map (·.1) = d.params := map_fst_zip_names hlength
  have hfst' : (d.params.zip ws).map (·.1) = d.params :=
    map_fst_zip_names (hlength.trans hvs.length_eq)
  have hkept : (kept.map (·.1)).Nodup := hkeys ▸ (pairwise_captures _ _).imp String.ne_of_lt
  obtain ⟨params, hparams, hlookup⟩ := Scope.frame_ok hnodup hlength hkept
  refine ⟨params, hparams, ?_, hbounded.enter _, fun x hx => ?_, fun x v hx => ?_,
    fun _ hx => (nomatch hx), hglobals⟩
  · rw [Place.names_enter, hlocals, Env.enter, List.map_append, hfst']
  · rw [hlookup, Option.isSome_or, Bool.or_eq_true, lookup_isSome_iff_mem, lookup_isSome_iff_mem,
      hfst, hkeys]
    exact List.mem_append.1 hx
  · have hmeaning : (d.env.enter d.params ws).value? x =
        ((d.params.zip ws).lookup x).or (d.env.value? x) := by
      rw [Env.value?, Env.value?, Env.enter, lookup_append_or, Option.or_assoc]
    obtain ⟨hsome, hrel⟩ := rel_iff.1 (lookup_zip (R := Sim code) hvs x)
    rw [hlookup] at hx
    rw [hmeaning]
    rcases Option.or_eq_some_iff.1 hx with hv | ⟨hnone, hv⟩
    · rw [hv] at hsome
      obtain ⟨w, hw⟩ := Option.isSome_iff_exists.1 hsome.symm
      exact ⟨w, by rw [hw]; rfl, hrel v w hv hw⟩
    · rw [hnone] at hsome
      have hnone' : (d.params.zip ws).lookup x = none := by simpa using hsome.symm
      rw [hnone', Option.none_or]
      exact hmeans x v hv

theorem apply_closure (w : World) (rev : Meaning) {i : Identity} {d : Code} {t : Store}
    (hcode : t.code i = some d) (ws : List Value) (span : Span) :
    Reference.apply w rev (token i d.params) ws span t =
      (if ws.length = d.params.length then
        Reference.body (rev (d.env.enter d.params ws)) .nil d.body
      else Reference.fault (.wrongCount "fn" (.exactly d.params.length) ws.length) span) t := by
  have hget : (get : Interp Store) t = (.ok t, t) := rfl
  rw [token, Reference.apply, bind_run, hget]
  simp only [hcode]

theorem apply_follows (hev : c.Simulates ev rev) {v w : Value} (hvw : Sim code v w)
    {vs ws : List Value} (hvs : List.Forall₂ (Sim code) vs ws) (span : Span) :
    c.Follows A code Sim (Evaluation.apply c.run ev v vs span)
      (Reference.apply c.world rev w ws span) := by
  cases hvw with
  | atom ha =>
    cases v with
    | function f =>
      cases f with
      | closure => cases ha
      | native f =>
        simp only [Evaluation.apply, Reference.apply, Function.arity, hvs.length_eq]
        split
        · exact .invoke f span hvs
        · exact .fault _ span
    | _ => exact .fault _ span
  | list => exact .fault _ span
  | @closure i params captured nodes fnSpan kept d globals p uses hcode hparams hnodup hlocals
      hbounded hforms hcaptures hkeys hfound hkept hsame hglobals =>
    have hcount : (Lambda.mk params captured nodes fnSpan).params = d.params := hparams
    subst hparams hcaptures
    intro s t hs
    rw [Evaluation.apply_closure, apply_closure _ _ (hs.known ▸ hcode), hvs.length_eq, hcount]
    by_cases hlength : ws.length = d.params.length
    · have hlength' : d.params.length = vs.length := hlength.symm.trans hvs.length_eq.symm
      have hmeans : ∀ x v, kept.lookup x = some v →
          ∃ w, d.env.value? x = some w ∧ Sim code v w := by
        intro x v hx
        obtain ⟨w, hw⟩ := Option.isSome_iff_exists.1 (hfound x v hx)
        exact ⟨w, hw, hkept x v w hx hw⟩
      obtain ⟨params, hparams, hcovers⟩ := covers_call (c := c) hnodup hlocals hbounded hkeys hmeans
        (fun x => rel_iff.2 ⟨hsame x, hglobals x⟩) hvs hlength'
      rw [if_pos hlength, if_pos hlength]
      simp only [Evaluation.enter, Lambda.params, Lambda.body, hparams]
      exact Follows.inFrame (body_follows hev hforms (.enter hbounded _ _) hcovers (.atom rfl)) s t hs
    · rw [if_neg hlength, if_neg hlength]
      exact Follows.fault _ span s t hs

end Closures

section Bindings

theorem Covers.bind {A' : Scopes Value} {x : String} {v w : Value}
    (h : c.Covers code globals p I L A env) (hvw : Sim code v w)
    (hA : ∀ y, A'.lookup y = if y = x then some v else A.lookup y) :
    c.Covers code globals (p.bind x) I (x :: L) A' (env.bind x w) := by
  have hmeaning : ∀ y, (env.bind x w).value? y = if y = x then some w else env.value? y := by
    intro y
    by_cases hy : y = x
    · simp [Env.value?, Env.bind, hy]
    · simp [Env.value?, Env.bind, List.lookup_cons, beq_false_of_ne hy, hy]
  refine ⟨?_, h.bounded.bind x, fun y hy => ?_, fun y u hu => ?_, h.inputs, h.globals⟩
  · rw [Place.names_bind, h.locals, Env.bind, List.map_cons]
  · rw [hA]
    split
    · rfl
    · next hne => exact h.held y ((List.mem_cons.1 hy).resolve_left hne)
  · rw [hA] at hu
    rw [hmeaning]
    split at hu
    · next he =>
      cases hu
      exact ⟨w, if_pos he, hvw⟩
    · next hne =>
      rw [if_neg hne]
      exact h.seen y u hu

/-- The values of a `let` and its body, run in the scope that the `let` has opened. -/
theorem bindings_end (hev : c.Simulates ev rev) {pairs body : List Form}
    {bindings : List (String × Node)} {nodes : List Node} {uses : List Use}
    (h : ResolvesBindings globals p pairs bindings body nodes uses) (hfits : Fits p I L uses)
    (hcovers : c.Covers code globals p I L A env) (hnodup : (bindings.map (·.1)).Nodup)
    (hA : A.Awaits (bindings.map (·.1)) outer) (span : Span) {s : RunState} {t : Store}
    (hs : c.Abreast A code s t) :
    Ends c.terms
      (fun v s' w t' => (Extends c.world.number code t'.code ∧ Sim t'.code v w) ∧
        ∃ A', A'.Awaits [] outer ∧ c.Abreast A' t'.code s' t')
      ((Evaluation.bindAll ev span bindings >>= fun _ => Evaluation.body ev .nil nodes) s)
      ((Reference.bindings rev env pairs >>= fun inner =>
        Reference.body (rev inner) .nil body) t) := by
  induction bindings generalizing pairs p L A env code uses s t with
  | nil =>
    cases h with
    | nil h =>
      exact (body_follows hev h hfits hcovers (.atom rfl) s t hs).mono fun _ _ _ _ hq =>
        ⟨⟨hq.1, hq.2.1⟩, A, hA, hq.2.2⟩
  | cons b bindings ih =>
    cases h with
    | @cons _ x _ f rest n _ _ _ _ _ hn h =>
      obtain ⟨hx, hnodup⟩ := List.nodup_cons.1 hnodup
      simp only [Evaluation.bindAll, Reference.bindings, bind_assoc]
      refine (hev.forms hn hfits.left hcovers s t hs).bind
        fun v s' w t' hq => ?_
      obtain ⟨he, hvw, hs'⟩ := hq
      obtain ⟨A', hbind, hA', hlookup⟩ := hA.bind_ok hx v
      rw [bind_run, Eval.bindName_run span (hs'.scopes ▸ hbind)]
      refine (ih h (hfits.right.bind x) ((hcovers.mono he).bind hvw hlookup) hnodup hA'
        (s := { s' with scopes := A' }) ⟨rfl, rfl, hs'.made, hs'.fresh⟩).mono fun _ _ _ _ hq => ?_
      exact ⟨⟨he.trans hq.1.1, hq.1.2⟩, hq.2⟩

theorem bind_follows (hev : c.Simulates ev rev) {pairs body : List Form}
    {bindings : List (String × Node)} {nodes : List Node} {uses : List Use}
    (h : ResolvesBindings globals p pairs bindings body nodes uses) (hfits : Fits p I L uses)
    (hcovers : c.Covers code globals p I L A env) (hnodup : (bindings.map (·.1)).Nodup)
    (span : Span) :
    c.Follows A code Sim (Evaluation.bind ev bindings nodes span)
      (Reference.bindings rev env pairs >>= fun inner => Reference.body (rev inner) .nil body) := by
  obtain ⟨scope, hdeclare, hscope⟩ := Scope.declare_ok (α := Value) hnodup
  obtain ⟨hA, hlookup⟩ := hscope A
  have hcovers' : c.Covers code globals p I L (A.push scope) env :=
    ⟨hcovers.locals, hcovers.bounded, fun x hx => (hlookup x).symm ▸ hcovers.held x hx,
      fun x v hv => hcovers.seen x v (hlookup x ▸ hv), hcovers.inputs, hcovers.globals⟩
  intro s t hs
  rw [Evaluation.bind, hdeclare]
  simp only [Eval.inScope_run]
  have hopen : c.Abreast (A.push scope) code { s with scopes := s.scopes.push scope } t :=
    ⟨by rw [hs.scopes], hs.known, hs.made, hs.fresh⟩
  refine (bindings_end hev h hfits hcovers' hnodup hA span hopen).afterwards (g := id)
    fun v s' w t' hq => ?_
  obtain ⟨⟨he, hvw⟩, A', hA', hs'⟩ := hq
  refine ⟨he, hvw, ?_⟩
  simp only [RunState.popped, hs'.scopes, hA'.pop]
  exact ⟨rfl, rfl, hs'.made, hs'.fresh⟩

end Bindings

end Simulation

end Reference

end Scriptlet
