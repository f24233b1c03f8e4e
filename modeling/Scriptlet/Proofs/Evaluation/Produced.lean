import Scriptlet.Proofs.Evaluation.Agreement
import Scriptlet.Proofs.Library.Likeness
import Scriptlet.Proofs.Resolution.Compiled

/-!
The values that there can be. Closures come from the evaluation of a `fn` in compiled code, so their
code is closed, they have kept every name that it reads, and their identities were given out when
they were made.
-/

namespace Scriptlet

open Value (Twin Likeness)

/-- Every closure in the value has one of the identities, closed code, and a value for each name that
the code captures. -/
def Value.Settled (old : Identity → Prop) (v : Value) : Prop :=
  Twin (fun i j => i = j ∧ old i) v v

theorem Value.Settled.mono {old old' : Identity → Prop} {v : Value} (h : v.Settled old)
    (hold : ∀ i, old i → old' i) : v.Settled old' :=
  Twin.mono h fun _ _ hi => ⟨hi.1, hold _ hi.2⟩

theorem Identity.same_unique (old : Identity → Prop) (i j i' j' : Identity) (h : i = j ∧ old i)
    (h' : i' = j' ∧ old i') : i = i' ↔ j = j' := by
  rw [h.1, h'.1]

/-- The closures in the value were made by evaluations before the given one. -/
def Value.Known (number : Nat) (v : Value) : Prop := v.Settled fun i => i.maker < number

/-- The functions of the host can see of a value what any caller can see: its data, and of a closure
the number of its parameters and whether it is the same as another. They may hold closures of their
own, if these are known before the given evaluation. -/
def Host.Blind (host : Host) (number : Nat) : Prop :=
  ∀ R : Value → Value → Prop, Likeness R → (∀ v, v.Known number → R v v) →
    ∀ handle as bs, List.Forall₂ R as bs →
      SameUpTo R (host.perform handle as) (host.perform handle bs)

/-- A host that has no functions, and for which no time passes. -/
def Host.bare : Host := ⟨fun _ _ => .error (.other "no such function"), fun _ => ⟨0⟩⟩

theorem Host.bare_blind (number : Nat) : Host.bare.Blind number :=
  fun _ _ _ _ _ _ _ => .error _

theorem Host.Blind.run_congr {host host' : Host} {number : Nat} (h : host.Blind number)
    (hperform : host.perform = host'.perform) {R : Value → Value → Prop} (hR : Likeness R)
    (hknown : ∀ v, v.Known number → R v v) (f : Native) {as bs : List Value}
    (has : List.Forall₂ R as bs) : SameUpTo R (f.run host as) (f.run host' bs) := by
  unfold Native.run
  split
  · exact Builtin.run_congr hR _ has
  · rw [← hperform]
    exact h R hR hknown _ _ _ has

namespace Comparison

/-- One run, compared with itself. The closures in it were made earlier, or by the run. -/
def ofSelf {host : Host} {number : Nat} (h : host.Blind number) (limits : Limits) (b : Binding) :
    Comparison where
  strict := True
  ids i j := i = j ∧ i.maker ≤ number
  left := Artifact.run host number limits b
  right := Artifact.run host number limits b
  unique := Identity.same_unique _
  invoke f _ _ hvs :=
    h.run_congr rfl (Twin.likeness (Identity.same_unique _))
      (fun _ hv => hv.mono fun _ hi => Nat.le_of_lt hi) f hvs
  limits _ := rfl
  elapsed _ := .inr rfl

variable {c : Comparison}

/-- What a comparison says of the outcomes, where no limit excuses them. -/
theorem outcomes {α β σ τ : Type} {Q : α → σ → β → τ → Prop} {x : Except Failure α × σ}
    {y : Except Failure β × τ} (h : Ends c.terms Q x y)
    (hx : ¬ c.strict → ∀ e, x.1 = .error e → e.isResource = false)
    (hy : ¬ c.strict → ∀ e, y.1 = .error e → e.isResource = false) :
    SameUpTo (fun a b => ∃ s t, Q a s b t) x.1 y.1 ∧
      ∀ e, x.1 = .error e → e.Regular c.left.invoke := by
  cases h with
  | values h => exact ⟨.ok ⟨_, _, h⟩, fun _ he => nomatch he⟩
  | failures h =>
    obtain ⟨rfl, hregular⟩ := h
    refine ⟨.error _, fun e he => ?_⟩
    cases he
    exact hregular
  | left h => exact absurd h.2 (by simp [hx h.1 _ rfl])
  | right h => exact absurd h.2 (by simp [hy h.1 _ rfl])

/-- The evaluations of one compiled script on both sides. -/
theorem script_ends {a : Artifact} {env : Environment} {script : Script} {nodes : List Node}
    {uses : List Use} (ha : a.Renders env script nodes uses)
    (hglobals : ∀ x v, env.get? x = some v → Twin c.ids v v) (hinputs : c.Supplied a.inputNames)
    (hids : ∀ d, c.ids ⟨c.left.number, d⟩ ⟨c.right.number, d⟩) (room room' : Nat)
    (hroom : c.strict → room = room') :
    Ends c.terms (fun v _ w _ => Twin c.ids v w)
      (Evaluation.eval c.left room a.body .start) (Evaluation.eval c.right room' a.body .start) := by
  have hready : c.Ready a.inputNames [] a.body := by
    refine ⟨ha.body_scoped, fun v hv => ?_⟩
    rcases ha.mentions v hv with ⟨f, rfl⟩ | ⟨x, hx⟩
    · exact (Twin.likeness c.unique).quoted f
    · exact hglobals x v hx
  have hseen : c.Seen [] ∅ ∅ := ⟨fun _ => .none, fun _ hx => nomatch hx⟩
  have hstart : c.Abreast ∅ ∅ .start .start := by
    refine ⟨rfl, rfl, fun _ => rfl, fun d => ?_⟩
    simpa [RunState.start] using hids d
  exact (eval_agrees hroom _ _ _ _ _ hinputs hseen hready _ _ hstart).mono fun _ _ _ _ hq => hq.1

end Comparison

namespace Artifact

variable {a : Artifact} {b : Binding}

theorem missing?_eq_none : a.missing? b = none ↔ ∀ x ∈ a.inputNames, (b.get? x).isSome := by
  simp [missing?, inputNames, Binding.contains, Option.isSome_iff_ne_none]

theorem missing?_of_ok {host : Host} {number : Nat} {limits : Limits} {v : Value}
    (h : a.evaluate host number limits b = .ok v) : a.missing? b = none := by
  rw [evaluate] at h
  split at h
  · cases h
  · assumption

theorem evaluate_of_missing {host : Host} {number : Nat} {limits : Limits} {v : FreeName}
    (h : a.missing? b = some v) :
    a.evaluate host number limits b = .error ⟨a.name, .unbound v.name v.span⟩ := by
  rw [evaluate, h]

/-- An evaluation that starts ends as its body does. -/
theorem evaluate_of_supplied {host : Host} {number : Nat} {limits : Limits}
    (h : a.missing? b = none) :
    a.evaluate host number limits b =
      (Evaluation.eval (run host number limits b) limits.depth a.body .start).1.mapError
        fun failure => ⟨a.name, failure⟩ := by
  rw [evaluate, h]
  cases (Evaluation.eval (run host number limits b) limits.depth a.body .start).1 <;> rfl

end Artifact

/-- From known globals and inputs, an evaluation that starts ends with a value that is known after
it, or with a regular failure. -/
theorem Artifact.evaluate_known {a : Artifact} {env : Environment} {script : Script}
    {nodes : List Node} {uses : List Use} (ha : a.Renders env script nodes uses) {host : Host}
    {number : Nat} (hblind : host.Blind number)
    (hglobals : ∀ x v, env.get? x = some v → v.Known number) {b : Binding}
    (hinputs : ∀ x ∈ a.inputNames, ∀ v, b.get? x = some v → v.Known number) (limits : Limits)
    (hmissing : a.missing? b = none) :
    (∀ v, a.evaluate host number limits b = .ok v → v.Known (number + 1)) ∧
      ∀ e, a.evaluate host number limits b = .error e → e.failure.Regular (Native.run host) := by
  have hmono : ∀ v : Value, v.Known number → v.Settled fun i => i.maker ≤ number :=
    fun v hv => hv.mono fun _ hi => Nat.le_of_lt hi
  have hsupplied : (Comparison.ofSelf hblind limits b).Supplied a.inputNames := by
    intro x hx
    obtain ⟨v, hv⟩ := Option.isSome_iff_exists.1 (missing?_eq_none.1 hmissing x hx)
    exact ⟨v, v, hv, hv, hmono v (hinputs x hx v hv)⟩
  have hends := Comparison.script_ends (c := .ofSelf hblind limits b) ha
    (fun x v hv => hmono v (hglobals x v hv)) hsupplied (fun _ => ⟨rfl, Nat.le_refl _⟩)
    limits.depth limits.depth (fun _ => rfl)
  obtain ⟨hsame, hregular⟩ := Comparison.outcomes hends (fun h => absurd trivial h)
    (fun h => absurd trivial h)
  rw [evaluate_of_supplied hmissing]
  change SameUpTo _ (Evaluation.eval (run host number limits b) limits.depth a.body .start).1
    (Evaluation.eval (run host number limits b) limits.depth a.body .start).1 at hsame
  change ∀ e, (Evaluation.eval (run host number limits b) limits.depth a.body .start).1 = .error e →
    e.Regular (Native.run host) at hregular
  generalize (Evaluation.eval (run host number limits b) limits.depth a.body .start).1 = outcome
    at hsame hregular ⊢
  refine ⟨fun v hv => ?_, fun e he => ?_⟩
  · cases hsame with
    | error => cases hv
    | ok h =>
      cases hv
      obtain ⟨_, _, hv⟩ := h
      exact Value.Settled.mono hv fun i hi => Nat.lt_succ_of_le hi
  · cases hsame with
    | ok => cases he
    | error failure =>
      cases he
      exact hregular failure rfl

/-- Values that there can be when the identities that are old have been given out: data, native
functions, what evaluations have returned, and what the evaluation of a `fn` makes in whatever
scopes, if these show such values. -/
inductive Value.Produced : (old : Identity → Prop) → Value → Prop where
  | atom {old v} (h : v.isAtom) : Produced old v
  | list {old vs} (h : ∀ v ∈ vs, Produced old v) : Produced old (.list vs)
  | item {old vs v} (h : Produced old (.list vs)) (hv : v ∈ vs) : Produced old v
  | returned {old} {e : Engine} {serial name source a host number limits b v}
      (hcompile : e.compile serial name source = .ok a) (hblind : host.Blind number)
      (hglobals : ∀ x w, e.environment.get? x = some w → Produced (fun i => i.maker < number) w)
      (hinputs : ∀ x ∈ a.inputNames, ∀ w, b.get? x = some w →
        Produced (fun i => i.maker < number) w)
      (hresult : a.evaluate host number limits b = .ok v)
      (hold : ∀ i : Identity, i.maker ≤ number → old i) : Produced old v
  | made {old} {e : Engine} {serial name source a l host number limits b s v t}
      (hcompile : e.compile serial name source = .ok a) (hcode : (Node.lambda l).Within a.body)
      (hglobals : ∀ x w, e.environment.get? x = some w → Produced old w)
      (hbinding : ∀ x ∈ l.captures, ∀ w, b.get? x = some w → Produced old w)
      (hscopes : ∀ x ∈ l.captures, ∀ w, s.scopes.lookup x = some w → Produced old w)
      (hresult : Evaluation.closure (Artifact.run host number limits b) l s = (.ok v, t))
      (hold : old ⟨number, s.made⟩) : Produced old v

theorem Evaluation.closure_ok {run : Run} {l : Lambda} {s t : RunState} {v : Value}
    (hl : l.Closed) (h : Evaluation.closure run l s = (.ok v, t)) :
    ∃ kept, v = .function (.closure ⟨run.number, s.made⟩ l kept) ∧ kept.map (·.1) = l.captures ∧
      ∀ x w, kept.lookup x = some w →
        x ∈ l.captures ∧ (s.scopes.lookup x).or (run.binding.get? x) = some w := by
  rw [Evaluation.closure, bind_run] at h
  rcases hkept : Evaluation.capturedAll run l.span l.captures s with ⟨_ | kept, t'⟩
  · rw [hkept] at h
    cases h
  · rw [hkept] at h
    obtain ⟨rfl, hnames, hvalues⟩ := Evaluation.capturedAll_ok hkept
    simp only [bind_run, Eval.newIdentity_run] at h
    cases h
    rw [sortByName_eq_self (by rw [hnames]; exact hl.captures)]
    exact ⟨kept, rfl, hnames, hvalues⟩

/-- Where its captures can be found, a `fn` makes a closure that keeps them. -/
theorem Evaluation.closure_run {run : Run} {l : Lambda} {s : RunState}
    (hsorted : l.captures.Pairwise (· < ·))
    (hfound : ∀ x ∈ l.captures, ((s.scopes.lookup x).or (run.binding.get? x)).isSome) :
    ∃ kept, Evaluation.closure run l s =
        (.ok (.function (.closure ⟨run.number, s.made⟩ l kept)), { s with made := s.made + 1 }) ∧
      kept.map (·.1) = l.captures ∧ ∀ x w, kept.lookup x = some w →
        x ∈ l.captures ∧ (s.scopes.lookup x).or (run.binding.get? x) = some w := by
  obtain ⟨kept, hkept⟩ := Evaluation.capturedAll_isOk hfound l.span
  obtain ⟨_, hnames, hvalues⟩ := Evaluation.capturedAll_ok hkept
  have hself : sortByName kept = kept := sortByName_eq_self (by rw [hnames]; exact hsorted)
  refine ⟨kept, ?_, hnames, hvalues⟩
  rw [Evaluation.closure, bind_run, hkept]
  simp only [bind_run, Eval.newIdentity_run, hself]
  rfl

/-- Whatever values there can be, their closures are in order. -/
theorem Value.Produced.settled {old : Identity → Prop} {v : Value} (h : v.Produced old) :
    v.Settled old := by
  induction h with
  | atom ha => exact .atom ha
  | list _ ih => exact .of_forall₂ (List.forall₂_same.2 ih)
  | item _ hv ih =>
    cases Twin.shape ih with
    | atom ha => cases ha
    | list hs => exact List.forall₂_same.1 hs _ hv
  | returned hcompile hblind _ _ hresult hold ihglobals ihinputs =>
    obtain ⟨script, nodes, uses, _, _, ha⟩ := Engine.compile_ok hcompile
    have hmissing := Artifact.missing?_of_ok hresult
    have hknown := (Artifact.evaluate_known ha hblind ihglobals ihinputs _ hmissing).1 _ hresult
    exact hknown.mono fun i hi => hold i (Nat.le_of_lt_succ hi)
  | made hcompile hcode _ _ _ hresult hold ihglobals ihbinding ihscopes =>
    obtain ⟨script, nodes, uses, _, _, ha⟩ := Engine.compile_ok hcompile
    have hl := ha.body_scoped.closed hcode
    obtain ⟨kept, rfl, hnames, hvalues⟩ := Evaluation.closure_ok hl hresult
    refine .closure ⟨rfl, hold⟩ hl hnames hnames (fun x v w hv hw => ?_) fun n hn v hv => ?_
    · cases hv.symm.trans hw
      obtain ⟨hx, hfound⟩ := hvalues x v hv
      rcases Option.or_eq_some_iff.1 hfound with hs | ⟨_, hb⟩
      · exact ihscopes x hx v hs
      · exact ihbinding x hx v hb
    · rcases ha.mentions v (hcode.mentions (.part hn hv)) with ⟨f, rfl⟩ | ⟨x, hx⟩
      · exact (Twin.likeness (Identity.same_unique _)).quoted f
      · exact ihglobals x v hx

end Scriptlet
