import Scriptlet.Proofs.Resolution.Free
import Scriptlet.Proofs.Resolution.Origin

/-!
What a compiled `fn` captures. A name is a capture just if the body uses it and does not bind it
there, and it is a local around the `fn` or no global. So the body reads its parameters, its
captures and the names of its own `let` forms, and nothing from the binding.
-/

namespace Scriptlet

mutual

/-- The form stands in value position in another. The names in `inner` are bound around it, where
those in `bound` are bound around the other. -/
inductive Form.ValueIn (g : Form) (inner : List String) : List String → Form → Prop where
  | self : ValueIn g inner inner g
  | vector {bound items span f} (hf : f ∈ items) (h : ValueIn g inner bound f) :
      ValueIn g inner bound (.group .square items span)
  | values {bound name s args span form f} (hname : SpecialForm.ofName? name = some form)
      (hform : form = .block ∨ form = .allOf ∨ form = .anyOf ∨ form = .branch) (hf : f ∈ args)
      (h : ValueIn g inner bound f) :
      ValueIn g inner bound (.group .round (.leaf (.symbol name) s :: args) span)
  | bind {bound name s pairs ps body span} (hname : SpecialForm.ofName? name = some .bind)
      (h : ValueInLet g inner bound pairs body) :
      ValueIn g inner bound
        (.group .round (.leaf (.symbol name) s :: .group .square pairs ps :: body) span)
  | lambda {bound name s params ps body span names f}
      (hname : SpecialForm.ofName? name = some .lambda)
      (hparams : params.map Form.symbol? = names.map some) (hf : f ∈ body)
      (h : ValueIn g inner (names ++ bound) f) :
      ValueIn g inner bound
        (.group .round (.leaf (.symbol name) s :: .group .square params ps :: body) span)
  | call {bound head args span f}
      (hhead : ∀ x, head.symbol? = some x → SpecialForm.ofName? x = none) (hf : f ∈ head :: args)
      (h : ValueIn g inner bound f) : ValueIn g inner bound (.group .round (head :: args) span)

/-- The form stands in value position in a value of a `let`, or in its body. -/
inductive Form.ValueInLet (g : Form) (inner : List String) :
    List String → List Form → List Form → Prop where
  | value {bound x s f rest body} (h : Form.ValueIn g inner bound f) :
      ValueInLet g inner bound (.leaf (.symbol x) s :: f :: rest) body
  | rest {bound x s f rest body} (h : ValueInLet g inner (x :: bound) rest body) :
      ValueInLet g inner bound (.leaf (.symbol x) s :: f :: rest) body
  | body {bound body f} (hf : f ∈ body) (h : Form.ValueIn g inner bound f) :
      ValueInLet g inner bound [] body

end

/-- The form is a `fn` with the parameters and the body. -/
inductive Form.Fn (names : List String) (body : List Form) : Form → Prop where
  | mk {name s params ps span} (hname : SpecialForm.ofName? name = some .lambda)
      (hparams : params.map Form.symbol? = names.map some) :
      Fn names body
        (.group .round (.leaf (.symbol name) s :: .group .square params ps :: body) span)

section Positions

variable {f g g' : Form} {inner inner' bound : List String}

mutual

theorem Form.ValueIn.trans (hg : Form.ValueIn g inner inner' g') :
    ∀ {bound f}, Form.ValueIn g' inner' bound f → Form.ValueIn g inner bound f
  | _, _, .self => hg
  | _, _, .vector hf h => .vector hf (hg.trans h)
  | _, _, .values hname hform hf h => .values hname hform hf (hg.trans h)
  | _, _, .bind hname h => .bind hname (hg.transLet h)
  | _, _, .lambda hname hparams hf h => .lambda hname hparams hf (hg.trans h)
  | _, _, .call hhead hf h => .call hhead hf (hg.trans h)

theorem Form.ValueIn.transLet (hg : Form.ValueIn g inner inner' g') :
    ∀ {bound pairs body}, Form.ValueInLet g' inner' bound pairs body →
      Form.ValueInLet g inner bound pairs body
  | _, _, _, .value h => .value (hg.trans h)
  | _, _, _, .rest h => .rest (hg.transLet h)
  | _, _, _, .body hf h => .body hf (hg.trans h)

end

variable {env : Environment}

/-- The node is what a form becomes that stands in value position in another one at the place. -/
def Node.ValueOf (env : Environment) (m : Node) (p : Place) (f : Form) : Prop :=
  ∃ g q uses, q.Bounded ∧ Form.ValueIn g q.names p.names f ∧ Resolves env q g m uses

theorem ResolvesBindings.valueOf {p : Place} {pairs body : List Form}
    {bindings : List (String × Node)} {nodes : List Node} {uses : List Use}
    (h : ResolvesBindings env p pairs bindings body nodes uses) (hp : p.Bounded) {m : Node}
    (hm : m ∈ bindings.map (·.2) ++ nodes) :
    ∃ g q us, q.Bounded ∧ Form.ValueInLet g q.names p.names pairs body ∧
      Resolves env q g m us := by
  induction bindings generalizing p pairs uses with
  | nil =>
    cases h with
    | nil h =>
      obtain ⟨g, hg, us, hresolves⟩ := h.exists_resolves hm
      exact ⟨g, p, us, hp, .body hg .self, hresolves⟩
  | cons b bindings ih =>
    cases h with
    | cons hf h =>
      rcases List.mem_cons.1 hm with rfl | hm
      · exact ⟨_, p, _, hp, .value .self, hf⟩
      · obtain ⟨g, q, us, hq, hin, hresolves⟩ := ih h (hp.bind _) hm
        exact ⟨g, q, us, hq, .rest hin, hresolves⟩

/-- The parts of a node come from forms in value position. -/
theorem Resolves.part_valueOf {p : Place} {n m : Node} {uses : List Use}
    (h : Resolves env p f n uses) (hp : p.Bounded) (hm : m ∈ n.parts) : m.ValueOf env p f := by
  cases h with
  | literal | localName | globalName | empty | quotation => cases hm
  | freeName => split at hm <;> cases hm
  | vector h =>
    obtain ⟨g, hg, us, hresolves⟩ := h.exists_resolves hm
    exact ⟨g, p, us, hp, .vector hg .self, hresolves⟩
  | block hf h | allOf hf h | anyOf hf h =>
    obtain ⟨g, hg, us, hresolves⟩ := h.exists_resolves hm
    exact ⟨g, p, us, hp, .values hf (by simp) hg .self, hresolves⟩
  | branch hf hcond hyes =>
    rcases List.mem_cons.1 hm with rfl | hm
    · exact ⟨_, p, _, hp, .values hf (by simp) (by simp) .self, hcond⟩
    · cases List.mem_singleton.1 hm
      exact ⟨_, p, _, hp, .values hf (by simp) (by simp) .self, hyes⟩
  | branchElse hf hcond hyes hno =>
    rcases List.mem_cons.1 hm with rfl | hm
    · exact ⟨_, p, _, hp, .values hf (by simp) (by simp) .self, hcond⟩
    · rcases List.mem_cons.1 hm with rfl | hm
      · exact ⟨_, p, _, hp, .values hf (by simp) (by simp) .self, hyes⟩
      · cases List.mem_singleton.1 hm
        exact ⟨_, p, _, hp, .values hf (by simp) (by simp) .self, hno⟩
  | bind hf _ h =>
    obtain ⟨g, q, us, hq, hin, hresolves⟩ := h.valueOf hp hm
    exact ⟨g, q, us, hq, .bind hf hin, hresolves⟩
  | lambda hf hparams _ h =>
    obtain ⟨g, hg, us, hresolves⟩ := h.exists_resolves hm
    refine ⟨g, p.enter _, us, hp.enter _, ?_, hresolves⟩
    rw [Place.names_enter]
    exact .lambda hf hparams hg .self
  | nativeCall hf _ _ _ h =>
    obtain ⟨g, hg, us, hresolves⟩ := h.exists_resolves hm
    exact ⟨g, p, us, hp, .call (Form.symbol?_head hf _) (List.mem_cons_of_mem _ hg) .self,
      hresolves⟩
  | call hc hhead h =>
    rcases List.mem_cons.1 hm with rfl | hm
    · exact ⟨_, p, _, hp, .call hc.head List.mem_cons_self .self, hhead⟩
    · obtain ⟨g, hg, us, hresolves⟩ := h.exists_resolves hm
      exact ⟨g, p, us, hp, .call hc.head (List.mem_cons_of_mem _ hg) .self, hresolves⟩

/-- So does every node of the tree. -/
theorem Resolves.valueOf {p : Place} {n m : Node} {uses : List Use} (h : Resolves env p f n uses)
    (hp : p.Bounded) (hm : m.Within n) : m.ValueOf env p f := by
  induction hm generalizing p f uses with
  | self => exact ⟨f, p, uses, hp, .self, h⟩
  | part hk _ ih =>
    obtain ⟨g, q, us, hq, hin, hresolves⟩ := h.part_valueOf hp hk
    obtain ⟨g', q', us', hq', hin', hresolves'⟩ := ih hresolves hq
    exact ⟨g', q', us', hq', hin'.trans hin, hresolves'⟩

end Positions

section Outside

variable {env : Environment} {q p : Place} {bound params : List String} {uses : List Use}

/-- The place is in the body of a `fn` that stands at `q`. The names in `bound` are bound in the
body, and all others mean what they mean at `q`. -/
structure Place.Beyond (q : Place) (bound : List String) (p : Place) : Prop where
  level : q.level < p.level
  inner : ∀ x ∈ bound, ∃ l, p.level? x = some l ∧ q.level < l
  outer : ∀ x ∉ bound, p.level? x = q.level? x

namespace Place.Beyond

theorem body (q : Place) (params : List String) : q.Beyond params (q.enter params) := by
  refine ⟨Nat.lt_succ_self _, fun x hx => ⟨q.level + 1, ?_, Nat.lt_succ_self _⟩, fun x hx => ?_⟩
  · rw [Place.level?_enter, if_pos hx]
  · rw [Place.level?_enter, if_neg hx]

theorem bind (h : q.Beyond bound p) (x : String) : q.Beyond (x :: bound) (p.bind x) := by
  refine ⟨h.level, fun y hy => ?_, fun y hy => ?_⟩
  · rw [Place.level?_bind]
    split
    · exact ⟨_, rfl, h.level⟩
    · next hne => exact h.inner y (List.mem_of_ne_of_mem hne hy)
  · rw [List.mem_cons, not_or] at hy
    rw [Place.level?_bind, if_neg hy.1, h.outer y hy.2]

theorem enter (h : q.Beyond bound p) (names : List String) :
    q.Beyond (names ++ bound) (p.enter names) := by
  refine ⟨Nat.lt_succ_of_lt h.level, fun y hy => ?_, fun y hy => ?_⟩
  · rw [Place.level?_enter]
    split
    · exact ⟨_, rfl, Nat.lt_succ_of_lt h.level⟩
    · next hne => exact h.inner y ((List.mem_append.1 hy).resolve_left hne)
  · rw [List.mem_append, not_or] at hy
    rw [Place.level?_enter, if_neg hy.1, h.outer y hy.2]

end Place.Beyond

/-- The uses in the body of a `fn` of what is not bound in it. Their names are locals around the
`fn`, or no globals. -/
theorem UseKind.outside (env : Environment) (hq : q.Bounded) :
    UseKind env ∅ (·.isOutside q.level) (fun x => x ∈ q.names ∨ env.get? x = none) q.Beyond where
  bind x h := h.bind x
  enter names h := h.enter names
  localName {bound p x level} span h hx := by
    constructor
    · intro hle
      replace hle : level ≤ q.level := by simpa [Use.isOutside] using hle
      have hnew : x ∉ bound := by
        intro hmem
        obtain ⟨l, hl, hlt⟩ := h.inner x hmem
        cases hx.symm.trans hl
        exact absurd hle (Nat.not_le.2 hlt)
      have hlevel : q.level? x = some level := (h.outer x hnew).symm.trans hx
      exact ⟨hnew, rfl, .inl (Place.level?_isSome.1 (by rw [hlevel]; rfl))⟩
    · rintro ⟨hnew, -, -⟩
      have hlevel : q.level? x = some level := (h.outer x hnew).symm.trans hx
      simpa [Use.isOutside] using hq x level hlevel
  globalName {bound p x v} h hx hg := by
    rintro ⟨hnew, -, hout | hnone⟩
    · exact Place.level?_eq_none.1 ((h.outer x hnew).symm.trans hx) hout
    · rw [hg] at hnone
      cases hnone
  freeName {bound p x} span h hx hg := by
    have hnew : x ∉ bound := by
      intro hmem
      obtain ⟨l, hl, -⟩ := h.inner x hmem
      cases hx.symm.trans hl
    exact iff_of_true rfl ⟨hnew, rfl, .inr hg⟩

theorem mem_captures_iff {level : Nat} {x : String} :
    x ∈ captures level uses ↔ ∃ span, ⟨x, span⟩ ∈ usesOf (·.isOutside level) uses := by
  rw [mem_captures]
  simp only [usesOf, List.mem_map, List.mem_filter, FreeName.mk.injEq]
  constructor
  · rintro ⟨u, hu, hout, rfl⟩
    exact ⟨u.span, u, ⟨hu, hout⟩, rfl, rfl⟩
  · rintro ⟨-, u, ⟨hu, hout⟩, rfl, -⟩
    exact ⟨u, hu, hout, rfl⟩

/-- Parameters are no captures. -/
theorem Grounded.notMem_params (h : Grounded env (q.enter params) uses) {x : String}
    (hx : x ∈ captures q.level uses) : x ∉ params := by
  obtain ⟨u, hu, hout, rfl⟩ := mem_captures.1 hx
  intro hmem
  have hparam : (q.enter params).level? u.name = some (q.level + 1) := by
    rw [Place.level?_enter, if_pos hmem]
  cases hl : u.level with
  | some l =>
    have hle : l ≤ q.level := by simpa [Use.isOutside, hl] using hout
    have hlevel := h.outer u hu l hl (Nat.lt_succ_of_le hle)
    rw [hparam] at hlevel
    cases hlevel
    exact absurd hle (Nat.not_succ_le_self _)
  | none =>
    have hlevel := (h.free u hu hl).1
    rw [hparam] at hlevel
    cases hlevel

/-- What a compiled `fn` is made of. -/
theorem Resolves.of_lambda {g : Form} {l : Lambda} (h : Resolves env q g (.lambda l) uses) :
    ∃ body, Form.Fn l.params body g ∧ l.captures = captures q.level uses ∧
      ResolvesAll env (q.enter l.params) body l.body uses := by
  generalize hn : Node.lambda l = n at h
  cases h with
  | lambda hf hparams _ h =>
    cases hn
    exact ⟨_, .mk hf hparams, rfl, h⟩
  | freeName => split at hn <;> cases hn
  | _ => cases hn

end Outside

/-- The captures of a compiled `fn` are exact. It stands for a `fn` form around which the names in
`outer` are bound, and it captures the names that occur in its body, are not bound there, and are
either among `outer` or no globals. Its body reads nothing from the binding, only parameters,
captures and names that its own `let` forms have bound before. -/
theorem Script.resolve_captures {env : Environment} {script : Script} {r : ResolvedScript}
    (h : script.resolve env = .ok r) {l : Lambda} (hl : (Node.lambda l).Within r.body) :
    l.captures.Pairwise (· < ·) ∧
    (∀ x ∈ l.captures, x ∉ l.params) ∧
    (∃ f ∈ script.forms, ∃ g outer body, Form.ValueIn g outer [] f ∧ Form.Fn l.params body g ∧
      g.span = l.span ∧ ∀ x, x ∈ l.captures ↔
        (∃ span, Form.FreeIn ∅ l.params body ⟨x, span⟩) ∧ (x ∈ outer ∨ env.get? x = none)) ∧
    (∀ n ∈ l.body, n.Scoped [] (l.params ++ l.captures)) ∧
    ∀ n ∈ l.body, ∀ x span, ¬(Node.freeName x span).Within n := by
  obtain ⟨nodes, uses, hforms, -, hbody⟩ := Script.resolve_ok h
  rw [hbody] at hl
  -- The node that holds several forms together is no `fn`, so the `fn` is in one of the forms.
  obtain ⟨n, hn, hwithin⟩ := (Script.within_together hl).resolve_right (by simp)
  obtain ⟨f, hf, us, hresolves⟩ := hforms.exists_resolves hn
  obtain ⟨g, q, vs, hq, hin, hg⟩ := hresolves.valueOf Place.bounded_top hwithin
  obtain ⟨body, hfn, hcaptures, hall⟩ := hg.of_lambda
  have hscoped : ∀ n ∈ l.body, n.Scoped [] (l.params ++ l.captures) := by
    rw [hcaptures]
    exact hall.scoped (hq.enter _) (.enter hq _ _)
  refine ⟨?_, ?_, ⟨f, hf, g, q.names, body, hin, hfn, hg.span_eq.symm, fun x => ?_⟩, hscoped, ?_⟩
  · rw [hcaptures]
    exact pairwise_captures _ _
  · intro x hx
    rw [hcaptures] at hx
    exact hall.grounded.notMem_params hx
  · rw [hcaptures, mem_captures_iff]
    simp only [hall.mem_usesOf (UseKind.outside env hq) (Place.Beyond.body q _), exists_and_right]
  · intro n hn x span hx
    exact List.not_mem_nil ((hscoped n hn).mem_inputs hx)

/-- The compiled `fn` that the node is. -/
def Node.lambda? : Node → Option Lambda
  | .lambda l => some l
  | _ => none

theorem Node.eq_lambda {n : Node} {l : Lambda} (h : n.lambda? = some l) : n = .lambda l := by
  cases n <;> cases h
  rfl

/-- The inner function captures a name of the `let`, a parameter of the outer function and a free
name, but neither its own names nor the global. -/
theorem Script.resolve_captures_nested :
    ∃ script r l, Script.read 5 "(let [x 1] (fn [y] (fn [z] (let [u x] (+ u y z w)))))" = .ok script ∧
      script.resolve Engine.standard.environment = .ok r ∧ (Node.lambda l).Within r.body ∧
      l.params = ["z"] ∧ l.captures = ["w", "x", "y"] ∧
      ∀ n ∈ l.body, n.Scoped [] ["z", "w", "x", "y"] := by
  have hfacts : ((Script.read 5 "(let [x 1] (fn [y] (fn [z] (let [u x] (+ u y z w)))))").toOption.bind
      fun script => (script.resolve Engine.standard.environment).toOption.bind fun r =>
        r.body.parts[1]?.bind fun outer => outer.parts[0]?.bind fun inner =>
          inner.lambda?.map fun l => (l.params, l.captures)) =
            some (["z"], ["w", "x", "y"]) := by decide +kernel
  obtain ⟨script, hread, hfacts⟩ := Option.bind_eq_some_iff.1 hfacts
  obtain ⟨r, hr, hfacts⟩ := Option.bind_eq_some_iff.1 hfacts
  obtain ⟨outer, houter, hfacts⟩ := Option.bind_eq_some_iff.1 hfacts
  obtain ⟨inner, hinner, hfacts⟩ := Option.bind_eq_some_iff.1 hfacts
  obtain ⟨l, hl, hnames⟩ := Option.map_eq_some_iff.1 hfacts
  obtain ⟨hparams, hcaptures⟩ := Prod.mk.inj hnames
  have hok : script.resolve Engine.standard.environment = .ok r := eq_ok_of_toOption hr
  have hwithin : (Node.lambda l).Within r.body := by
    rw [← Node.eq_lambda hl]
    exact .part (List.mem_of_getElem? houter) (.part (List.mem_of_getElem? hinner) .self)
  have hscoped := (Script.resolve_captures hok hwithin).2.2.2.1
  rw [hparams, hcaptures] at hscoped
  exact ⟨script, r, l, eq_ok_of_toOption hread, hok, hwithin, hparams, hcaptures, hscoped⟩

end Scriptlet
