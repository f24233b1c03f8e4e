import Scriptlet.Proofs.Evaluation.Comparison

/-!
Compared runs agree on every node whose names they can count on. One step of evaluation carries the
agreement from the parts of a node to the node, and calls carry it into the code of a closure, which
counts on nothing but its parameters and captures.
-/

namespace Scriptlet

open Value (Twin)

namespace Comparison

variable {c : Comparison} {A B : Scopes Value} {I L : List String} {ev ev' : Node → Eval Value}

/-- A node in scope, in which every constant is its own twin. -/
structure Ready (c : Comparison) (I L : List String) (n : Node) : Prop where
  scope : n.Scoped I L
  mentions : ∀ v, n.Mentions v → Twin c.ids v v

/-- The two evaluators follow each other on every node that is ready, in whatever scopes. -/
def Agrees (c : Comparison) (ev ev' : Node → Eval Value) : Prop :=
  ∀ I L A B n, c.Supplied I → c.Seen L A B → c.Ready I L n →
    c.Follows A B (Twin c.ids) (ev n) (ev' n)

theorem Ready.part {n m : Node} (h : c.Ready I L n) (hm : m ∈ n.parts) (hs : m.Scoped I L) :
    c.Ready I L m :=
  ⟨hs, fun v hv => h.mentions v (.part hm hv)⟩

theorem supplied_nil : c.Supplied [] := fun _ hx => nomatch hx

theorem isTruthy_eq (c : Comparison) {v w : Value} (h : Twin c.ids v w) : v.isTruthy = w.isTruthy :=
  (Value.Twin.likeness c.unique).isTruthy h

section Sequences

variable {nodes : List Node}

theorem body_follows (h : ∀ n ∈ nodes, c.Follows A B (Twin c.ids) (ev n) (ev' n)) {v w : Value}
    (hvw : Twin c.ids v w) :
    c.Follows A B (Twin c.ids) (Evaluation.body ev v nodes) (Evaluation.body ev' w nodes) := by
  induction nodes generalizing v w with
  | nil => exact .pure hvw
  | cons n nodes ih =>
    refine (h n (by simp)).bind fun v w hvw => ?_
    exact ih (fun m hm => h m (by simp [hm])) hvw

theorem firstDeciding_follows (h : ∀ n ∈ nodes, c.Follows A B (Twin c.ids) (ev n) (ev' n))
    {decides : Value → Bool} (hd : ∀ v w, Twin c.ids v w → decides v = decides w) {v w : Value}
    (hvw : Twin c.ids v w) :
    c.Follows A B (Twin c.ids) (Evaluation.firstDeciding ev decides v nodes)
      (Evaluation.firstDeciding ev' decides w nodes) := by
  induction nodes generalizing v w with
  | nil => exact .pure hvw
  | cons n nodes ih =>
    refine (h n (by simp)).bind fun v w hvw => ?_
    rw [hd v w hvw]
    split
    · exact .pure hvw
    · exact ih (fun m hm => h m (by simp [hm])) hvw

theorem args_follows (h : ∀ n ∈ nodes, c.Follows A B (Twin c.ids) (ev n) (ev' n)) :
    c.Follows A B (List.Forall₂ (Twin c.ids)) (Evaluation.args ev nodes)
      (Evaluation.args ev' nodes) := by
  induction nodes with
  | nil => exact .pure .nil
  | cons n nodes ih =>
    refine (h n (by simp)).bind fun v w hvw => ?_
    refine (ih fun m hm => h m (by simp [hm])).bind fun vs ws hvs => ?_
    exact .pure (.cons hvw hvs)

end Sequences

section Closures

/-- Entries of the same names, in the same order, with twins for values. -/
structure Kept (c : Comparison) (names : List String) (kept kept' : List (String × Value)) :
    Prop where
  left : kept.map (·.1) = names
  right : kept'.map (·.1) = names
  twin : ∀ x, Option.Rel (Twin c.ids) (kept.lookup x) (kept'.lookup x)

/-- A name that is held is found in the scopes, and any other is an input. -/
theorem captured_follows (hI : c.Supplied I) (hseen : c.Seen L A B) {x : String}
    (hx : x ∈ L ∨ x ∈ I) (span : Span) :
    c.Follows A B (Twin c.ids) (Evaluation.captured c.left x span)
      (Evaluation.captured c.right x span) := by
  refine (Follows.lookup hseen x).bind fun v w hvw => ?_
  obtain ⟨hrel, hv⟩ := hvw
  cases hrel with
  | some h => exact .pure h
  | none =>
    have hin : x ∈ I := hx.resolve_left fun hL => by simpa [← hv] using hseen.held x hL
    obtain ⟨v, w, hl, hr, hvw⟩ := hI x hin
    simp only [hl, hr]
    exact .pure hvw

theorem capturedAll_follows (hI : c.Supplied I) (hseen : c.Seen L A B) {names : List String}
    (h : ∀ x ∈ names, x ∈ L ∨ x ∈ I) (span : Span) :
    c.Follows A B (c.Kept names) (Evaluation.capturedAll c.left span names)
      (Evaluation.capturedAll c.right span names) := by
  induction names with
  | nil => exact .pure ⟨rfl, rfl, fun _ => .none⟩
  | cons x names ih =>
    refine (captured_follows hI hseen (h x (by simp)) span).bind fun v w hvw => ?_
    refine (ih fun y hy => h y (by simp [hy])).bind fun kept kept' hk => ?_
    refine .pure ⟨by simp [hk.left], by simp [hk.right], fun y => ?_⟩
    simp only [List.lookup_cons]
    split
    · exact .some hvw
    · exact hk.twin y

theorem closure_follows (hI : c.Supplied I) (hseen : c.Seen L A B) {l : Lambda}
    (h : c.Ready I L (.lambda l)) :
    c.Follows A B (Twin c.ids) (Evaluation.closure c.left l) (Evaluation.closure c.right l) := by
  obtain ⟨hscoped, hmentions⟩ := h
  cases hscoped with
  | lambda hparams hsorted hnames hbody =>
    refine (capturedAll_follows hI hseen hnames _).bind fun kept kept' hk => ?_
    refine Follows.newIdentity.bind fun i j hij => .pure ?_
    have hs : sortByName kept = kept := sortByName_eq_self (by rw [hk.left]; exact hsorted)
    have hs' : sortByName kept' = kept' := sortByName_eq_self (by rw [hk.right]; exact hsorted)
    rw [hs, hs']
    refine .closure hij ⟨hparams, hsorted, hbody⟩ hk.left hk.right (fun x v w hv hw => ?_)
      fun n hn v hv => hmentions v (.part hn hv)
    have ht := hk.twin x
    rw [hv, hw] at ht
    cases ht with
    | some ht => exact ht

/-- What twin closures have kept. -/
theorem Kept.of_names {names : List String} {kept kept' : List (String × Value)}
    (hnames : kept.map (·.1) = names) (hnames' : kept'.map (·.1) = names)
    (h : ∀ x v w, kept.lookup x = some v → kept'.lookup x = some w → Twin c.ids v w) :
    c.Kept names kept kept' := by
  refine ⟨hnames, hnames', fun x => rel_iff.2 ⟨?_, h x⟩⟩
  rw [Bool.eq_iff_iff, lookup_isSome_iff_mem, lookup_isSome_iff_mem, hnames, hnames']

/-- The scopes of a call: the arguments under the names of the parameters, and what the closure
kept. -/
theorem seen_call {l : Lambda} (hl : l.Closed) {kept kept' : List (String × Value)}
    (hk : c.Kept l.captures kept kept') {vs ws : List Value} (hvs : List.Forall₂ (Twin c.ids) vs ws)
    (hlength : l.params.length = vs.length) :
    ∃ params params', Scope.ofEntries (l.params.zip vs) = .ok params ∧
      Scope.ofEntries (l.params.zip ws) = .ok params' ∧
      c.Seen (l.params ++ l.captures) ⟨[params, Scope.ofSorted kept]⟩
        ⟨[params', Scope.ofSorted kept']⟩ := by
  have hfst : (l.params.zip vs).map (·.1) = l.params := map_fst_zip_names hlength
  obtain ⟨params, hparams, hlookup⟩ :=
    Scope.frame_ok hl.params hlength (hk.left.symm ▸ hl.nodup_captures)
  obtain ⟨params', hparams', hlookup'⟩ :=
    Scope.frame_ok hl.params (hlength.trans hvs.length_eq) (hk.right.symm ▸ hl.nodup_captures)
  refine ⟨params, params', hparams, hparams', fun x => ?_, fun x hx => ?_⟩
  · rw [hlookup, hlookup']
    exact rel_or (lookup_zip hvs x) (hk.twin x)
  · rw [hlookup, Option.isSome_or, Bool.or_eq_true, lookup_isSome_iff_mem, lookup_isSome_iff_mem,
      hfst, hk.left]
    exact List.mem_append.1 hx

theorem enter_follows (hev : c.Agrees ev ev') {l : Lambda} (hl : l.Closed)
    {kept kept' : List (String × Value)} (hk : c.Kept l.captures kept kept')
    (hconst : ∀ n ∈ l.body, ∀ v, n.Mentions v → Twin c.ids v v) {vs ws : List Value}
    (hvs : List.Forall₂ (Twin c.ids) vs ws) (hlength : l.params.length = vs.length)
    (span span' : Span) :
    c.Follows A B (Twin c.ids) (Evaluation.enter ev l kept vs span)
      (Evaluation.enter ev' l kept' ws span') := by
  obtain ⟨params, params', hp, hp', hseen⟩ := seen_call hl hk hvs hlength
  rw [Evaluation.enter, Evaluation.enter, hp, hp']
  refine Follows.inFrame (body_follows (fun n hn => ?_) (.atom rfl))
  exact hev [] _ _ _ n supplied_nil hseen ⟨hl.body n hn, hconst n hn⟩

theorem apply_follows (hev : c.Agrees ev ev') {v w : Value} (h : Twin c.ids v w) {vs ws : List Value}
    (hvs : List.Forall₂ (Twin c.ids) vs ws) (span : Span) :
    c.Follows A B (Twin c.ids) (Evaluation.apply c.left ev v vs span)
      (Evaluation.apply c.right ev' w ws span) := by
  cases h with
  | atom ha =>
    cases v with
    | function f =>
      cases f with
      | closure => cases ha
      | native f =>
        simp only [Evaluation.apply, hvs.length_eq]
        split
        · exact .invoke f span hvs
        · exact .fault span (by simp)
    | _ => exact .fault span (by simp)
  | list => exact .fault span (by simp)
  | @closure i j l kept kept' hid hclosed hnames hnames' hkept hconst =>
    rw [Evaluation.apply_closure, Evaluation.apply_closure, hvs.length_eq]
    by_cases hlength : ws.length = l.params.length
    · rw [if_pos hlength, if_pos hlength]
      exact enter_follows hev hclosed (.of_names hnames hnames' hkept) hconst hvs
        (hlength.symm.trans hvs.length_eq.symm) span span
    · rw [if_neg hlength, if_neg hlength]
      exact .fault span (by simp)

end Closures

section Bindings

variable {outer outer' : Scopes Value}

/-- A name that is bound on both sides is held from then on. -/
theorem seen_bind {n : String} {names : List String} (hn : n ∉ names)
    (hA : A.Awaits (n :: names) outer) (hB : B.Awaits (n :: names) outer') (hseen : c.Seen L A B)
    {v w : Value} (hvw : Twin c.ids v w) :
    ∃ A' B', A.bind n v = .ok A' ∧ B.bind n w = .ok B' ∧ A'.Awaits names outer ∧
      B'.Awaits names outer' ∧ c.Seen (n :: L) A' B' := by
  obtain ⟨A', hbind, hA', hlookup⟩ := hA.bind_ok hn v
  obtain ⟨B', hbind', hB', hlookup'⟩ := hB.bind_ok hn w
  refine ⟨A', B', hbind, hbind', hA', hB', fun x => ?_, fun x hx => ?_⟩
  · rw [hlookup, hlookup']
    split
    · exact .some hvw
    · exact hseen.twin x
  · rw [hlookup]
    split
    · rfl
    · next hne => exact hseen.held x ((List.mem_cons.1 hx).resolve_left hne)

/-- The values of a `let` and its body, run in the scope that the `let` has opened. -/
theorem bindings_end (hev : c.Agrees ev ev') (hI : c.Supplied I) {nodes : List Node} (span : Span)
    {bindings : List (String × Node)} (hscope : Node.ScopedBindings I L bindings nodes)
    (hnodup : (bindings.map (·.1)).Nodup)
    (hconst : ∀ n ∈ bindings.map (·.2) ++ nodes, ∀ v, n.Mentions v → Twin c.ids v v)
    (hA : A.Awaits (bindings.map (·.1)) outer) (hB : B.Awaits (bindings.map (·.1)) outer')
    (hseen : c.Seen L A B) {s t : RunState} (hs : c.Abreast A B s t) :
    Ends c.terms
      (fun v s' w t' => Twin c.ids v w ∧ ∃ A' B', A'.Awaits [] outer ∧ B'.Awaits [] outer' ∧
        c.Abreast A' B' s' t')
      ((Evaluation.bindAll ev span bindings >>= fun _ => Evaluation.body ev .nil nodes) s)
      ((Evaluation.bindAll ev' span bindings >>= fun _ => Evaluation.body ev' .nil nodes) t) := by
  -- The scopes await just the names that are still to come, and each value is seen by the next.
  induction bindings generalizing L A B s t with
  | nil =>
    cases hscope with
    | nil hnodes =>
      have hbody : c.Follows A B (Twin c.ids) (Evaluation.body ev .nil nodes)
          (Evaluation.body ev' .nil nodes) :=
        body_follows (fun n hn => hev I L A B n hI hseen ⟨hnodes n hn, hconst n (by simp [hn])⟩)
          (.atom rfl)
      exact (hbody s t hs).mono fun _ _ _ _ hq => ⟨hq.1, A, B, hA, hB, hq.2⟩
  | cons p bindings ih =>
    cases hscope with
    | @cons _ _ x n _ _ hn hrest =>
      obtain ⟨hx, hnodup⟩ := List.nodup_cons.1 hnodup
      simp only [Evaluation.bindAll, bind_assoc]
      have hfirst := hev I L A B n hI hseen ⟨hn, hconst n (by simp)⟩
      refine (hfirst s t hs).bind fun v s' w t' hq => ?_
      obtain ⟨A', B', hbind, hbind', hA', hB', hseen'⟩ := seen_bind hx hA hB hseen hq.1
      have hs' : c.Abreast A' B' { s' with scopes := A' } { t' with scopes := B' } :=
        ⟨rfl, rfl, hq.2.steps, hq.2.made⟩
      rw [bind_run, bind_run, Eval.bindName_run span (hq.2.left ▸ hbind),
        Eval.bindName_run span (hq.2.right ▸ hbind')]
      exact ih hrest hnodup (fun m hm => hconst m (by simp at hm ⊢; tauto)) hA' hB' hseen' hs'

theorem bind_follows (hev : c.Agrees ev ev') (hI : c.Supplied I) (hseen : c.Seen L A B)
    {bindings : List (String × Node)} {nodes : List Node} {span : Span}
    (h : c.Ready I L (.bind bindings nodes span)) :
    c.Follows A B (Twin c.ids) (Evaluation.bind ev bindings nodes span)
      (Evaluation.bind ev' bindings nodes span) := by
  obtain ⟨hscope, hmentions⟩ := h
  cases hscope with
  | bind hnames hbindings =>
    obtain ⟨scope, hdeclare, hscope⟩ := Scope.declare_ok (α := Value) hnames
    intro s t hs
    rw [Evaluation.bind, Evaluation.bind, hdeclare]
    simp only [Eval.inScope_run]
    have hopen : c.Abreast (A.push scope) (B.push scope) { s with scopes := s.scopes.push scope }
        { t with scopes := t.scopes.push scope } :=
      ⟨by rw [hs.left], by rw [hs.right], hs.steps, hs.made⟩
    have hseen' : c.Seen L (A.push scope) (B.push scope) := by
      refine ⟨fun x => ?_, fun x hx => ?_⟩
      · rw [(hscope A).2, (hscope B).2]
        exact hseen.twin x
      · rw [(hscope A).2]
        exact hseen.held x hx
    refine (bindings_end hev hI span hbindings hnames (fun n hn v hv => hmentions v (.part hn hv))
      (hscope A).1 (hscope B).1 hseen' hopen).afterwards fun v s' w t' hq => ?_
    obtain ⟨hvw, A', B', hA', hB', hs'⟩ := hq
    refine ⟨hvw, ?_⟩
    simp only [RunState.popped, hs'.left, hs'.right, hA'.pop, hB'.pop]
    exact ⟨rfl, rfl, hs'.steps, hs'.made⟩

end Bindings

/-- One step: if the parts of nodes are evaluated alike, so are nodes. -/
theorem dispatch_agrees (hev : c.Agrees ev ev') :
    c.Agrees (Evaluation.dispatch c.left ev) (Evaluation.dispatch c.right ev') := by
  intro I L A B n hI hseen hn
  have hpart : ∀ m ∈ n.parts, m.Scoped I L → c.Follows A B (Twin c.ids) (ev m) (ev' m) :=
    fun m hm hs => hev I L A B m hI hseen (hn.part hm hs)
  cases n with
  | constant v span => exact .pure (hn.mentions v .self)
  | localName x span =>
    refine (Follows.lookup hseen x).bind fun v w hvw => ?_
    obtain ⟨hrel, hv⟩ := hvw
    cases hrel with
    | some h => exact .pure h
    | none =>
      cases hn.scope with
      | localName hx => simpa [← hv] using hseen.held x hx
  | freeName x span =>
    cases hn.scope with
    | freeName hx =>
      obtain ⟨v, w, hl, hr, hvw⟩ := hI x hx
      simp only [Evaluation.dispatch, hl, hr]
      exact .pure hvw
  | list items span =>
    cases hn.scope with
    | list h =>
      refine (args_follows fun m hm => hpart m hm (h m hm)).bind fun vs ws hvs => ?_
      exact .pure (.of_forall₂ hvs)
  | branch cond yes no span =>
    cases hn.scope with
    | branch hcond hyes hno =>
      refine (hpart cond (by simp [Node.parts]) hcond).bind fun v w hvw => ?_
      rw [c.isTruthy_eq hvw]
      split
      · exact hpart yes (by simp [Node.parts]) hyes
      · cases no with
        | none => exact .pure (.atom rfl)
        | some no => exact hpart no (by simp [Node.parts]) (hno no rfl)
  | block nodes span =>
    cases hn.scope with
    | block h => exact body_follows (fun m hm => hpart m hm (h m hm)) (.atom rfl)
  | bind bindings nodes span => exact bind_follows hev hI hseen hn
  | lambda l => exact closure_follows hI hseen hn
  | allOf items span =>
    cases hn.scope with
    | allOf h =>
      exact firstDeciding_follows (fun m hm => hpart m hm (h m hm))
        (fun v w hvw => by rw [c.isTruthy_eq hvw]) (.atom rfl)
  | anyOf items span =>
    cases hn.scope with
    | anyOf h =>
      exact firstDeciding_follows (fun m hm => hpart m hm (h m hm)) (fun _ _ => c.isTruthy_eq)
        (.atom rfl)
  | nativeCall f args span =>
    cases hn.scope with
    | nativeCall h =>
      exact (args_follows fun m hm => hpart m hm (h m hm)).bind fun vs ws hvs => .invoke f span hvs
  | call callee args span =>
    cases hn.scope with
    | call hcallee h =>
      refine (hpart callee (by simp [Node.parts]) hcallee).bind fun v w hvw => ?_
      refine (args_follows fun m hm => hpart m (by simp [Node.parts, hm]) (h m hm)).bind
        fun vs ws hvs => ?_
      exact apply_follows hev hvw hvs span

/-- Compared runs agree at any depth, which in a strict comparison is the same depth. -/
theorem eval_agrees {room room' : Nat} (hroom : c.strict → room = room') :
    c.Agrees (Evaluation.eval c.left room) (Evaluation.eval c.right room') := by
  induction room generalizing room' with
  | zero =>
    intro I L A B n hI hseen hn
    by_cases hstrict : c.strict
    · cases hroom hstrict
      rw [Evaluation.eval, Evaluation.eval, c.limits hstrict]
      exact .fault n.span (by simp)
    · exact fun s t _ => .left ⟨hstrict, rfl⟩
  | succ room ih =>
    cases room' with
    | zero =>
      intro I L A B n hI hseen hn s t _
      have hstrict : ¬ c.strict := fun hstrict => nomatch hroom hstrict
      exact .right ⟨hstrict, rfl⟩
    | succ room' =>
      intro I L A B n hI hseen hn
      have hev := ih fun hstrict => Nat.succ.inj (hroom hstrict)
      refine (Follows.tick n.span).bind fun _ _ _ => ?_
      exact dispatch_agrees hev I L A B n hI hseen hn

end Comparison

end Scriptlet
