import Scriptlet.Proofs.Resolution.Extent
import Scriptlet.Proofs.Resolution.Height

/-!
Where diagnostics point to, and how the nodes of a compiled script stand in each other. Whether a
script is compiled or refused, all that is said about a place is said about a part of its source.
-/

namespace Scriptlet

/-- All that the errors point to are forms that stand in the given one. -/
def Resolved.Blames {α : Type} (f : Form) (x : Resolved α) : Prop :=
  ∀ e ∈ x.errors, ∀ s ∈ e.span :: e.context.map Context.span, ∃ g, Tree.Within g f ∧ g.span = s

namespace Resolved.Blames

variable {α β : Type} {f g : Form}

theorem of_errors_eq_nil {x : Resolved α} (h : x.errors = []) : x.Blames f := by
  intro e he
  rw [h] at he
  cases he

theorem pure (a : α) : (Pure.pure a : Resolved α).Blames f := of_errors_eq_nil rfl

theorem bind {x : Resolved α} {k : α → Resolved β} (hx : x.Blames f) (hk : ∀ a, (k a).Blames f) :
    (x >>= k).Blames f := by
  intro e he
  rw [Resolved.errors_bind] at he
  rcases List.mem_append.1 he with he | he
  · exact hx e he
  · exact hk x.value e he

theorem mono {x : Resolved α} (h : x.Blames g) (hg : Tree.Within g f) : x.Blames f := by
  intro e he s hs
  obtain ⟨k, hk, hspan⟩ := h e he s hs
  exact ⟨k, hk.trans hg, hspan⟩

theorem withUses {x : Resolved α} (h : x.Blames f) : x.withUses.Blames f := h

theorem error {e : ResolutionError}
    (h : ∀ s ∈ e.span :: e.context.map Context.span, ∃ g, Tree.Within g f ∧ g.span = s) :
    (Resolved.error e).Blames f := by
  intro e' he
  cases List.mem_singleton.1 he
  exact h

end Resolved.Blames

namespace Resolution

open Resolved (Blames)

variable {env : Environment} {f g : Form}

/-- A failure that is told of one form only. -/
theorem fail_blames {fault : ResolutionFault} {span : Span} {context : List Context}
    (hg : Tree.Within g f) (hspan : g.span = span) (hcontext : ∀ c ∈ context, c.span = span) :
    (fail fault span context).Blames f := by
  refine .bind (.error fun s hs => ⟨g, hg, ?_⟩) fun _ => .pure _
  rcases List.mem_cons.1 hs with rfl | hs
  · exact hspan
  · obtain ⟨c, hc, rfl⟩ := List.mem_map.1 hs
    rw [hspan, hcontext c hc]

theorem malformed_blames {special : SpecialForm} {message : String} {span : Span}
    (hspan : f.span = span) : (malformed special message span).Blames f :=
  fail_blames .self hspan fun c hc => by
    cases List.mem_singleton.1 hc
    rfl

theorem symbol_blames (p : Place) (x : String) (span : Span) :
    (symbol env p x span).Blames (.leaf (.symbol x) span) := by
  unfold symbol
  cases p.level? x with
  | some level => exact .bind (.of_errors_eq_nil rfl) fun _ => .pure _
  | none =>
    cases env.get? x with
    | some v => exact .pure _
    | none =>
      simp only
      split
      · exact fail_blames .self rfl fun c hc => nomatch hc
      · exact .bind (.of_errors_eq_nil rfl) fun _ => .pure _

/-- A call of a global is refused for the name at its head or as a whole. -/
theorem globalCall_blames {x : String} {head span : Span} {args : List Node}
    (hspan : f.span = span) (hhead : Tree.Within (.leaf (.symbol x) head) f) :
    (globalCall env x head args span).Blames f := by
  unfold globalCall
  split
  · exact fail_blames hhead rfl fun c hc => nomatch hc
  · split
    · exact .pure _
    · refine .bind (.error fun s hs => ?_) fun _ => .pure _
      simp only [List.map_cons, List.map_nil, List.mem_cons, List.not_mem_nil, or_false] at hs
      rcases hs with rfl | rfl
      · exact ⟨f, .self, hspan⟩
      · exact ⟨_, hhead, rfl⟩
  · exact .pure _
  · refine fail_blames hhead rfl fun c hc => ?_
    cases List.mem_singleton.1 hc
    rfl

theorem badTarget_blames {special : SpecialForm} {seen : List String} {target : Form}
    {e : ResolutionError} (h : badTarget special seen target = some e) :
    ∀ s ∈ e.span :: e.context.map Context.span, s = target.span := by
  unfold badTarget at h
  simp only at h
  split at h
  · split at h
    · cases h
      simp [Context.span]
    · split at h
      · cases h
        simp [Context.span]
      · cases h
  · cases h
    simp

theorem targets_blames {special : SpecialForm} {seen : List String} {ts : List Form}
    (h : ∀ t ∈ ts, Tree.Within t f) : (targets special seen ts).Blames f := by
  induction ts generalizing seen with
  | nil => exact .pure _
  | cons t ts ih =>
    obtain ⟨ht, hts⟩ := List.forall_mem_cons.1 h
    rw [targets]
    split
    · next e he =>
      refine .bind (.error fun s hs => ⟨t, ht, ?_⟩) fun _ => .bind (ih hts) fun _ => .pure _
      exact (badTarget_blames he s hs).symm
    · exact ih hts

theorem quotation_blames {args : List Form} {span : Span} (hspan : f.span = span) :
    (quotation args span).Blames f := by
  unfold quotation
  split
  · exact .pure _
  · exact malformed_blames hspan

theorem mem_of_mem_firsts {t : Form} {ts : List Form} (h : t ∈ firsts ts) : t ∈ ts := by
  fun_induction firsts ts with
  | case1 => exact h
  | case2 => exact h
  | case3 u v ts ih =>
    rcases List.mem_cons.1 h with rfl | h
    · exact List.mem_cons_self
    · exact List.mem_cons_of_mem _ (List.mem_cons_of_mem _ (ih h))

section Parts

variable {p : Place} {args : List Form} {span : Span}
  (h : ∀ g, Tree.Inside g f → ∀ p, (form env p g).Blames g)
include h

theorem form_blames_inside (hg : Tree.Inside g f) : (form env p g).Blames f :=
  (h g hg p).mono hg.within

theorem all_blames {gs : List Form} (hgs : ∀ g ∈ gs, Tree.Inside g f) :
    (all env p gs).Blames f := by
  induction gs with
  | nil =>
    rw [all]
    exact .pure _
  | cons g gs ih =>
    obtain ⟨hg, hrest⟩ := List.forall_mem_cons.1 hgs
    rw [all]
    exact (form_blames_inside h hg).bind fun _ => (ih hrest).bind fun _ => .pure _

theorem branch_blames (hspan : f.span = span) (hargs : ∀ g ∈ args, Tree.Inside g f) :
    (branch env p args span).Blames f := by
  unfold branch
  split
  · next cond yes =>
    refine (form_blames_inside h (hargs cond (by simp))).bind fun _ => ?_
    exact (form_blames_inside h (hargs yes (by simp))).bind fun _ => .pure _
  · next cond yes no =>
    refine (form_blames_inside h (hargs cond (by simp))).bind fun _ => ?_
    refine (form_blames_inside h (hargs yes (by simp))).bind fun _ => ?_
    exact (form_blames_inside h (hargs no (by simp))).bind fun _ => .pure _
  · exact malformed_blames hspan

theorem bindingsOf_blames {names : List String} {pairs : List Form}
    (hpairs : ∀ g ∈ pairs, Tree.Inside g f) : (bindingsOf env p names pairs).Blames f := by
  induction names generalizing p pairs with
  | nil =>
    rw [bindingsOf]
    · exact .pure _
    · simp
  | cons x names ih =>
    match pairs, hpairs with
    | [], _ | [_], _ =>
      rw [bindingsOf]
      · exact .pure _
      · simp
    | _ :: value :: rest, hpairs =>
      rw [bindingsOf]
      refine (form_blames_inside h (hpairs value (by simp))).bind fun _ => ?_
      exact (ih fun g hg => hpairs g (by simp [hg])).bind fun _ => .pure _

theorem bindForm_blames (hspan : f.span = span) (hargs : ∀ g ∈ args, Tree.Inside g f) :
    (bindForm env p args span).Blames f := by
  unfold bindForm
  split
  · next pairs vector body =>
    obtain ⟨hvector, hbody⟩ := List.forall_mem_cons.1 hargs
    have hpairs : ∀ g ∈ pairs, Tree.Inside g f := fun g hg => hvector.of_within (.item hg .self)
    split
    · exact malformed_blames hspan
    · have htargets : ∀ g ∈ firsts pairs, Tree.Within g f :=
        fun g hg => (hpairs g (mem_of_mem_firsts hg)).within
      refine (targets_blames htargets).bind fun names => ?_
      cases names with
      | none => exact .pure _
      | some names =>
        refine (bindingsOf_blames h hpairs).bind fun bindings => ?_
        exact (all_blames h hbody).bind fun _ => .pure _
  · exact malformed_blames hspan

theorem lambda_blames (hspan : f.span = span) (hargs : ∀ g ∈ args, Tree.Inside g f) :
    (lambda env p args span).Blames f := by
  unfold lambda
  split
  · next params vector body =>
    obtain ⟨hvector, hbody⟩ := List.forall_mem_cons.1 hargs
    have hparams : ∀ g ∈ params, Tree.Within g f :=
      fun g hg => (hvector.of_within (.item hg .self)).within
    refine (targets_blames hparams).bind fun names => ?_
    cases names with
    | none => exact .pure _
    | some names => exact (all_blames h hbody).withUses.bind fun _ => .pure _
  · exact malformed_blames hspan

/-- A list is refused as a whole, for its head, or for what stands in it. -/
theorem list_blames {items : List Form} (hf : f = .group .round items span) :
    (list env p items span).Blames f := by
  have hspan : f.span = span := by rw [hf]; rfl
  have hitems : ∀ g ∈ items, Tree.Inside g f := fun g hg => hf ▸ .item hg .self
  rw [list.eq_def]
  split
  · exact .pure _
  · next head args =>
    obtain ⟨hhead, hargs⟩ := List.forall_mem_cons.1 hitems
    split
    · next x headSpan =>
      split
      · exact (all_blames h hargs).bind fun _ => .pure _
      · exact (all_blames h hargs).bind fun _ => .pure _
      · exact (all_blames h hargs).bind fun _ => .pure _
      · exact quotation_blames hspan
      · exact branch_blames h hspan hargs
      · exact bindForm_blames h hspan hargs
      · exact lambda_blames h hspan hargs
      · split
        · refine ((symbol_blames p x headSpan).mono hhead.within).bind fun _ => ?_
          exact (all_blames h hargs).bind fun _ => .pure _
        · exact (all_blames h hargs).bind fun _ => globalCall_blames hspan hhead.within
    · refine (form_blames_inside h hhead).bind fun _ => ?_
      exact (all_blames h hargs).bind fun _ => .pure _
    · refine (all_blames h hargs).bind fun _ => fail_blames hhead.within rfl ?_
      intro c hc
      cases hc

end Parts

/-- The errors of a form point to forms in it. The induction is on the nesting of the form. -/
theorem form_blames (p : Place) (f : Form) : (form env p f).Blames f := by
  induction hd : Tree.depth f using Nat.strongRecOn generalizing p f with
  | ind d ih =>
    subst hd
    have ih' : ∀ g, Tree.Inside g f → ∀ p, (form env p g).Blames g :=
      fun g hg p => ih _ hg.depth_lt p g rfl
    rw [form.eq_def]
    split
    · exact symbol_blames p _ _
    · exact .pure _
    · next items span =>
      exact (all_blames ih' fun g hg => .item hg .self).bind fun _ => .pure _
    · next items span => exact list_blames ih' rfl

end Resolution

/-- All that the errors of a script point to are forms of the script. -/
theorem Script.blames_of_resolve {env : Environment} {script : Script}
    {errors : List ResolutionError} (h : script.resolve env = .error errors) :
    ∀ e ∈ errors, ∀ s ∈ e.span :: e.context.map Context.span,
      ∃ f ∈ script.forms, ∃ g, Tree.Within g f ∧ g.span = s := by
  have hall : ∀ fs : List Form, ∀ e ∈ (Resolution.all env .top fs).errors,
      ∀ s ∈ e.span :: e.context.map Context.span, ∃ f ∈ fs, ∃ g, Tree.Within g f ∧ g.span = s := by
    intro fs
    induction fs with
    | nil =>
      intro e he
      rw [Resolution.all] at he
      cases he
    | cons f fs ih =>
      intro e he s hs
      rw [Resolution.all, Resolved.errors_bind, Resolved.errors_bind, Resolved.errors_pure,
        List.append_nil] at he
      rcases List.mem_append.1 he with he | he
      · exact ⟨f, List.mem_cons_self, Resolution.form_blames .top f e he s hs⟩
      · obtain ⟨g, hg, hspan⟩ := ih e he s hs
        exact ⟨g, List.mem_cons_of_mem _ hg, hspan⟩
  simp only [Script.resolve] at h
  split at h
  · cases h
  · cases h
    exact hall script.forms

namespace Engine

variable {e : Engine} {serial : Nat} {name source : String}

/-- A script that is refused is refused for parts of its source. -/
theorem diagnostic_within {r : Rejection} (h : e.compile serial name source = .error r)
    {d : Diagnostic} (hd : d ∈ r.diagnostics) :
    d.span.Within source ∧ ∀ related ∈ d.related, related.span.Within source := by
  unfold compile at h
  split at h
  · cases h
    cases hd
  · split at h
    · next err hread =>
      cases h
      cases List.mem_singleton.1 hd
      obtain ⟨hcontext, hcuts⟩ := Script.cuts_of_readChars hread
      refine ⟨hcuts.within, ?_⟩
      simp [SyntaxError.diagnostic, hcontext]
    · next script hread =>
      split at h
      · next errors hresolve =>
        cases h
        obtain ⟨error, herror, rfl⟩ := List.mem_map.1 hd
        have hwithin : ∀ s ∈ error.span :: error.context.map Context.span, s.Within source := by
          intro s hs
          obtain ⟨f, hf, g, hg, rfl⟩ := Script.blames_of_resolve hresolve error herror s hs
          exact (Script.read_within hread).1 f hf g hg
        obtain ⟨hspan, hcontext⟩ := List.forall_mem_cons.1 hwithin
        refine ⟨hspan, fun related hrelated => ?_⟩
        obtain ⟨c, hc, rfl⟩ := List.mem_map.1 hrelated
        exact hcontext c.span (List.mem_map_of_mem hc)
      · cases h

/-- A node of a compiled script has its parts inside it. -/
theorem part_contained {a : Artifact} (h : e.compile serial name source = .ok a) {n m : Node}
    (hn : n.Within a.body) (hm : m ∈ n.parts) : n.span.Contains m.span := by
  obtain ⟨script, nodes, uses, hread, -, ha⟩ := compile_ok h
  rcases ha.within hn with ⟨f, hf, g, hg, hstands⟩ | rfl
  · obtain ⟨k, hk, p', us', hpart⟩ := hstands.part hm
    obtain ⟨p, us, hresolves⟩ := hstands
    rw [hresolves.span_eq, hpart.span_eq]
    exact (Script.read_contains hread f hf).2 g hg k hk
  · obtain ⟨f, hf, p, us, hresolves⟩ := ha.forms.standsFor hm
    rw [hresolves.span_eq]
    exact (Script.read_contains hread f hf).1

/-- Every place that compiling a source gives lies in the source and cuts no character, so the
source has a text there. If the script is compiled, these are the places of its nodes and of its
free names, and each node has its parts inside it. If it is refused, they are the places of the diagnostics and
all that is related to them. -/
theorem compile_within (e : Engine) (serial : Nat) (name source : String) :
    (∀ a, e.compile serial name source = .ok a →
      (∀ n : Node, n.Within a.body → n.span.Within source ∧
        ∀ m ∈ n.parts, n.span.Contains m.span) ∧
      ∀ v ∈ a.free, v.span.Within source) ∧
    (∀ r, e.compile serial name source = .error r → ∀ d ∈ r.diagnostics,
      d.span.Within source ∧ ∀ related ∈ d.related, related.span.Within source) ∧
    ∀ span : Span, span.Within source → ∃ before inside after,
      source.toList = before ++ (inside ++ after) ∧
      span = ⟨utf8Length before, utf8Length before + utf8Length inside⟩ ∧
      span.text source.toList = inside := by
  refine ⟨?_, ?_, ?_⟩
  · intro a h
    refine ⟨fun n hn => ⟨node_within h hn, fun m hm => part_contained h hn hm⟩, ?_⟩
    exact fun v hv => free_within h hv
  · intro r h d hd
    exact diagnostic_within h hd
  · intro span h
    exact h.text_eq

theorem compile_within_multibyte :
    (∃ a, standard.compile 0 "main" "(if x \"é\" [1])" = .ok a ∧
      a.body.span.Within "(if x \"é\" [1])" ∧
      ∀ m ∈ a.body.parts, a.body.span.Contains m.span) ∧
    ∃ r d, standard.compile 0 "main" "\"é\" (if)" = .error r ∧ r.diagnostics = [d] ∧
      d.span = ⟨5, 9⟩ ∧ d.span.Within "\"é\" (if)" := by
  constructor
  · have hcompiles : (standard.compile 0 "main" "(if x \"é\" [1])").toOption.map
        (fun a => a.body.span) = some ⟨0, 15⟩ := by decide +kernel
    obtain ⟨a, ha, -⟩ := compile_of_map hcompiles
    obtain ⟨hspan, hparts⟩ := ((compile_within _ _ _ _).1 a ha).1 a.body .self
    exact ⟨a, ha, hspan, hparts⟩
  · have hrefused : (match standard.compile 0 "main" "\"é\" (if)" with
        | .ok _ => none
        | .error r => some (r.diagnostics.map (·.span))) = some [⟨5, 9⟩] := by decide +kernel
    split at hrefused
    · cases hrefused
    · next r hr =>
      obtain ⟨d, hd, hspan⟩ := List.map_eq_singleton_iff.1 (Option.some.inj hrefused)
      have hwithin := (compile_within _ _ _ _).2.1 r hr d (by simp [hd])
      exact ⟨r, d, hr, hd, hspan, hwithin.1⟩

end Engine

end Scriptlet
