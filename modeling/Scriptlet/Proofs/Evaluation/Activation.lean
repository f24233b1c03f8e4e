import Scriptlet.Proofs.Evaluation.Code
import Scriptlet.Proofs.Evaluation.Limits
import Scriptlet.Proofs.Evaluation.Parts
import Scriptlet.Proofs.Library.Fault
import Scriptlet.Proofs.Resolution.Height

/-!
The depth of an evaluation and the closures that are running. Between one call of a closure and the
next the depth grows by no more than the levels of the code that is run, and these are bounded by
the nesting of the scripts that it was compiled from. So the depth runs out only while many closures
are running.
-/

namespace Scriptlet

namespace Evaluation

/-- An evaluation comes to the request while so many levels of depth are left and the bodies of so
many closures are being run. -/
inductive Meets (run : Run) (n : Node) (s : RunState) : (room live : Nat) → Request → Prop where
  | start : Meets run n s run.limits.depth 0 ⟨n, s⟩
  | part {room live r q} (h : Meets run n s (room + 1) live r)
      (hlimit : run.limitAt? (r.state.steps + 1) = none)
      (hq : q ∈ Request.ofParts (eval run room) r.node
        { r.state with steps := r.state.steps + 1 }) :
      Meets run n s room live q
  | body {room live r q} (h : Meets run n s (room + 1) live r)
      (hlimit : run.limitAt? (r.state.steps + 1) = none)
      (hq : q ∈ Request.ofBody (eval run room) r.node
        { r.state with steps := r.state.steps + 1 }) :
      Meets run n s room (live + 1) q

variable {run : Run} {n : Node} {s : RunState} {room live : Nat} {r q : Request}

theorem Meets.next (h : Meets run n s (room + 1) live r)
    (hlimit : run.limitAt? (r.state.steps + 1) = none)
    (hq : q ∈ Request.ofNode (eval run room) r.node
      { r.state with steps := r.state.steps + 1 }) : ∃ live', Meets run n s room live' q := by
  rw [Request.ofNode_eq] at hq
  rcases List.mem_append.1 hq with hq | hq
  · exact ⟨live, h.part hlimit hq⟩
  · exact ⟨live + 1, h.body hlimit hq⟩

theorem limitAt?_ne_tooDeep {steps d m : Nat} : run.limitAt? steps ≠ some (.tooDeep d m) := by
  intro h
  rcases Option.or_eq_some_iff.1 h with h | ⟨-, h⟩ <;>
  · obtain ⟨limit, -, h⟩ := Option.bind_eq_some_iff.1 h
    split at h <;> cases h

/-- An evaluation that fails for its depth comes to where it fails, unless a native function has
failed in that way. -/
theorem Meets.of_tooDeep (h : Meets run n s room live r) {d m : Nat} {span : Span}
    (hfault : (eval run room r.node r.state).1 = .error (.fault (.tooDeep d m) span)) :
    (∃ live' q, Meets run n s 0 live' q ∧ q.node.span = span) ∨
      ∃ f args, run.invoke f args = .error (.tooDeep d m) := by
  induction room generalizing live r with
  | zero =>
    cases hfault
    exact .inl ⟨live, r, h, rfl⟩
  | succ room ih =>
    rw [eval_succ] at hfault
    cases hlimit : run.limitAt? (r.state.steps + 1) with
    | some cause =>
      rw [hlimit] at hfault
      cases hfault
      exact absurd hlimit limitAt?_ne_tooDeep
    | none =>
      rw [hlimit] at hfault
      rcases (course_dispatch run room r.node _).request_of_error hfault with
        ⟨q, hq, hfail⟩ | hown
      · obtain ⟨live', hmeets⟩ := h.next hlimit hq
        exact ih hmeets hfail
      · exact .inr (hown (.tooDeep d m) span rfl rfl)

variable {C : Node → Prop} {width : Nat}

/-- What is being evaluated is of the given code, and the depth that is used up and the levels of
the node fit into the width, once for the script and once for each closure that is running. -/
structure Within (C : Node → Prop) (width : Nat) (run : Run) (room live : Nat) (r : Request) :
    Prop where
  request : r.Over C
  levels : ∃ k, r.node.Shallow k ∧ run.limits.depth + k ≤ room + (live + 1) * width

theorem Within.over_next (hrun : run.Over C) (h : Within C width run (room + 1) live r)
    {t : RunState} (hq : q ∈ Request.ofNode (eval run room) r.node t)
    (ht : t.scopes = r.state.scopes) : q.Over C := by
  have hscopes : t.scopes.All (Value.Over C) := ht ▸ h.request.scopes
  exact Request.over_ofNode (fun m hm => Keeps.eval hrun room hm) h.request.node hscopes q hq

/-- A part is one level deeper, and has one level less. -/
theorem Within.part (hrun : run.Over C) (h : Within C width run (room + 1) live r) {t : RunState}
    (hq : q ∈ Request.ofParts (eval run room) r.node t) (ht : t.scopes = r.state.scopes) :
    Within C width run room live q := by
  have hover := h.over_next hrun (Request.ofNode_eq _ ▸ List.mem_append_left _ hq) ht
  obtain ⟨k, hk, hlevels⟩ := h.levels
  obtain ⟨j, rfl⟩ : ∃ j, k = j + 1 := ⟨k - 1, by have := hk.pos; omega⟩
  have hpart := hk.part (Request.ne_lambda_of_mem_ofParts hq) (Request.mem_parts_of_mem_ofParts hq)
  exact ⟨hover, j, hpart, by omega⟩

/-- The body of a closure starts anew, and has a width of its own. -/
theorem Within.body (hrun : run.Over C) (hC : ∀ m, C m → m.Shallow width)
    (h : Within C width run (room + 1) live r) {t : RunState}
    (hq : q ∈ Request.ofBody (eval run room) r.node t) (ht : t.scopes = r.state.scopes) :
    Within C width run room (live + 1) q := by
  have hover := h.over_next hrun (Request.ofNode_eq _ ▸ List.mem_append_right _ hq) ht
  obtain ⟨k, hk, hlevels⟩ := h.levels
  have hpos := hk.pos
  -- The level that the call takes is one of the calling node, which has one at least.
  refine ⟨hover, width, hC _ hover.node.self, ?_⟩
  rw [Nat.succ_mul]
  omega

/-- All that an evaluation comes to fits. -/
theorem Meets.within (hrun : run.Over C) (hC : ∀ m, C m → m.Shallow width) (hn : n.Over C)
    (hs : s.scopes.All (Value.Over C)) (h : Meets run n s room live r) :
    Within C width run room live r := by
  induction h with
  | start => exact ⟨⟨hn, hs⟩, width, hC n hn.self, by omega⟩
  | part _ _ hq ih => exact ih.part hrun hq rfl
  | body _ _ hq ih => exact ih.body hrun hC hq rfl

/-- Where no depth is left, more closures are running than the depth has room for. -/
theorem Meets.lt_live (hrun : run.Over C) (hC : ∀ m, C m → m.Shallow width) (hn : n.Over C)
    (hs : s.scopes.All (Value.Over C)) {bound : Nat}
    (hdepth : (bound + 1) * width ≤ run.limits.depth) (h : Meets run n s 0 live r) :
    bound < live := by
  obtain ⟨k, hk, hlevels⟩ := (h.within hrun hC hn hs).levels
  have hpos := hk.pos
  have hlt : (bound + 1) * width < (live + 1) * width := by omega
  have hsucc := Nat.lt_of_mul_lt_mul_right hlt
  omega

end Evaluation

/-- The operations of the standard library do not run out of depth. -/
theorem Native.host_of_tooDeep {host : Host} {f : Native} {args : List Value} {d m : Nat}
    (h : f.run host args = .error (.tooDeep d m)) :
    ∃ handle, host.perform handle args = .error (.tooDeep d m) := by
  unfold Native.run at h
  split at h
  · rcases Builtin.run_blames _ args _ h with hground | ⟨-, hcount⟩
    · cases hground
    · cases hcount
  · exact ⟨_, h⟩

/-- The node stands in a script that some engine has compiled and whose groups it lets nest no
deeper than the limit. -/
def Node.NestedWithin (limit : Nat) (n : Node) : Prop :=
  ∃ (e : Engine) (serial : Nat) (name source : String) (a : Artifact),
    e.nesting ≤ limit ∧ e.compile serial name source = .ok a ∧ n.Within a.body

theorem Node.NestedWithin.shallow {limit : Nat} {n : Node} (h : n.NestedWithin limit) :
    n.Shallow (limit + 2) := by
  obtain ⟨e, serial, name, source, a, hnesting, hcompile, hn⟩ := h
  exact (Engine.shallow_of_compile hcompile hn).mono (Nat.add_le_add_right hnesting 2)

namespace Artifact

open Evaluation (Meets)

variable {e : Engine} {serial : Nat} {name source : String} {a : Artifact} {host : Host}
  {b : Binding} {nesting : Nat}

/-- An evaluation that runs out of depth comes to where no depth is left, unless a function of the
host has failed in that way. -/
theorem meets_of_tooDeep {number : Nat} {limits : Limits} {d m : Nat} {span : Span}
    (h : a.evaluate host number limits b = .error ⟨a.name, .fault (.tooDeep d m) span⟩) :
    (∃ live r, Meets (run host number limits b) a.body .start 0 live r ∧ r.node.span = span) ∨
      ∃ handle args, host.perform handle args = .error (.tooDeep d m) := by
  have hmissing : a.missing? b = none := by
    by_contra hsome
    obtain ⟨v, hv⟩ := Option.ne_none_iff_exists'.1 hsome
    rw [evaluate_of_missing hv] at h
    cases h
  rw [evaluate_eq_fault_iff hmissing] at h
  have hstart : Meets (run host number limits b) a.body .start limits.depth 0 ⟨a.body, .start⟩ :=
    .start
  rcases hstart.of_tooDeep h with hmeets | ⟨f, args, hnative⟩
  · exact .inl hmeets
  · obtain ⟨handle, hperform⟩ := Native.host_of_tooDeep hnative
    exact .inr ⟨handle, args, hperform⟩

/-- The nesting that scripts are compiled with bounds the depth that they need. If the depth has
room for the script and for so many closures besides, it runs out only while more closures than that
are running. So an evaluation in which no more closures are ever running does not run out of depth,
unless a function of the host fails in that way. -/
theorem evaluate_tooDeep_live (hcompile : e.compile serial name source = .ok a)
    (hnesting : e.nesting ≤ nesting)
    (hglobals : ∀ x v, e.environment.get? x = some v → v.Over (Node.NestedWithin nesting))
    (hhost : host.Keeps (Value.Over (Node.NestedWithin nesting)))
    (hbinding : ∀ x v, b.get? x = some v → v.Over (Node.NestedWithin nesting))
    {limits : Limits} {bound : Nat} (hdepth : (bound + 1) * (nesting + 2) ≤ limits.depth)
    (number : Nat) :
    (∀ live r, Meets (run host number limits b) a.body .start 0 live r → bound < live) ∧
    (∀ d m span, a.evaluate host number limits b = .error ⟨a.name, .fault (.tooDeep d m) span⟩ →
      (∃ live r, Meets (run host number limits b) a.body .start 0 live r ∧ r.node.span = span ∧
        bound < live) ∨
      ∃ handle args, host.perform handle args = .error (.tooDeep d m)) ∧
    ((∀ room live r, Meets (run host number limits b) a.body .start room live r → live ≤ bound) →
      ∀ d m span, a.evaluate host number limits b = .error ⟨a.name, .fault (.tooDeep d m) span⟩ →
        ∃ handle args, host.perform handle args = .error (.tooDeep d m)) := by
  have hbody : a.body.Over (Node.NestedWithin nesting) := by
    refine Engine.over_body hcompile (fun m hm => ?_) hglobals
    exact ⟨e, serial, name, source, a, hnesting, hcompile, hm⟩
  have hrun : (run host number limits b).Over (Node.NestedWithin nesting) :=
    run_over hhost hbinding
  have hlive : ∀ live r, Meets (run host number limits b) a.body .start 0 live r →
      bound < live := by
    intro live r h
    exact h.lt_live hrun (fun m hm => hm.shallow) hbody RunState.start_all hdepth
  refine ⟨hlive, ?_, ?_⟩
  · intro d m span h
    rcases meets_of_tooDeep h with ⟨live, r, hr, hspan⟩ | hperform
    · exact .inl ⟨live, r, hr, hspan, hlive live r hr⟩
    · exact .inr hperform
  · intro hbound d m span h
    rcases meets_of_tooDeep h with ⟨live, r, hr, -⟩ | hperform
    · exact absurd (hlive live r hr) (Nat.not_lt.2 (hbound 0 live r hr))
    · exact hperform

/-- Unless other limits are given, two closures may be running. -/
example : (2 + 1) * (defaultNesting + 2) ≤ ({} : Limits).depth := by decide

/-- Applying a function to itself runs out of depth, but not before the function is called. -/
theorem evaluate_tooDeep_live_selfApplied :
    ∃ (e : Engine) (a : Artifact) (live : Nat) (r : Request),
      e.environment = Engine.standard.environment ∧ e.nesting = 3 ∧
      e.compile 0 "self" "((fn [f] (f f)) (fn [f] (f f)))" = .ok a ∧
      Meets (run .bare 0 ⟨5, none, none⟩ ∅) a.body .start 0 live r ∧
      r.node.span = ⟨25, 26⟩ ∧ 0 < live := by
  obtain ⟨e, henvironment, hnesting, hfacts⟩ : ∃ e : Engine,
      e.environment = Engine.standard.environment ∧ e.nesting = 3 ∧
      (e.compile 0 "self" "((fn [f] (f f)) (fn [f] (f f)))").toOption.bind (fun a =>
        match a.evaluate .bare 0 ⟨5, none, none⟩ ∅ with
        | .ok _ => none
        | .error err => some err) = some ⟨"self", .fault (.tooDeep 5 5) ⟨25, 26⟩⟩ :=
    ⟨{ environment := .standard, nesting := 3 }, by rw [Engine.standard], rfl, by decide +kernel⟩
  obtain ⟨a, hcompile, hfacts⟩ := Option.bind_eq_some_iff.1 hfacts
  have hcompile := eq_ok_of_toOption hcompile
  obtain ⟨-, -, -, -, hname, -⟩ := Engine.compile_ok hcompile
  split at hfacts
  · cases hfacts
  · next err herror =>
    rw [Option.some.inj hfacts, ← hname] at herror
    have hglobals : ∀ x v, e.environment.get? x = some v → v.Over (Node.NestedWithin 3) := by
      rw [henvironment]
      exact fun x v hv => .atom (Environment.isAtom_of_get? Engine.standard_atoms hv)
    have hhost : Host.bare.Keeps (Value.Over (Node.NestedWithin 3)) := by
      intro handle args v _ hv
      cases hv
    have hbinding : ∀ x v, (∅ : Binding).get? x = some v → v.Over (Node.NestedWithin 3) := by
      intro x v hv
      cases hv
    have hdepth : (0 + 1) * (3 + 2) ≤ (⟨5, none, none⟩ : Limits).depth := by decide
    obtain ⟨-, hfails, -⟩ :=
      evaluate_tooDeep_live hcompile hnesting.le hglobals hhost hbinding hdepth 0
    rcases hfails 5 5 ⟨25, 26⟩ herror with ⟨live, r, hr, hspan, hlive⟩ | ⟨handle, args, hperform⟩
    · exact ⟨e, a, live, r, henvironment, hnesting, hcompile, hr, hspan, hlive⟩
    · cases hperform

end Artifact

end Scriptlet
