import Mathlib.Data.Set.Insert
import Scriptlet.Proofs.Evaluation.Code
import Scriptlet.Proofs.Evaluation.Produced
import Scriptlet.Proofs.Resolution.Place

/-!
Where failures point. An error names the script that is evaluated, and its span is that of the node
that failed. That node may be in a closure from another script, so the span lies in the source of
the script or of one of the scripts whose closures have come in.
-/

namespace Scriptlet

theorem Node.CompiledFrom.within {sources : Set String} {n : Node} (h : n.CompiledFrom sources) :
    ∃ source ∈ sources, n.span.Within source := by
  obtain ⟨e, serial, name, source, a, hsource, hcompile, hn⟩ := h
  exact ⟨source, hsource, Engine.node_within hcompile hn⟩

namespace Artifact

/-- An error names the script, and its span begins and ends between characters, in order, in the
source of the script or in one of those from which the closures have come that the globals, the
binding and the host hand in. -/
theorem evaluate_error_within {e : Engine} {serial : Nat} {name source : String} {a : Artifact}
    {sources : Set String} (hcompile : e.compile serial name source = .ok a)
    (hsource : source ∈ sources) {host : Host}
    (hhost : host.Keeps (Value.Over (Node.CompiledFrom sources)))
    (hglobals : ∀ x v, e.environment.get? x = some v → v.Over (Node.CompiledFrom sources))
    {b : Binding} (hbinding : ∀ x v, b.get? x = some v → v.Over (Node.CompiledFrom sources))
    {number : Nat} {limits : Limits} {err : RunError}
    (h : a.evaluate host number limits b = .error err) :
    err.script = name ∧ ∃ s ∈ sources, err.failure.span.Within s := by
  obtain ⟨-, -, -, -, hname, -⟩ := Engine.compile_ok hcompile
  cases hmissing : a.missing? b with
  | some v =>
    rw [evaluate_of_missing hmissing] at h
    cases h
    exact ⟨hname, source, hsource, Engine.free_within hcompile (List.mem_of_find?_eq_some hmissing)⟩
  | none =>
    have hconfined : Confined (Node.CompiledFrom sources) (Value.Over (Node.CompiledFrom sources))
        (Evaluation.eval (run host number limits b) limits.depth a.body .start) :=
      confined (Engine.body_over hcompile hsource hglobals) hhost hbinding
    rw [evaluate, hmissing] at h
    simp only at h
    split at h
    · cases h
    · next failure hfailure =>
      cases h
      obtain ⟨n, hn, hspan⟩ := hconfined.failure failure hfailure
      obtain ⟨s, hs, hwithin⟩ := hn.within
      exact ⟨hname, s, hs, hspan ▸ hwithin⟩

section Foreign

/-- A script that makes a closure, and one that calls it with zero. -/
def dividing : String := "(fn [d]\n  ; divides a hundred by its argument\n  (/ 100 d))"

def dividingByZero : String := "(let [g f] (g 0))"

theorem exists_dividing :
    ∃ a₀ f a b, Engine.standard.compile 0 "make" dividing = .ok a₀ ∧
      a₀.evaluate .bare 1 {} ∅ = .ok f ∧
      Engine.standard.compile 1 "apply" dividingByZero = .ok a ∧
      Binding.ofEntries [("f", f)] = .ok b ∧
      a.evaluate .bare 2 {} b = .error ⟨"apply", .fault .zeroDivisor ⟨48, 57⟩⟩ := by
  have hfacts : ((Engine.standard.compile 0 "make" dividing).toOption.bind fun a₀ =>
      (a₀.evaluate .bare 1 {} ∅).toOption.bind fun f =>
      (Engine.standard.compile 1 "apply" dividingByZero).toOption.bind fun a =>
      (Binding.ofEntries [("f", f)]).toOption.bind fun b =>
        match a.evaluate .bare 2 {} b with
        | .ok _ => none
        | .error err => some err) = some ⟨"apply", .fault .zeroDivisor ⟨48, 57⟩⟩ := by
    decide +kernel
  obtain ⟨a₀, hmake, hfacts⟩ := Option.bind_eq_some_iff.1 hfacts
  obtain ⟨f, hf, hfacts⟩ := Option.bind_eq_some_iff.1 hfacts
  obtain ⟨a, happly, hfacts⟩ := Option.bind_eq_some_iff.1 hfacts
  obtain ⟨b, hb, herror⟩ := Option.bind_eq_some_iff.1 hfacts
  refine ⟨a₀, f, a, b, eq_ok_of_toOption hmake, eq_ok_of_toOption hf, eq_ok_of_toOption happly,
    eq_ok_of_toOption hb, ?_⟩
  split at herror
  · cases herror
  · next herr =>
    rw [herr, Option.some.inj herror]

/-- The closure of one script fails in the evaluation of the other. -/
theorem evaluate_error_within_foreign :
    ∃ a b err, Engine.standard.compile 1 "apply" dividingByZero = .ok a ∧
      a.evaluate .bare 2 {} b = .error err ∧ err.script = "apply" ∧
      ∃ s ∈ ({dividing, dividingByZero} : Set String), err.failure.span.Within s := by
  obtain ⟨a₀, f, a, b, hmake, hf, happly, hb, herror⟩ := exists_dividing
  have hhost : Host.bare.Keeps (Value.Over (Node.CompiledFrom {dividing, dividingByZero})) := by
    intro handle args v _ hv
    cases hv
  have hglobals : ∀ x v, Engine.standard.environment.get? x = some v →
      v.Over (Node.CompiledFrom {dividing, dividingByZero}) :=
    fun x v hv => .atom (Environment.isAtom_of_get? Engine.standard_atoms hv)
  have hmade : f.Over (Node.CompiledFrom {dividing, dividingByZero}) := by
    refine evaluate_over ?_ hhost (fun x v hv => ?_) hf
    · exact Engine.body_over hmake (Set.mem_insert _ _) hglobals
    · cases hv
  have hbinding : ∀ x v, b.get? x = some v →
      v.Over (Node.CompiledFrom {dividing, dividingByZero}) := by
    intro x v hv
    cases List.mem_singleton.1 (Binding.mem_of_ofEntries hb hv)
    exact hmade
  have hwithin := evaluate_error_within happly (Set.mem_insert_of_mem _ (Set.mem_singleton _)) hhost
    hglobals hbinding herror
  exact ⟨a, b, _, happly, herror, hwithin⟩

/-- The span need not lie in the source of the script that the error names. -/
theorem evaluate_error_outside :
    ∃ a b err, Engine.standard.compile 1 "apply" dividingByZero = .ok a ∧
      a.evaluate .bare 2 {} b = .error err ∧ err.script = "apply" ∧
      ¬ err.failure.span.Within dividingByZero := by
  obtain ⟨a₀, f, a, b, -, -, happly, -, herror⟩ := exists_dividing
  refine ⟨a, b, _, happly, herror, rfl, fun hwithin => ?_⟩
  have hinside : 57 ≤ dividingByZero.utf8ByteSize := hwithin.inside
  rw [← utf8Length_toList] at hinside
  revert hinside
  decide +kernel

end Foreign

end Artifact

end Scriptlet
