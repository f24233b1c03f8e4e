import Mathlib.Data.List.Find
import Scriptlet.Proofs.Evaluation.Produced
import Scriptlet.Proofs.Library.Fault

/-!
What an evaluation depends on. A script reads its free names and no other entry of the binding, and
misses none of them once it has started. A closure reads its arguments and what it has kept, and
nothing of the place that calls it.
-/

namespace Scriptlet

open Value (Twin Likeness)

namespace Artifact

variable {a : Artifact} {b : Binding}

/-- The missing name that is reported is the least one. -/
theorem missing?_eq_some (hsorted : a.inputNames.Pairwise (· < ·)) {v : FreeName}
    (h : a.missing? b = some v) :
    v ∈ a.free ∧ b.get? v.name = none ∧ ∀ x ∈ a.inputNames, b.get? x = none → v.name ≤ x := by
  obtain ⟨hv, before, after, hfree, hbefore⟩ := List.find?_eq_some_iff_append.1 h
  have hnone : ∀ w : FreeName, (!b.contains w.name) = true ↔ b.get? w.name = none := fun w => by
    simp [Binding.contains]
  refine ⟨by rw [hfree]; simp, (hnone v).1 hv, fun x hx hmissing => ?_⟩
  obtain ⟨w, hw, rfl⟩ := List.mem_map.1 hx
  rw [inputNames, hfree, List.map_append, List.map_cons] at hsorted
  rw [hfree] at hw
  rcases List.mem_append.1 hw with hw | hw
  · exact absurd ((hnone w).2 hmissing) (by simpa using hbefore w hw)
  · rcases List.mem_cons.1 hw with rfl | hw
    · exact String.le_refl _
    · have hlt := (List.pairwise_cons.1 (List.pairwise_append.1 hsorted).2.1).1 w.name
        (List.mem_map_of_mem hw)
      exact Std.le_of_lt hlt

/-- The answer of a native function that is only a message comes from the host. -/
theorem perform_of_run {host : Host} {f : Native} {args : List Value} {message : String}
    (h : f.run host args = .error (.other message)) :
    ∃ handle, host.perform handle args = .error (.other message) := by
  unfold Native.run at h
  split at h
  · exact absurd h (Builtin.run_explained _ _ message)
  · exact ⟨_, h⟩

/-- A name is reported as unbound just if the binding lacks a free name. It is the least one that is
lacking, at the place where the script first reads it. Once the names are supplied, lookups find
what they look for and the scopes never complain: a fault that is only a message is the answer of a
host function. -/
theorem evaluate_unbound {e : Engine} {serial : Nat} {name source : String}
    (hcompile : e.compile serial name source = .ok a) {host : Host} {number : Nat}
    (hblind : host.Blind number)
    (hglobals : ∀ x v, e.environment.get? x = some v → v.Produced fun i => i.maker < number)
    (hinputs : ∀ x ∈ a.inputNames, ∀ v, b.get? x = some v → v.Produced fun i => i.maker < number)
    (limits : Limits) :
    ((∃ script x span, a.evaluate host number limits b = .error ⟨script, .unbound x span⟩) ↔
      ∃ x ∈ a.inputNames, b.get? x = none) ∧
    (∀ script x span, a.evaluate host number limits b = .error ⟨script, .unbound x span⟩ →
      script = name ∧ x ∈ a.inputNames ∧ b.get? x = none ∧
        (∀ y ∈ a.inputNames, b.get? y = none → x ≤ y) ∧
        ∃ parsed, Script.read e.nesting source = .ok parsed ∧
          (parsed.inputs e.environment).find? (·.name == x) = some ⟨x, span⟩) ∧
    ∀ script message span,
      a.evaluate host number limits b = .error ⟨script, .fault (.other message) span⟩ →
        ∃ handle args, host.perform handle args = .error (.other message) := by
  obtain ⟨parsed, nodes, uses, hread, hname, ha⟩ := Engine.compile_ok hcompile
  cases hmissing : a.missing? b with
  | some v =>
    obtain ⟨hfree, habsent, hleast⟩ := missing?_eq_some ha.pairwise_inputNames hmissing
    have hinput : v.name ∈ a.inputNames := List.mem_map_of_mem hfree
    rw [evaluate_of_missing hmissing]
    refine ⟨⟨fun _ => ⟨v.name, hinput, habsent⟩, fun _ => ⟨_, _, _, rfl⟩⟩, fun script x span h => ?_,
      fun script message span h => nomatch h⟩
    cases h
    exact ⟨hname, hinput, habsent, hleast, parsed, hread, ha.mem_free.1 hfree⟩
  | none =>
    have hregular := (evaluate_known ha hblind (fun x v hv => (hglobals x v hv).settled)
      (fun x hx v hv => (hinputs x hx v hv).settled) limits hmissing).2
    have hbound : ∀ script x span,
        a.evaluate host number limits b ≠ .error ⟨script, .unbound x span⟩ := by
      intro script x span h
      obtain ⟨_, _, hfault, _⟩ := hregular _ h
      cases hfault
    refine ⟨⟨fun ⟨script, x, span, h⟩ => absurd h (hbound script x span), fun ⟨x, hx, hnone⟩ => ?_⟩,
      fun script x span h => absurd h (hbound script x span), fun script message span h => ?_⟩
    · have hsome := missing?_eq_none.1 hmissing x hx
      simp [hnone] at hsome
    · obtain ⟨cause, _, hfault, hanswer⟩ := hregular _ h
      cases hfault
      obtain ⟨f, args, hrun⟩ := hanswer message rfl
      obtain ⟨handle, hperform⟩ := perform_of_run hrun
      exact ⟨handle, args, hperform⟩

theorem evaluate_unbound_least :
    ∃ a, Engine.standard.compile 0 "sum" "(+ b a)" = .ok a ∧
      ∃ span, a.evaluate Host.bare 1 {} ∅ = .error ⟨"sum", .unbound "a" span⟩ := by
  have hnames : ((Engine.standard.compile 0 "sum" "(+ b a)").toOption.map inputNames) =
      some ["a", "b"] := by decide +kernel
  obtain ⟨a, hcompile, hinputs⟩ := Engine.compile_of_map hnames
  obtain ⟨hiff, hleast, _⟩ := evaluate_unbound hcompile (b := ∅) (Host.bare_blind 1)
    (fun x v hv => .atom (Environment.isAtom_of_get? Engine.standard_atoms hv))
    (fun _ _ _ hv => nomatch hv) {}
  obtain ⟨script, x, span, herror⟩ := hiff.2 ⟨"a", by rw [hinputs]; decide, rfl⟩
  obtain ⟨rfl, hx, _, hle, _⟩ := hleast script x span herror
  rw [hinputs] at hx hle
  have hxa : x = "a" := by
    rcases List.mem_pair.1 hx with rfl | rfl
    · rfl
    · exact absurd (hle "a" (by decide) rfl) (by decide)
  exact ⟨a, hcompile, span, hxa ▸ herror⟩

end Artifact

/-- Identities that a run can still give out after it has given out a number of them. -/
def Identity.Fresh (number made : Nat) (i : Identity) : Prop := i.maker = number ∧ made ≤ i.serial

/-- How the identities of closures in two runs correspond. Those that neither run can still give out
stay as they are, and those that the runs give out correspond in order. -/
def Identity.Renamed (number made number' made' : Nat) (i j : Identity) : Prop :=
  (i = j ∧ ¬ i.Fresh number made ∧ ¬ i.Fresh number' made') ∨
    ∃ d, i = ⟨number, made + d⟩ ∧ j = ⟨number', made' + d⟩

theorem Identity.renamed_unique (number made number' made' : Nat) (i j i' j' : Identity)
    (h : i.Renamed number made number' made' j) (h' : i'.Renamed number made number' made' j') :
    i = i' ↔ j = j' := by
  have hfresh : ∀ n k d, (Identity.mk n (k + d)).Fresh n k := fun _ k d =>
    ⟨rfl, Nat.le_add_right k d⟩
  rcases h with ⟨rfl, hn, hn'⟩ | ⟨d, rfl, rfl⟩
  · rcases h' with ⟨rfl, _, _⟩ | ⟨d, rfl, rfl⟩
    · exact .rfl
    · exact ⟨fun he => absurd (he ▸ hfresh ..) hn, fun he => absurd (he ▸ hfresh ..) hn'⟩
  · rcases h' with ⟨rfl, hn, hn'⟩ | ⟨d', rfl, rfl⟩
    · exact ⟨fun he => absurd (he ▸ hfresh ..) hn, fun he => absurd (he ▸ hfresh ..) hn'⟩
    · simp

theorem Identity.not_fresh {i : Identity} {number number' : Nat} (made : Nat)
    (h : i.maker < number) (hle : number ≤ number') : ¬ i.Fresh number' made :=
  fun hf => absurd hf.1 (Nat.ne_of_lt (Nat.lt_of_lt_of_le h hle))

/-- The closures in the value were made before either of two runs goes on. -/
def Value.Shared (number made number' made' : Nat) (v : Value) : Prop :=
  v.Produced fun i => ¬ i.Fresh number made ∧ ¬ i.Fresh number' made'

theorem Value.Shared.twin {number made number' made' : Nat} {v : Value}
    (h : v.Shared number made number' made') :
    Twin (Identity.Renamed number made number' made') v v :=
  Twin.mono h.settled fun _ _ hi => .inl hi

/-- Two runs that go on after they have made some closures. -/
def Comparison.ofRuns (strict : Prop) {host host' : Host} (hperform : host.perform = host'.perform)
    {known number number' : Nat} (hblind : host.Blind known) (hnumber : known ≤ number)
    (hnumber' : known ≤ number') (made made' : Nat) (limits limits' : Limits)
    (hlimits : strict → limits = limits') (htime : strict → limits.time = none)
    (b b' : Binding) : Comparison where
  strict := strict
  ids := Identity.Renamed number made number' made'
  left := Artifact.run host number limits b
  right := Artifact.run host' number' limits' b'
  unique := Identity.renamed_unique number made number' made'
  invoke f _ _ hvs :=
    hblind.run_congr hperform (Twin.likeness (Identity.renamed_unique number made number' made'))
      (fun _ hv => Twin.mono hv fun _ _ hi => .inl ⟨hi.1, Identity.not_fresh made hi.2 hnumber,
        Identity.not_fresh made' hi.2 hnumber'⟩) f hvs
  limits := hlimits
  elapsed hstrict := .inl (htime hstrict)

namespace Artifact

variable {a : Artifact}

theorem missing?_congr {b b' : Binding} (h : ∀ x ∈ a.inputNames, b.get? x = b'.get? x) :
    a.missing? b = a.missing? b' := by
  refine List.find?_congr fun v hv => ?_
  rw [Binding.contains, Binding.contains, h v.name (List.mem_map_of_mem hv)]

/-- An evaluation without a time limit depends on the free names of the script only. With bindings
that agree on these, both evaluations give the same value or the same failure, up to the identities
of the closures that they make. -/
theorem evaluate_reads_inputs {e : Engine} {serial : Nat} {name source : String}
    (hcompile : e.compile serial name source = .ok a) {host host' : Host}
    (hperform : host.perform = host'.perform) {known number number' : Nat}
    (hblind : host.Blind known) (hnumber : known ≤ number) (hnumber' : known ≤ number')
    (hglobals : ∀ x v, e.environment.get? x = some v → v.Produced fun i => i.maker < known)
    {limits : Limits} (htime : limits.time = none) {b b' : Binding}
    (hagree : ∀ x ∈ a.inputNames, b.get? x = b'.get? x)
    (hinputs : ∀ x ∈ a.inputNames, ∀ v, b.get? x = some v → v.Produced fun i => i.maker < known) :
    SameUpTo (Twin (Identity.Renamed number 0 number' 0)) (a.evaluate host number limits b)
      (a.evaluate host' number' limits b') := by
  obtain ⟨parsed, nodes, uses, _, _, ha⟩ := Engine.compile_ok hcompile
  have hsame : a.missing? b = a.missing? b' := missing?_congr hagree
  cases hmissing : a.missing? b with
  | some v =>
    rw [evaluate_of_missing hmissing, evaluate_of_missing (hsame ▸ hmissing)]
    exact .error _
  | none =>
    -- A strict comparison, in which both runs reach a limit or neither does.
    let c := Comparison.ofRuns True hperform hblind hnumber hnumber' 0 0 limits limits
      (fun _ => rfl) (fun _ => htime) b b'
    have hshared : ∀ v : Value, (v.Produced fun i => i.maker < known) → Twin c.ids v v :=
      fun v hv => Twin.mono hv.settled fun _ _ hi => .inl ⟨hi.1, Identity.not_fresh 0 hi.2 hnumber,
        Identity.not_fresh 0 hi.2 hnumber'⟩
    have hsupplied : c.Supplied a.inputNames := by
      intro x hx
      obtain ⟨v, hv⟩ := Option.isSome_iff_exists.1 (missing?_eq_none.1 hmissing x hx)
      exact ⟨v, v, hv, (hagree x hx) ▸ hv, hshared v (hinputs x hx v hv)⟩
    have hids : ∀ d, c.ids ⟨number, d⟩ ⟨number', d⟩ := fun d =>
      .inr ⟨d, by rw [Nat.zero_add], by rw [Nat.zero_add]⟩
    have hends := Comparison.script_ends (c := c) ha
      (fun x v hv => hshared v (hglobals x v hv)) hsupplied hids limits.depth limits.depth
      (fun _ => rfl)
    have houtcomes := (Comparison.outcomes hends (fun h => absurd trivial h)
      (fun h => absurd trivial h)).1
    rw [evaluate_of_supplied hmissing, evaluate_of_supplied (hsame ▸ hmissing)]
    exact (houtcomes.mono fun _ _ ⟨_, _, hvw⟩ => hvw).mapError _

theorem evaluate_reads_inputs_closure :
    ∃ a, Engine.standard.compile 0 "keep" "(fn [] x)" = .ok a ∧
      SameUpTo (Twin (Identity.Renamed 1 0 2 0))
        (a.evaluate Host.bare 1 {}
          ⟨[("x", .int 1), ("y", .int 2)], List.pairwise_pair.2 (by decide)⟩)
        (a.evaluate Host.bare 2 {}
          ⟨[("x", .int 1), ("y", .int 3)], List.pairwise_pair.2 (by decide)⟩) := by
  have hnames : ((Engine.standard.compile 0 "keep" "(fn [] x)").toOption.map inputNames) =
      some ["x"] := by decide +kernel
  obtain ⟨a, hcompile, hinputs⟩ := Engine.compile_of_map hnames
  refine ⟨a, hcompile, evaluate_reads_inputs hcompile rfl (Host.bare_blind 1) (Nat.le_refl 1)
    (by decide) (fun x v hv => .atom (Environment.isAtom_of_get? Engine.standard_atoms hv)) rfl
    (fun x hx => ?_) fun x hx v hv => ?_⟩
  · rw [hinputs, List.mem_singleton] at hx
    subst hx
    rfl
  · rw [hinputs, List.mem_singleton] at hx
    subst hx
    cases hv
    exact .atom rfl

end Artifact

end Scriptlet
