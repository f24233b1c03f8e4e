import Scriptlet.Proofs.Resolution.Locality
import Scriptlet.Proofs.Resolution.Naming
import Scriptlet.Proofs.Resolution.Recompiling

/-!
Engines with more globals. What is registered later does not change how a script is compiled, as
long as the script has none of the new names in it.
-/

namespace Scriptlet

/-- The environment comes from the other one by registrations that succeeded, in one builder or in
several. -/
inductive Environment.Extends (env : Environment) : Environment → Prop where
  | refl : Extends env env
  | insert {b b' : Builder} {name value doc} (h : Extends env b.environment)
      (hb : b.insert name value doc = .ok b') : Extends env b'.environment

namespace Builder

variable {b b' : Builder} {name : String} {value : Value} {doc : String}

theorem find?_of_insert_of_ne (h : b.insert name value doc = .ok b') {x : String} (hx : x ≠ name) :
    b'.environment.find? x = b.environment.find? x := by
  have hne : (name == x) = false := beq_false_of_ne hx.symm
  rw [Environment.find?, Environment.find?, (insert_ok h).2, List.find?_append]
  simp [hne]

/-- One registration on top of an environment adds one name. -/
theorem extends_of_insert {base : Environment} {maker : Nat}
    (h : (onto base maker).insert name value doc = .ok b') :
    base.Extends b'.environment ∧
      ∀ x, x ≠ name → b'.environment.contains x = base.contains x := by
  refine ⟨.insert .refl h, fun x hx => ?_⟩
  rw [Environment.contains, find?_of_insert_of_ne h hx]
  rfl

theorem extends_constant {env : Environment} (h : env.Extends b.environment) (name : String)
    (value : Value) (doc : String) :
    env.Extends ((Registration.constant name value doc).run b).2.environment := by
  obtain ⟨b', hb, hrun⟩ | ⟨e, -, hrun⟩ := Registration.constant_run name value doc b <;> rw [hrun]
  · exact .insert h hb
  · exact h

/-- Whatever a builder is told, it only extends the globals that it starts with. -/
theorem Continues.extends_base {base : Environment} {maker : Nat} {c : Builder}
    (h : (onto base maker).Continues c) : base.Extends c.environment := by
  induction h with
  | refl => exact .refl
  | category _ _ ih => exact ih
  | constant name value doc _ ih => exact extends_constant ih name value doc
  | function name _ doc _ _ ih => exact extends_constant ih name _ doc

end Builder

namespace Environment.Extends

variable {env env' : Environment} {x : String}

theorem contains (h : env.Extends env') (hx : env.contains x = true) : env'.contains x = true := by
  induction h with
  | refl => exact hx
  | @insert b b' name value doc _ hb ih =>
    by_cases hname : x = name
    · have hnew := (Builder.insert_eq_ok_iff.1 ⟨_, hb⟩).1
      rw [← hname, ih] at hnew
      cases hnew
    · rw [Environment.contains, Builder.find?_of_insert_of_ne hb hname]
      exact ih

/-- A name that is not new means what it meant. -/
theorem get?_eq (h : env.Extends env') (hx : env'.contains x = true → env.contains x = true) :
    env.get? x = env'.get? x := by
  induction h with
  | refl => rfl
  | @insert b b' name value doc h hb ih =>
    have hold : b.environment.contains x = true → env.contains x = true :=
      fun hmem => hx ((Extends.insert .refl hb).contains hmem)
    by_cases hname : x = name
    · have hnew := (Builder.insert_eq_ok_iff.1 ⟨_, hb⟩).1
      have htaken : b'.environment.contains x = true := by
        have hget := Builder.get?_of_insert hb
        rw [← hname, Environment.get?, Option.map_eq_some_iff] at hget
        obtain ⟨g, hg, -⟩ := hget
        rw [Environment.contains, hg]
        rfl
      rw [← hname, h.contains (hx htaken)] at hnew
      cases hnew
    · rw [ih hold, Environment.get?, Environment.get?, Builder.find?_of_insert_of_ne hb hname]

end Environment.Extends

theorem Script.resolve_congr {env env' : Environment} {script : Script}
    (h : ∀ f ∈ script.forms, ∀ x, f.Occurs x → env.get? x = env'.get? x) :
    script.resolve env = script.resolve env' := by
  have hagree : Resolution.Agree (fun x => env.get? x = env'.get? x) env .top env' .top :=
    ⟨rfl, fun _ _ => rfl, fun _ hx => hx⟩
  rw [Script.resolve, Script.resolve, Resolution.all_congr hagree h]

/-- An engine with more globals compiles a text alike that has none of the new names in it as a
symbol: to the same artifact, or with the same diagnostics. A compiled program then gives what it
gave. -/
theorem Engine.compile_extends {e : Engine} {env : Environment} {source : String}
    (h : e.environment.Extends env)
    (hold : ∀ script, Script.read e.nesting source = .ok script → ∀ f ∈ script.forms,
      ∀ x, f.Occurs x → env.contains x = true → e.environment.contains x = true)
    (serial : Nat) (name : String) :
    ({ e with environment := env } : Engine).compile serial name source =
        e.compile serial name source ∧
      ∀ host number b,
        (Program.compile { e with environment := env } serial name source).map
            (fun p => p.evaluate host number b) =
          (Program.compile e serial name source).map fun p => p.evaluate host number b := by
  have hcompile : ({ e with environment := env } : Engine).compile serial name source =
      e.compile serial name source := by
    simp only [compile]
    cases hread : Script.read e.nesting source with
    | error err => rfl
    | ok script =>
      have hresolve : script.resolve e.environment = script.resolve env :=
        Script.resolve_congr fun f hf x hx => h.get?_eq (hold script hread f hf x hx)
      simp only [hresolve]
  refine ⟨hcompile, fun host number b => ?_⟩
  rw [Program.compile, Program.compile, hcompile]

/-- The name stands in a string and in a comment, but not as a symbol. -/
theorem Engine.compile_extends_unread :
    ∃ c, (Builder.onto standard.environment 1).insert "answer" (.int 42) "" = .ok c ∧
      ({ standard with environment := c.environment } : Engine).compile 0 "main"
          "(let [x 1] (fn [y] (+ x y \"answer\"))) ; answer" =
        standard.compile 0 "main" "(let [x 1] (fn [y] (+ x y \"answer\"))) ; answer" := by
  obtain ⟨c, hc⟩ : ∃ c, (Builder.onto standard.environment 1).insert "answer" (.int 42) "" = .ok c :=
    Builder.insert_eq_ok_iff.2 ⟨by decide +kernel, by decide⟩
  have hsymbols : (Script.read standard.nesting
      "(let [x 1] (fn [y] (+ x y \"answer\"))) ; answer").toOption.map (fun script =>
        script.forms.all fun f => (Tree.leaves f).all fun l =>
          Form.symbol? (.leaf l.1 l.2) != some "answer") = some true := by decide +kernel
  obtain ⟨hextends, hcontains⟩ := Builder.extends_of_insert hc
  have hold : ∀ script, Script.read standard.nesting
      "(let [x 1] (fn [y] (+ x y \"answer\"))) ; answer" = .ok script → ∀ f ∈ script.forms,
        ∀ x, f.Occurs x → c.environment.contains x = true →
          standard.environment.contains x = true := by
    intro script hread f hf x hx hmem
    rw [hread] at hsymbols
    have hleaves := List.all_eq_true.1 (Option.some.inj hsymbols) f hf
    obtain ⟨⟨-, span⟩, hl, rfl⟩ := hx.exists_leaf
    have hne : x ≠ "answer" := by simpa [Form.symbol?] using List.all_eq_true.1 hleaves _ hl
    exact (hcontains x hne).symm.trans hmem
  exact ⟨c, hc, (compile_extends hextends hold 0 "main").1⟩

end Scriptlet
