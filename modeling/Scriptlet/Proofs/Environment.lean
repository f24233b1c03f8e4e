import Mathlib.Data.List.Nodup
import Scriptlet.Library.Standard

/-!
Environments that come from registrations. Every name in them has passed the check for names, and
the standard environment is one of them.
-/

namespace Scriptlet

theorem Environment.get?_eq_some_iff {e : Environment} {name : String} {value : Value} :
    e.get? name = some value ↔ ∃ g ∈ e.globals, g.name = name ∧ g.value = value := by
  rw [get?, Option.map_eq_some_iff]
  constructor
  · rintro ⟨g, hg, hvalue⟩
    exact ⟨g, List.mem_of_find?_eq_some hg, by simpa using List.find?_some hg, hvalue⟩
  · rintro ⟨g, hg, hname, hvalue⟩
    obtain ⟨g', hg'⟩ := Option.isSome_iff_exists.1 (contains_iff.2 ⟨g, hg, hname⟩)
    have hname' : g'.name = name := by simpa using List.find?_some hg'
    have hsame : g' = g :=
      List.inj_on_of_nodup_map e.nodup (List.mem_of_find?_eq_some hg') hg (hname'.trans hname.symm)
    exact ⟨g', hg', hsame ▸ hvalue⟩

/-- The globals come from registrations that succeeded. -/
inductive Environment.Built : Environment → Prop where
  | empty : Built ∅
  | insert {b b' : Builder} {name value doc} (h : Built b.environment)
      (hb : b.insert name value doc = .ok b') : Built b'.environment

/-- A registration step that builds on what was built. -/
def Registration.Builds {α : Type} (r : Registration α) : Prop :=
  ∀ b : Builder, b.environment.Built → (r.run b).2.environment.Built

namespace Builder

variable {b b' : Builder} {name : String} {value : Value} {doc : String}

/-- A registration that succeeds adds one global at the end, and changes nothing else. -/
theorem eq_of_insert (h : b.insert name value doc = .ok b') :
    nameFlaw? name = none ∧
      ∃ hfree, b' = ⟨b.maker,
        b.environment.add ⟨name, value, b.category.getD uncategorized, doc⟩ hfree, b.category⟩ := by
  unfold insert at h
  cases hflaw : nameFlaw? name with
  | some reason =>
    rw [hflaw] at h
    cases h
  | none =>
    simp only [hflaw] at h
    split at h
    · cases h
    · next hfree =>
      cases h
      exact ⟨rfl, hfree, rfl⟩

/-- What a registration that succeeds has added, and that its name was in order. -/
theorem insert_ok (h : b.insert name value doc = .ok b') :
    nameFlaw? name = none ∧
      b'.environment.globals =
        b.environment.globals ++ [⟨name, value, b.category.getD uncategorized, doc⟩] := by
  obtain ⟨hname, _, rfl⟩ := eq_of_insert h
  exact ⟨hname, rfl⟩

theorem insert_eq_ok_iff :
    (∃ b', b.insert name value doc = .ok b') ↔
      b.environment.contains name = false ∧ nameFlaw? name = none := by
  unfold insert
  cases nameFlaw? name with
  | some reason => simp
  | none => by_cases h : b.environment.contains name = true <;> simp [h]

end Builder

theorem isSpecialName_of_nameFlaw? {name : String} (h : nameFlaw? name = none) :
    isSpecialName name = false := by
  by_cases hspecial : isSpecialName name = true
  · rw [nameFlaw?, if_pos hspecial] at h
    split at h <;> cases h
  · simpa using hspecial

namespace Environment.Built

variable {env : Environment}

theorem nameFlaw?_eq_none (h : env.Built) : ∀ g ∈ env.globals, nameFlaw? g.name = none := by
  induction h with
  | empty =>
    intro g hg
    cases hg
  | insert _ hb ih =>
    obtain ⟨hname, hglobals⟩ := Builder.insert_ok hb
    intro g hg
    rw [hglobals] at hg
    rcases List.mem_append.1 hg with hg | hg
    · exact ih g hg
    · cases List.mem_singleton.1 hg
      exact hname

/-- A special form is no global. -/
theorem isSpecialName_eq_false (h : env.Built) {x : String} {v : Value}
    (hx : env.get? x = some v) : isSpecialName x = false := by
  obtain ⟨g, hg, rfl, -⟩ := get?_eq_some_iff.1 hx
  exact isSpecialName_of_nameFlaw? (h.nameFlaw?_eq_none g hg)

end Environment.Built

namespace Registration

/-- The next step starts from the builder that the last one leaves, if that has not failed. -/
theorem run_bind {α β : Type} (r : Registration α) (k : α → Registration β) (b : Builder) :
    (r >>= k).run b = match r.run b with
      | (.ok a, c) => (k a).run c
      | (.error e, c) => (.error e, c) := by
  change ExceptT.bindCont k (r.run b).1 (r.run b).2 = _
  rcases r.run b with ⟨_ | _, _⟩ <;> rfl

/-- A constant is added to the builder, or the builder stays as it is. -/
theorem constant_run (name : String) (value : Value) (doc : String) (b : Builder) :
    (∃ b', b.insert name value doc = .ok b' ∧ (constant name value doc).run b = (.ok (), b')) ∨
      ∃ e, b.insert name value doc = .error e ∧ (constant name value doc).run b = (.error e, b) := by
  simp only [constant, ExceptT.run]
  cases b.insert name value doc with
  | ok b' => exact .inl ⟨b', rfl, rfl⟩
  | error e => exact .inr ⟨e, rfl, rfl⟩

theorem builds_pure {α : Type} (a : α) : Builds (pure a) := fun _ h => h

/-- Steps in a row build, and after a step that fails nothing more happens. -/
theorem Builds.bind {α β : Type} {r : Registration α} {k : α → Registration β} (hr : Builds r)
    (hk : ∀ a, Builds (k a)) : Builds (r >>= k) := by
  intro b hb
  have hbuilt := hr b hb
  rw [run_bind]
  rcases hrun : r.run b with ⟨_ | a, c⟩ <;> rw [hrun] at hbuilt
  · exact hbuilt
  · exact hk a c hbuilt

theorem builds_forM {α : Type} {f : α → Registration PUnit} (hf : ∀ a, Builds (f a))
    (as : List α) : Builds (as.forM f) := by
  induction as with
  | nil => exact builds_pure _
  | cons a as ih => exact (hf a).bind fun _ => ih

theorem builds_category (name : String) : Builds (category name) := fun _ h => h

/-- A constant is registered, or the environment stays as it is. -/
theorem builds_constant (name : String) (value : Value) (doc : String) :
    Builds (constant name value doc) := by
  intro b hb
  obtain ⟨b', hb', hrun⟩ | ⟨e, -, hrun⟩ := constant_run name value doc b <;> rw [hrun]
  · exact .insert hb hb'
  · exact hb

theorem builds_function (name : String) (arity : Arity) (doc : String) (action : Action) :
    Builds (function name arity doc action) := by
  intro b hb
  exact builds_constant name _ doc b hb

theorem builds_builtin (op : Builtin) : Builds (builtin op) := builds_function _ _ _ _

theorem builds_standard : Builds standard := by
  have hmath : Builds math :=
    (builds_category _).bind fun _ => (builds_constant _ _ _).bind fun _ =>
      (builds_constant _ _ _).bind fun _ => builds_forM builds_builtin _
  have hcomparison : Builds comparison :=
    (builds_category _).bind fun _ => builds_forM builds_builtin _
  have hlogic : Builds logic := (builds_category _).bind fun _ => builds_forM builds_builtin _
  have hstrings : Builds strings := (builds_category _).bind fun _ => builds_forM builds_builtin _
  have hlists : Builds lists := (builds_category _).bind fun _ => builds_forM builds_builtin _
  exact hmath.bind fun _ => hcomparison.bind fun _ => hlogic.bind fun _ => hstrings.bind fun _ =>
    hlists

end Registration

theorem Environment.built_standard : Environment.standard.Built :=
  Registration.builds_standard _ .empty

end Scriptlet
