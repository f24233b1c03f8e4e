import Scriptlet.Proofs.Decimal.Float
import Scriptlet.Proofs.Form.Reading
import Scriptlet.Proofs.Resolution.Origin
import Scriptlet.Proofs.Value.Equality

/-!
Compiling a text twice. The second artifact differs from the first in its serial number only. The two
compare equal just where the tree equals itself: no literal is a NaN, but a global may be one, and a
script that reads such a global does not even equal itself.
-/

namespace Scriptlet

open LexemeKind (DenotesAtom)

section Leaves

theorem Spells.leaf_of_within {α : Type} {leaf : LexemeKind → α → Prop} {ls : List Lexeme}
    {ts : List (Tree α)} (h : Spells leaf ls ts) {t : Tree α} (ht : t ∈ ts) {a : α} {span : Span}
    (ha : (Tree.leaf a span).Within t) : ∃ kind, leaf kind a := by
  induction h generalizing t with
  | nil => cases ht
  | leaf hleaf _ ih =>
    rcases List.mem_cons.1 ht with rfl | ht
    · cases ha with
      | self => exact ⟨_, hleaf⟩
    · exact ih ht ha
  | group _ _ ihitems ih =>
    rcases List.mem_cons.1 ht with rfl | ht
    · cases ha with
      | item hu ha => exact ihitems hu ha
    · exact ih ht ha

/-- No literal is a NaN: it has no spelling. -/
theorem LexemeKind.DenotesAtom.not_hasNaN {kind : LexemeKind} {a : Atom} (h : kind.DenotesAtom a) :
    ¬ a.value.HasNaN := by
  intro hnan
  cases h with
  | string => cases hnan
  | word h =>
    cases h with
    | literal h => cases h <;> cases hnan
    | integer | symbol => cases hnan
    | float =>
      have htrue := Value.hasNaN_float_iff.1 hnan
      rw [Decimal.isNaN_toFloat] at htrue
      cases htrue

mutual

/-- A NaN in quoted data is a leaf of the form. -/
theorem Form.hasNaN_quoted : ∀ f : Form, (Form.quoted f).HasNaN →
    ∃ a span, (Tree.leaf a span).Within f ∧ a.value.HasNaN
  | .leaf a span, h => ⟨a, span, .self, h⟩
  | .group _ items _, h => by
    rw [Form.quoted] at h
    obtain ⟨v, hv, hnan⟩ := Value.hasNaN_list_iff.1 h
    obtain ⟨f, hf, a, span, ha, hnan⟩ := Form.hasNaN_quotedAll items v hv hnan
    exact ⟨a, span, .item hf ha, hnan⟩

theorem Form.hasNaN_quotedAll : ∀ fs : List Form, ∀ v ∈ Form.quotedAll fs, v.HasNaN →
    ∃ f ∈ fs, ∃ a span, (Tree.leaf a span).Within f ∧ a.value.HasNaN
  | [], v, hv, _ => by
    rw [Form.quotedAll] at hv
    cases hv
  | f :: fs, v, hv, h => by
    rw [Form.quotedAll] at hv
    rcases List.mem_cons.1 hv with rfl | hv
    · obtain ⟨a, span, ha, hnan⟩ := Form.hasNaN_quoted f h
      exact ⟨f, List.mem_cons_self, a, span, ha, hnan⟩
    · obtain ⟨g, hg, hleaf⟩ := Form.hasNaN_quotedAll fs v hv h
      exact ⟨g, List.mem_cons_of_mem _ hg, hleaf⟩

end

/-- No form of a script that is read holds a NaN. -/
theorem Script.not_hasNaN_of_read {limit : Nat} {source : String} {script : Script}
    (h : read limit source = .ok script) {f g : Form} (hf : f ∈ script.forms)
    (hg : Tree.Within g f) : ¬ (Form.quoted g).HasNaN := by
  intro hnan
  obtain ⟨-, -, ⟨ls, -, hspells⟩, -⟩ := readChars_eq_ok_iff.1 h
  obtain ⟨a, span, ha, hnan⟩ := Form.hasNaN_quoted g hnan
  obtain ⟨kind, hkind⟩ := hspells.leaf_of_within hf (ha.trans hg)
  exact hkind.not_hasNaN hnan

end Leaves

section Constants

variable {env : Environment}

/-- A constant with a NaN is a global, for the forms that were read have none. -/
theorem Form.Hold.exists_global {limit : Nat} {source : String} {script : Script} {v : Value}
    {span : Span} (h : Form.Hold env script.forms v span)
    (hread : Script.read limit source = .ok script) (hnan : v.HasNaN) :
    ∃ x, env.get? x = some v := by
  obtain ⟨f, hf, g, hg, -, hconst⟩ := h
  have hquoted : ∀ u, Tree.Within u g → v ≠ Form.quoted u := by
    rintro u hu rfl
    exact Script.not_hasNaN_of_read hread hf (hu.trans hg) hnan
  cases hconst with
  | literal => exact absurd rfl (hquoted _ .self)
  | globalName h => exact ⟨_, h⟩
  | empty => exact absurd rfl (hquoted _ .self)
  | quotation =>
    refine absurd rfl (hquoted _ (.item ?_ .self))
    exact List.mem_cons_of_mem _ List.mem_cons_self

namespace Artifact

theorem Renders.hold {a : Artifact} {script : Script} {nodes : List Node} {uses : List Use}
    (h : a.Renders env script nodes uses) {v : Value} {span : Span}
    (hv : (Node.constant v span).Within a.body) : Form.Hold env script.forms v span := by
  rw [h.body] at hv
  obtain ⟨n, hn, hv⟩ | hall := Script.within_together hv
  · exact h.forms.held n hn v span hv
  · cases hall

/-- The serial number is not looked at. -/
theorem beq_serial (a : Artifact) (serial : Nat) : (a == { a with serial }) = (a == a) := rfl

theorem beq_self_iff (a : Artifact) :
    (a == a) = true ↔ ∀ v, a.body.Mentions v → ¬ v.HasNaN := by
  change (a.name == a.name && a.body == a.body && a.free == a.free) = true ↔ _
  rw [beq_self_eq_true a.name, beq_self_eq_true a.free, Bool.true_and, Bool.and_true,
    Node.beq_self_iff]

end Artifact

end Constants

theorem Engine.compile_serial (e : Engine) (serial serial' : Nat) (name source : String) :
    e.compile serial' name source =
      (e.compile serial name source).map fun a => { a with serial := serial' } := by
  unfold compile
  by_cases hname : name.isEmpty = true
  · rw [if_pos hname, if_pos hname]
    rfl
  · rw [if_neg hname, if_neg hname]
    cases Script.read e.nesting source with
    | error err => rfl
    | ok script =>
      dsimp only
      cases script.resolve e.environment <;> rfl

/-- Two compilations of a text give the same name, tree and free names. They compare equal, and each
of them to itself, just where the tree mentions no global that is or holds a NaN. -/
theorem Engine.compile_beq {e : Engine} {serial : Nat} {name source : String} {a : Artifact}
    (h : e.compile serial name source = .ok a) (serial' : Nat) :
    ∃ a', e.compile serial' name source = .ok a' ∧ a' = { a with serial := serial' } ∧
      (a == a') = (a == a) ∧
      ((a == a') = true ↔
        ∀ x v, e.environment.get? x = some v → a.body.Mentions v → ¬ v.HasNaN) := by
  obtain ⟨script, nodes, uses, hread, -, ha⟩ := Engine.compile_ok h
  have hcompile := e.compile_serial serial serial' name source
  rw [h] at hcompile
  refine ⟨_, hcompile, rfl, a.beq_serial serial', ?_⟩
  rw [a.beq_serial, a.beq_self_iff]
  constructor
  · intro hbeq _ v _ hv
    exact hbeq v hv
  · rintro hglobals v ⟨span, hv⟩ hnan
    obtain ⟨x, hx⟩ := (ha.hold hv).exists_global hread hnan
    exact hglobals x v hx ⟨span, hv⟩ hnan

/-- A global that is a NaN does not matter to a script that does not read it. -/
theorem Engine.compile_beq_unread :
    ∃ env, (Builder.start 0).build (.constant "nan" (.float (0 / 0)) "") = .ok env ∧
      ∃ a a', compile { environment := env } 0 "s" "[(quote nan) 2.5]" = .ok a ∧
        compile { environment := env } 1 "s" "[(quote nan) 2.5]" = .ok a' ∧ (a == a') = true := by
  have heval : (((Builder.start 0).build (.constant "nan" (.float (0 / 0)) "")).toOption.bind
      fun env => (compile { environment := env } 0 "s" "[(quote nan) 2.5]").toOption.map
        fun a => a == a) = some true := by
    decide +kernel
  obtain ⟨env, henv, heval⟩ := Option.bind_eq_some_iff.1 heval
  obtain ⟨a, ha, hself⟩ := Engine.compile_of_map heval
  obtain ⟨a', ha', -, hbeq, -⟩ := Engine.compile_beq ha 1
  exact ⟨env, eq_ok_of_toOption henv, a, a', ha, ha', hbeq.trans hself⟩

/-- A script that reads the NaN never compiles to an artifact that equals anything. -/
theorem Engine.compile_ne_nan :
    ∃ env, (Builder.start 0).build (.constant "nan" (.float (0 / 0)) "") = .ok env ∧
      ∃ a a', compile { environment := env } 0 "s" "nan" = .ok a ∧
        compile { environment := env } 1 "s" "nan" = .ok a' ∧
        (a == a') = false ∧ (a == a) = false := by
  have heval : (((Builder.start 0).build (.constant "nan" (.float (0 / 0)) "")).toOption.bind
      fun env => (compile { environment := env } 0 "s" "nan").toOption.bind
        fun a => (compile { environment := env } 1 "s" "nan").toOption.map
          fun a' => (a == a', a == a)) = some (false, false) := by
    decide +kernel
  obtain ⟨env, henv, heval⟩ := Option.bind_eq_some_iff.1 heval
  obtain ⟨a, ha, heval⟩ := Option.bind_eq_some_iff.1 heval
  obtain ⟨a', ha', heval⟩ := Option.map_eq_some_iff.1 heval
  obtain ⟨hne, hself⟩ := Prod.mk.inj heval
  exact ⟨env, eq_ok_of_toOption henv, a, a', eq_ok_of_toOption ha, eq_ok_of_toOption ha', hne,
    hself⟩

end Scriptlet
