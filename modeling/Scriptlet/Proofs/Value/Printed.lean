import Scriptlet.Engine
import Scriptlet.Proofs.Decimal.Digits
import Scriptlet.Proofs.Evaluation.Produced
import Scriptlet.Proofs.Evaluation.Run
import Scriptlet.Proofs.Form.Literal
import Scriptlet.Proofs.Resolution.Naming
import Scriptlet.Proofs.Value.Data
import Scriptlet.Value.Printer

/-!
Printed data reads back. The printed form of a value is a layout of lexemes, one for each literal and
two for each list, that spells a form with that value as its data. A script that quotes the form
compiles to the value and evaluates to it in one step.
-/

namespace Scriptlet

open LexemeKind (DenotesAtom)

section Quoted

namespace Text

/-- The character is printed as itself, or as one of the escapes that scripts have. -/
def Readable (c : Char) : Prop :=
  escapeChar c ∈ [[c], ['\\', '"'], ['\\', '\\'], ['\\', 'n'], ['\\', 'r'], ['\\', 't']]

instance : DecidablePred Readable := fun c => inferInstanceAs (Decidable (escapeChar c ∈ _))

/-- How a character may be printed: in one of the ways in which scripts write it, or as an escape
that scripts do not have. -/
theorem escapeChar_cases (c : Char) :
    QuotedChar c (escapeChar c) ∨ escapeChar c = ['\\', '0'] ∨
      escapeChar c = codePointEscape c := by
  unfold escapeChar
  split
  · exact .inl (.escape .quote)
  · exact .inl (.escape .backslash)
  · exact .inl (.escape .newline)
  · exact .inl (.escape .return)
  · exact .inl (.escape .tab)
  · exact .inr (.inl rfl)
  · next hquote hslash _ _ _ _ =>
    split
    · exact .inr (.inr rfl)
    · exact .inl (.plain hquote hslash)

theorem Readable.quotedChar {c : Char} (h : Readable c) : QuotedChar c (escapeChar c) := by
  unfold Readable at h
  obtain hquoted | hzero | hcode := escapeChar_cases c
  · exact hquoted
  · rw [hzero] at h
    simp at h
  · -- An escape by code point is longer than any that can be read.
    have hshort : ∀ cs ∈ [[c], ['\\', '"'], ['\\', '\\'], ['\\', 'n'], ['\\', 'r'], ['\\', 't']],
        cs.length ≤ 2 := by
      simp
    have hlength := hshort _ h
    rw [hcode] at hlength
    simp only [codePointEscape, List.length_append, List.length_cons, List.length_nil] at hlength
    omega

/-- What is printed between quotes stands for the text. -/
theorem unescaped_escape {cs : List Char} (h : ∀ c ∈ cs, Readable c) :
    Escaped (cs.flatMap escapeChar) ∧ Unescaped (cs.flatMap escapeChar) cs := by
  have hpieces : List.Forall₂ QuotedChar cs (cs.map escapeChar) := by
    rw [List.forall₂_map_right_iff, List.forall₂_same]
    exact fun c hc => (h c hc).quotedChar
  rw [List.flatMap_def]
  exact ⟨QuotedChar.escaped hpieces, QuotedChar.unescaped hpieces⟩

end Text

end Quoted

section Layouts

/-- Wherever the text stands, it spells forms with the property, if what follows does not go on with
a word. -/
def Spelled (text : List Char) (P : List Form → Prop) : Prop :=
  ∀ pos rest ms, Layout true (pos + utf8Length text) rest ms →
    ∃ ls forms, Layout false pos (text ++ rest) (ls ++ ms) ∧ Spells DenotesAtom ls forms ∧ P forms

namespace Spelled

variable {text text' : List Char} {P Q : List Form → Prop}

theorem mono (h : Spelled text P) (hP : ∀ forms, P forms → Q forms) : Spelled text Q := by
  intro pos rest ms hrest
  obtain ⟨ls, forms, hlayout, hspells, hforms⟩ := h pos rest ms hrest
  exact ⟨ls, forms, hlayout, hspells, hP forms hforms⟩

theorem leaf {kind : LexemeKind} {a : Atom} (hkind : kind.Written text) (ha : kind.DenotesAtom a) :
    Spelled text fun forms => ∃ span, forms = [.leaf a span] := by
  intro pos rest ms hrest
  refine ⟨[⟨kind, ⟨pos, pos + utf8Length text⟩⟩], _, ?_, .leaf ha .nil, _, rfl⟩
  exact .at_front hkind (hrest.after_any _)

theorem word {a : Atom} (h : Word.Means text (.ok a)) :
    Spelled text fun forms => ∃ span, forms = [.leaf a span] := by
  obtain ⟨c, cs, rfl, hparts⟩ := h.exists_cons
  exact leaf (.word hparts) (.word h)

theorem nil : Spelled [] fun forms => forms = [] := by
  intro pos rest ms hrest
  exact ⟨[], [], hrest.after_any false, .nil, rfl⟩

/-- Two texts with a space between them. -/
theorem append (h : Spelled text P) (h' : Spelled text' Q) :
    Spelled (text ++ ' ' :: text') fun forms =>
      ∃ first second, forms = first ++ second ∧ P first ∧ Q second := by
  intro pos rest ms hrest
  have hplace : pos + utf8Length (text ++ ' ' :: text') =
      pos + utf8Length text + utf8Length [' '] + utf8Length text' := by
    simp only [utf8Length_append, utf8Length_cons, utf8Length_nil]
    omega
  rw [hplace] at hrest
  obtain ⟨ls', second, hlayout', hspells', hsecond⟩ := h' _ rest ms hrest
  have hspace : Layout true _ _ _ :=
    .gap_append (.separator (by decide) .nil) (List.cons_ne_nil ' ' []) hlayout'
  obtain ⟨ls, first, hlayout, hspells, hfirst⟩ := h pos _ _ hspace
  refine ⟨ls ++ ls', first ++ second, ?_, hspells.append hspells', first, second, rfl, hfirst,
    hsecond⟩
  simpa using hlayout

/-- A text between round brackets. -/
theorem group (h : Spelled text P) :
    Spelled ('(' :: (text ++ [')'])) fun forms =>
      ∃ items span, forms = [.group .round items span] ∧ P items := by
  intro pos rest ms hrest
  have hplace : pos + utf8Length ('(' :: (text ++ [')'])) =
      pos + utf8Length ['('] + utf8Length text + utf8Length [')'] := by
    simp only [utf8Length_append, utf8Length_cons, utf8Length_nil]
    omega
  rw [hplace] at hrest
  have hend : ∀ c ∈ (')' :: rest).head?, Word.isPart c = false := by
    rintro c ⟨⟩
    decide
  have hclose : Layout true (pos + utf8Length ['('] + utf8Length text) (')' :: rest) _ :=
    (Layout.at_front (.closing .round) (hrest.after_any false)).after_word hend
  obtain ⟨ls, items, hlayout, hspells, hitems⟩ := h _ _ _ hclose
  obtain ⟨opens, closes, hopen⟩ : ∃ opens closes, Layout false pos ('(' :: (text ++ [')']) ++ rest)
      (⟨.opening .round, opens⟩ :: (ls ++ [⟨.closing .round, closes⟩]) ++ ms) := by
    have hfront : Layout false pos ('(' :: (text ++ ')' :: rest)) _ :=
      .at_front (.opening .round) hlayout
    exact ⟨_, _, by simpa using hfront⟩
  exact ⟨_, _, hopen, .group hspells .nil, items, _, rfl, hitems⟩

end Spelled

theorem Spelled.laidOut {text : List Char} {P : List Form → Prop} (h : Spelled text P) :
    ∃ forms, LaidOut text forms ∧ P forms := by
  obtain ⟨ls, forms, hlayout, hspells, hforms⟩ := h 0 [] [] (.last (.gap .nil))
  rw [List.append_nil, List.append_nil] at hlayout
  exact ⟨forms, ⟨ls, hlayout, hspells⟩, hforms⟩

end Layouts

namespace Value

/-- The forms have the values as their data, and their lists nest as deep. -/
structure Quoted (vs : List Value) (forms : List Form) : Prop where
  data : Form.quotedAll forms = vs
  depth : Tree.depthAll forms = depthAll vs

theorem Quoted.nil : Quoted [] [] := ⟨rfl, rfl⟩

theorem Quoted.cons {v : Value} {vs : List Value} {f : Form} {fs : List Form}
    (hdata : Form.quoted f = v) (hdepth : Tree.depth f = v.depth) (h : Quoted vs fs) :
    Quoted (v :: vs) (f :: fs) := by
  constructor
  · rw [Form.quotedAll, hdata, h.data]
  · rw [Tree.depthAll, depthAll, hdepth, h.depth]

theorem Quoted.leaf {v : Value} {a : Atom} (ha : a.value = v) (hv : v.depth = 0) (span : Span) :
    Quoted [v] [.leaf a span] :=
  .cons (by rw [Form.quoted, ha]) (by rw [Tree.depth, hv]) .nil

theorem Quoted.group {vs : List Value} {items : List Form} (h : Quoted vs items) (span : Span) :
    Quoted [.list vs] [.group .round items span] :=
  .cons (by rw [Form.quoted, h.data]) (by rw [Tree.depth, Value.depth, h.depth]) .nil

theorem Quoted.exists_singleton {v : Value} {forms : List Form} (h : Quoted [v] forms) :
    ∃ f, forms = [f] ∧ Form.quoted f = v ∧ Tree.depth f = v.depth := by
  obtain ⟨hdata, hdepth⟩ := h
  match forms with
  | [] =>
    rw [Form.quotedAll] at hdata
    cases hdata
  | [f] =>
    rw [Form.quotedAll, Form.quotedAll] at hdata
    rw [Tree.depthAll, Tree.depthAll, depthAll, depthAll, Nat.max_zero, Nat.max_zero] at hdepth
    exact ⟨f, rfl, (List.cons.inj hdata).1, hdepth⟩
  | f :: g :: fs =>
    rw [Form.quotedAll, Form.quotedAll] at hdata
    cases (List.cons.inj hdata).2

theorem displayAll_eq (vs : List Value) : displayAll vs = vs.map display := by
  induction vs with
  | nil => rfl
  | cons v vs ih => rw [displayAll, ih, List.map_cons]

theorem display_list (vs : List Value) :
    (display (.list vs)).toList =
      '(' :: ([' '].intercalate (vs.map fun v => v.display.toList) ++ [')']) := by
  rw [display, displayAll_eq]
  simp [String.toList_intercalate, Function.comp_def]

theorem spelled_items {vs : List Value} (h : ∀ v ∈ vs, Spelled v.display.toList (Quoted [v])) :
    Spelled ([' '].intercalate (vs.map fun v => v.display.toList)) (Quoted vs) := by
  induction vs with
  | nil =>
    refine Spelled.nil.mono ?_
    rintro _ rfl
    exact .nil
  | cons v vs ih =>
    have hv := h v List.mem_cons_self
    have hothers := ih fun w hw => h w (List.mem_cons_of_mem _ hw)
    cases vs with
    | nil => simpa using hv
    | cons w vs =>
      rw [List.map_cons] at hothers
      rw [List.map_cons, List.map_cons, List.intercalate_cons_cons, List.append_assoc,
        List.singleton_append]
      refine (hv.append hothers).mono ?_
      rintro _ ⟨first, second, rfl, hfirst, hsecond⟩
      obtain ⟨f, rfl, hquoted, hdepth⟩ := hfirst.exists_singleton
      exact .cons hquoted hdepth hsecond

/-- The printed form of data spells a form that has it as its data. -/
theorem Data.spelled {v : Value} (h : v.Data Text.Readable) :
    Spelled v.display.toList (Quoted [v]) := by
  have hleaf : ∀ {text a} {w : Value}, a.value = w → w.depth = 0 →
      Spelled text (fun forms => ∃ span, forms = [.leaf a span]) → Spelled text (Quoted [w]) := by
    intro text a w ha hw hspelled
    refine hspelled.mono ?_
    rintro _ ⟨span, rfl⟩
    exact .leaf ha hw span
  induction h with
  | nil => exact hleaf rfl rfl (.word (.literal .nil))
  | bool b =>
    cases b
    · exact hleaf rfl rfl (.word (.literal .false))
    · exact hleaf rfl rfl (.word (.literal .true))
  | int i =>
    refine hleaf (a := .int (Int64.ofInt i.toInt)) ?_ rfl
      (.word (.integer (Decimal.integerText_toString i.toInt) (range_toInt i)))
    rw [Int64.ofInt_toInt]
    rfl
  | @str s hs =>
    obtain ⟨hescaped, hunescaped⟩ := Text.unescaped_escape hs
    have hstr := hleaf (a := .str (String.ofList s.toList)) rfl rfl
      (.leaf (.quoted hescaped) (.string hunescaped))
    simpa [display, Text.quote, Atom.value] using hstr
  | list _ ih =>
    rw [display_list]
    refine (Spelled.group (spelled_items ih)).mono ?_
    rintro _ ⟨items, span, rfl, hitems⟩
    exact hitems.group span

end Value

section Quotations

variable {v : Value}

/-- A script that quotes the printed form of data is read, and holds nothing else. -/
theorem Script.read_quote_display (h : v.Data Text.Readable) {limit : Nat}
    (hlimit : v.depth + 1 ≤ limit) :
    ∃ f s span, read limit ("(quote " ++ v.display ++ ")") =
      .ok ⟨[.group .round [.leaf (.symbol "quote") s, f] span],
        ⟨0, utf8Length ("(quote " ++ v.display ++ ")").toList⟩⟩ ∧ Form.quoted f = v := by
  have hname : Word.Means "quote".toList (.ok (.symbol "quote")) := by
    refine Word.means_symbol_iff.2 ⟨rfl, .mk (by decide) (List.all_eq_true.1 rfl), ?_, by decide⟩
    rintro a ⟨⟩
  obtain ⟨forms, hlaid, items, span, rfl, first, second, rfl, ⟨s, rfl⟩, hsecond⟩ :=
    ((Spelled.word hname).append h.spelled).group.laidOut
  obtain ⟨f, rfl, hquoted, hdepth⟩ := hsecond.exists_singleton
  have htext : '(' :: (("quote".toList ++ ' ' :: v.display.toList) ++ [')']) =
      ("(quote " ++ v.display ++ ")").toList := by
    simp
  rw [htext, List.singleton_append] at hlaid
  have hnesting := (hlaid.withinNesting_iff limit).2 (by
    simp only [Tree.depthAll, Tree.depth, hdepth]
    omega)
  exact ⟨f, s, span, readChars_eq_ok_iff.2 ⟨hnesting, List.cons_ne_nil _ _, hlaid, rfl⟩, hquoted⟩

theorem Resolution.form_quotation (env : Environment) (p : Place) (s span : Span) (f : Form) :
    form env p (.group .round [.leaf (.symbol "quote") s, f] span) =
      pure (.constant (Form.quoted f) span) := by
  have hname : SpecialForm.ofName? "quote" = some .quotation := by decide
  rw [form, list]
  simp only [hname]
  rfl

/-- A script that is a constant gives it in one step. -/
theorem Artifact.evaluate_constant {a : Artifact} {span : Span}
    (hbody : a.body = .constant v span) (hfree : a.free = []) (host : Host) (number : Nat)
    {limits : Limits} (b : Binding) (hdepth : 0 < limits.depth)
    (hsteps : ∀ n, limits.steps = some n → 0 < n) :
    a.evaluate host number limits b = .ok v := by
  obtain ⟨room, hroom⟩ : ∃ k, limits.depth = k + 1 := ⟨limits.depth - 1, by omega⟩
  have hlimit : (run host number limits b).limitAt? 1 = none := by
    refine Option.or_eq_none_iff.2 ⟨?_, ?_⟩
    · refine Option.bind_eq_none_iff.2 fun n hn => if_neg ?_
      have hpos := hsteps n hn
      omega
    · exact Option.bind_eq_none_iff.2 fun _ _ => if_neg (by omega)
  have htick := Eval.tick_run (run host number limits b) span .start
  rw [show RunState.start.steps + 1 = 1 from rfl, hlimit] at htick
  rw [evaluate, missing?, hfree, hbody, hroom, List.find?_nil]
  simp only [Evaluation.eval, bind_run, Node.span, htick]
  rfl

/-- The printed form of data, quoted, compiles and gives the data back. -/
theorem Engine.evaluate_quote_display (h : v.Data Text.Readable) {e : Engine}
    (hnesting : v.depth + 1 ≤ e.nesting) (serial : Nat) {name : String} (hname : name ≠ "") :
    ∃ a, e.compile serial name ("(quote " ++ v.display ++ ")") = .ok a ∧
      (∀ (host : Host) (number : Nat) (limits : Limits) (b : Binding), 0 < limits.depth →
        (∀ n, limits.steps = some n → 0 < n) → a.evaluate host number limits b = .ok v) ∧
      (v == v) = true := by
  obtain ⟨f, s, span, hread, hquoted⟩ := Script.read_quote_display h hnesting
  have hcompile : e.compile serial name ("(quote " ++ v.display ++ ")") =
      .ok ⟨serial, name, .constant v span, []⟩ := by
    have hempty : name.isEmpty = false := by simpa using hname
    rw [Engine.compile, hempty, hread]
    simp only [Script.resolve, Resolution.all, Resolution.form_quotation, hquoted]
    rfl
  refine ⟨_, hcompile, ?_, h.beq_self⟩
  intro host number limits b hdepth hsteps
  exact Artifact.evaluate_constant rfl rfl host number b hdepth hsteps

/-- The least limits that suffice, on the nesting and on the evaluation. -/
theorem Engine.evaluate_quote_display_least :
    ∃ a, compile { environment := .standard, nesting := 3 } 0 "main"
        "(quote (-9223372036854775808 \"a\\\"é\\n\" (nil true)))" = .ok a ∧
      a.evaluate Host.bare 1 { depth := 1, steps := some 1 } ∅ =
        .ok (.list [.int Int64.minValue, .str "a\"é\n", .list [.nil, .bool true]]) := by
  have hdata : (Value.list [.int Int64.minValue, .str "a\"é\n",
      .list [.nil, .bool true]]).Data Text.Readable := by
    have hinner : (Value.list [.nil, .bool true]).Data Text.Readable :=
      .list (List.forall_mem_cons.2 ⟨.nil, List.forall_mem_singleton.2 (.bool true)⟩)
    have hreadable : ("a\"é\n".toList.all fun c => decide (Text.Readable c)) = true := by
      decide +kernel
    have hstr : (Value.str "a\"é\n").Data Text.Readable :=
      .str fun c hc => of_decide_eq_true (List.all_eq_true.1 hreadable c hc)
    exact .list (List.forall_mem_cons.2 ⟨.int _, List.forall_mem_cons.2
      ⟨hstr, List.forall_mem_singleton.2 hinner⟩⟩)
  have htext : "(quote " ++ Value.display (.list [.int Int64.minValue, .str "a\"é\n",
      .list [.nil, .bool true]]) ++ ")" =
        "(quote (-9223372036854775808 \"a\\\"é\\n\" (nil true)))" := by
    decide +kernel
  obtain ⟨a, hcompile, heval, -⟩ := Engine.evaluate_quote_display hdata
    (e := { environment := .standard, nesting := 3 }) (Nat.le_refl 3) 0 (by decide : "main" ≠ "")
  rw [htext] at hcompile
  refine ⟨a, hcompile, heval Host.bare 1 { depth := 1, steps := some 1 } ∅ (by decide) ?_⟩
  rintro n ⟨⟩
  decide

end Quotations

end Scriptlet
