import Scriptlet.Proofs.Form.Outline

/-!
Reading accepts the layouts of forms and nothing else. A text has at most one reading, and what
separates its lexemes has no part in the forms that are read.
-/

namespace Scriptlet

open LexemeKind (Denotes DenotesAtom Legible)

/-- The text is a layout of lexemes that spell the forms. -/
def LaidOut (text : List Char) (forms : List Form) : Prop :=
  ∃ ls, Layout false 0 text ls ∧ Spells DenotesAtom ls forms

/-- The texts are layouts of the same lexemes, and only the gaps differ. -/
def Respaced (text text' : List Char) : Prop :=
  ∃ ls ls', Layout false 0 text ls ∧ Layout false 0 text' ls' ∧
    ls'.map (·.kind) = ls.map (·.kind)

namespace LexemeKind

variable {kind : LexemeKind}

theorem Legible.ne_stray {s : Spelling} (h : kind.Legible s) (c : Char) : kind ≠ .stray c := by
  rintro rfl
  cases h

theorem DenotesAtom.delimiter?_eq_none {a : Atom} (h : kind.DenotesAtom a) (span : Span) :
    Lexeme.delimiter? ⟨kind, span⟩ = none := by
  cases h <;> rfl

end LexemeKind

namespace Spells

variable {α : Type} {leaf : LexemeKind → α → Prop} {ls : List Lexeme} {ts us : List (Tree α)}

theorem not_stray (h : Spells leaf ls ts) (hleaf : ∀ kind a c, leaf kind a → kind ≠ .stray c) :
    ∀ l ∈ ls, ∀ c, l.kind ≠ .stray c := by
  induction h with
  | nil =>
    intro l hl
    cases hl
  | leaf ha _ ih =>
    intro l hl c
    rcases List.mem_cons.1 hl with rfl | hl
    · exact hleaf _ _ c ha
    · exact ih l hl c
  | group _ _ ihitems ih =>
    intro l hl c
    simp only [List.mem_cons, List.mem_append] at hl
    rcases hl with rfl | hl | rfl | hl
    · intro hkind
      cases hkind
    · exact ihitems l hl c
    · intro hkind
      cases hkind
    · exact ih l hl c

theorem eq_nil_of_nil (h : Spells leaf [] ts) : ts = [] := by
  cases h
  rfl

theorem nil_of_eq_nil (h : Spells leaf ls []) : ls = [] := by
  cases h
  rfl

/-- Legible lexemes spell one list of trees: the one into which they are arranged. -/
theorem legible_unique {ts us : List (Tree Spelling)} (h : Spells Legible ls ts)
    (h' : Spells Legible ls us) : ts = us := by
  have hts := h.run .start []
  have hus := h'.run .start []
  rw [List.append_nil, Arrangement.start, Arrangement.foldl_add_top] at hts hus
  rw [List.append_nil] at hts hus
  rw [hts] at hus
  have hsame : (⟨[], ts.reverse⟩ : Arrangement) = ⟨[], us.reverse⟩ := Except.ok.inj hus
  injection hsame with _ hreverse
  exact List.reverse_inj.1 hreverse

end Spells

/-- No text has two readings. -/
theorem LaidOut.unique {text : List Char} {forms forms' : List Form} (h : LaidOut text forms)
    (h' : LaidOut text forms') : forms = forms' := by
  obtain ⟨ls, hlayout, hspells⟩ := h
  obtain ⟨ls', hlayout', hspells'⟩ := h'
  have hls : ls = ls' := hlayout.scan_eq.symm.trans hlayout'.scan_eq
  subst hls
  obtain ⟨trees, hlegible, hdecode⟩ := hspells.encode
  obtain ⟨trees', hlegible', hdecode'⟩ := hspells'.encode
  have htrees : trees = trees' := hlegible.legible_unique hlegible'
  subst htrees
  rw [hdecode] at hdecode'
  exact Except.ok.inj hdecode'

/-- The nesting that is checked before reading is the depth of the forms. -/
theorem LaidOut.withinNesting_iff {text : List Char} {forms : List Form} (h : LaidOut text forms)
    (limit : Nat) : withinNesting limit text = .ok () ↔ Tree.depthAll forms ≤ limit := by
  obtain ⟨ls, hlayout, hspells⟩ := h
  apply hlayout.withinNesting_iff hspells
  intro kind a span ha
  exact ha.delimiter?_eq_none span

/-- Other gaps leave the forms as they are, places aside. -/
theorem LaidOut.respaced {text text' : List Char} {forms : List Form} (h : LaidOut text forms)
    (hrespaced : Respaced text text') :
    ∃ forms', LaidOut text' forms' ∧ Tree.unplacedAll forms' = Tree.unplacedAll forms := by
  obtain ⟨ls, hlayout, hspells⟩ := h
  obtain ⟨ms, ls', hms, hlayout', hkinds⟩ := hrespaced
  have hls : ms = ls := hms.scan_eq.symm.trans hlayout.scan_eq
  subst hls
  obtain ⟨forms', hspells', hsame⟩ := hspells.moved hkinds
  exact ⟨forms', ⟨ls', hlayout', hspells'⟩, hsame⟩

/-- Lexemes stand one after the other, and none of them is empty. -/
theorem Layout.ordered {afterWord : Bool} {pos : Nat} {text : List Char} {ls : List Lexeme}
    (h : Layout afterWord pos text ls) :
    (ls.map (·.span)).Pairwise (fun s t => s.start < t.start) ∧
      ∀ l ∈ ls, pos ≤ l.span.start := by
  induction h with
  | last => exact ⟨.nil, fun _ hl => nomatch hl⟩
  | @lexeme _ pos gap kind text rest ls _ _ hkind _ ih =>
    obtain ⟨hpairwise, hrest⟩ := ih
    constructor
    · rw [List.map_cons, List.pairwise_cons]
      refine ⟨fun s hs => ?_, hpairwise⟩
      obtain ⟨l, hl, rfl⟩ := List.mem_map.1 hs
      exact Nat.lt_of_lt_of_le (Nat.lt_add_of_pos_right hkind.utf8Length_pos) (hrest l hl)
    · intro l hl
      rcases List.mem_cons.1 hl with rfl | hl
      · exact Nat.le_add_right _ _
      · have hstart := hrest l hl
        omega

/-- The leaves stand where their lexemes do. -/
theorem Spells.sublist_leaves {α : Type} {leaf : LexemeKind → α → Prop} {ls : List Lexeme}
    {ts : List (Tree α)} (h : Spells leaf ls ts) :
    ((Tree.leavesAll ts).map (·.2)).Sublist (ls.map (·.span)) := by
  induction h with
  | nil => exact .slnil
  | leaf _ _ ih => exact ih.cons_cons _
  | group _ _ ihitems ih =>
    simp only [Tree.leavesAll, Tree.leaves, List.map_cons, List.map_append]
    exact (ihitems.append (ih.cons _)).cons _

theorem LaidOut.ordered {text : List Char} {forms : List Form} (h : LaidOut text forms) :
    ((Tree.leavesAll forms).map (·.2)).Pairwise (fun s t => s.start < t.start) := by
  obtain ⟨ls, hlayout, hspells⟩ := h
  exact hlayout.ordered.1.sublist hspells.sublist_leaves

namespace Arrangement

/-- A lexeme that does not fit is refused where it begins. -/
theorem pos_of_step {a : Arrangement} {l : Lexeme} {s : Stuck} (h : a.step l = .error s) :
    s.pos = l.span.start := by
  unfold step at h
  split at h
  · cases h
  · split at h
    · split at h
      · cases h
      · cases h
        rfl
    · cases h
      rfl
  · split at h
    · cases h
    · cases h
      rfl
  · cases h
  · cases h
    rfl

theorem pos_of_run {a : Arrangement} {ls : List Lexeme} {s : Stuck}
    (h : ls.foldlM step a = .error s) : ∃ l ∈ ls, s.pos = l.span.start := by
  induction ls generalizing a with
  | nil => cases h
  | cons l ls ih =>
    rw [List.foldlM_cons] at h
    cases hstep : a.step l with
    | error s' =>
      rw [hstep] at h
      cases h
      exact ⟨l, List.mem_cons_self, pos_of_step hstep⟩
    | ok b =>
      rw [hstep] at h
      obtain ⟨l', hl', hpos⟩ := ih h
      exact ⟨l', List.mem_cons_of_mem _ hl', hpos⟩

end Arrangement

/-- Reading gets stuck at a lexeme or at the end. -/
theorem pos_of_arrange {ls : List Lexeme} {stop : Nat} {s : Stuck}
    (h : arrange ls stop = .error s) : s.pos = stop ∨ ∃ l ∈ ls, s.pos = l.span.start := by
  unfold arrange at h
  cases hrun : ls.foldlM Arrangement.step .start with
  | error s' =>
    rw [hrun] at h
    cases h
    exact .inr (Arrangement.pos_of_run hrun)
  | ok a =>
    rw [hrun] at h
    change a.finish stop = _ at h
    rw [Arrangement.finish] at h
    split at h
    · cases h
    · cases h
      exact .inl rfl

/-- A text in which reading gets stuck is told what is there or what is left open. -/
theorem Stuck.error_explained (s : Stuck) (text : List Char) (message : String) :
    (s.error text).fault ≠ .other message := by
  rw [Stuck.error]
  split
  · intro h
    cases h
  · split <;> (intro h; cases h)

namespace Script

variable {limit : Nat} {text : List Char} {forms : List Form}

theorem readChars_of_stuck {s : Stuck} (hnesting : withinNesting limit text = .ok ())
    (harrange : arrange (Lexeme.scan 0 text) (utf8Length text) = .error s) :
    readChars limit text = .error (s.error text) := by
  rw [readChars, hnesting, harrange]
  rfl

theorem readChars_of_arrange {trees : List (Tree Spelling)}
    (hnesting : withinNesting limit text = .ok ())
    (harrange : arrange (Lexeme.scan 0 text) (utf8Length text) = .ok trees) :
    readChars limit text =
      (Tree.decodeAll trees).map fun forms => ⟨forms, ⟨0, utf8Length text⟩⟩ := by
  rw [readChars, hnesting, harrange]
  change (do
    let forms ← Tree.decodeAll trees
    return (⟨forms, ⟨0, utf8Length text⟩⟩ : Script)) = _
  cases Tree.decodeAll trees <;> rfl

/-- What reading a text comes to: it is refused for its nesting, or it gets stuck, or its trees get
their values. -/
theorem readChars_cases (limit : Nat) (text : List Char) :
    (∃ pos, readChars limit text = .error (.new (.tooDeep (limit + 1) limit) ⟨pos, pos + 1⟩)) ∨
      (∃ s, withinNesting limit text = .ok () ∧
        arrange (Lexeme.scan 0 text) (utf8Length text) = .error s ∧
        readChars limit text = .error (s.error text)) ∨
      ∃ trees, withinNesting limit text = .ok () ∧ trees ≠ [] ∧
        Spells Legible (Lexeme.scan 0 text) trees ∧
        readChars limit text =
          (Tree.decodeAll trees).map fun forms => ⟨forms, ⟨0, utf8Length text⟩⟩ := by
  cases hdeep : firstTooDeep? limit 0 (outline text).1 with
  | some pos =>
    left
    refine ⟨pos, ?_⟩
    rw [readChars, withinNesting, hdeep]
    rfl
  | none =>
    have hnesting : withinNesting limit text = .ok () := by rw [withinNesting, hdeep]
    cases harrange : arrange (Lexeme.scan 0 text) (utf8Length text) with
    | error s =>
      right; left
      exact ⟨s, hnesting, rfl, readChars_of_stuck hnesting harrange⟩
    | ok trees =>
      right; right
      obtain ⟨hspells, hne⟩ := arrange_eq_ok_iff.1 harrange
      exact ⟨trees, hnesting, hne, hspells, readChars_of_arrange hnesting harrange⟩

theorem readChars_eq_ok_iff {span : Span} :
    readChars limit text = .ok ⟨forms, span⟩ ↔
      withinNesting limit text = .ok () ∧ forms ≠ [] ∧ LaidOut text forms ∧
        span = ⟨0, utf8Length text⟩ := by
  constructor
  · intro h
    obtain ⟨pos, hread⟩ | ⟨s, -, -, hread⟩ | ⟨trees, hnesting, hne, hspells, hread⟩ :=
      readChars_cases limit text
    · rw [hread] at h
      cases h
    · rw [hread] at h
      cases h
    · rw [hread] at h
      obtain ⟨fs, hdecode, hscript⟩ := except_map_eq_ok h
      cases hscript
      have hforms := hspells.decode hdecode
      have hstray := hspells.not_stray fun _ _ c hlegible => hlegible.ne_stray c
      refine ⟨hnesting, ?_, ⟨_, Layout.of_scan hstray, hforms⟩, rfl⟩
      rintro rfl
      rw [hforms.nil_of_eq_nil] at hspells
      exact hne hspells.eq_nil_of_nil
  · rintro ⟨hnesting, hne, ⟨ls, hlayout, hspells⟩, rfl⟩
    obtain ⟨trees, hlegible, hdecode⟩ := hspells.encode
    have htrees : trees ≠ [] := by
      rintro rfl
      exact hne (Except.ok.inj hdecode).symm
    rw [← hlayout.scan_eq] at hlegible
    rw [readChars_of_arrange hnesting (arrange_eq_ok_iff.2 ⟨hlegible, htrees⟩), hdecode]
    rfl

/-- The leaves of a script that is read stand in the source in their order. -/
theorem read_ordered {source : String} {script : Script} (h : read limit source = .ok script) :
    ((Tree.leavesAll script.forms).map (·.2)).Pairwise (fun s t => s.start < t.start) := by
  obtain ⟨-, -, hlaid, -⟩ := readChars_eq_ok_iff.1 h
  exact hlaid.ordered

/-- A layout of complete forms one of which has no value is refused with the error of decoding. -/
theorem readChars_of_decode_error {ls : List Lexeme} {trees : List (Tree Spelling)}
    {e : SyntaxError} (hnesting : withinNesting limit text = .ok ())
    (hlayout : Layout false 0 text ls) (hspells : Spells Legible ls trees) (hdecode : Tree.decodeAll trees = .error e) :
    readChars limit text = .error e := by
  have hne : trees ≠ [] := by
    rintro rfl
    cases hdecode
  rw [← hlayout.scan_eq] at hspells
  rw [readChars_of_arrange hnesting (arrange_eq_ok_iff.2 ⟨hspells, hne⟩), hdecode]
  rfl

/-- An integer out of range is reported where the text is a layout in all other respects. -/
theorem readChars_badNumber {ls : List Lexeme} {trees : List (Tree (Except String Atom))}
    {number : String} {span : Span} (hnesting : withinNesting limit text = .ok ())
    (hlayout : Layout false 0 text ls) (hspells : Spells Denotes ls trees)
    (hfirst : Tree.unsettled? trees = some (number, span)) :
    readChars limit text = .error (.new (.badNumber number) span) := by
  obtain ⟨spelled, hlegible, hdecodes⟩ := hspells.decodes
  rw [hfirst] at hdecodes
  exact readChars_of_decode_error hnesting hlayout hlegible hdecodes

/-- Every fault of the reader is of a kind of its own. -/
theorem readChars_explained {e : SyntaxError} (h : readChars limit text = .error e)
    (message : String) : e.fault ≠ .other message := by
  obtain ⟨pos, hread⟩ | ⟨s, -, -, hread⟩ | ⟨trees, -, -, hspells, hread⟩ :=
    readChars_cases limit text
  · rw [hread] at h
    cases h
    intro hfault
    cases hfault
  · rw [hread] at h
    cases h
    exact s.error_explained text message
  · rw [hread] at h
    cases hdecode : Tree.decodeAll trees with
    | error e' =>
      rw [hdecode] at h
      cases h
      obtain ⟨_, _, _, fault, hlegible, -, hs, rfl⟩ := hspells.exists_of_decode_error hdecode
      exact hlegible.explained hs message
    | ok fs =>
      rw [hdecode] at h
      cases h

/-- The reader accepts the layouts of forms that nest within the limit, and gives the forms. A
layout with an integer out of range is refused for the first such integer. A text has at most one
reading, other gaps give the same forms, and no refusal is left without a kind. -/
theorem read_iff_laidOut (limit : Nat) (source : String) :
    (∀ forms, (∃ span, read limit source = .ok ⟨forms, span⟩) ↔
      withinNesting limit source.toList = .ok () ∧ forms ≠ [] ∧ LaidOut source.toList forms) ∧
    (∀ ls trees number span, withinNesting limit source.toList = .ok () →
      Layout false 0 source.toList ls → Spells Denotes ls trees →
      Tree.unsettled? trees = some (number, span) →
        read limit source = .error (.new (.badNumber number) span)) ∧
    (∀ forms forms', LaidOut source.toList forms → LaidOut source.toList forms' →
      forms = forms') ∧
    (∀ source' forms span, Respaced source.toList source'.toList →
      read limit source = .ok ⟨forms, span⟩ →
        ∃ forms' span', read limit source' = .ok ⟨forms', span'⟩ ∧
          Tree.unplacedAll forms' = Tree.unplacedAll forms) ∧
    ∀ e message, read limit source = .error e → e.fault ≠ .other message := by
  refine ⟨?_, ?_, ?_, ?_, ?_⟩
  · intro forms
    constructor
    · rintro ⟨span, h⟩
      obtain ⟨hnesting, hne, hlaid, -⟩ := readChars_eq_ok_iff.1 h
      exact ⟨hnesting, hne, hlaid⟩
    · rintro ⟨hnesting, hne, hlaid⟩
      exact ⟨_, readChars_eq_ok_iff.2 ⟨hnesting, hne, hlaid, rfl⟩⟩
  · intro ls trees number span hnesting hlayout hspells hfirst
    exact readChars_badNumber hnesting hlayout hspells hfirst
  · intro forms forms' h h'
    exact h.unique h'
  · intro source' forms span hrespaced h
    obtain ⟨hnesting, hne, hlaid, -⟩ := readChars_eq_ok_iff.1 h
    obtain ⟨forms', hlaid', hsame⟩ := hlaid.respaced hrespaced
    have hdepth : Tree.depthAll forms' = Tree.depthAll forms := by
      rw [← Tree.depthAll_unplacedAll forms', hsame, Tree.depthAll_unplacedAll]
    have hnesting' : withinNesting limit source'.toList = .ok () := by
      rw [hlaid'.withinNesting_iff, hdepth]
      exact (hlaid.withinNesting_iff limit).1 hnesting
    have hne' : forms' ≠ [] := by
      rintro rfl
      cases forms with
      | nil => exact hne rfl
      | cons => cases hsame
    exact ⟨forms', _, readChars_eq_ok_iff.2 ⟨hnesting', hne', hlaid', rfl⟩, hsame⟩
  · intro e message h
    exact readChars_explained h message

/-- A vector with a comment in it that holds a bracket, the same vector without the comment, and the
least integer that is too large. -/
theorem read_iff_laidOut_comment :
    (∃ span, read 1 "[nil;]\n]" = .ok ⟨[.group .square [.leaf .nil ⟨1, 4⟩] ⟨0, 8⟩], span⟩) ∧
    (∃ forms span, read 1 "[nil]" = .ok ⟨forms, span⟩ ∧
      Tree.unplacedAll forms =
        Tree.unplacedAll [.group .square [.leaf .nil ⟨1, 4⟩] ⟨0, 8⟩]) ∧
    read 0 "9223372036854775808" =
      .error (.new (.badNumber "9223372036854775808") ⟨0, 19⟩) := by
  have hword : (LexemeKind.word ['n', 'i', 'l']).DenotesAtom .nil := .word (.literal .nil)
  have hwritten : (LexemeKind.word ['n', 'i', 'l']).Written ['n', 'i', 'l'] :=
    .word (List.all_eq_true.1 (by decide))
  have hlayout : ∀ gap, Gap gap → Layout false 0 ('[' :: 'n' :: 'i' :: 'l' :: (gap ++ [']']))
      [⟨.opening .square, ⟨0, 1⟩⟩, ⟨.word ['n', 'i', 'l'], ⟨1, 4⟩⟩,
        ⟨.closing .square, ⟨4 + utf8Length gap, 4 + utf8Length gap + 1⟩⟩] := by
    intro gap hgap
    have hend : Layout false (4 + utf8Length gap + 1) [] [] := .last (.gap .nil)
    have hcloses : Layout true 4 (gap ++ [']'])
        [⟨.closing .square, ⟨4 + utf8Length gap, 4 + utf8Length gap + 1⟩⟩] :=
      .lexeme hgap (by simp [LexemeKind.isWord]) (.closing .square) hend
    have hnil : Layout false 1 ('n' :: 'i' :: 'l' :: (gap ++ [']']))
        [⟨.word ['n', 'i', 'l'], ⟨1, 4⟩⟩,
          ⟨.closing .square, ⟨4 + utf8Length gap, 4 + utf8Length gap + 1⟩⟩] :=
      .lexeme .nil (by simp) hwritten hcloses
    exact .lexeme .nil (by simp) (.opening .square) hnil
  have hgap : Gap (';' :: ([']'] ++ ['\n'])) := .comment (by decide) .nil
  have hcommented : Layout false 0 "[nil;]\n]".toList
      [⟨.opening .square, ⟨0, 1⟩⟩, ⟨.word ['n', 'i', 'l'], ⟨1, 4⟩⟩,
        ⟨.closing .square, ⟨7, 8⟩⟩] :=
    hlayout _ hgap
  have hplain : Layout false 0 "[nil]".toList
      [⟨.opening .square, ⟨0, 1⟩⟩, ⟨.word ['n', 'i', 'l'], ⟨1, 4⟩⟩,
        ⟨.closing .square, ⟨4, 5⟩⟩] :=
    hlayout [] .nil
  have hspells : Spells DenotesAtom
      [⟨.opening .square, ⟨0, 1⟩⟩, ⟨.word ['n', 'i', 'l'], ⟨1, 4⟩⟩,
        ⟨.closing .square, ⟨7, 8⟩⟩]
      [.group .square [.leaf .nil ⟨1, 4⟩] ⟨0, 8⟩] :=
    .group (.leaf hword .nil) .nil
  have hread : ∃ span,
      read 1 "[nil;]\n]" = .ok ⟨[.group .square [.leaf .nil ⟨1, 4⟩] ⟨0, 8⟩], span⟩ :=
    ((read_iff_laidOut 1 "[nil;]\n]").1 _).2 ⟨by rfl, by simp, _, hcommented, hspells⟩
  refine ⟨hread, ?_, ?_⟩
  · obtain ⟨span, hread⟩ := hread
    have hrespaced : Respaced "[nil;]\n]".toList "[nil]".toList :=
      ⟨_, _, hcommented, hplain, rfl⟩
    exact (read_iff_laidOut 1 "[nil;]\n]").2.2.2.1 "[nil]" _ span hrespaced hread
  · have hnumber : (LexemeKind.word "9223372036854775808".toList).Denotes
        (.error "9223372036854775808") :=
      .word (.oversized (.mk .absent ⟨by simp, List.all_eq_true.1 (by decide)⟩) (by decide))
    have hdigits : (LexemeKind.word "9223372036854775808".toList).Written
        "9223372036854775808".toList :=
      .word (List.all_eq_true.1 (by decide))
    have hgrammatical : Layout false 0 "9223372036854775808".toList
        [⟨.word "9223372036854775808".toList, ⟨0, 19⟩⟩] :=
      .lexeme .nil (by simp) hdigits (.last (.gap .nil))
    exact (read_iff_laidOut 0 "9223372036854775808").2.1 _
      [.leaf (.error "9223372036854775808") ⟨0, 19⟩] _ _ (by rfl) hgrammatical
      (.leaf hnumber .nil) rfl

end Script

end Scriptlet
