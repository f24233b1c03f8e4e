import Scriptlet.Proofs.Form.Reading

/-!
The check of the nesting agrees with reading. A text that can be read at all is accepted where its
forms are not too deep, and is refused at the first bracket that opens a group too deep.
-/

namespace Scriptlet

open LexemeKind (DenotesAtom)

section Openings

/-- The offset of a lexeme that opens a group. -/
def Lexeme.opensAt? (l : Lexeme) : Option Nat :=
  match l.kind with
  | .opening _ => some l.span.start
  | .closing _ | .word _ | .quoted _ | .stray _ => none

theorem Lexeme.opensAt?_eq_some_iff {l : Lexeme} {pos : Nat} :
    l.opensAt? = some pos ↔ ∃ b, l.kind = .opening b ∧ l.span.start = pos := by
  obtain ⟨kind, span⟩ := l
  cases kind <;> simp [Lexeme.opensAt?]

variable {α : Type} {leaf : LexemeKind → α → Prop} {ls : List Lexeme} {ts : List (Tree α)}

/-- The groups at a level begin where lexemes open them, in the order of the text. -/
theorem Spells.sublist_groupsAtAll (h : Spells leaf ls ts) (level : Nat) :
    ((Tree.groupsAtAll level ts).map (·.start)).Sublist (ls.filterMap Lexeme.opensAt?) := by
  induction h generalizing level with
  | nil => exact .slnil
  | @leaf kind span a ls ts _ _ ih =>
    rw [Tree.groupsAtAll, Tree.groupsAt, List.nil_append]
    exact (ih level).trans ((List.sublist_cons_self _ ls).filterMap _)
  | @group b opens closes inner items ls ts _ _ ihitems ih =>
    have hopens : (Lexeme.mk (.opening b) opens).opensAt? = some opens.start := rfl
    have hcloses : (Lexeme.mk (.closing b) closes).opensAt? = none := rfl
    rw [Tree.groupsAtAll, List.map_append, List.filterMap_cons_some hopens, List.filterMap_append,
      List.filterMap_cons_none hcloses]
    cases level with
    | zero => exact ((ih 0).trans (List.sublist_append_right _ _)).cons_cons _
    | succ level => exact ((ihitems level).append (ih (level + 1))).cons _

/-- The first of the groups at a level begins before the others. -/
theorem Spells.head_groupsAtAll (h : Spells leaf ls ts)
    (hordered : (ls.map (·.span)).Pairwise fun s t => s.start < t.start) {level : Nat} {span : Span}
    (hhead : (Tree.groupsAtAll level ts).head? = some span) :
    ∀ s ∈ Tree.groupsAtAll level ts, span.start ≤ s.start := by
  have hopenings : (ls.filterMap Lexeme.opensAt?).Pairwise (· < ·) := by
    rw [List.pairwise_map] at hordered
    refine List.Pairwise.filterMap _ ?_ hordered
    intro l m hlt pos hpos pos' hpos'
    obtain ⟨-, -, rfl⟩ := Lexeme.opensAt?_eq_some_iff.1 hpos
    obtain ⟨-, -, rfl⟩ := Lexeme.opensAt?_eq_some_iff.1 hpos'
    exact hlt
  have hgroups := List.pairwise_map.1 (hopenings.sublist (h.sublist_groupsAtAll level))
  cases hgroup : Tree.groupsAtAll level ts with
  | nil => simp
  | cons first rest =>
    rw [hgroup] at hhead hgroups
    cases hhead
    intro s hs
    rcases List.mem_cons.1 hs with rfl | hs
    · exact Nat.le_refl _
    · exact Nat.le_of_lt ((List.pairwise_cons.1 hgroups).1 s hs)

/-- Where a group begins there is an opening bracket in the text. -/
theorem Layout.opening_of_groupsAtAll {text : List Char} (hlayout : Layout false 0 text ls)
    (h : Spells leaf ls ts) {level : Nat} {span : Span} (hspan : span ∈ Tree.groupsAtAll level ts) :
    ∃ b before after, text = before ++ Bracket.opening b :: after ∧
      utf8Length before = span.start := by
  have hmem : span.start ∈ ls.filterMap Lexeme.opensAt? :=
    (h.sublist_groupsAtAll level).mem (List.mem_map_of_mem hspan)
  obtain ⟨l, hl, hopens⟩ := List.mem_filterMap.1 hmem
  obtain ⟨b, hkind, hstart⟩ := Lexeme.opensAt?_eq_some_iff.1 hopens
  obtain ⟨before, inside, after, htext, hwritten, hplace⟩ := hlayout.covers l hl
  rw [hkind] at hwritten
  cases hwritten
  refine ⟨b, before, after, htext, ?_⟩
  rw [← hstart, hplace, Nat.zero_add]

end Openings

section Limit

/-- The check of the nesting finds the first group below the limit. -/
theorem LaidOut.withinNesting_eq {text : List Char} {forms : List Form} (h : LaidOut text forms)
    (limit : Nat) :
    withinNesting limit text = match (Tree.groupsAtAll limit forms).head? with
      | some span => .error (.new (.tooDeep (limit + 1) limit) ⟨span.start, span.start + 1⟩)
      | none => .ok () := by
  obtain ⟨ls, hlayout, hspells⟩ := h
  have hleaf : ∀ (kind : LexemeKind) (a : Atom) (span : Span), kind.DenotesAtom a →
      Lexeme.delimiter? ⟨kind, span⟩ = none := fun _ _ span ha => ha.delimiter?_eq_none span
  have hfirst := hspells.firstTooDeep?_eq hleaf (Nat.zero_le limit) []
  have hnone : firstTooDeep? limit 0 [] = none := rfl
  rw [List.append_nil, ← hlayout.outlineFrom_eq, hnone, Option.or_none, Nat.sub_zero] at hfirst
  rw [withinNesting, outline, hfirst]
  cases (Tree.groupsAtAll limit forms).head? <;> rfl

theorem length_outlineFrom_le (s : Surrounding) (pos : Nat) (cs : List Char) :
    (outlineFrom s pos cs).1.length ≤ cs.length := by
  induction cs generalizing s pos with
  | nil => exact Nat.le_refl 0
  | cons c cs ih =>
    have hrest := ih (s.next c) (pos + c.utf8Size)
    rw [outlineFrom, List.length_cons]
    cases s with
    | code =>
      cases Delimiter.ofChar? c pos with
      | some d => exact Nat.succ_le_succ hrest
      | none => exact Nat.le_succ_of_le hrest
    | comment | text | escape => cases Delimiter.ofChar? c pos <;> exact Nat.le_succ_of_le hrest

/-- So few brackets cannot open a group too deep. -/
theorem firstTooDeep?_eq_none_of_length {limit depth : Nat} {ds : List Delimiter}
    (h : depth + ds.length ≤ limit) : firstTooDeep? limit depth ds = none := by
  induction ds generalizing depth with
  | nil => rfl
  | cons d ds ih =>
    rw [List.length_cons] at h
    cases d with
    | opening b pos =>
      have hdepth : ¬ limit < depth + 1 := by omega
      rw [firstTooDeep?, if_neg hdepth]
      exact ih (by omega)
    | closing =>
      rw [firstTooDeep?]
      exact ih (by omega)

theorem withinNesting_of_length {limit : Nat} {text : List Char} (h : text.length ≤ limit) :
    withinNesting limit text = .ok () := by
  have hfew := length_outlineFrom_le .code 0 text
  rw [withinNesting, outline, firstTooDeep?_eq_none_of_length (by omega)]

end Limit

namespace Script

/-- Reads a source text whose groups may nest as deep as they like. -/
def readUnlimited (source : String) : Except SyntaxError Script :=
  match arrange (Lexeme.scan 0 source.toList) (utf8Length source.toList) with
  | .error s => .error (s.error source.toList)
  | .ok trees => (Tree.decodeAll trees).map fun forms => ⟨forms, ⟨0, utf8Length source.toList⟩⟩

variable {limit : Nat} {source : String}

theorem read_of_withinNesting (h : withinNesting limit source.toList = .ok ()) :
    read limit source = readUnlimited source := by
  rw [readUnlimited]
  cases harrange : arrange (Lexeme.scan 0 source.toList) (utf8Length source.toList) with
  | ok trees => exact readChars_of_arrange h harrange
  | error s => exact readChars_of_stuck h harrange

theorem read_of_not_withinNesting {e : SyntaxError}
    (h : withinNesting limit source.toList = .error e) : read limit source = .error e := by
  rw [read, readChars, h]
  rfl

/-- Any limit that is as large as the text is no limit. -/
theorem read_of_length (h : source.length ≤ limit) : read limit source = readUnlimited source := by
  apply read_of_withinNesting
  apply withinNesting_of_length
  rwa [String.length_toList]

theorem readUnlimited_eq_ok_iff {script : Script} :
    readUnlimited source = .ok script ↔
      script.forms ≠ [] ∧ LaidOut source.toList script.forms ∧
        script.span = ⟨0, utf8Length source.toList⟩ := by
  have hread : read source.length source = readUnlimited source := read_of_length (Nat.le_refl _)
  have hnesting : withinNesting source.length source.toList = .ok () :=
    withinNesting_of_length (Nat.le_of_eq String.length_toList)
  rw [← hread, read, readChars_eq_ok_iff]
  exact and_iff_right hnesting

/-- With a limit a source text is read just where it can be read without one and its groups nest no
deeper than the limit, and the script is the same. A text that nests deeper is refused for the
bracket that opens its first group below the limit. A limit as large as the text is no limit. -/
theorem read_iff_depthAll_le (limit : Nat) (source : String) :
    (∀ script, read limit source = .ok script ↔
      readUnlimited source = .ok script ∧ Tree.depthAll script.forms ≤ limit) ∧
    (∀ script, readUnlimited source = .ok script → limit < Tree.depthAll script.forms →
      ∃ b before after, ∃ span ∈ Tree.groupsAtAll limit script.forms,
        (∀ s ∈ Tree.groupsAtAll limit script.forms, span.start ≤ s.start) ∧
        source.toList = before ++ Bracket.opening b :: after ∧ utf8Length before = span.start ∧
        read limit source =
          .error (.new (.tooDeep (limit + 1) limit) ⟨span.start, span.start + 1⟩)) ∧
    ∀ limit', source.length ≤ limit' → read limit' source = readUnlimited source := by
  refine ⟨?_, ?_, ?_⟩
  · intro script
    rw [readUnlimited_eq_ok_iff, read, readChars_eq_ok_iff]
    constructor
    · rintro ⟨hnesting, hne, hlaid, hspan⟩
      exact ⟨⟨hne, hlaid, hspan⟩, (hlaid.withinNesting_iff limit).1 hnesting⟩
    · rintro ⟨⟨hne, hlaid, hspan⟩, hdepth⟩
      exact ⟨(hlaid.withinNesting_iff limit).2 hdepth, hne, hlaid, hspan⟩
  · intro script hscript hdeep
    obtain ⟨-, hlaid, -⟩ := readUnlimited_eq_ok_iff.1 hscript
    have hnesting := hlaid.withinNesting_eq limit
    obtain ⟨ls, hlayout, hspells⟩ := hlaid
    cases hhead : (Tree.groupsAtAll limit script.forms).head? with
    | none =>
      rw [List.head?_eq_none_iff, Tree.groupsAtAll_eq_nil_iff] at hhead
      exact absurd hhead (Nat.not_le_of_lt hdeep)
    | some span =>
      have hspan := List.mem_of_head? hhead
      obtain ⟨b, before, after, htext, hbefore⟩ := hlayout.opening_of_groupsAtAll hspells hspan
      rw [hhead] at hnesting
      exact ⟨b, before, after, span, hspan, hspells.head_groupsAtAll hlayout.ordered.1 hhead,
        htext, hbefore, read_of_not_withinNesting hnesting⟩
  · intro limit' hlength
    exact read_of_length hlength

/-- A group in a group, after a string and a comment with a bracket in each. -/
theorem read_iff_depthAll_le_nested :
    (∃ script, readUnlimited "(\"[\");[\n[()]" = .ok script ∧
      read 2 "(\"[\");[\n[()]" = .ok script) ∧
    read 1 "(\"[\");[\n[()]" = .error (.new (.tooDeep 2 1) ⟨9, 10⟩) := by
  have hquoted : (LexemeKind.quoted ['[']).Written ['"', '[', '"'] :=
    .quoted (.plain (by decide) (by decide) .nil)
  have hgap : Gap (';' :: (['['] ++ ['\n'])) := .comment (by decide) .nil
  have hlast : Layout false 12 [] [] := .last (.gap .nil)
  have hvector : Layout false 5 (';' :: '[' :: '\n' :: '[' :: '(' :: ')' :: [']'])
      [⟨.opening .square, ⟨8, 9⟩⟩, ⟨.opening .round, ⟨9, 10⟩⟩, ⟨.closing .round, ⟨10, 11⟩⟩,
        ⟨.closing .square, ⟨11, 12⟩⟩] :=
    .lexeme hgap (by simp) (.opening .square) (.at_front (.opening .round)
      (.at_front (.closing .round) (.at_front (.closing .square) hlast)))
  have hlayout : Layout false 0 "(\"[\");[\n[()]".toList
      [⟨.opening .round, ⟨0, 1⟩⟩, ⟨.quoted ['['], ⟨1, 4⟩⟩, ⟨.closing .round, ⟨4, 5⟩⟩,
        ⟨.opening .square, ⟨8, 9⟩⟩, ⟨.opening .round, ⟨9, 10⟩⟩, ⟨.closing .round, ⟨10, 11⟩⟩,
        ⟨.closing .square, ⟨11, 12⟩⟩] :=
    .at_front (.opening .round) (.at_front hquoted (.at_front (.closing .round) hvector))
  have hstring : (LexemeKind.quoted ['[']).DenotesAtom (.str "[") :=
    .string (.plain (by decide) .nil)
  have hspells : Spells DenotesAtom
      [⟨.opening .round, ⟨0, 1⟩⟩, ⟨.quoted ['['], ⟨1, 4⟩⟩, ⟨.closing .round, ⟨4, 5⟩⟩,
        ⟨.opening .square, ⟨8, 9⟩⟩, ⟨.opening .round, ⟨9, 10⟩⟩, ⟨.closing .round, ⟨10, 11⟩⟩,
        ⟨.closing .square, ⟨11, 12⟩⟩]
      [.group .round [.leaf (.str "[") ⟨1, 4⟩] ⟨0, 5⟩,
        .group .square [.group .round [] ⟨9, 11⟩] ⟨8, 12⟩] :=
    .group (.leaf hstring .nil) (.group (.group .nil .nil) .nil)
  have hscript : readUnlimited "(\"[\");[\n[()]" = .ok
      ⟨[.group .round [.leaf (.str "[") ⟨1, 4⟩] ⟨0, 5⟩,
        .group .square [.group .round [] ⟨9, 11⟩] ⟨8, 12⟩], ⟨0, 12⟩⟩ :=
    readUnlimited_eq_ok_iff.2 ⟨by simp, ⟨_, hlayout, hspells⟩, by rfl⟩
  refine ⟨⟨_, hscript, ((read_iff_depthAll_le 2 _).1 _).2 ⟨hscript, by decide⟩⟩, ?_⟩
  obtain ⟨b, before, after, span, hspan, -, -, -, hread⟩ :=
    (read_iff_depthAll_le 1 _).2.1 _ hscript (by decide)
  cases List.mem_singleton.1 hspan
  exact hread

end Script

end Scriptlet
