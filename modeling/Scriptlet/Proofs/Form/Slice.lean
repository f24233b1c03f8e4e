import Scriptlet.Proofs.Resolution.Extent
import Scriptlet.Proofs.Resolution.Height

/-!
The part of a source that a form covers. Its lexemes are a row of the lexemes of the source, and the
text between the first and the last of them is a layout of its own, wherever it stands: read alone,
it gives the form with its places counted from the start of the part.
-/

namespace Scriptlet

open LexemeKind (DenotesAtom)

def Span.lowered (n : Nat) (s : Span) : Span := ⟨s.start - n, s.stop - n⟩

section Lowered

variable {α : Type}

mutual

/-- The tree with all places counted from an offset. -/
def Tree.lowered (n : Nat) : Tree α → Tree α
  | .leaf a span => .leaf a (span.lowered n)
  | .group b items span => .group b (Tree.loweredAll n items) (span.lowered n)

def Tree.loweredAll (n : Nat) : List (Tree α) → List (Tree α)
  | [] => []
  | t :: ts => Tree.lowered n t :: Tree.loweredAll n ts

end

mutual

theorem Tree.depth_lowered (n : Nat) (t : Tree α) :
    Tree.depth (Tree.lowered n t) = Tree.depth t := by
  cases t with
  | leaf a span => rw [Tree.lowered, Tree.depth, Tree.depth]
  | group b items span =>
    rw [Tree.lowered, Tree.depth, Tree.depth, Tree.depthAll_loweredAll n items]

theorem Tree.depthAll_loweredAll (n : Nat) (ts : List (Tree α)) :
    Tree.depthAll (Tree.loweredAll n ts) = Tree.depthAll ts := by
  cases ts with
  | nil => rw [Tree.loweredAll]
  | cons t ts =>
    rw [Tree.loweredAll, Tree.depthAll, Tree.depthAll, Tree.depth_lowered n t,
      Tree.depthAll_loweredAll n ts]

end

def Lexeme.lowered (n : Nat) (l : Lexeme) : Lexeme := ⟨l.kind, l.span.lowered n⟩

/-- A layout does not depend on where the text stands. -/
theorem Layout.lowered {afterWord : Bool} {pos : Nat} {text : List Char} {ls : List Lexeme}
    (h : Layout afterWord pos text ls) {n : Nat} (hn : n ≤ pos) :
    Layout afterWord (pos - n) text (ls.map (Lexeme.lowered n)) := by
  induction h with
  | last hgap => exact .last hgap
  | @lexeme _ pos gap kind text rest ls hgap hwords hkind _ ih =>
    have hrest := ih (by omega)
    have hstart : pos + utf8Length gap - n = pos - n + utf8Length gap := by omega
    have hstop : pos + utf8Length gap + utf8Length text - n =
        pos - n + utf8Length gap + utf8Length text := by omega
    rw [hstop] at hrest
    rw [List.map_cons, Lexeme.lowered, Span.lowered, hstart, hstop]
    exact .lexeme hgap hwords hkind hrest

theorem Spells.lowered {leaf : LexemeKind → α → Prop} {ls : List Lexeme} {ts : List (Tree α)}
    (h : Spells leaf ls ts) (n : Nat) :
    Spells leaf (ls.map (Lexeme.lowered n)) (Tree.loweredAll n ts) := by
  induction h with
  | nil => exact .nil
  | leaf ha _ ih => exact .leaf ha ih
  | group _ _ ihitems ih =>
    rw [List.map_cons, List.map_append, List.map_cons]
    exact .group ihitems ih

end Lowered

theorem eq_nil_of_utf8Length {text : List Char} (h : utf8Length text = 0) : text = [] := by
  cases text with
  | nil => rfl
  | cons c cs => exact absurd h (Nat.add_pos_left c.utf8Size_pos _).ne'

/-- Where a row of lexemes ends, if it does not end at once. -/
def Lexeme.endFrom (pos : Nat) : List Lexeme → Nat
  | [] => pos
  | l :: ls => endFrom l.span.stop ls

theorem Lexeme.endFrom_append (pos : Nat) (ls : List Lexeme) (l : Lexeme) :
    endFrom pos (ls ++ [l]) = l.span.stop := by
  induction ls generalizing pos with
  | nil => rfl
  | cons m ls ih => exact ih m.span.stop

namespace Layout

variable {afterWord : Bool} {pos : Nat} {text : List Char} {ls ms : List Lexeme} {l : Lexeme}

/-- Without the gap in front, nothing has to be kept apart from what was before. -/
theorem strip (h : Layout afterWord pos text (l :: ls)) :
    ∃ gap rest, text = gap ++ rest ∧ l.span.start = pos + utf8Length gap ∧
      Layout false (pos + utf8Length gap) rest (l :: ls) := by
  cases h with
  | @lexeme _ _ gap kind text rest _ _ _ hkind h =>
    exact ⟨gap, text ++ rest, rfl, rfl, at_front hkind h⟩

/-- The text of the first lexemes ends with the last of them. -/
theorem split (h : Layout afterWord pos text (ls ++ ms)) :
    ∃ front back w, text = front ++ back ∧ Layout afterWord pos front ls ∧
      Layout w (pos + utf8Length front) back ms ∧
      Lexeme.endFrom pos ls = pos + utf8Length front := by
  induction ls generalizing afterWord pos text with
  | nil => exact ⟨[], text, afterWord, rfl, .last (.gap .nil), h, rfl⟩
  | cons l ls ih =>
    cases h with
    | @lexeme _ _ gap kind text rest _ hgap hwords hkind h =>
      obtain ⟨front, back, w, rfl, hfront, hback, hstop⟩ := ih h
      have hend : pos + utf8Length gap + utf8Length text + utf8Length front =
          pos + utf8Length (gap ++ (text ++ front)) := by
        simp only [utf8Length_append]
        omega
      rw [hend] at hback hstop
      exact ⟨gap ++ (text ++ front), back, w, by simp, .lexeme hgap hwords hkind hfront, hback,
        hstop⟩

/-- A row of lexemes is a layout of the text from its first to its last. -/
theorem segment {before after : List Lexeme}
    (h : Layout afterWord pos text (before ++ (l :: ms ++ after))) :
    ∃ front inside back, text = front ++ (inside ++ back) ∧
      l.span.start = pos + utf8Length front ∧
      Lexeme.endFrom pos (l :: ms) = pos + utf8Length front + utf8Length inside ∧
      Layout false (pos + utf8Length front) inside (l :: ms) := by
  obtain ⟨front, text', w, rfl, -, hrest, -⟩ := h.split
  obtain ⟨gap, rest, rfl, hstart, hrow⟩ := hrest.strip
  have hboth : Layout false (pos + utf8Length front + utf8Length gap) rest (l :: ms ++ after) :=
    hrow
  obtain ⟨inside, back, -, rfl, hinside, -, hstop⟩ := hboth.split
  have hfront : pos + utf8Length front + utf8Length gap = pos + utf8Length (front ++ gap) := by
    rw [utf8Length_append, Nat.add_assoc]
  rw [hfront] at hstart hinside hstop
  exact ⟨front ++ gap, inside, back, by simp, hstart, hstop, hinside⟩

theorem proper (h : Layout afterWord pos text ls) :
    ∀ l ∈ ls, l.span.start < l.span.stop := by
  intro l hl
  obtain ⟨before, inside, after, -, hwritten, hspan⟩ := h.covers l hl
  rw [hspan]
  exact Nat.lt_add_of_pos_right hwritten.utf8Length_pos

theorem utf8Length_pos (h : Layout afterWord pos text (l :: ls)) : 0 < utf8Length text := by
  cases h with
  | lexeme _ _ hkind _ =>
    have hlexeme := hkind.utf8Length_pos
    simp only [utf8Length_append]
    omega

/-- A text from one bracket to another has nothing before the first and after the last. -/
theorem brackets {b b' : Bracket} {opens closes : Span}
    (h : Layout afterWord pos text (⟨.opening b, opens⟩ :: (ls ++ [⟨.closing b', closes⟩])))
    (hstart : opens.start = pos) (hstop : closes.stop = pos + utf8Length text) :
    opens.stop = pos + 1 ∧ closes.start + 1 = pos + utf8Length text ∧
      ∃ inner, text = b.opening :: (inner ++ [b'.closing]) := by
  cases h with
  | @lexeme _ _ gap _ _ rest _ _ _ hkind hrest =>
    cases hkind
    have hopening : b.opening.utf8Size = 1 := by cases b <;> rfl
    have hclosing : b'.closing.utf8Size = 1 := by cases b' <;> rfl
    obtain ⟨front, back, w, rfl, -, hback, -⟩ := hrest.split
    cases hback with
    | @lexeme _ _ gap' _ _ rest' _ _ _ hkind' _ =>
      cases hkind'
      simp only [utf8Length_append, utf8Length_cons, utf8Length_nil, hopening, hclosing]
        at hstart hstop ⊢
      have hgap : gap = [] := eq_nil_of_utf8Length (by omega)
      have hrest' : rest' = [] := eq_nil_of_utf8Length (by omega)
      subst hgap hrest'
      refine ⟨by simp, by omega, front ++ gap', by simp⟩

end Layout

namespace Spells

variable {α : Type} {leaf : LexemeKind → α → Prop} {ls : List Lexeme} {ts : List (Tree α)}
  {t u : Tree α}

/-- A tree covers the source from its first lexeme to its last. -/
theorem ends (h : Spells leaf ls [t]) :
    ∃ l ms, ls = l :: ms ∧ l.span.start = t.span.start ∧
      ∀ pos, Lexeme.endFrom pos ls = t.span.stop := by
  cases h with
  | leaf _ h =>
    cases h
    exact ⟨_, [], rfl, rfl, fun _ => rfl⟩
  | group _ h =>
    cases h
    exact ⟨_, _, rfl, rfl, fun _ => Lexeme.endFrom_append _ _ _⟩

/-- What stands in a tree is spelled by a row of the lexemes. -/
theorem segment (h : Spells leaf ls ts) (ht : t ∈ ts) (hu : Tree.Within u t) :
    ∃ before ms after, ls = before ++ (ms ++ after) ∧ Spells leaf ms [u] := by
  induction h generalizing t with
  | nil => cases ht
  | @leaf kind span a ls ts ha _ ih =>
    rcases List.mem_cons.1 ht with rfl | ht
    · cases hu with
      | self => exact ⟨[], [⟨kind, span⟩], ls, rfl, .leaf ha .nil⟩
    · obtain ⟨before, ms, after, rfl, hms⟩ := ih ht hu
      exact ⟨⟨kind, span⟩ :: before, ms, after, rfl, hms⟩
  | @group b opens closes inner items ls ts hitems _ ihitems ih =>
    rcases List.mem_cons.1 ht with rfl | ht
    · cases hu with
      | self =>
        refine ⟨[], ⟨.opening b, opens⟩ :: (inner ++ [⟨.closing b, closes⟩]), ls, by simp, ?_⟩
        exact .group hitems .nil
      | item hmem hu =>
        obtain ⟨before, ms, after, rfl, hms⟩ := ihitems hmem hu
        exact ⟨⟨.opening b, opens⟩ :: before, ms, after ++ ⟨.closing b, closes⟩ :: ls, by simp, hms⟩
    · obtain ⟨before, ms, after, rfl, hms⟩ := ih ht hu
      refine ⟨⟨.opening b, opens⟩ :: (inner ++ ⟨.closing b, closes⟩ :: before), ms, after, ?_, hms⟩
      rw [List.cons_append, List.append_assoc, List.cons_append]

/-- Trees stand behind what their lexemes stand behind. -/
theorem behind (h : Spells leaf ls ts) (hproper : ∀ l ∈ ls, l.span.start ≤ l.span.stop)
    (hseparate : (ls.map (·.span)).Pairwise fun s t => s.stop ≤ t.start) {whole : Span}
    (hwhole : ∀ l ∈ ls, whole.Contains l.span) {stop : Nat}
    (hstop : ∀ s ∈ ls.map (·.span), stop ≤ s.start) : ∀ s ∈ ts.map Tree.span, stop ≤ s.start := by
  intro s hs
  obtain ⟨t, ht, rfl⟩ := List.mem_map.1 hs
  have hrest : ∀ l ∈ ls, (Span.mk stop whole.stop).Contains l.span :=
    fun l hl => ⟨hstop _ (List.mem_map_of_mem hl), (hwhole l hl).stop⟩
  exact (h.contains hproper hseparate hrest t ht).1.start

/-- Trees stand one after the other, as their lexemes do. -/
theorem separate (h : Spells leaf ls ts) (hproper : ∀ l ∈ ls, l.span.start ≤ l.span.stop)
    (hseparate : (ls.map (·.span)).Pairwise fun s t => s.stop ≤ t.start) {whole : Span}
    (hwhole : ∀ l ∈ ls, whole.Contains l.span) :
    (ts.map Tree.span).Pairwise fun s t => s.stop ≤ t.start := by
  induction h with
  | nil => exact .nil
  | @leaf kind span a ls ts _ h ih =>
    obtain ⟨hstop, hrest⟩ := List.pairwise_cons.1 hseparate
    obtain ⟨-, hproper⟩ := List.forall_mem_cons.1 hproper
    obtain ⟨-, hwhole⟩ := List.forall_mem_cons.1 hwhole
    refine List.pairwise_cons.2 ⟨h.behind hproper hrest hwhole hstop, ?_⟩
    exact ih hproper hrest hwhole
  | @group b opens closes inner items ls ts _ h _ ih =>
    obtain ⟨-, -, hrest, hstop⟩ := Lexeme.separate_between hseparate
    have hproper' : ∀ l ∈ ls, l.span.start ≤ l.span.stop := fun l hl => hproper l (by simp [hl])
    have hwhole' : ∀ l ∈ ls, whole.Contains l.span := fun l hl => hwhole l (by simp [hl])
    refine List.pairwise_cons.2 ⟨h.behind hproper' hrest hwhole' hstop, ?_⟩
    exact ih hproper' hrest hwhole'

end Spells

namespace LaidOut

variable {text : List Char} {forms : List Form} {f g : Form}

/-- The part of the text that a form covers is a layout of the lexemes that spell the form. -/
theorem segment (h : LaidOut text forms) (hf : f ∈ forms) (hg : Tree.Within g f) :
    ∃ front inside back ls, text = front ++ (inside ++ back) ∧
      g.span = ⟨utf8Length front, utf8Length front + utf8Length inside⟩ ∧
      g.span.text text = inside ∧ Layout false (utf8Length front) inside ls ∧
      Spells DenotesAtom ls [g] := by
  obtain ⟨ls, hlayout, hspells⟩ := h
  obtain ⟨before, ms, after, rfl, hms⟩ := hspells.segment hf hg
  obtain ⟨l, ms, rfl, hfirst, hlast⟩ := hms.ends
  obtain ⟨front, inside, back, htext, hstart, hstop, hinside⟩ := hlayout.segment
  rw [Nat.zero_add] at hstart hstop hinside
  have hspan : g.span = ⟨utf8Length front, utf8Length front + utf8Length inside⟩ := by
    rw [← hstop, hlast 0, ← hstart, hfirst]
  refine ⟨front, inside, back, l :: ms, htext, hspan, ?_, hinside, hms⟩
  rw [htext, hspan, Span.text_append]

/-- Read alone, the part gives the form, with its places counted from the start of the part. -/
theorem slice (h : LaidOut text forms) (hf : f ∈ forms) (hg : Tree.Within g f) :
    LaidOut (g.span.text text) [Tree.lowered g.span.start g] := by
  obtain ⟨front, inside, back, ls, -, hspan, htext, hlayout, hspells⟩ := h.segment hf hg
  rw [htext, hspan]
  have hlowered := hlayout.lowered (Nat.le_refl _)
  rw [Nat.sub_self] at hlowered
  exact ⟨_, hlowered, hspells.lowered _⟩

/-- What a group consists of: its brackets at the ends, and its items between them in a row. -/
theorem group {b : Bracket} {items : List Form} {span : Span} (h : LaidOut text forms)
    (hf : f ∈ forms) (hg : Tree.Within (.group b items span) f) :
    (∃ inner, span.text text = b.opening :: (inner ++ [b.closing])) ∧
      (∀ k ∈ items, span.start + 1 ≤ k.span.start ∧ k.span.stop + 1 ≤ span.stop) ∧
      (items.map Tree.span).Pairwise fun s t => s.stop ≤ t.start := by
  obtain ⟨front, inside, back, ls, -, hspan, htext, hlayout, hspells⟩ := h.segment hf hg
  cases hspells with
  | @group _ opens closes inner _ _ _ hitems hnil =>
    cases hnil
    have hstart : opens.start = utf8Length front := congrArg Span.start hspan
    have hstop : closes.stop = utf8Length front + utf8Length inside := congrArg Span.stop hspan
    obtain ⟨hopens, hcloses, hinside⟩ := hlayout.brackets hstart hstop
    have hproper := hlayout.proper
    obtain ⟨hbetween, hinner, -, -⟩ := Lexeme.separate_between hlayout.separate
    have hle : ∀ l ∈ inner, l.span.start ≤ l.span.stop :=
      fun l hl => (hproper l (by simp [hl])).le
    refine ⟨hinside.imp fun _ heq => htext.trans heq, fun k hk => ?_,
      hitems.separate hle hinner hbetween⟩
    have hcontains := (hitems.contains hle hinner hbetween k hk).1
    have hfirst := hcontains.start
    have hlast := hcontains.stop
    simp only at hfirst hlast ⊢
    omega

theorem separate (h : LaidOut text forms) :
    (forms.map Tree.span).Pairwise fun s t => s.stop ≤ t.start := by
  obtain ⟨ls, hlayout, hspells⟩ := h
  have hwhole : ∀ l ∈ ls, (Span.mk 0 (utf8Length text)).Contains l.span := fun l hl =>
    ⟨Nat.zero_le _, (hlayout.cuts l hl).stop.le_utf8Length⟩
  exact hspells.separate (fun l hl => (hlayout.proper l hl).le) hlayout.separate hwhole

end LaidOut

namespace Script

variable {limit : Nat} {source : String} {script : Script}

/-- A form that is read has the part of the source that it covers: read alone, the part gives the
form and nothing else, with the places counted from its start. The forms of a script stand one after
the other, and so do the items of a group, between its brackets. -/
theorem read_slice (h : read limit source = .ok script) :
    (∀ f ∈ script.forms, ∀ g, Tree.Within g f →
      g.span.Within source ∧ g.span.start < g.span.stop ∧
      read limit (String.ofList (g.span.text source.toList)) =
        .ok ⟨[Tree.lowered g.span.start g], ⟨0, g.span.stop - g.span.start⟩⟩ ∧
      ∀ b items span, g = .group b items span →
        (∃ inner, span.text source.toList = b.opening :: (inner ++ [b.closing])) ∧
        (∀ k ∈ items, span.start + 1 ≤ k.span.start ∧ k.span.stop + 1 ≤ span.stop) ∧
        (items.map Tree.span).Pairwise fun s t => s.stop ≤ t.start) ∧
    ((script.forms.map Tree.span).Pairwise fun s t => s.stop ≤ t.start) ∧
    script.span = ⟨0, source.utf8ByteSize⟩ := by
  obtain ⟨hnesting, -, hlaid, hspan⟩ := readChars_eq_ok_iff.1 h
  refine ⟨fun f hf g hg => ?_, hlaid.separate, by rw [hspan, utf8Length_toList]⟩
  obtain ⟨front, inside, back, ls, -, hplace, htext, hlayout, hspells⟩ := hlaid.segment hf hg
  have hslice := hlaid.slice hf hg
  refine ⟨(read_within h).1 f hf g hg, ?_, ?_, ?_⟩
  · obtain ⟨l, ms, rfl, -, -⟩ := hspells.ends
    rw [hplace]
    exact Nat.lt_add_of_pos_right hlayout.utf8Length_pos
  · have hdepth : Tree.depthAll [Tree.lowered g.span.start g] ≤ limit := by
      have hforms := (hlaid.withinNesting_iff limit).1 hnesting
      have hle := hg.depth_le.trans (Tree.depth_le_of_mem hf)
      rw [Tree.depthAll, Tree.depthAll, Tree.depth_lowered]
      omega
    have hlength : utf8Length (g.span.text source.toList) = g.span.stop - g.span.start := by
      rw [htext, hplace, Nat.add_sub_cancel_left]
    rw [read, String.toList_ofList]
    refine readChars_eq_ok_iff.2 ⟨?_, List.cons_ne_nil _ _, hslice, by rw [hlength]⟩
    exact (hslice.withinNesting_iff limit).2 hdepth
  · rintro b items span rfl
    exact hlaid.group hf hg

/-- Lexemes with nothing between them, a character of two bytes, and a comment. -/
theorem read_slice_adjacent :
    ∃ script f, read 2 "\"é\"b[1\"x\"(- ;c\n2)]" = .ok script ∧ f ∈ script.forms ∧
      f.span = ⟨5, 19⟩ ∧
      read 2 "[1\"x\"(- ;c\n2)]" = .ok ⟨[Tree.lowered 5 f], ⟨0, 14⟩⟩ := by
  have hfacts : (read 2 "\"é\"b[1\"x\"(- ;c\n2)]").toOption.map (·.forms.map Tree.span) =
      some [⟨0, 4⟩, ⟨4, 5⟩, ⟨5, 19⟩] := by decide +kernel
  obtain ⟨script, hscript, hspans⟩ := Option.map_eq_some_iff.1 hfacts
  have hread := eq_ok_of_toOption hscript
  have hmem : (⟨5, 19⟩ : Span) ∈ script.forms.map Tree.span := by rw [hspans]; simp
  obtain ⟨f, hf, hspan⟩ := List.mem_map.1 hmem
  obtain ⟨-, -, hslice, -⟩ := (read_slice hread).1 f hf f .self
  have htext : String.ofList ((Span.mk 5 19).text "\"é\"b[1\"x\"(- ;c\n2)]".toList) =
      "[1\"x\"(- ;c\n2)]" := by decide +kernel
  rw [hspan, htext] at hslice
  exact ⟨script, f, hread, hf, hspan, hslice⟩

end Script

end Scriptlet
