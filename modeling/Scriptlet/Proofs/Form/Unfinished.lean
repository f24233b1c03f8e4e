import Scriptlet.Proofs.Form.Descent
import Scriptlet.Proofs.Form.Reading

/-!
Texts that break off between two lexemes. Their lexemes spell trees, except that some opening
brackets are never closed. Reading takes all of them in, the outline of the text has the brackets
that are left open, and with the closing brackets behind it the grammar accepts the text.
-/

namespace Scriptlet

open LexemeKind (Legible)

namespace LexemeKind

/-- The lexeme is a complete form: a word that means something, even if it is a number out of range,
or a quoted text, whatever its escapes. -/
inductive Complete : LexemeKind → Spelling → Prop where
  | word {text r} (h : Word.Means text r) : Complete (.word text) (.word text)
  | quoted {raw} : Complete (.quoted raw) (.quoted raw)

/-- The complete forms are the lexemes that reading keeps as they are written. -/
theorem complete_eq_legible : Complete = Legible := by
  funext kind s
  apply propext
  constructor
  · rintro (⟨h⟩ | _)
    · exact .word (by rw [Word.meaning?_eq_some_iff.2 h]; rfl)
    · exact .quoted
  · rintro (h | _)
    · obtain ⟨r, hr⟩ := Option.isSome_iff_exists.1 h
      exact .word (Word.meaning?_eq_some_iff.1 hr)
    · exact .quoted

theorem Complete.delimiter?_eq_none (kind : LexemeKind) (s : Spelling) (span : Span)
    (h : Complete kind s) : Lexeme.delimiter? ⟨kind, span⟩ = none := by
  cases h <;> rfl

end LexemeKind

/-- The lexemes spell trees, except that the given brackets among them are opened and never closed.
The innermost comes first. The number is the depth to which all groups nest, the open ones too. -/
inductive Unfinished : List Bracket → Nat → List Lexeme → Prop where
  | top {ls trees} (h : Spells LexemeKind.Complete ls trees) :
      Unfinished [] (Tree.depthAll trees) ls
  | inside {bs depth ls b opens inner items} (h : Unfinished bs depth ls)
      (hitems : Spells LexemeKind.Complete inner items) :
      Unfinished (b :: bs) (max depth (bs.length + 1 + Tree.depthAll items))
        (ls ++ ⟨.opening b, opens⟩ :: inner)

section Outline

variable {α : Type} {leaf : LexemeKind → α → Prop} {ls : List Lexeme} {ts : List (Tree α)}

/-- The brackets that spell trees leave the open ones as they were. -/
theorem Spells.openBrackets_eq (h : Spells leaf ls ts)
    (hleaf : ∀ kind a span, leaf kind a → Lexeme.delimiter? ⟨kind, span⟩ = none)
    (stack : List Bracket) (rest : List Delimiter) :
    openBrackets stack (ls.filterMap Lexeme.delimiter? ++ rest) = openBrackets stack rest := by
  induction h generalizing stack rest with
  | nil => rfl
  | @leaf kind span a ls ts ha _ ih =>
    rw [List.filterMap_cons_none (hleaf kind a span ha)]
    exact ih stack rest
  | @group b opens closes inner items ls ts _ _ ihitems ih =>
    rw [Lexeme.delimiters_group, openBrackets, ihitems]
    exact ih stack rest

end Outline

namespace Unfinished

variable {bs : List Bracket} {depth : Nat} {ls : List Lexeme}

theorem delimiters_inside (ls inner : List Lexeme) (b : Bracket) (opens : Span)
    (rest : List Delimiter) :
    (ls ++ ⟨.opening b, opens⟩ :: inner).filterMap Lexeme.delimiter? ++ rest =
      ls.filterMap Lexeme.delimiter? ++
        .opening b opens.start :: (inner.filterMap Lexeme.delimiter? ++ rest) := by
  simp [Lexeme.delimiter?]

theorem openBrackets_eq (h : Unfinished bs depth ls) (stack : List Bracket)
    (rest : List Delimiter) :
    openBrackets stack (ls.filterMap Lexeme.delimiter? ++ rest) =
      openBrackets (bs ++ stack) rest := by
  induction h generalizing rest with
  | top h => exact h.openBrackets_eq LexemeKind.Complete.delimiter?_eq_none stack rest
  | @inside bs depth ls b opens inner items _ hitems ih =>
    rw [delimiters_inside, ih, openBrackets,
      hitems.openBrackets_eq LexemeKind.Complete.delimiter?_eq_none]
    rfl

/-- The brackets pass the check of the nesting where they nest within the limit, and leave so many
groups open. -/
theorem firstTooDeep?_eq_none_iff (h : Unfinished bs depth ls) {limit : Nat}
    (rest : List Delimiter) :
    firstTooDeep? limit 0 (ls.filterMap Lexeme.delimiter? ++ rest) = none ↔
      depth ≤ limit ∧ firstTooDeep? limit bs.length rest = none := by
  induction h generalizing rest with
  | top h =>
    rw [h.firstTooDeep?_eq_none_iff LexemeKind.Complete.delimiter?_eq_none (Nat.zero_le limit),
      Nat.zero_add]
    rfl
  | @inside bs depth ls b opens inner items _ hitems ih =>
    rw [delimiters_inside, ih, firstTooDeep?, List.length_cons]
    by_cases hdeep : limit < bs.length + 1
    · rw [if_pos hdeep]
      simp only [reduceCtorEq, and_false, false_iff]
      omega
    · rw [if_neg hdeep, hitems.firstTooDeep?_eq_none_iff LexemeKind.Complete.delimiter?_eq_none
        (by omega), ← and_assoc]
      refine and_congr_left' ?_
      omega

/-- What a state of reading has taken in spells trees but for the open groups of the state. -/
theorem of_holds {a : Arrangement} (h : a.Holds ls) :
    ∃ depth, Unfinished (a.groups.map (·.bracket)) depth ls := by
  induction h with
  | top h =>
    rw [← LexemeKind.complete_eq_legible] at h
    exact ⟨_, .top h⟩
  | inside _ _ hitems ih =>
    rw [← LexemeKind.complete_eq_legible] at hitems
    obtain ⟨depth, hdepth⟩ := ih
    exact ⟨_, .inside hdepth hitems⟩

/-- Reading takes all the lexemes in, and the brackets are those of its open groups. With none of
them open, there is a tree at the top as soon as there is a lexeme. -/
theorem run (h : Unfinished bs depth ls) :
    ∃ a, ls.foldlM Arrangement.step .start = .ok a ∧ a.groups.map (·.bracket) = bs ∧
      (bs = [] → (a.finished = [] ↔ ls = [])) := by
  induction h with
  | @top ls trees h =>
    rw [LexemeKind.complete_eq_legible] at h
    have hrun := h.run .start []
    rw [List.append_nil, Arrangement.start, Arrangement.foldl_add_top, List.append_nil] at hrun
    refine ⟨_, hrun, rfl, fun _ => ?_⟩
    rw [List.reverse_eq_nil_iff]
    constructor
    · rintro rfl
      exact h.nil_of_eq_nil
    · rintro rfl
      exact h.eq_nil_of_nil
  | @inside bs depth ls b opens inner items _ hitems ih =>
    rw [LexemeKind.complete_eq_legible] at hitems
    obtain ⟨a, hrun, hgroups, -⟩ := ih
    have hinner := hitems.run ⟨⟨b, opens.start, []⟩ :: a.groups, a.finished⟩ []
    rw [List.append_nil, Arrangement.foldl_add_group] at hinner
    refine ⟨⟨⟨b, opens.start, items.reverse ++ []⟩ :: a.groups, a.finished⟩, ?_, ?_, by rintro ⟨⟩⟩
    · rw [List.foldlM_append, hrun]
      exact hinner
    · rw [List.map_cons, hgroups]

end Unfinished

section Closing

/-- The brackets that close the given ones, as lexemes from an offset on. -/
def Lexeme.closings (pos : Nat) : List Bracket → List Lexeme
  | [] => []
  | b :: bs => ⟨.closing b, ⟨pos, pos + 1⟩⟩ :: closings (pos + 1) bs

theorem Layout.closings (afterWord : Bool) (pos : Nat) (bs : List Bracket) :
    Layout afterWord pos (bs.map Bracket.closing) (Lexeme.closings pos bs) := by
  induction bs generalizing afterWord pos with
  | nil => exact .last (.gap .nil)
  | cons b bs ih =>
    have hsize : utf8Length [b.closing] = 1 := by cases b <;> rfl
    have hrest := ih false (pos + utf8Length [] + utf8Length [b.closing])
    have hlayout : Layout afterWord pos _ _ := .lexeme .nil (by rintro - ⟨⟩) (.closing b) hrest
    rwa [hsize] at hlayout

theorem Arrangement.groups_add (a : Arrangement) (t : Tree Spelling) :
    (a.add t).groups.map (·.bracket) = a.groups.map (·.bracket) := by
  obtain ⟨groups, finished⟩ := a
  cases groups <;> rfl

/-- The closing brackets end all groups that are open. -/
theorem Arrangement.run_closings {bs : List Bracket} {a : Arrangement} (pos : Nat)
    (hgroups : a.groups.map (·.bracket) = bs) (hne : bs = [] → a.finished ≠ []) :
    ∃ finished, (Lexeme.closings pos bs).foldlM step a = .ok ⟨[], finished⟩ ∧ finished ≠ [] := by
  induction bs generalizing a pos with
  | nil =>
    obtain ⟨groups, finished⟩ := a
    cases List.map_eq_nil_iff.1 hgroups
    exact ⟨finished, rfl, hne rfl⟩
  | cons b bs ih =>
    obtain ⟨groups, finished⟩ := a
    obtain ⟨g, groups, rfl, rfl, hrest⟩ := List.map_eq_cons_iff.1 hgroups
    have hstep : step ⟨g :: groups, finished⟩ ⟨.closing g.bracket, ⟨pos, pos + 1⟩⟩ =
        .ok (add ⟨groups, finished⟩ (.group g.bracket g.items.reverse ⟨g.start, pos + 1⟩)) := by
      simp [step]
    rw [Lexeme.closings, List.foldlM_cons, hstep]
    refine ih (pos + 1) ((groups_add _ _).trans hrest) ?_
    rintro rfl
    cases List.map_eq_nil_iff.1 hrest
    exact List.cons_ne_nil _ _

/-- The grammar takes all of the text. -/
def Grammar.Accepts (text : List Char) : Prop :=
  Descent.Reaches (Descent.start text) (.ended (some []) [])

theorem Grammar.accepts_iff {text : List Char} :
    Accepts text ↔ ∃ trees, Spells Legible (Lexeme.scan 0 text) trees ∧ trees ≠ [] := by
  rw [Accepts, Descent.reaches_end_iff]
  exact exists_congr fun trees => arrange_eq_ok_iff

/-- With the closing brackets on a new line, the grammar accepts a text in which brackets are left
open. -/
theorem Unfinished.accepts_closed {b : Bracket} {bs : List Bracket} {depth : Nat}
    {text : List Char} {ls : List Lexeme} (h : Unfinished (b :: bs) depth ls)
    (hlayout : Layout false 0 text ls) :
    Grammar.Accepts (text ++ '\n' :: (b :: bs).map Bracket.closing) := by
  obtain ⟨a, hrun, hgroups, -⟩ := h.run
  obtain ⟨finished, hclosings, hne⟩ :=
    Arrangement.run_closings (0 + utf8Length text + 1) hgroups (by rintro ⟨⟩)
  have hscan := (hlayout.append_line (.closings true _ (b :: bs))).scan_eq
  rw [Grammar.Accepts, Descent.reaches_end_iff, hscan]
  refine ⟨finished.reverse, ?_⟩
  rw [arrange, List.foldlM_append, hrun]
  change (do
    let a ← (Lexeme.closings (0 + utf8Length text + 1) (b :: bs)).foldlM Arrangement.step a
    a.finish _) = _
  rw [hclosings]
  change Arrangement.finish ⟨[], finished⟩ _ = _
  simp [Arrangement.finish, hne]

end Closing

end Scriptlet
