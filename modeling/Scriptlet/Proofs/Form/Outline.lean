import Scriptlet.Form.Outline
import Scriptlet.Proofs.Form.Front
import Scriptlet.Proofs.Form.Spelling

/-!
The outline of a text that is laid out. It has the brackets of the lexemes and no others, so the
nesting that is checked before reading is the depth of the forms that are spelled.
-/

namespace Scriptlet

theorem outlineFrom_append (s : Surrounding) (pos : Nat) (cs ds : List Char) :
    outlineFrom s pos (cs ++ ds) =
      ((outlineFrom s pos cs).1 ++
          (outlineFrom (outlineFrom s pos cs).2 (pos + utf8Length cs) ds).1,
        (outlineFrom (outlineFrom s pos cs).2 (pos + utf8Length cs) ds).2) := by
  induction cs generalizing s pos with
  | nil => rfl
  | cons c cs ih =>
    rw [List.cons_append, outlineFrom, ih, outlineFrom, utf8Length_cons, Nat.add_assoc]
    cases s <;> cases Delimiter.ofChar? c pos <;> rfl

/-- Outside code no character is a bracket of the outline. -/
theorem outlineFrom_cons {s : Surrounding} (pos : Nat) {c : Char}
    (h : s = .code → Delimiter.ofChar? c pos = none) (cs : List Char) :
    outlineFrom s pos (c :: cs) = outlineFrom (s.next c) (pos + c.utf8Size) cs := by
  rw [outlineFrom]
  cases s with
  | code => rw [h rfl]
  | comment | text | escape => cases Delimiter.ofChar? c pos <;> rfl

/-- A character of code that is no bracket and opens neither a comment nor a string. -/
theorem outlineFrom_code_cons {P : Char → Bool} {c : Char} (hc : P c = true)
    (hP : [';', '"', '(', '[', ')', ']'].all (fun d => !P d) = true) (pos : Nat) (cs : List Char) :
    outlineFrom .code pos (c :: cs) = outlineFrom .code (pos + c.utf8Size) cs := by
  have hne : ∀ d ∈ [';', '"', '(', '[', ')', ']'], c ≠ d := by
    rintro d hd rfl
    have hnot := List.all_eq_true.1 hP c hd
    rw [hc] at hnot
    cases hnot
  simp only [List.mem_cons, List.not_mem_nil, or_false, forall_eq_or_imp, forall_eq] at hne
  have hbracket : Delimiter.ofChar? c pos = none := by simp [Delimiter.ofChar?, hne]
  have hnext : Surrounding.code.next c = .code := by simp [Surrounding.next, hne]
  rw [outlineFrom_cons pos (fun _ => hbracket), hnext]

theorem outlineFrom_line {line : List Char} (hline : '\n' ∉ line) (pos : Nat) :
    outlineFrom .comment pos line = ([], .comment) := by
  induction line generalizing pos with
  | nil => rfl
  | cons c line ih =>
    have hc : c ≠ '\n' := fun he => hline (he ▸ List.mem_cons_self)
    have hnext : Surrounding.comment.next c = .comment := if_neg hc
    rw [outlineFrom_cons pos (by simp), hnext]
    exact ih (fun hmem => hline (List.mem_cons_of_mem c hmem)) _

theorem outlineFrom_escaped {raw : List Char} (h : Escaped raw) (pos : Nat) :
    outlineFrom .text pos raw = ([], .text) := by
  induction h generalizing pos with
  | nil => rfl
  | @plain c raw hquote hslash _ ih =>
    have hnext : Surrounding.text.next c = .text := by
      rw [Surrounding.next, if_neg hslash, if_neg hquote]
    rw [outlineFrom_cons pos (by simp), hnext]
    exact ih _
  | pair _ ih =>
    rw [outlineFrom_cons pos (by simp), outlineFrom_cons _ (by simp [Surrounding.next])]
    exact ih _

theorem Gap.outlineFrom_eq {gap : List Char} (h : Gap gap) (pos : Nat) :
    outlineFrom .code pos gap = ([], .code) := by
  induction h generalizing pos with
  | nil => rfl
  | @separator c cs hc _ ih =>
    rw [outlineFrom_code_cons hc (by decide)]
    exact ih _
  | @comment line cs hline _ ih =>
    rw [outlineFrom_cons pos (fun _ => rfl)]
    change outlineFrom .comment _ (line ++ '\n' :: cs) = _
    rw [outlineFrom_append, outlineFrom_line hline, outlineFrom_cons _ (by simp)]
    change ([] ++ (outlineFrom .code _ cs).1, (outlineFrom .code _ cs).2) = _
    rw [ih]
    rfl

theorem LastGap.outlineFrom_eq {gap : List Char} (h : LastGap gap) (pos : Nat) :
    ∃ s, outlineFrom .code pos gap = ([], s) ∧ s.isText = false := by
  cases h with
  | gap h => exact ⟨.code, h.outlineFrom_eq pos, rfl⟩
  | @comment cs line h hline =>
    refine ⟨.comment, ?_, rfl⟩
    rw [outlineFrom_append, h.outlineFrom_eq, outlineFrom_cons _ (fun _ => rfl)]
    change ([] ++ (outlineFrom .comment _ line).1, (outlineFrom .comment _ line).2) = _
    rw [outlineFrom_line hline]
    rfl

/-- The bracket that a lexeme is. -/
def Lexeme.delimiter? (l : Lexeme) : Option Delimiter :=
  match l.kind with
  | .opening b => some (.opening b l.span.start)
  | .closing _ => some .closing
  | .word _ | .quoted _ | .stray _ => none

theorem outlineFrom_word {word : List Char} (h : ∀ c ∈ word, Word.isPart c = true) (pos : Nat) :
    outlineFrom .code pos word = ([], .code) := by
  induction word generalizing pos with
  | nil => rfl
  | cons c word ih =>
    rw [outlineFrom_code_cons (h c List.mem_cons_self) (by decide)]
    exact ih (fun d hd => h d (List.mem_cons_of_mem c hd)) _

theorem LexemeKind.Written.outlineFrom_eq {kind : LexemeKind} {text : List Char}
    (h : kind.Written text) (pos stop : Nat) :
    outlineFrom .code pos text =
      ((Lexeme.mk kind ⟨pos, stop⟩).delimiter?.toList, .code) := by
  cases h with
  | opening b => cases b <;> rfl
  | closing b => cases b <;> rfl
  | word hall => exact outlineFrom_word hall pos
  | @quoted raw hraw =>
    rw [outlineFrom_cons pos (fun _ => rfl)]
    change outlineFrom .text _ (raw ++ ['"']) = _
    rw [outlineFrom_append, outlineFrom_escaped hraw]
    rfl

/-- The outline of a front has the brackets of its lexemes, and code follows. -/
theorem Front.outlineFrom_eq {afterWord : Bool} {pos : Nat} {text : List Char} {ls : List Lexeme}
    (h : Front afterWord pos text ls) :
    outlineFrom .code pos text = (ls.filterMap Lexeme.delimiter?, .code) := by
  induction h with
  | last h => exact h.outlineFrom_eq _
  | @lexeme _ pos gap kind text rest ls hgap _ hkind _ ih =>
    rw [outlineFrom_append, hgap.outlineFrom_eq, outlineFrom_append,
      hkind.outlineFrom_eq _ (pos + utf8Length gap + utf8Length text), ih, List.filterMap_cons]
    cases Lexeme.delimiter? _ <;> rfl

/-- The outline of a layout has the brackets of its lexemes, and the text does not end in a
string. -/
theorem Layout.exists_outlineFrom_eq {afterWord : Bool} {pos : Nat} {text : List Char}
    {ls : List Lexeme} (h : Layout afterWord pos text ls) :
    ∃ s, outlineFrom .code pos text = (ls.filterMap Lexeme.delimiter?, s) ∧ s.isText = false := by
  obtain ⟨front, rest, rfl, hfront, hrest⟩ := h.exists_front
  obtain ⟨s, hs, htext⟩ := hrest.outlineFrom_eq (pos + utf8Length front)
  refine ⟨s, ?_, htext⟩
  rw [outlineFrom_append, hfront.outlineFrom_eq, hs, List.append_nil]

theorem Layout.outlineFrom_eq {afterWord : Bool} {pos : Nat} {text : List Char} {ls : List Lexeme}
    (h : Layout afterWord pos text ls) :
    (outlineFrom .code pos text).1 = ls.filterMap Lexeme.delimiter? := by
  obtain ⟨s, hs, -⟩ := h.exists_outlineFrom_eq
  rw [hs]

section Depth

variable {α : Type}

mutual

/-- The number of groups that are nested in each other. -/
def Tree.depth : Tree α → Nat
  | .leaf _ _ => 0
  | .group _ items _ => Tree.depthAll items + 1

def Tree.depthAll : List (Tree α) → Nat
  | [] => 0
  | t :: ts => max (Tree.depth t) (Tree.depthAll ts)

end

mutual

/-- Places have no part in the depth. -/
theorem Tree.depth_unplaced (t : Tree α) : Tree.depth (Tree.unplaced t) = Tree.depth t := by
  cases t with
  | leaf => rfl
  | group b items span =>
    rw [Tree.unplaced, Tree.depth, Tree.depth, Tree.depthAll_unplacedAll items]

theorem Tree.depthAll_unplacedAll (ts : List (Tree α)) :
    Tree.depthAll (Tree.unplacedAll ts) = Tree.depthAll ts := by
  cases ts with
  | nil => rfl
  | cons t ts =>
    rw [Tree.unplacedAll, Tree.depthAll, Tree.depthAll, Tree.depth_unplaced t,
      Tree.depthAll_unplacedAll ts]

end

mutual

/-- The places of the groups that stand inside so many groups, from left to right. -/
def Tree.groupsAt : Nat → Tree α → List Span
  | _, .leaf _ _ => []
  | 0, .group _ _ span => [span]
  | level + 1, .group _ items _ => Tree.groupsAtAll level items

def Tree.groupsAtAll (level : Nat) : List (Tree α) → List Span
  | [] => []
  | t :: ts => Tree.groupsAt level t ++ Tree.groupsAtAll level ts

end

mutual

theorem Tree.groupsAt_eq_nil_iff (level : Nat) (t : Tree α) :
    Tree.groupsAt level t = [] ↔ Tree.depth t ≤ level := by
  cases t with
  | leaf =>
    rw [Tree.groupsAt, Tree.depth]
    simp
  | group b items span =>
    cases level with
    | zero =>
      rw [Tree.groupsAt, Tree.depth]
      simp
    | succ level =>
      rw [Tree.groupsAt, Tree.depth, Tree.groupsAtAll_eq_nil_iff level items]
      omega

/-- There is such a group just where the trees are deep enough. -/
theorem Tree.groupsAtAll_eq_nil_iff (level : Nat) (ts : List (Tree α)) :
    Tree.groupsAtAll level ts = [] ↔ Tree.depthAll ts ≤ level := by
  cases ts with
  | nil =>
    rw [Tree.groupsAtAll, Tree.depthAll]
    simp
  | cons t ts =>
    rw [Tree.groupsAtAll, Tree.depthAll, List.append_eq_nil_iff, Tree.groupsAt_eq_nil_iff level t,
      Tree.groupsAtAll_eq_nil_iff level ts]
    omega

end

/-- The brackets of the lexemes that spell a group, and of those behind it. -/
theorem Lexeme.delimiters_group (b : Bracket) (opens closes : Span) (inner ls : List Lexeme)
    (rest : List Delimiter) :
    (Lexeme.mk (.opening b) opens :: (inner ++ ⟨.closing b, closes⟩ :: ls)).filterMap delimiter? ++
        rest =
      .opening b opens.start :: (inner.filterMap delimiter? ++
        (.closing :: (ls.filterMap delimiter? ++ rest))) := by
  simp [delimiter?]

/-- Among the brackets that spell trees, the first that opens a group too deep is the first bracket
of the first group at the level below the limit. They leave the depth as it was. -/
theorem Spells.firstTooDeep?_eq {leaf : LexemeKind → α → Prop} {ls : List Lexeme}
    {ts : List (Tree α)} (h : Spells leaf ls ts)
    (hleaf : ∀ kind a span, leaf kind a → Lexeme.delimiter? ⟨kind, span⟩ = none)
    {limit depth : Nat} (hdepth : depth ≤ limit) (rest : List Delimiter) :
    firstTooDeep? limit depth (ls.filterMap Lexeme.delimiter? ++ rest) =
      ((Tree.groupsAtAll (limit - depth) ts).head?.map (·.start)).or
        (firstTooDeep? limit depth rest) := by
  induction h generalizing depth rest with
  | nil => rfl
  | @leaf kind span a ls ts ha _ ih =>
    rw [List.filterMap_cons_none (hleaf kind a span ha), ih hdepth, Tree.groupsAtAll, Tree.groupsAt,
      List.nil_append]
  | @group b opens closes inner items ls ts _ _ ihitems ih =>
    rw [Lexeme.delimiters_group, firstTooDeep?, Tree.groupsAtAll]
    by_cases hdeep : limit < depth + 1
    · have hlevel : limit - depth = 0 := by omega
      rw [if_pos hdeep, hlevel, Tree.groupsAt]
      rfl
    · obtain ⟨level, hlevel⟩ : ∃ level, limit - depth = level + 1 := ⟨limit - depth - 1, by omega⟩
      have hinner : limit - (depth + 1) = level := by omega
      have hclose : firstTooDeep? limit (depth + 1)
          (.closing :: (ls.filterMap Lexeme.delimiter? ++ rest)) =
            firstTooDeep? limit depth (ls.filterMap Lexeme.delimiter? ++ rest) := rfl
      rw [if_neg hdeep, ihitems (by omega), hclose, ih hdepth, hinner, hlevel, Tree.groupsAt]
      cases Tree.groupsAtAll level items <;> rfl

/-- The brackets that spell trees pass where the trees are not too deep, and they leave the depth as
it was. -/
theorem Spells.firstTooDeep?_eq_none_iff {leaf : LexemeKind → α → Prop} {ls : List Lexeme}
    {ts : List (Tree α)} (h : Spells leaf ls ts)
    (hleaf : ∀ kind a span, leaf kind a → Lexeme.delimiter? ⟨kind, span⟩ = none)
    {limit depth : Nat} (hdepth : depth ≤ limit) (rest : List Delimiter) :
    firstTooDeep? limit depth (ls.filterMap Lexeme.delimiter? ++ rest) = none ↔
      depth + Tree.depthAll ts ≤ limit ∧ firstTooDeep? limit depth rest = none := by
  have hlevel : limit - depth ≥ Tree.depthAll ts ↔ depth + Tree.depthAll ts ≤ limit := by omega
  rw [h.firstTooDeep?_eq hleaf hdepth, Option.or_eq_none_iff, Option.map_eq_none_iff,
    List.head?_eq_none_iff, Tree.groupsAtAll_eq_nil_iff]
  exact and_congr_left' hlevel

theorem withinNesting_eq_ok_iff {limit : Nat} {text : List Char} :
    withinNesting limit text = .ok () ↔ firstTooDeep? limit 0 (outline text).1 = none := by
  rw [withinNesting]
  split
  · next hdeep => simp [hdeep]
  · next hnone => simp [hnone]

/-- A text passes the check of its nesting if the forms that it spells are not too deep. -/
theorem Layout.withinNesting_iff {leaf : LexemeKind → α → Prop} {text : List Char}
    {ls : List Lexeme} {ts : List (Tree α)} (h : Layout false 0 text ls)
    (hspells : Spells leaf ls ts)
    (hleaf : ∀ kind a span, leaf kind a → Lexeme.delimiter? ⟨kind, span⟩ = none) (limit : Nat) :
    withinNesting limit text = .ok () ↔ Tree.depthAll ts ≤ limit := by
  have hcheck := hspells.firstTooDeep?_eq_none_iff hleaf (Nat.zero_le limit) []
  have hnone : firstTooDeep? limit 0 [] = none := rfl
  rw [List.append_nil, ← h.outlineFrom_eq, Nat.zero_add, hnone] at hcheck
  rw [withinNesting_eq_ok_iff, outline, hcheck]
  exact and_iff_left rfl

end Depth

end Scriptlet
