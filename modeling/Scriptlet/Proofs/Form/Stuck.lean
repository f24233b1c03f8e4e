import Scriptlet.Proofs.Form.Unfinished

/-!
Where reading gets stuck and what is reported there. A lexeme that does not fit is refused where it
begins. Otherwise the lexemes are those of an unfinished text, and reading gets stuck behind them: at
what is left over, or else at the end. What is reported depends on whether more than white space is
left there, and on what the outline has open.
-/

namespace Scriptlet

section Blank

theorem utf8Length_reverse (cs : List Char) : utf8Length cs.reverse = utf8Length cs := by
  induction cs with
  | nil => rfl
  | cons c cs ih =>
    rw [List.reverse_cons, utf8Length_append, ih, utf8Length_cons, utf8Length_cons, utf8Length_nil]
    omega

theorem utf8Length_dropWhile_le (p : Char → Bool) (cs : List Char) :
    utf8Length (cs.dropWhile p) ≤ utf8Length cs := by
  obtain ⟨front, hfront⟩ := List.dropWhile_suffix (l := cs) p
  have hlength := congrArg utf8Length hfront
  rw [utf8Length_append] at hlength
  omega

/-- Without the white space at its end a text goes no further than an offset just where it has
nothing but white space from there on. -/
theorem Text.utf8Length_trimEnd_le_iff (front rest : List Char) :
    utf8Length (trimEnd (front ++ rest)) ≤ utf8Length front ↔ ∀ c ∈ rest, isBlank c = true := by
  have hblank : (∀ c ∈ rest, isBlank c = true) ↔ rest.reverse.dropWhile isBlank = [] := by
    simp [List.dropWhile_eq_nil_iff]
  rw [hblank, trimEnd, List.reverse_append, List.dropWhile_append, utf8Length_reverse]
  cases hdrop : rest.reverse.dropWhile isBlank with
  | nil =>
    have hle := utf8Length_dropWhile_le isBlank front.reverse
    rw [utf8Length_reverse] at hle
    simpa using hle
  | cons c cs =>
    have hpos := c.utf8Size_pos
    have hlength : utf8Length (c :: cs ++ front.reverse) = c.utf8Size + utf8Length cs +
        utf8Length front := by
      rw [utf8Length_append, utf8Length_reverse, utf8Length_cons]
    simp only [List.isEmpty_cons, Bool.false_eq_true, if_false, hlength, reduceCtorEq, iff_false]
    omega

theorem Text.utf8Length_trimEnd_le (text : List Char) :
    utf8Length (trimEnd text) ≤ utf8Length text := by
  have hle := (utf8Length_trimEnd_le_iff text []).2 (by simp)
  rwa [List.append_nil] at hle

theorem Text.isBlank_eq_false {c : Char} (hlow : 0x20 < c.toNat) (hhigh : c.toNat < 0x80) :
    isBlank c = false := by
  rw [← Bool.not_eq_true, isBlank, inRanges_eq_true_iff]
  rintro ⟨r, hr, hle, hge⟩
  simp only [blankRanges, List.mem_cons, List.not_mem_nil, or_false] at hr
  rcases hr with rfl | rfl | rfl | rfl | rfl | rfl | rfl | rfl | rfl | rfl <;>
    (simp only at hle hge; omega)

theorem Word.isPart_bounds {c : Char} (h : isPart c = true) :
    0x20 < c.toNat ∧ c.toNat < 0x80 := by
  have hsigns : "+-*/<>=!?_%&".toList.all (fun d => 0x20 < d.toNat ∧ d.toNat < 0x80) = true := by
    decide
  have hrange : ∀ {a b : Char}, a.val ≤ c.val → c.val ≤ b.val → 0x20 < a.toNat → b.toNat < 0x80 →
      0x20 < c.toNat ∧ c.toNat < 0x80 := fun ha hb hlow hhigh =>
    ⟨Nat.lt_of_lt_of_le hlow (UInt32.le_iff_toNat_le.1 ha),
      Nat.lt_of_le_of_lt (UInt32.le_iff_toNat_le.1 hb) hhigh⟩
  rcases Bool.or_eq_true_iff.1 h with h | hpoint
  · rcases Bool.or_eq_true_iff.1 h with hstart | hdigit
    · rcases Bool.or_eq_true_iff.1 hstart with hletter | hsign
      · rcases Bool.or_eq_true_iff.1 hletter with hupper | hlower
        · obtain ⟨hfirst, hlast⟩ := of_decide_eq_true hupper
          exact hrange hfirst hlast (by decide) (by decide)
        · obtain ⟨hfirst, hlast⟩ := Bool.and_eq_true_iff.1 hlower
          exact hrange (of_decide_eq_true hfirst) (of_decide_eq_true hlast) (by decide) (by decide)
      · exact of_decide_eq_true (List.all_eq_true.1 hsigns c (List.contains_iff_mem.1 hsign))
    · obtain ⟨hfirst, hlast⟩ := Bool.and_eq_true_iff.1 hdigit
      exact hrange (of_decide_eq_true hfirst) (of_decide_eq_true hlast) (by decide) (by decide)
  · cases eq_of_beq hpoint
    decide

/-- A lexeme does not begin with white space. -/
theorem LexemeKind.Written.exists_head {kind : LexemeKind} {text : List Char}
    (h : kind.Written text) : ∃ c cs, text = c :: cs ∧ Text.isBlank c = false := by
  cases h with
  | opening b => exact ⟨_, _, rfl, by cases b <;> decide⟩
  | closing b => exact ⟨_, _, rfl, by cases b <;> decide⟩
  | word hall =>
    obtain ⟨hlow, hhigh⟩ := Word.isPart_bounds (hall _ List.mem_cons_self)
    exact ⟨_, _, rfl, Text.isBlank_eq_false hlow hhigh⟩
  | quoted => exact ⟨_, _, rfl, by decide⟩

end Blank

section Reports

variable {s : Stuck} {front rest : List Char}

/-- Where more than white space is left, reading says what it found. -/
theorem Stuck.error_of_exists (hpos : s.pos = utf8Length front)
    (hrest : ∃ c ∈ rest, Text.isBlank c = false) :
    s.error (front ++ rest) = .new (.unexpected s.expected.text s.foundText) (.point s.pos) := by
  have hlt : s.pos < utf8Length (Text.trimEnd (front ++ rest)) := by
    rw [hpos, ← Nat.not_le, Text.utf8Length_trimEnd_le_iff]
    intro hblank
    obtain ⟨c, hc, hfalse⟩ := hrest
    rw [hblank c hc] at hfalse
    cases hfalse
  rw [Stuck.error, if_pos hlt]

/-- Where nothing is open, reading says what it found, wherever it got stuck. -/
theorem Stuck.error_of_unclosed? {text : List Char} (h : unclosed? text = none) :
    s.error text = .new (.unexpected s.expected.text s.foundText) (.point s.pos) := by
  rw [Stuck.error, h]
  split <;> rfl

/-- Where nothing but white space is left, a bracket is reported just where one is open. -/
theorem Stuck.error_eq_unclosed_iff {text : List Char} {bs : List Bracket}
    (hend : utf8Length (Text.trimEnd text) ≤ s.pos)
    (hopen : unclosed? text = bs.head?.map Bracket.opening) {d : Char} {span : Span} :
    s.error text = .new (.unclosed d) span ↔
      ∃ b bs', bs = b :: bs' ∧ d = b.opening ∧ span = .point s.pos := by
  rw [Stuck.error, if_neg (Nat.not_lt.2 hend), hopen]
  cases bs with
  | nil => simp [SyntaxError.new]
  | cons b bs => simp [SyntaxError.new, eq_comm]

/-- White space leaves no trace in the outline, even where it is no separator. -/
theorem outlineFrom_blank (h : ∀ c ∈ rest, Text.isBlank c = true) (pos : Nat) :
    outlineFrom .code pos rest = ([], .code) := by
  induction rest generalizing pos with
  | nil => rfl
  | cons c rest ih =>
    rw [outlineFrom_code_cons (h c List.mem_cons_self) (by decide)]
    exact ih (fun d hd => h d (List.mem_cons_of_mem c hd)) _

/-- A string that is not closed goes on to the end of the text. -/
theorem outlineFrom_unterminated (h : Unterminated rest) (pos : Nat) :
    ∃ s : Surrounding, outlineFrom .code pos ('"' :: rest) = ([], s) ∧ s.isText = true := by
  rw [outlineFrom_cons pos (fun _ => rfl)]
  change ∃ s, outlineFrom .text _ rest = _ ∧ _
  cases h with
  | escaped h => exact ⟨.text, outlineFrom_escaped h _, rfl⟩
  | backslash h =>
    refine ⟨.escape, ?_, rfl⟩
    rw [outlineFrom_append, outlineFrom_escaped h]
    rfl

/-- Nothing but white space begins with a stray character. -/
theorem Leftover.exists_stray (h : Leftover rest) (hne : rest ≠ [])
    (hblank : ∀ c ∈ rest, Text.isBlank c = true) : ∃ c cs, rest = c :: cs ∧ Stray c := by
  cases h with
  | nil => exact absurd rfl hne
  | comment => exact absurd (hblank ';' List.mem_cons_self) (by decide)
  | string => exact absurd (hblank '"' List.mem_cons_self) (by decide)
  | @stray c cs h => exact ⟨c, cs, rfl, h⟩

end Reports

namespace Unfinished

variable {b : Bracket} {bs : List Bracket} {depth : Nat} {ls : List Lexeme} {text : List Char}

theorem withinNesting_iff (h : Unfinished bs depth ls)
    (houtline : (outline text).1 = ls.filterMap Lexeme.delimiter?) (limit : Nat) :
    withinNesting limit text = .ok () ↔ depth ≤ limit := by
  rw [withinNesting_eq_ok_iff, houtline, ← List.append_nil (ls.filterMap _),
    h.firstTooDeep?_eq_none_iff]
  exact and_iff_left rfl

theorem unclosed?_eq (h : Unfinished bs depth ls) {s : Surrounding}
    (houtline : outline text = (ls.filterMap Lexeme.delimiter?, s)) (hs : s.isText = false) :
    unclosed? text = bs.head?.map Bracket.opening := by
  have hopen := h.openBrackets_eq [] []
  rw [List.append_nil, List.append_nil] at hopen
  simp only [unclosed?, houtline, hs, hopen, Bool.false_eq_true, if_false]
  rfl

end Unfinished

/-- What could have stood behind the lexemes, with the brackets still open. -/
def Expectation.behind (bs : List Bracket) (ls : List Lexeme) (pos : Nat) : Expectation :=
  match bs, ls with
  | _ :: _, _ => .form
  | [], _ :: _ => .formOrEnd
  | [], [] => if pos = 0 then .expression else .form

namespace Unfinished

variable {b : Bracket} {bs : List Bracket} {depth : Nat} {ls : List Lexeme}

/-- Reading takes the lexemes in. Where it gets stuck next, it expects what could stand behind them. -/
theorem exists_stuck (h : Unfinished bs depth ls) :
    ∃ a, ls.foldlM Arrangement.step .start = .ok a ∧ a.groups.map (·.bracket) = bs ∧
      ∀ pos found, a.stuck pos found = ⟨pos, .behind bs ls pos, found⟩ := by
  obtain ⟨⟨groups, finished⟩, hrun, rfl, hfinished⟩ := h.run
  refine ⟨_, hrun, rfl, fun pos found => ?_⟩
  cases groups with
  | cons => rfl
  | nil =>
    cases ls with
    | nil =>
      cases (hfinished rfl).2 rfl
      rfl
    | cons l ls =>
      cases finished with
      | nil => cases (hfinished rfl).1 rfl
      | cons => rfl

/-- Reading gets stuck at a stray character behind the lexemes. -/
theorem arrange_stray (h : Unfinished bs depth ls) (pos : Nat) (c : Char) (stop : Nat) :
    arrange (ls ++ [⟨.stray c, .point pos⟩]) stop = .error ⟨pos, .behind bs ls pos, some c⟩ := by
  obtain ⟨a, hrun, -, hstuck⟩ := h.exists_stuck
  rw [arrange, List.foldlM_append, hrun, ← hstuck pos (some c)]
  rfl

/-- With a bracket left open, reading gets stuck at the end of the text. -/
theorem arrange_end (h : Unfinished (b :: bs) depth ls) (stop : Nat) :
    arrange ls stop = .error ⟨stop, .form, none⟩ := by
  obtain ⟨⟨groups, finished⟩, hrun, hgroups, hstuck⟩ := h.exists_stuck
  rw [arrange, hrun]
  obtain ⟨g, groups, rfl, -, -⟩ := List.map_eq_cons_iff.1 hgroups
  rfl

end Unfinished

/-- A text that cannot be arranged into trees has one of its lexemes refused, or it is unfinished
and reading gets stuck behind the lexemes: at what is left over, or else at the end. -/
theorem Front.arrange_error {front rest : List Char} {ls : List Lexeme} {s : Stuck}
    (hfront : Front false 0 front ls) (hrest : Leftover rest)
    (h : arrange (Lexeme.scan 0 (front ++ rest)) (utf8Length (front ++ rest)) = .error s) :
    (∃ before c after, front = before ++ c :: after ∧ Text.isBlank c = false ∧
      s.pos = utf8Length before) ∨
    ∃ bs depth, Unfinished bs depth ls ∧
      (LastGap rest ∧ s.pos = utf8Length (front ++ rest) ∨
        rest ≠ [] ∧ s.pos = utf8Length front) := by
  rw [hfront.scan_append hrest.head, Nat.zero_add] at h
  cases hrun : ls.foldlM Arrangement.step .start with
  | error s' =>
    -- The lexeme that is refused stands in the front, and more than white space is left there.
    left
    rw [arrange, List.foldlM_append, hrun] at h
    cases h
    obtain ⟨l, hl, hpos⟩ := Arrangement.pos_of_run hrun
    obtain ⟨before, inside, after, rfl, hwritten, hspan⟩ := hfront.layout.covers l hl
    obtain ⟨c, cs, rfl, hc⟩ := hwritten.exists_head
    refine ⟨before, c, cs ++ after, rfl, hc, ?_⟩
    rw [hpos, hspan, Nat.zero_add]
  | ok a =>
    -- What has been taken in is all of the front, so what is open in the state is open in it.
    right
    have hstart : Arrangement.start.Holds [] := .top .nil
    have hholds := hstart.run hrun
    rw [List.nil_append] at hholds
    obtain ⟨depth, hunfinished⟩ := Unfinished.of_holds hholds
    refine ⟨_, depth, hunfinished, ?_⟩
    obtain ⟨hscan, hgap⟩ | ⟨c, cs, rfl, hscan⟩ := hrest.scan_eq (utf8Length front)
    · left
      rw [hscan, List.append_nil, arrange, hrun] at h
      change a.finish _ = _ at h
      rw [Arrangement.finish] at h
      split at h <;> cases h
      exact ⟨hgap, rfl⟩
    · right
      rw [hscan, hunfinished.arrange_stray] at h
      cases h
      exact ⟨List.cons_ne_nil _ _, rfl⟩

end Scriptlet
