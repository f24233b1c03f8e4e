import Scriptlet.Proofs.Form.Stuck

/-!
Texts that are refused for a delimiter that is not closed. They break off with a bracket open: at
their end, or before white space that begins with a character that is no separator. The closing
brackets complete a text of the first kind, and nothing completes one of the second kind. A string
that is not closed is reported as a quote that should not stand there.
-/

namespace Scriptlet

/-- The text breaks off at an offset, with a bracket open there that is the innermost one. The text
ends there, or what is left is white space that begins with a character that is no separator. -/
inductive BreaksOff : List Char → Bracket → Nat → Prop where
  | ending {text ls b bs depth} (hlayout : Layout false 0 text ls)
      (h : Unfinished (b :: bs) depth ls) : BreaksOff text b (utf8Length text)
  | blank {front c rest ls b bs depth} (hfront : Front false 0 front ls)
      (h : Unfinished (b :: bs) depth ls) (hstray : Stray c)
      (hblank : ∀ d ∈ c :: rest, Text.isBlank d = true) :
      BreaksOff (front ++ c :: rest) b (utf8Length front)

section Open

variable {front rest : List Char} {ls : List Lexeme} {bs : List Bracket} {depth : Nat}

theorem Layout.unclosed?_eq (hlayout : Layout false 0 front ls) (h : Unfinished bs depth ls) :
    unclosed? front = bs.head?.map Bracket.opening := by
  obtain ⟨s, houtline, htext⟩ := hlayout.exists_outlineFrom_eq
  exact h.unclosed?_eq houtline htext

/-- White space leaves what is open in front of it open. -/
theorem Front.unclosed?_eq (hfront : Front false 0 front ls) (h : Unfinished bs depth ls)
    (hrest : ∀ c ∈ rest, Text.isBlank c = true) :
    unclosed? (front ++ rest) = bs.head?.map Bracket.opening := by
  refine h.unclosed?_eq (s := .code) ?_ rfl
  rw [outline, outlineFrom_append, hfront.outlineFrom_eq, outlineFrom_blank hrest, List.append_nil]

theorem Spelling.atom_ne_unclosed (s : Spelling) (d : Char) : s.atom ≠ .error (.unclosed d) := by
  cases s with
  | word text =>
    rw [Spelling.atom]
    split <;> simp
  | quoted raw =>
    rw [Spelling.atom]
    split <;> simp

end Open

/-- Nothing that goes on with a stray character is a script. -/
theorem Front.not_accepts {front rest : List Char} {ls : List Lexeme} {c : Char}
    (hfront : Front false 0 front ls) (hstray : Stray c) :
    ¬ Grammar.Accepts (front ++ c :: rest) := by
  intro h
  obtain ⟨trees, hspells, -⟩ := Grammar.accepts_iff.1 h
  have hlegible := hspells.not_stray fun _ _ d hkind => hkind.ne_stray d
  rw [hfront.scan_append (Leftover.stray hstray).head, hstray.scan_eq] at hlegible
  exact hlegible _ (List.mem_append_right _ List.mem_cons_self) c rfl

/-- The text up to the place where it breaks off can be completed, and all of it just where nothing
is left behind that place. -/
theorem BreaksOff.exists_front {text : List Char} {b : Bracket} {pos : Nat}
    (h : BreaksOff text b pos) :
    ∃ front rest, text = front ++ rest ∧ pos = utf8Length front ∧
      (∀ c ∈ rest, Text.isBlank c = true) ∧ (∀ c ∈ rest.head?, Stray c) ∧
      (∃ more, Grammar.Accepts (front ++ more)) ∧
      ((∃ more, Grammar.Accepts (text ++ more)) ↔ rest = []) := by
  cases h with
  | ending hlayout h =>
    have hcloses := h.accepts_closed hlayout
    exact ⟨text, [], (List.append_nil text).symm, rfl, by simp, by simp, ⟨_, hcloses⟩,
      iff_of_true ⟨_, hcloses⟩ rfl⟩
  | @blank front c rest ls _ bs depth hfront h hstray hblank =>
    refine ⟨front, c :: rest, rfl, rfl, hblank, ?_, ⟨_, h.accepts_closed hfront.layout⟩,
      iff_of_false ?_ (List.cons_ne_nil c rest)⟩
    · rintro d ⟨⟩
      exact hstray
    · rintro ⟨more, hmore⟩
      rw [List.append_assoc] at hmore
      exact hfront.not_accepts hstray hmore

/-- An open bracket and a word of one character behind it are the front of an unfinished text. -/
theorem Unfinished.exists_front_word (b : Bracket) {c : Char} {r : Except String Atom}
    (h : Word.Means [c] r) (hpart : Word.isPart c = true) :
    ∃ ls, Front false 0 [b.opening, c] ls ∧ Unfinished [b] 1 ls := by
  have hword : (LexemeKind.word [c]).Written [c] := .word (by simpa using hpart)
  have hfront : Front false 0 [b.opening, c] _ :=
    .lexeme .nil (by rintro ⟨⟩) (.opening b) (.lexeme .nil (by rintro ⟨⟩) hword (.last .nil))
  exact ⟨_, hfront, .inside (.top .nil) (.leaf (.word h) .nil)⟩

namespace Script

variable {limit depth : Nat} {text front rest : List Char} {ls : List Lexeme} {bs : List Bracket}

/-- Behind the lexemes of an unfinished text, reading gets stuck at a character that begins no
lexeme. -/
theorem readChars_stuck {c : Char} (hfront : Front false 0 front ls) (h : Unfinished bs depth ls)
    (hleft : Leftover (c :: rest))
    (hscan : Lexeme.scan (utf8Length front) (c :: rest) = [⟨.stray c, .point (utf8Length front)⟩])
    (hnesting : withinNesting limit (front ++ c :: rest) = .ok ()) :
    readChars limit (front ++ c :: rest) = .error
      (Stuck.error ⟨utf8Length front, .behind bs ls (utf8Length front), some c⟩
        (front ++ c :: rest)) := by
  refine readChars_of_stuck hnesting ?_
  rw [hfront.scan_append hleft.head, Nat.zero_add, hscan, h.arrange_stray]

theorem readChars_of_breaksOff {b : Bracket} {pos : Nat} (h : BreaksOff text b pos)
    (hnesting : withinNesting limit text = .ok ()) :
    readChars limit text = .error (.new (.unclosed b.opening) (.point pos)) := by
  cases h with
  | @ending _ ls _ bs depth hlayout h =>
    have harrange := h.arrange_end (utf8Length text)
    rw [← hlayout.scan_eq] at harrange
    rw [readChars_of_stuck hnesting harrange]
    exact congrArg _ ((Stuck.error_eq_unclosed_iff (Text.utf8Length_trimEnd_le text)
      (hlayout.unclosed?_eq h)).2 ⟨b, bs, rfl, rfl, rfl⟩)
  | @blank front c rest ls _ bs depth hfront h hstray hblank =>
    rw [readChars_stuck hfront h (.stray hstray) (hstray.scan_eq _ rest) hnesting]
    exact congrArg _ ((Stuck.error_eq_unclosed_iff
      ((Text.utf8Length_trimEnd_le_iff front _).2 hblank)
      (hfront.unclosed?_eq h hblank)).2 ⟨b, bs, rfl, rfl, rfl⟩)

/-- Where reading gets stuck and reports a delimiter that is not closed, the text breaks off. -/
theorem breaksOff_of_stuck {s : Stuck} {d : Char} {span : Span}
    (harrange : arrange (Lexeme.scan 0 text) (utf8Length text) = .error s)
    (herror : s.error text = .new (.unclosed d) span) :
    ∃ b, BreaksOff text b s.pos ∧ d = b.opening ∧ span = .point s.pos := by
  obtain ⟨front, rest, ls, rfl, hfront, hrest⟩ :=
    Front.exists_leftover text false 0 (by rintro ⟨⟩)
  obtain ⟨before, c, after, rfl, hc, hpos⟩ | ⟨bs, depth, h, hends⟩ :=
    hfront.arrange_error hrest harrange
  · rw [List.append_assoc, List.cons_append,
      s.error_of_exists hpos ⟨c, List.mem_cons_self, hc⟩] at herror
    cases herror
  obtain ⟨hgap, hpos⟩ | ⟨hne, hpos⟩ := hends
  · have hlayout := hfront.append_leftover hgap
    obtain ⟨b, bs, rfl, rfl, rfl⟩ := (s.error_eq_unclosed_iff
      (hpos ▸ Text.utf8Length_trimEnd_le _) (hlayout.unclosed?_eq h)).1 herror
    rw [hpos]
    exact ⟨b, .ending hlayout h, rfl, rfl⟩
  · by_cases hblank : ∀ c ∈ rest, Text.isBlank c = true
    · obtain ⟨b, bs, rfl, rfl, rfl⟩ := (s.error_eq_unclosed_iff
        (hpos ▸ (Text.utf8Length_trimEnd_le_iff front rest).2 hblank)
        (hfront.unclosed?_eq h hblank)).1 herror
      obtain ⟨c, cs, rfl, hstray⟩ := hrest.exists_stray hne hblank
      rw [hpos]
      exact ⟨b, .blank hfront h hstray hblank, rfl, rfl⟩
    · have hfound : ∃ c ∈ rest, Text.isBlank c = false := by simpa using hblank
      rw [s.error_of_exists hpos hfound] at herror
      cases herror

/-- Reading reports a delimiter that is not closed just where a text breaks off with a bracket
open. -/
theorem readChars_eq_unclosed_iff {d : Char} {span : Span} :
    readChars limit text = .error (.new (.unclosed d) span) ↔
      withinNesting limit text = .ok () ∧
        ∃ b pos, BreaksOff text b pos ∧ d = b.opening ∧ span = .point pos := by
  constructor
  · intro h
    obtain ⟨pos, hread⟩ | ⟨s, hnesting, harrange, hread⟩ | ⟨trees, -, -, hspells, hread⟩ :=
      readChars_cases limit text
    · rw [hread] at h
      cases h
    · rw [hread] at h
      obtain ⟨b, hbreaks, hd, hspan⟩ := breaksOff_of_stuck harrange (Except.error.inj h)
      exact ⟨hnesting, b, s.pos, hbreaks, hd, hspan⟩
    · rw [hread] at h
      obtain ⟨_, s, _, fault, -, -, hs, he⟩ :=
        hspells.exists_of_decode_error (except_map_eq_error_iff.1 h)
      cases he
      exact absurd hs (s.atom_ne_unclosed d)
  · rintro ⟨hnesting, b, pos, hbreaks, rfl, rfl⟩
    exact readChars_of_breaksOff hbreaks hnesting

/-- A text of separators, comments and complete forms in which brackets are left open is refused at
its end for the innermost of them. -/
theorem read_unfinished {limit depth : Nat} {source : String} {ls : List Lexeme} {b : Bracket}
    {bs : List Bracket} (hlayout : Layout false 0 source.toList ls)
    (h : Unfinished (b :: bs) depth ls) (hdepth : depth ≤ limit) :
    read limit source = .error (.new (.unclosed b.opening) (.point source.utf8ByteSize)) := by
  obtain ⟨s, houtline, -⟩ := hlayout.exists_outlineFrom_eq
  have hnesting := (h.withinNesting_iff (congrArg Prod.fst houtline) limit).2 hdepth
  rw [← utf8Length_toList]
  exact readChars_of_breaksOff (.ending hlayout h) hnesting

/-- Two brackets are open behind a string with a bracket in it and a list, and the text ends with a
comma and a comment. -/
theorem read_unfinished_comment :
    read 2 "(\"[\" ()[,;)" = .error (.new (.unclosed '[') (.point 11)) := by
  have hquoted : (LexemeKind.quoted ['[']).Written ['"', '[', '"'] :=
    .quoted (.plain (by decide) (by decide) .nil)
  have hlast : LastGap ([','] ++ ';' :: [')']) :=
    .comment (.separator (by decide) .nil) (by decide)
  have hlist : Layout false 4 (' ' :: '(' :: ')' :: '[' :: ',' :: ';' :: [')'])
      [⟨.opening .round, ⟨5, 6⟩⟩, ⟨.closing .round, ⟨6, 7⟩⟩, ⟨.opening .square, ⟨7, 8⟩⟩] :=
    .lexeme (.separator (c := ' ') (by decide) .nil) (by simp) (.opening .round)
      (.at_front (.closing .round) (.at_front (.opening .square) (.last hlast)))
  have hlayout : Layout false 0 "(\"[\" ()[,;)".toList
      ([⟨.opening .round, ⟨0, 1⟩⟩, ⟨.quoted ['['], ⟨1, 4⟩⟩, ⟨.opening .round, ⟨5, 6⟩⟩,
        ⟨.closing .round, ⟨6, 7⟩⟩] ++ [⟨.opening .square, ⟨7, 8⟩⟩]) :=
    .at_front (.opening .round) (.at_front hquoted hlist)
  have hlistOpen : Unfinished [.round] 2
      ([] ++ ⟨.opening .round, ⟨0, 1⟩⟩ :: [⟨.quoted ['['], ⟨1, 4⟩⟩, ⟨.opening .round, ⟨5, 6⟩⟩,
        ⟨.closing .round, ⟨6, 7⟩⟩]) :=
    .inside (.top .nil) (.leaf .quoted (.group .nil .nil))
  exact read_unfinished hlayout (.inside hlistOpen .nil) (Nat.le_refl 2)

/-- Reading gets stuck at the first quote of a string that is not closed, though the outline finds
the string open. -/
theorem readChars_unterminated {tail : List Char} (hfront : Front false 0 front ls)
    (h : Unfinished bs depth ls) (hdepth : depth ≤ limit) (htail : Unterminated tail) :
    unclosed? (front ++ '"' :: tail) = some '"' ∧
      readChars limit (front ++ '"' :: tail) = .error (.new
        (.unexpected (Expectation.behind bs ls (utf8Length front)).text "'\"'")
        (.point (utf8Length front))) := by
  obtain ⟨s, hstring, htext⟩ := outlineFrom_unterminated htail (0 + utf8Length front)
  have houtline : outline (front ++ '"' :: tail) = (ls.filterMap Lexeme.delimiter?, s) := by
    rw [outline, outlineFrom_append, hfront.outlineFrom_eq, hstring, List.append_nil]
  have hnesting := (h.withinNesting_iff (congrArg Prod.fst houtline) limit).2 hdepth
  have hscan : Lexeme.scan (utf8Length front) ('"' :: tail) =
      [⟨.stray '"', .point (utf8Length front)⟩] := by
    rw [Lexeme.scan_quote, Lexeme.splitQuoted_eq_none_iff.2 htail]
  constructor
  · simp only [unclosed?, houtline, htext, if_true]
  · rw [readChars_stuck hfront h (.string htail) hscan hnesting,
      Stuck.error_of_exists rfl ⟨'"', List.mem_cons_self, by decide⟩]
    rfl

/-- A string that is not closed, behind separators, comments, complete forms and open brackets, is
refused for its first quote, which is reported as a character that should not stand there. The
outline finds the string open, but it is not asked, since more than white space is left at the quote.
No text at all is refused for a quote that is not closed. -/
theorem read_unterminated (limit : Nat) (source : String) :
    (∀ front tail ls bs depth, source.toList = front ++ '"' :: tail → Front false 0 front ls →
      Unfinished bs depth ls → depth ≤ limit → Unterminated tail →
        unclosed? source.toList = some '"' ∧
        read limit source = .error (.new
          (.unexpected (Expectation.behind bs ls (utf8Length front)).text "'\"'")
          (.point (utf8Length front)))) ∧
    ∀ span, read limit source ≠ .error (.new (.unclosed '"') span) := by
  refine ⟨?_, ?_⟩
  · intro front tail ls bs depth hsource hfront hunfinished hdepth htail
    rw [read, hsource]
    exact readChars_unterminated hfront hunfinished hdepth htail
  · intro span h
    obtain ⟨-, b, pos, -, hquote, -⟩ := readChars_eq_unclosed_iff.1 h
    cases b <;> exact absurd hquote (by decide)

/-- The string stands in an open vector, behind an integer. All its quotes but the first are
escaped. -/
theorem read_unterminated_escaped :
    read 1 "[7\"\\\"" =
        .error (.new (.unexpected "expression, literal or symbol" "'\"'") (.point 2)) ∧
      unclosed? "[7\"\\\"".toList = some '"' := by
  have hmeans : Word.Means ['7'] (.ok (.int 7)) := Word.meaning?_eq_some_iff.1 (by rfl)
  obtain ⟨ls, hfront, h⟩ := Unfinished.exists_front_word .square hmeans (by decide)
  obtain ⟨hopen, hread⟩ := (read_unterminated 1 "[7\"\\\"").1 _ ['\\', '"'] ls _ _ rfl hfront h
    (Nat.le_refl 1) (.escaped (.pair .nil))
  exact ⟨hread, hopen⟩

/-- A string that is not closed, and nothing else. -/
theorem read_unterminated_alone :
    Unterminated ['a', 'b', 'c'] ∧ unclosed? "\"abc".toList = some '"' ∧
      read defaultNesting "\"abc" = .error (.new (.unexpected "expression" "'\"'") (.point 0)) := by
  have htail : Unterminated ['a', 'b', 'c'] :=
    .escaped (.plain (by decide) (by decide) (.plain (by decide) (by decide)
      (.plain (by decide) (by decide) .nil)))
  exact ⟨htail, readChars_unterminated (.last .nil) (.top .nil) (Nat.zero_le _) htail⟩

/-- With no bracket open, a stray character behind the lexemes is refused as unexpected, or a lexeme
before it is. -/
theorem readChars_unexpected {c : Char} (hfront : Front false 0 front ls) (hstray : Stray c)
    (hclosed : ¬ ∃ b bs depth, Unfinished (b :: bs) depth ls)
    (hnesting : withinNesting limit (front ++ c :: rest) = .ok ()) :
    ∃ expected found pos, readChars limit (front ++ c :: rest) =
      .error (.new (.unexpected expected found) (.point pos)) := by
  cases harrange : arrange (Lexeme.scan 0 (front ++ c :: rest))
      (utf8Length (front ++ c :: rest)) with
  | ok trees =>
    exact absurd (Grammar.accepts_iff.2 ⟨trees, arrange_eq_ok_iff.1 harrange⟩)
      (hfront.not_accepts hstray)
  | error s =>
    refine ⟨s.expected.text, s.foundText, s.pos, ?_⟩
    rw [readChars_of_stuck hnesting harrange]
    obtain ⟨before, d, after, rfl, hd, hpos⟩ | ⟨bs, depth, h, hends⟩ :=
      hfront.arrange_error (.stray hstray) harrange
    · rw [List.append_assoc, List.cons_append,
        s.error_of_exists hpos ⟨d, List.mem_cons_self, hd⟩]
    cases bs with
    | cons b bs => exact absurd ⟨b, bs, depth, h⟩ hclosed
    | nil =>
      obtain ⟨hgap, -⟩ | ⟨-, hpos⟩ := hends
      · rw [s.error_of_unclosed? ((hfront.append_leftover hgap).unclosed?_eq h)]
      · by_cases hfound : ∃ d ∈ c :: rest, Text.isBlank d = false
        · rw [s.error_of_exists hpos hfound]
        · have hblank : ∀ d ∈ c :: rest, Text.isBlank d = true := by simpa using hfound
          rw [s.error_of_unclosed? (hfront.unclosed?_eq h hblank)]

/-- A stray character behind the lexemes is refused as unexpected, unless only white space is left
there and a bracket is open. -/
theorem readChars_stray {c : Char} (hfront : Front false 0 front ls) (hstray : Stray c)
    (hnesting : withinNesting limit (front ++ c :: rest) = .ok ()) :
    (∃ expected found pos, readChars limit (front ++ c :: rest) =
        .error (.new (.unexpected expected found) (.point pos))) ↔
      (∃ d ∈ c :: rest, Text.isBlank d = false) ∨
        ¬ ∃ b bs depth, Unfinished (b :: bs) depth ls := by
  by_cases hopen : ∃ b bs depth, Unfinished (b :: bs) depth ls
  · obtain ⟨b, bs, depth, h⟩ := id hopen
    by_cases hfound : ∃ d ∈ c :: rest, Text.isBlank d = false
    · rw [readChars_stuck hfront h (.stray hstray) (hstray.scan_eq _ rest) hnesting,
        Stuck.error_of_exists rfl hfound]
      exact iff_of_true ⟨_, _, _, rfl⟩ (.inl hfound)
    · have hblank : ∀ d ∈ c :: rest, Text.isBlank d = true := by simpa using hfound
      rw [readChars_of_breaksOff (.blank hfront h hstray hblank) hnesting]
      refine iff_of_false ?_ (not_or.2 ⟨hfound, not_not.2 hopen⟩)
      rintro ⟨_, _, _, hread⟩
      cases hread
  · exact iff_of_true (readChars_unexpected hfront hstray hopen hnesting) (.inr hopen)

/-- A text that is refused for a delimiter that is not closed is, up to the reported place, a text
that can be completed. All of it can be completed just where nothing is left behind that place. What
is left is white space that begins with a stray character. A stray character behind the lexemes is
refused as unexpected, unless only white space is left there and a bracket is open. -/
theorem read_unclosed (limit : Nat) (source : String) :
    (∀ d span, read limit source = .error (.new (.unclosed d) span) →
      ∃ front rest, source.toList = front ++ rest ∧ span = .point (utf8Length front) ∧
        (∀ c ∈ rest, Text.isBlank c = true) ∧ (∀ c ∈ rest.head?, Stray c) ∧
        (∃ more, Grammar.Accepts (front ++ more)) ∧
        ((∃ more, Grammar.Accepts (source.toList ++ more)) ↔ rest = [])) ∧
    ∀ front c rest ls, source.toList = front ++ c :: rest → Front false 0 front ls → Stray c →
      withinNesting limit source.toList = .ok () →
        ((∃ expected found pos,
            read limit source = .error (.new (.unexpected expected found) (.point pos))) ↔
          (∃ d ∈ c :: rest, Text.isBlank d = false) ∨
            ¬ ∃ b bs depth, Unfinished (b :: bs) depth ls) := by
  refine ⟨?_, ?_⟩
  · intro d span h
    obtain ⟨-, b, pos, hbreaks, -, rfl⟩ := readChars_eq_unclosed_iff.1 h
    obtain ⟨front, rest, hsource, rfl, hcompletes⟩ := hbreaks.exists_front
    exact ⟨front, rest, hsource, rfl, hcompletes⟩
  · intro front c rest ls hsource hfront hstray hnesting
    rw [hsource] at hnesting
    rw [read, hsource]
    exact readChars_stray hfront hstray hnesting

/-- A line tabulation is white space and no separator. -/
theorem tabulation_stray : Stray '\x0b' :=
  ⟨by decide, by decide, by decide, by decide, by decide⟩

/-- Behind an open list a line tabulation passes for the end of the text. With the closing bracket
behind it, it is refused. -/
theorem read_unclosed_tabulation :
    (∃ front rest, "(a\x0b".toList = front ++ rest ∧ Span.point 2 = .point (utf8Length front) ∧
      (∃ more, Grammar.Accepts (front ++ more)) ∧
      ((∃ more, Grammar.Accepts ("(a\x0b".toList ++ more)) ↔ rest = [])) ∧
    ∃ expected found pos,
      read 1 "(a\x0b)" = .error (.new (.unexpected expected found) (.point pos)) := by
  have hmeans : Word.Means ['a'] (.ok (.symbol "a")) := Word.meaning?_eq_some_iff.1 (by rfl)
  obtain ⟨ls, hfront, h⟩ := Unfinished.exists_front_word .round hmeans (by decide)
  have htabulation : ∀ c ∈ ['\x0b'], Text.isBlank c = true := List.all_eq_true.1 (by decide)
  constructor
  · have hread : read 1 "(a\x0b" = .error (.new (.unclosed '(') (.point 2)) :=
      readChars_of_breaksOff (.blank hfront h tabulation_stray htabulation) (by rfl)
    obtain ⟨front, rest, hsource, hspan, -, -, hcompletes⟩ :=
      (read_unclosed 1 "(a\x0b").1 '(' _ hread
    exact ⟨front, rest, hsource, hspan, hcompletes⟩
  · exact ((read_unclosed 1 "(a\x0b)").2 _ '\x0b' [')'] ls rfl hfront tabulation_stray (by rfl)).2
      (.inl ⟨')', by simp, by decide⟩)

/-- What is refused here for its open list is no script, whatever follows. -/
theorem read_unclosed_incurable :
    read defaultNesting "(a\x0b" = .error (.new (.unclosed '(') (.point 2)) ∧
      ∀ more, ¬ Grammar.Accepts ("(a\x0b".toList ++ more) := by
  have hmeans : Word.Means ['a'] (.ok (.symbol "a")) := Word.meaning?_eq_some_iff.1 (by rfl)
  obtain ⟨ls, hfront, h⟩ := Unfinished.exists_front_word .round hmeans (by decide)
  have htabulation : ∀ c ∈ ['\x0b'], Text.isBlank c = true := List.all_eq_true.1 (by decide)
  constructor
  · exact readChars_of_breaksOff (.blank hfront h tabulation_stray htabulation) (by rfl)
  · intro more
    exact hfront.not_accepts tabulation_stray

end Script

end Scriptlet
