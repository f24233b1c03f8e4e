import Scriptlet.Proofs.Form.Layout

/-!
The front of a text: its lexemes, up to where no more are found. What is left over is nothing, a
comment that the text cuts off, a string that is never closed, or a character that begins no lexeme.
Every text has a front, and it is a layout if nothing but a comment is left over.
-/

namespace Scriptlet

/-- The text holds the lexemes and ends outside of comments, so that more can follow. -/
inductive Front : Bool → Nat → List Char → List Lexeme → Prop where
  | last {afterWord pos gap} (h : Gap gap) : Front afterWord pos gap []
  | lexeme {afterWord pos gap kind text rest ls} (hgap : Gap gap)
      (hwords : afterWord = true → kind.isWord = true → gap ≠ []) (hkind : kind.Written text)
      (h : Front kind.isWord (pos + utf8Length gap + utf8Length text) rest ls) :
      Front afterWord pos (gap ++ (text ++ rest))
        (⟨kind, ⟨pos + utf8Length gap, pos + utf8Length gap + utf8Length text⟩⟩ :: ls)

/-- No quote in the text ends a string: every backslash takes the next character with it, and no
other character is a quote. The last backslash may have nothing to take. -/
inductive Unterminated : List Char → Prop where
  | escaped {cs} (h : Escaped cs) : Unterminated cs
  | backslash {cs} (h : Escaped cs) : Unterminated (cs ++ ['\\'])

/-- The character is no separator, and neither a comment nor a lexeme begins with it. -/
structure Stray (c : Char) : Prop where
  separator : Lexeme.isSeparator c = false
  semicolon : c ≠ ';'
  quote : c ≠ '"'
  bracket : Lexeme.bracket? c = none
  part : Word.isPart c = false

/-- What a text may have left where no more lexemes are found. -/
inductive Leftover : List Char → Prop where
  | nil : Leftover []
  | comment {line} (h : '\n' ∉ line) : Leftover (';' :: line)
  | string {cs} (h : Unterminated cs) : Leftover ('"' :: cs)
  | stray {c cs} (h : Stray c) : Leftover (c :: cs)

theorem Unterminated.pair {c : Char} {cs : List Char} (h : Unterminated cs) :
    Unterminated ('\\' :: c :: cs) := by
  cases h with
  | escaped h => exact .escaped (.pair h)
  | backslash h => exact .backslash (.pair h)

theorem Unterminated.plain {c : Char} {cs : List Char} (hquote : c ≠ '"') (hslash : c ≠ '\\')
    (h : Unterminated cs) : Unterminated (c :: cs) := by
  cases h with
  | escaped h => exact .escaped (.plain hquote hslash h)
  | backslash h => exact .backslash (.plain hquote hslash h)

/-- A string is not closed just where all its quotes are escaped. -/
theorem Lexeme.splitQuoted_eq_none_iff {cs : List Char} :
    splitQuoted cs = none ↔ Unterminated cs := by
  constructor
  · intro h
    fun_induction splitQuoted cs with
    | case1 => exact .escaped .nil
    | case2 => cases h
    | case3 c cs ih => exact (ih (Option.map_eq_none_iff.1 h)).pair
    | case4 => exact .backslash .nil
    | case5 c cs hquote hpair hlast ih =>
      refine (ih (Option.map_eq_none_iff.1 h)).plain hquote ?_
      rintro rfl
      cases cs with
      | nil => exact hlast rfl rfl
      | cons d ds => exact hpair d ds rfl rfl
  · intro h
    cases h with
    | escaped h =>
      have hnil := splitQuoted_escaped h []
      rwa [List.append_nil, splitQuoted, Option.map_none] at hnil
    | backslash h => rw [splitQuoted_escaped h, splitQuoted, Option.map_none]

theorem Stray.scan_eq {c : Char} (h : Stray c) (pos : Nat) (cs : List Char) :
    Lexeme.scan pos (c :: cs) = [⟨.stray c, .point pos⟩] :=
  Lexeme.scan_stray pos h.separator h.semicolon h.quote h.bracket h.part cs

namespace Leftover

variable {rest : List Char}

/-- What is left over does not go on with a word. -/
theorem head (h : Leftover rest) : ∀ c ∈ rest.head?, Word.isPart c = false := by
  cases h with
  | nil => simp
  | comment | string =>
    rintro c ⟨⟩
    decide
  | stray h =>
    rintro c ⟨⟩
    exact h.part

/-- Where something is left over, scanning finds nothing or a stray character. -/
theorem scan_eq (h : Leftover rest) (pos : Nat) :
    (Lexeme.scan pos rest = [] ∧ LastGap rest) ∨
      ∃ c cs, rest = c :: cs ∧ Lexeme.scan pos rest = [⟨.stray c, .point pos⟩] := by
  cases h with
  | nil => exact .inl ⟨Lexeme.scan_lastGap pos (.gap .nil), .gap .nil⟩
  | @comment line h =>
    have hgap : LastGap ([] ++ ';' :: line) := .comment .nil h
    exact .inl ⟨Lexeme.scan_lastGap pos hgap, hgap⟩
  | @string cs h =>
    refine .inr ⟨_, cs, rfl, ?_⟩
    rw [Lexeme.scan_quote, Lexeme.splitQuoted_eq_none_iff.2 h]
  | @stray c cs h => exact .inr ⟨c, cs, rfl, h.scan_eq pos cs⟩

end Leftover

section Existence

/-- The end of the line ends the comment that a text cuts off. -/
theorem LastGap.line {gap : List Char} (h : LastGap gap) : Gap (gap ++ ['\n']) := by
  cases h with
  | gap h => exact h.append (.separator (by decide) .nil)
  | comment h hline =>
    rw [List.append_assoc]
    exact h.append (.comment hline .nil)

/-- All separators and comments at the front of a text are a gap. -/
theorem Gap.exists_front (text : List Char) :
    ∃ gap rest, text = gap ++ rest ∧ Gap gap ∧
      (∀ c ∈ rest.head?, Lexeme.isSeparator c = false) ∧
      ∀ line, rest = ';' :: line → '\n' ∉ line := by
  induction hn : text.length using Nat.strongRecOn generalizing text with
  | _ n ih =>
    subst hn
    match text with
    | [] => exact ⟨[], [], rfl, .nil, by simp, by simp⟩
    | c :: cs =>
      by_cases hseparator : Lexeme.isSeparator c = true
      · obtain ⟨gap, rest, rfl, hgap, hrest⟩ := ih cs.length (Nat.lt_succ_self _) cs rfl
        exact ⟨c :: gap, rest, rfl, .separator hseparator hgap, hrest⟩
      by_cases hsemicolon : c = ';'
      · subst hsemicolon
        obtain ⟨hcs, hline, hhead⟩ := Lexeme.splitComment_eq cs
        generalize (Lexeme.splitComment cs).1 = line at hcs hline
        generalize (Lexeme.splitComment cs).2 = after at hcs hhead
        subst hcs
        cases after with
        | nil =>
          refine ⟨[], _, rfl, .nil, by rintro c ⟨⟩; decide, ?_⟩
          rintro _ ⟨⟩
          rwa [List.append_nil]
        | cons d after =>
          cases hhead d rfl
          have hlt : after.length < (';' :: (line ++ '\n' :: after)).length := by
            simp only [List.length_append, List.length_cons]
            omega
          obtain ⟨gap, rest, rfl, hgap, hrest⟩ := ih after.length hlt after rfl
          exact ⟨';' :: (line ++ '\n' :: gap), rest, by simp, .comment hline hgap, hrest⟩
      · refine ⟨[], c :: cs, rfl, .nil, ?_, ?_⟩
        · rintro d ⟨⟩
          simpa using hseparator
        · rintro line ⟨⟩
          exact absurd rfl hsemicolon

/-- A character outside of gaps begins a lexeme, or nothing more is found there. -/
theorem LexemeKind.exists_written {c : Char} (cs : List Char)
    (hseparator : Lexeme.isSeparator c = false) (hsemicolon : c ≠ ';') :
    Leftover (c :: cs) ∨ ∃ kind text rest, c :: cs = text ++ rest ∧ Written kind text ∧
      (kind.isWord = true → ∀ d ∈ rest.head?, Word.isPart d = false) := by
  by_cases hquote : c = '"'
  · subst hquote
    cases hsplit : Lexeme.splitQuoted cs with
    | none => exact .inl (.string (Lexeme.splitQuoted_eq_none_iff.1 hsplit))
    | some p =>
      right
      have hcs : p.1 ++ '"' :: p.2 = cs := Lexeme.append_of_splitQuoted hsplit
      refine ⟨_, _, p.2, ?_, .quoted (Lexeme.escaped_of_splitQuoted hsplit), by rintro ⟨⟩⟩
      simp [← hcs]
  cases hbracket : Lexeme.bracket? c with
  | some kind =>
    obtain ⟨hwritten, hword, -⟩ := Layout.written_of_bracket? hbracket
    refine .inr ⟨kind, [c], cs, rfl, hwritten, ?_⟩
    rw [hword]
    rintro ⟨⟩
  | none =>
    by_cases hpart : Word.isPart c = true
    · right
      obtain ⟨hcs, hword, hhead⟩ := Lexeme.splitWord_eq cs
      refine ⟨_, c :: (Lexeme.splitWord cs).1, (Lexeme.splitWord cs).2, ?_, .word ?_,
        fun _ => hhead⟩
      · rw [List.cons_append, hcs]
      · intro d hd
        rcases List.mem_cons.1 hd with rfl | hd
        · exact hpart
        · exact hword d hd
    · exact .inl (.stray ⟨hseparator, hsemicolon, hquote, hbracket, by simpa using hpart⟩)

/-- Every text has a front. The induction is on the length of the text, since every lexeme takes
characters off it. -/
theorem Front.exists_leftover (text : List Char) (afterWord : Bool) (pos : Nat)
    (hhead : afterWord = true → ∀ c ∈ text.head?, Word.isPart c = false) :
    ∃ front rest ls, text = front ++ rest ∧ Front afterWord pos front ls ∧ Leftover rest := by
  induction hn : text.length using Nat.strongRecOn generalizing text afterWord pos with
  | _ n ih =>
    subst hn
    obtain ⟨gap, rest, rfl, hgap, hseparator, hcomment⟩ := Gap.exists_front text
    match rest with
    | [] => exact ⟨gap, [], [], rfl, .last hgap, .nil⟩
    | c :: cs =>
      by_cases hsemicolon : c = ';'
      · subst hsemicolon
        exact ⟨gap, _, [], rfl, .last hgap, .comment (hcomment cs rfl)⟩
      obtain hleft | ⟨kind, text, after, htext, hkind, hafter⟩ :=
        LexemeKind.exists_written cs (hseparator c rfl) hsemicolon
      · exact ⟨gap, _, [], rfl, .last hgap, hleft⟩
      · rw [htext] at ih hhead ⊢
        have hlt : after.length < (gap ++ (text ++ after)).length := by
          have hpos : 0 < text.length := by
            refine List.length_pos_iff.2 ?_
            rintro rfl
            exact absurd hkind.utf8Length_pos (Nat.lt_irrefl 0)
          simp only [List.length_append]
          omega
        obtain ⟨front, rest, ls, rfl, hfront, hrest⟩ := ih _ hlt after kind.isWord
          (pos + utf8Length gap + utf8Length text) hafter rfl
        refine ⟨gap ++ (text ++ front), rest, _, by simp, .lexeme hgap ?_ hkind hfront, hrest⟩
        rintro rfl hword rfl
        cases hkind with
        | word hall =>
          have hpart := hhead rfl _ rfl
          rw [hall _ List.mem_cons_self] at hpart
          cases hpart
        | opening | closing | quoted => cases hword

end Existence

namespace Front

variable {afterWord : Bool} {pos : Nat} {text rest : List Char} {ls ms : List Lexeme}

/-- Behind a front any layout can follow that does not go on with a word. -/
theorem append (h : Front afterWord pos text ls)
    (hrest : Layout true (pos + utf8Length text) rest ms) :
    Layout afterWord pos (text ++ rest) (ls ++ ms) := by
  induction h with
  | @last afterWord pos gap h =>
    by_cases hgap : gap = []
    · subst hgap
      exact hrest.after_any afterWord
    · exact .gap_append h hgap hrest
  | @lexeme _ pos gap kind text front ls hgap hwords hkind _ ih =>
    rw [utf8Length_append, utf8Length_append, ← Nat.add_assoc, ← Nat.add_assoc] at hrest
    rw [List.append_assoc, List.append_assoc]
    exact .lexeme hgap hwords hkind (ih hrest)

theorem layout (h : Front afterWord pos text ls) : Layout afterWord pos text ls := by
  have hlayout := h.append (.last (.gap .nil))
  rwa [List.append_nil, List.append_nil] at hlayout

/-- Scanning finds the lexemes of a front and goes on behind it. -/
theorem scan_append (h : Front afterWord pos text ls)
    (hrest : ∀ c ∈ rest.head?, Word.isPart c = false) :
    Lexeme.scan pos (text ++ rest) = ls ++ Lexeme.scan (pos + utf8Length text) rest := by
  induction h with
  | last h => exact Lexeme.scan_gap _ h rest
  | @lexeme _ pos gap kind text front ls hgap _ hkind h ih =>
    have hhead : kind.isWord = true → ∀ c ∈ (front ++ rest).head?, Word.isPart c = false := by
      intro hword
      cases front with
      | nil => exact hrest
      | cons d front =>
        rw [hword] at h
        exact h.layout.head_not_part
    rw [List.append_assoc, List.append_assoc, Lexeme.scan_gap _ hgap,
      Lexeme.scan_written _ hkind _ hhead, ih]
    simp only [utf8Length_append, Nat.add_assoc, List.cons_append]

/-- With nothing but a comment left over, there are no lexemes but those of the front. -/
theorem append_leftover (h : Front afterWord pos text ls) (hrest : LastGap rest) :
    Layout afterWord pos (text ++ rest) ls := by
  have hlayout := h.append (.last hrest)
  rwa [List.append_nil] at hlayout

end Front

namespace Layout

variable {afterWord : Bool} {pos : Nat} {text : List Char} {ls : List Lexeme}

/-- A text in which scanning meets nothing that is no lexeme is a layout of what is found. -/
theorem of_scan (hstray : ∀ l ∈ Lexeme.scan pos text, ∀ c, l.kind ≠ .stray c) :
    Layout false pos text (Lexeme.scan pos text) := by
  obtain ⟨front, rest, ls, rfl, hfront, hrest⟩ :=
    Front.exists_leftover text false pos (by rintro ⟨⟩)
  rw [hfront.scan_append hrest.head] at hstray ⊢
  obtain ⟨hscan, hgap⟩ | ⟨c, cs, -, hscan⟩ := hrest.scan_eq (pos + utf8Length front)
  · rw [hscan, List.append_nil]
    exact hfront.append_leftover hgap
  · rw [hscan] at hstray
    exact absurd rfl (hstray _ (List.mem_append_right _ List.mem_cons_self) c)

/-- Scanning finds the lexemes of which a text is a layout, and in any other text it meets a stray
character. -/
theorem iff_scan_eq :
    Layout false pos text ls ↔
      Lexeme.scan pos text = ls ∧ ∀ l ∈ ls, ∀ c, l.kind ≠ .stray c := by
  constructor
  · intro h
    exact ⟨h.scan_eq, h.not_stray⟩
  · rintro ⟨rfl, hstray⟩
    exact of_scan hstray

/-- A layout is a front with nothing but a comment left over. -/
theorem exists_front (h : Layout afterWord pos text ls) :
    ∃ front rest, text = front ++ rest ∧ Front afterWord pos front ls ∧ LastGap rest := by
  obtain ⟨front, rest, ms, rfl, hfront, hrest⟩ := Front.exists_leftover text afterWord pos <| by
    rintro rfl
    exact h.head_not_part
  have hscan := h.scan_eq
  rw [hfront.scan_append hrest.head] at hscan
  obtain ⟨hnil, hgap⟩ | ⟨c, cs, -, hstray⟩ := hrest.scan_eq (pos + utf8Length front)
  · rw [hnil, List.append_nil] at hscan
    subst hscan
    exact ⟨front, rest, rfl, hfront, hgap⟩
  · rw [hstray] at hscan
    have hmem : (⟨.stray c, .point (pos + utf8Length front)⟩ : Lexeme) ∈ ls := by simp [← hscan]
    exact absurd rfl (h.not_stray _ hmem c)

/-- On a new line any layout can follow. -/
theorem append_line {rest : List Char} {ms : List Lexeme} (h : Layout afterWord pos text ls)
    (hrest : Layout true (pos + utf8Length text + 1) rest ms) :
    Layout afterWord pos (text ++ '\n' :: rest) (ls ++ ms) := by
  induction h with
  | @last afterWord pos gap h =>
    have hline : Gap (gap ++ ['\n']) := h.line
    have hlength : pos + utf8Length (gap ++ ['\n']) = pos + utf8Length gap + 1 := by
      rw [utf8Length_append, ← Nat.add_assoc]
      rfl
    rw [← hlength] at hrest
    have hlayout : Layout afterWord pos _ ms := .gap_append hline (by simp) hrest
    rwa [List.append_assoc] at hlayout
  | @lexeme _ pos gap kind text rest ls hgap hwords hkind _ ih =>
    rw [utf8Length_append, utf8Length_append, ← Nat.add_assoc, ← Nat.add_assoc] at hrest
    rw [List.append_assoc, List.append_assoc]
    exact .lexeme hgap hwords hkind (ih hrest)

end Layout

end Scriptlet
