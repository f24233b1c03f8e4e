import Mathlib.Data.List.TakeWhile
import Scriptlet.Form.Lexeme

/-!
How lexemes are laid out in a text. Between them stand gaps, which are made of separators and
comments, and a gap may be empty unless it stands between two words. Scanning finds the lexemes of
which a text is a layout.
-/

namespace Scriptlet

/-- Separators and comments. A comment runs to the end of its line. -/
inductive Gap : List Char → Prop where
  | nil : Gap []
  | separator {c cs} (hc : Lexeme.isSeparator c = true) (h : Gap cs) : Gap (c :: cs)
  | comment {line cs} (hline : '\n' ∉ line) (h : Gap cs) : Gap (';' :: (line ++ '\n' :: cs))

/-- A gap that may end with a comment that the text cuts off. -/
inductive LastGap : List Char → Prop where
  | gap {cs} (h : Gap cs) : LastGap cs
  | comment {cs line} (h : Gap cs) (hline : '\n' ∉ line) : LastGap (cs ++ ';' :: line)

/-- What may stand between quotes: every backslash takes the next character with it, and no other
character is a quote. -/
inductive Escaped : List Char → Prop where
  | nil : Escaped []
  | plain {c cs} (hquote : c ≠ '"') (hslash : c ≠ '\\') (h : Escaped cs) : Escaped (c :: cs)
  | pair {c cs} (h : Escaped cs) : Escaped ('\\' :: c :: cs)

namespace LexemeKind

/-- Words are the lexemes that can run into each other. -/
def isWord : LexemeKind → Bool
  | word _ => true
  | _ => false

/-- The text of a lexeme. A stray character has none. -/
inductive Written : LexemeKind → List Char → Prop where
  | opening (b) : Written (.opening b) [b.opening]
  | closing (b) : Written (.closing b) [b.closing]
  | word {c cs} (h : ∀ d ∈ c :: cs, Word.isPart d = true) : Written (.word (c :: cs)) (c :: cs)
  | quoted {raw} (h : Escaped raw) : Written (.quoted raw) ('"' :: (raw ++ ['"']))

end LexemeKind

/-- A lexeme is not empty. -/
theorem LexemeKind.Written.utf8Length_pos {kind : LexemeKind} {text : List Char}
    (h : kind.Written text) : 0 < utf8Length text := by
  cases h with
  | opening | closing | word | quoted => exact Nat.add_pos_left (Char.utf8Size_pos _) _

/-- The text at an offset holds the lexemes. If it follows a word and begins with a word, there is a
gap in front. -/
inductive Layout : Bool → Nat → List Char → List Lexeme → Prop where
  | last {afterWord pos gap} (h : LastGap gap) : Layout afterWord pos gap []
  | lexeme {afterWord pos gap kind text rest ls} (hgap : Gap gap)
      (hwords : afterWord = true → kind.isWord = true → gap ≠ []) (hkind : kind.Written text)
      (h : Layout kind.isWord (pos + utf8Length gap + utf8Length text) rest ls) :
      Layout afterWord pos (gap ++ (text ++ rest))
        (⟨kind, ⟨pos + utf8Length gap, pos + utf8Length gap + utf8Length text⟩⟩ :: ls)

namespace Gap

theorem append {cs ds : List Char} (h : Gap cs) (h' : Gap ds) : Gap (cs ++ ds) := by
  induction h with
  | nil => exact h'
  | separator hc _ ih => exact .separator hc ih
  | comment hline _ ih =>
    rw [List.cons_append, List.append_assoc]
    exact .comment hline ih

theorem append_last {cs ds : List Char} (h : Gap cs) (h' : LastGap ds) : LastGap (cs ++ ds) := by
  cases h' with
  | gap h' => exact .gap (h.append h')
  | comment h' hline =>
    rw [← List.append_assoc]
    exact .comment (h.append h') hline

end Gap

namespace Lexeme

theorem not_isPart_of_isSeparator {c : Char} (h : isSeparator c = true) :
    Word.isPart c = false := by
  have hmem : c ∈ [' ', '\t', '\r', '\n', ','] := List.contains_iff_mem.1 h
  simp only [List.mem_cons, List.not_mem_nil, or_false] at hmem
  rcases hmem with rfl | rfl | rfl | rfl | rfl <;> decide

theorem not_isSeparator_of_isPart {c : Char} (h : Word.isPart c = true) :
    isSeparator c = false := by
  by_cases hc : isSeparator c = true
  · rw [not_isPart_of_isSeparator hc] at h
    cases h
  · simpa using hc

/-- Brackets, quotes and semicolons are no part of a word. -/
theorem ne_of_isPart {c : Char} (h : Word.isPart c = true) {d : Char}
    (hd : Word.isPart d = false) : c ≠ d := by
  rintro rfl
  rw [hd] at h
  cases h

theorem bracket?_of_isPart {c : Char} (h : Word.isPart c = true) : bracket? c = none := by
  have hne : ∀ d ∈ ['(', '[', ')', ']'], c ≠ d := by
    intro d hd
    simp only [List.mem_cons, List.not_mem_nil, or_false] at hd
    apply ne_of_isPart h
    rcases hd with rfl | rfl | rfl | rfl <;> decide
  simp [bracket?, hne]

/-- Splitting goes on behind what may stand between quotes. -/
theorem splitQuoted_escaped {raw : List Char} (h : Escaped raw) (rest : List Char) :
    splitQuoted (raw ++ rest) = (splitQuoted rest).map fun p => (raw ++ p.1, p.2) := by
  induction h with
  | nil => simp
  | pair h ih =>
    rw [List.cons_append, List.cons_append, splitQuoted, ih, Option.map_map]
    rfl
  | @plain c cs hquote hslash h ih =>
    rw [List.cons_append, splitQuoted, ih, Option.map_map]
    · rfl
    · exact hquote
    · intro d ds hc _
      exact hslash hc
    · intro hc _
      exact hslash hc

theorem splitQuoted_append {raw : List Char} (h : Escaped raw) (rest : List Char) :
    splitQuoted (raw ++ '"' :: rest) = some (raw, rest) := by
  rw [splitQuoted_escaped h, splitQuoted, Option.map_some, List.append_nil]

theorem escaped_of_splitQuoted {cs raw rest : List Char} (h : splitQuoted cs = some (raw, rest)) :
    Escaped raw := by
  fun_induction splitQuoted cs generalizing raw rest with
  | case1 => cases h
  | case2 =>
    cases h
    exact .nil
  | case3 c cs ih =>
    obtain ⟨⟨raw', rest'⟩, h', he⟩ := Option.map_eq_some_iff.1 h
    cases he
    exact .pair (ih h')
  | case4 => cases h
  | case5 c cs hquote hpair hlast ih =>
    obtain ⟨⟨raw', rest'⟩, h', he⟩ := Option.map_eq_some_iff.1 h
    cases he
    refine .plain hquote ?_ (ih h')
    rintro rfl
    cases cs with
    | nil => exact hlast rfl rfl
    | cons d ds => exact hpair d ds rfl rfl

theorem head_dropWhile (p : Char → Bool) (cs : List Char) :
    ∀ c ∈ (cs.dropWhile p).head?, p c = false := by
  intro c hc
  have hnot := List.head?_dropWhile_not p cs
  rw [hc] at hnot
  exact hnot

/-- A comment is split where its line ends. -/
theorem splitComment_eq (cs : List Char) :
    (splitComment cs).1 ++ (splitComment cs).2 = cs ∧ '\n' ∉ (splitComment cs).1 ∧
      ∀ c ∈ (splitComment cs).2.head?, c = '\n' := by
  refine ⟨List.takeWhile_append_dropWhile, ?_, ?_⟩
  · intro hmem
    have hne := List.mem_takeWhile_imp hmem
    exact absurd rfl (bne_iff_ne.1 hne)
  · intro c hc
    simpa using head_dropWhile (· != '\n') cs c hc

/-- A word is split where its characters end. -/
theorem splitWord_eq (cs : List Char) :
    (splitWord cs).1 ++ (splitWord cs).2 = cs ∧
      (∀ c ∈ (splitWord cs).1, Word.isPart c = true) ∧
      ∀ c ∈ (splitWord cs).2.head?, Word.isPart c = false :=
  ⟨List.takeWhile_append_dropWhile, fun _ hc => List.mem_takeWhile_imp hc,
    head_dropWhile Word.isPart cs⟩

theorem splitComment_append {line rest : List Char} (hline : '\n' ∉ line)
    (hrest : ∀ c ∈ rest.head?, c = '\n') : splitComment (line ++ rest) = (line, rest) := by
  have hall : ∀ c ∈ line, (c != '\n') = true := by
    intro c hc
    rw [bne_iff_ne]
    rintro rfl
    exact hline hc
  rw [splitComment, List.takeWhile_append_of_pos hall, List.dropWhile_append_of_pos hall]
  cases rest with
  | nil => simp
  | cons c rest =>
    have hc : c = '\n' := hrest c rfl
    simp [hc]

theorem splitWord_append {word rest : List Char} (hword : ∀ c ∈ word, Word.isPart c = true)
    (hrest : ∀ c ∈ rest.head?, Word.isPart c = false) :
    splitWord (word ++ rest) = (word, rest) := by
  rw [splitWord, List.takeWhile_append_of_pos hword, List.dropWhile_append_of_pos hword]
  cases rest with
  | nil => simp
  | cons c rest =>
    have hc : Word.isPart c = false := hrest c rfl
    simp [hc]

section Scanning

variable (pos : Nat)

/-- One step of scanning, without the equation that only its termination needs. -/
theorem scan_cons (c : Char) (cs : List Char) :
    scan pos (c :: cs) =
      if isSeparator c then scan (pos + c.utf8Size) cs
      else if c = ';' then
        scan (pos + c.utf8Size + utf8Length (splitComment cs).1) (splitComment cs).2
      else if c = '"' then
        match splitQuoted cs with
        | some (raw, rest) => ⟨.quoted raw, ⟨pos, pos + 1 + utf8Length raw + 1⟩⟩ ::
            scan (pos + 1 + utf8Length raw + 1) rest
        | none => [⟨.stray c, .point pos⟩]
      else
        match bracket? c with
        | some kind => ⟨kind, ⟨pos, pos + 1⟩⟩ :: scan (pos + 1) cs
        | none =>
          if Word.isPart c then
            ⟨.word (c :: (splitWord cs).1), ⟨pos, pos + utf8Length (c :: (splitWord cs).1)⟩⟩ ::
              scan (pos + utf8Length (c :: (splitWord cs).1)) (splitWord cs).2
          else [⟨.stray c, .point pos⟩] := by
  rw [scan]
  split
  · rfl
  · split
    · rfl
    · split
      · split <;> next h => simp only [h]
      · rfl

theorem scan_separator {c : Char} (hc : isSeparator c = true) (cs : List Char) :
    scan pos (c :: cs) = scan (pos + c.utf8Size) cs := by
  rw [scan_cons, if_pos hc]

theorem scan_comment (cs : List Char) :
    scan pos (';' :: cs) =
      scan (pos + 1 + utf8Length (splitComment cs).1) (splitComment cs).2 := by
  rw [scan_cons, if_neg (by decide), if_pos rfl]
  rfl

theorem scan_quote (cs : List Char) :
    scan pos ('"' :: cs) = match splitQuoted cs with
      | some (raw, rest) => ⟨.quoted raw, ⟨pos, pos + 1 + utf8Length raw + 1⟩⟩ ::
          scan (pos + 1 + utf8Length raw + 1) rest
      | none => [⟨.stray '"', .point pos⟩] := by
  rw [scan_cons, if_neg (by decide), if_neg (by decide), if_pos rfl]

theorem scan_opening (b : Bracket) (cs : List Char) :
    scan pos (b.opening :: cs) = ⟨.opening b, ⟨pos, pos + 1⟩⟩ :: scan (pos + 1) cs := by
  cases b <;> (rw [scan_cons, if_neg (by decide), if_neg (by decide), if_neg (by decide)]; rfl)

theorem scan_closing (b : Bracket) (cs : List Char) :
    scan pos (b.closing :: cs) = ⟨.closing b, ⟨pos, pos + 1⟩⟩ :: scan (pos + 1) cs := by
  cases b <;> (rw [scan_cons, if_neg (by decide), if_neg (by decide), if_neg (by decide)]; rfl)

theorem scan_word {c : Char} (hc : Word.isPart c = true) (cs : List Char) :
    scan pos (c :: cs) =
      ⟨.word (c :: (splitWord cs).1), ⟨pos, pos + utf8Length (c :: (splitWord cs).1)⟩⟩ ::
        scan (pos + utf8Length (c :: (splitWord cs).1)) (splitWord cs).2 := by
  have hsemicolon : c ≠ ';' := ne_of_isPart hc (by decide)
  have hquote : c ≠ '"' := ne_of_isPart hc (by decide)
  rw [scan_cons, not_isSeparator_of_isPart hc, if_neg (by decide), if_neg hsemicolon,
    if_neg hquote, bracket?_of_isPart hc]
  exact if_pos hc

theorem scan_stray {c : Char} (hseparator : isSeparator c = false) (hsemicolon : c ≠ ';')
    (hquote : c ≠ '"') (hbracket : bracket? c = none) (hpart : Word.isPart c = false)
    (cs : List Char) : scan pos (c :: cs) = [⟨.stray c, .point pos⟩] := by
  rw [scan_cons, hseparator, if_neg (by decide), if_neg hsemicolon, if_neg hquote, hbracket]
  simp [hpart]

/-- Gaps leave no trace. -/
theorem scan_gap {gap : List Char} (h : Gap gap) (cs : List Char) :
    scan pos (gap ++ cs) = scan (pos + utf8Length gap) cs := by
  induction h generalizing pos with
  | nil => rfl
  | @separator c gap hc _ ih =>
    rw [List.cons_append, scan_separator pos hc, ih, utf8Length_cons, Nat.add_assoc]
  | @comment line gap hline _ ih =>
    have hsplit : splitComment (line ++ '\n' :: (gap ++ cs)) = (line, '\n' :: (gap ++ cs)) :=
      splitComment_append hline (by rintro c ⟨⟩; rfl)
    rw [List.cons_append, List.append_assoc, List.cons_append, scan_comment, hsplit,
      scan_separator _ (by decide), ih]
    congr 1
    simp only [utf8Length_cons, utf8Length_append]
    have hsize : ';'.utf8Size = 1 := rfl
    omega

theorem scan_lastGap {gap : List Char} (h : LastGap gap) : scan pos gap = [] := by
  have hnil : ∀ n, scan n [] = [] := by
    intro n
    rw [scan]
  cases h with
  | gap h => rw [← List.append_nil gap, scan_gap pos h, hnil]
  | @comment gap line h hline =>
    have hsplit : splitComment line = (line, []) := by
      simpa using @splitComment_append line [] hline (by simp)
    rw [scan_gap pos h, scan_comment, hsplit, hnil]

/-- A lexeme is scanned as a whole. A word has to end before the rest begins. -/
theorem scan_written {kind : LexemeKind} {text : List Char} (h : kind.Written text)
    (rest : List Char)
    (hrest : kind.isWord = true → ∀ c ∈ rest.head?, Word.isPart c = false) :
    scan pos (text ++ rest) =
      ⟨kind, ⟨pos, pos + utf8Length text⟩⟩ :: scan (pos + utf8Length text) rest := by
  cases h with
  | opening b =>
    have hlength : utf8Length [b.opening] = 1 := by cases b <;> rfl
    rw [hlength]
    exact scan_opening pos b rest
  | closing b =>
    have hlength : utf8Length [b.closing] = 1 := by cases b <;> rfl
    rw [hlength]
    exact scan_closing pos b rest
  | @word c cs hall =>
    have hsplit : splitWord (cs ++ rest) = (cs, rest) :=
      splitWord_append (fun d hd => hall d (by simp [hd])) (hrest rfl)
    rw [List.cons_append, scan_word pos (hall c (by simp)), hsplit]
  | @quoted raw hraw =>
    have hlength : utf8Length ('"' :: (raw ++ ['"'])) = 1 + utf8Length raw + 1 := by
      have hsize : '"'.utf8Size = 1 := rfl
      simp only [utf8Length_cons, utf8Length_append, utf8Length_nil]
      omega
    rw [List.cons_append, List.append_assoc, List.singleton_append, scan_quote,
      splitQuoted_append hraw, hlength]
    simp only [← Nat.add_assoc]

end Scanning

end Lexeme

namespace Layout

variable {afterWord : Bool} {pos : Nat} {text : List Char} {ls : List Lexeme}

theorem head_gap {gap : List Char} (h : Gap gap) (hne : gap ≠ []) :
    ∀ c ∈ gap.head?, Word.isPart c = false := by
  intro c hc
  cases h with
  | nil => exact absurd rfl hne
  | separator hs =>
    cases hc
    exact Lexeme.not_isPart_of_isSeparator hs
  | comment =>
    cases hc
    decide

theorem head_written {kind : LexemeKind} (h : kind.Written text) (hword : kind.isWord = false) :
    ∃ c cs, text = c :: cs ∧ Word.isPart c = false := by
  cases h with
  | opening b => exact ⟨_, _, rfl, by cases b <;> decide⟩
  | closing b => exact ⟨_, _, rfl, by cases b <;> decide⟩
  | word => cases hword
  | quoted => exact ⟨_, _, rfl, by decide⟩

/-- After a word no word follows at once. -/
theorem head_not_part (h : Layout true pos text ls) :
    ∀ c ∈ text.head?, Word.isPart c = false := by
  cases h with
  | last h =>
    cases h with
    | gap h =>
      by_cases hne : text = []
      · simp [hne]
      · exact head_gap h hne
    | @comment gap line h _ =>
      intro c hc
      cases gap with
      | nil =>
        cases hc
        decide
      | cons d gap => exact head_gap h (by simp) c hc
  | @lexeme _ _ gap kind text rest ls hgap hwords hkind _ =>
    intro c hc
    cases gap with
    | nil =>
      have hword : kind.isWord = false := by
        by_cases hk : kind.isWord = true
        · exact absurd rfl (hwords rfl hk)
        · simpa using hk
      obtain ⟨d, ds, rfl, hd⟩ := head_written hkind hword
      cases hc
      exact hd
    | cons d gap => exact head_gap hgap (by simp) c hc

/-- The lexemes of a layout are found. -/
theorem scan_eq (h : Layout afterWord pos text ls) : Lexeme.scan pos text = ls := by
  induction h with
  | last h => exact Lexeme.scan_lastGap _ h
  | lexeme hgap _ hkind h ih =>
    rw [Lexeme.scan_gap _ hgap, Lexeme.scan_written _ hkind, ih]
    intro hword
    rw [hword] at h
    exact h.head_not_part

theorem not_stray (h : Layout afterWord pos text ls) : ∀ l ∈ ls, ∀ c, l.kind ≠ .stray c := by
  induction h with
  | last => simp
  | lexeme _ _ hkind _ ih =>
    intro l hl c hc
    rcases List.mem_cons.1 hl with rfl | hl
    · subst hc
      cases hkind
    · exact ih l hl c hc

/-- A gap in front makes way for a word. -/
theorem gap_append {w : Bool} {gap : List Char} (hgap : Gap gap) (hne : gap ≠ [])
    (h : Layout w (pos + utf8Length gap) text ls) : Layout afterWord pos (gap ++ text) ls := by
  cases h with
  | last h => exact .last (hgap.append_last h)
  | @lexeme _ _ gap' kind text rest ls hgap' _ hkind h =>
    have hboth : gap ++ gap' ≠ [] := fun he => hne (List.append_eq_nil_iff.1 he).1
    have hrest : Layout kind.isWord (pos + utf8Length (gap ++ gap') + utf8Length text) rest ls := by
      rwa [utf8Length_append, ← Nat.add_assoc]
    have hlayout : Layout afterWord pos _ _ :=
      .lexeme (hgap.append hgap') (fun _ _ => hboth) hkind hrest
    rw [utf8Length_append, ← Nat.add_assoc, List.append_assoc] at hlayout
    exact hlayout

theorem after_word (h : Layout false pos text ls)
    (hhead : ∀ c ∈ text.head?, Word.isPart c = false) : Layout true pos text ls := by
  cases h with
  | last h => exact .last h
  | @lexeme _ _ gap kind text rest ls hgap _ hkind h =>
    refine .lexeme hgap ?_ hkind h
    rintro - hword rfl
    cases hkind with
    | word hall =>
      have hpart := hall _ List.mem_cons_self
      rw [hhead _ rfl] at hpart
      cases hpart
    | opening | closing | quoted => cases hword

theorem after_any (h : Layout true pos text ls) (w : Bool) : Layout w pos text ls := by
  cases h with
  | last h => exact .last h
  | lexeme hgap hwords hkind h => exact .lexeme hgap (fun _ => hwords rfl) hkind h

/-- A bracket is the text of the lexeme that it is taken for. -/
theorem written_of_bracket? {c : Char} {kind : LexemeKind} (h : Lexeme.bracket? c = some kind) :
    kind.Written [c] ∧ kind.isWord = false ∧ c.utf8Size = 1 := by
  unfold Lexeme.bracket? at h
  split at h
  · next hc =>
    cases h
    subst hc
    exact ⟨.opening .round, rfl, rfl⟩
  · split at h
    · next hc =>
      cases h
      subst hc
      exact ⟨.opening .square, rfl, rfl⟩
    · split at h
      · next hc =>
        cases h
        subst hc
        exact ⟨.closing .round, rfl, rfl⟩
      · split at h
        · next hc =>
          cases h
          subst hc
          exact ⟨.closing .square, rfl, rfl⟩
        · cases h

/-- A lexeme at the very front. -/
theorem at_front {kind : LexemeKind} {rest : List Char} (hkind : kind.Written text)
    (h : Layout kind.isWord (pos + utf8Length text) rest ls) :
    Layout false pos (text ++ rest) (⟨kind, ⟨pos, pos + utf8Length text⟩⟩ :: ls) := by
  refine .lexeme .nil ?_ hkind h
  intro hfalse
  cases hfalse

/-- A lexeme covers the part of the text in which it is written. -/
theorem covers (h : Layout afterWord pos text ls) : ∀ l ∈ ls, ∃ before inside after,
    text = before ++ (inside ++ after) ∧ l.kind.Written inside ∧
      l.span = ⟨pos + utf8Length before, pos + utf8Length before + utf8Length inside⟩ := by
  induction h with
  | last =>
    intro l hl
    cases hl
  | @lexeme _ pos gap kind text rest ls _ _ hkind _ ih =>
    intro l hl
    rcases List.mem_cons.1 hl with rfl | hl
    · exact ⟨gap, text, rest, rfl, hkind, rfl⟩
    · obtain ⟨before, inside, after, rfl, hwritten, hspan⟩ := ih l hl
      refine ⟨gap ++ (text ++ before), inside, after, by simp, hwritten, ?_⟩
      rw [hspan]
      simp only [utf8Length_append, Nat.add_assoc]

end Layout

end Scriptlet
