import Scriptlet.Proofs.Form.Layout
import Scriptlet.Proofs.Form.Pattern
import Scriptlet.Proofs.Form.Word

/-!
The patterns of atoms and of what is skipped between forms. They find what the lexemes of a text
are: what is skipped is a gap, and an atom is a word with a meaning or a quoted text.
-/

namespace Scriptlet

open Lexical

namespace Grammar

def separators : Lexical := star (one Lexeme.isSeparator)

def comment : Lexical := char ';' ++ star (absent (char '\n') ++ anything)

/-- What may stand in front of a form. -/
def skip : Lexical := separators ++ star (comment ++ separators)

def part : Lexical := one Word.isPart

def digits : Lexical := many (one Char.isDigit)

def minus : Lexical := maybe (char '-')

def sign : Lexical := maybe (char '+' <|> char '-')

def exponent : Lexical := (char 'e' <|> char 'E') ++ sign ++ digits

def float : Lexical := minus ++ digits ++ char '.' ++ digits ++ maybe exponent ++ absent part

def integer : Lexical := minus ++ digits ++ absent (part <|> char '.')

/-- A character between quotes, or two if the first is a backslash. -/
def quotable : Lexical :=
  (absent (char '"' <|> char '\\') ++ anything) <|> (char '\\' ++ anything)

def string : Lexical := char '"' ++ star quotable ++ char '"'

def boolean : Lexical := (name "true".toList <|> name "false".toList) ++ absent part

def nil : Lexical := name "nil".toList ++ absent part

def symbol : Lexical := one Word.isStart ++ star part

def atom : Lexical := float <|> integer <|> string <|> boolean <|> nil <|> symbol

/-- The atoms that are words. -/
def word : Lexical := float <|> integer <|> boolean <|> nil <|> symbol

/-- The end of the text. -/
def ending : Lexical := absent anything

end Grammar

/-- The text is at its end, or at a character that no word goes on with. -/
def Word.Ended (cs : List Char) : Prop := ∀ c ∈ cs.head?, Word.isPart c = false

namespace Word.Ended

variable {cs : List Char}

theorem head_not_digit (h : Word.Ended cs) : ∀ c ∈ cs.head?, c.isDigit = false := by
  intro c hc
  have hpart := h c hc
  simp only [Word.isPart, Bool.or_eq_false_iff] at hpart
  exact hpart.1.2

theorem char_match? (h : Word.Ended cs) {d : Char} (hd : Word.isPart d = true) :
    (char d).match? cs = none := by
  rw [match?_char_eq_none_iff]
  rintro c hc rfl
  rw [h c hc] at hd
  cases hd

theorem iff_part_match? : Word.Ended cs ↔ Grammar.part.match? cs = none :=
  match?_one_eq_none_iff.symm

theorem absent_part (h : Word.Ended cs) : (absent Grammar.part).match? cs = some cs :=
  match?_absent_eq_some_iff.2 ⟨iff_part_match?.1 h, rfl⟩

end Word.Ended

namespace Decimal

variable {cs rest text : List Char}

theorem digits_match?_iff :
    Grammar.digits.match? cs = some rest ↔
      ∃ ds, Digits ds ∧ cs = ds ++ rest ∧ ∀ c ∈ rest.head?, c.isDigit = false := by
  rw [Grammar.digits, match?_many, Option.map_eq_some_iff]
  simp only [rounds_one]
  constructor
  · rintro ⟨mid, hmid, rfl⟩
    obtain ⟨c, hc, rfl⟩ := match?_one_eq_some_iff.1 hmid
    obtain ⟨happend, hall⟩ := takeDigits_eq mid
    refine ⟨c :: (takeDigits mid).1, ⟨by simp, ?_⟩, ?_, ?_⟩
    · intro d hd
      rcases List.mem_cons.1 hd with rfl | hd
      · exact hc
      · exact hall d hd
    · exact (congrArg (c :: ·) happend).symm
    · exact Lexeme.head_dropWhile Char.isDigit mid
  · rintro ⟨ds, hds, rfl, hrest⟩
    obtain ⟨c, ds, rfl, hc⟩ := hds.head
    refine ⟨ds ++ rest, match?_one_eq_some_iff.2 ⟨c, hc, rfl⟩, ?_⟩
    have hall : ∀ d ∈ ds, d.isDigit = true := fun d hd => hds.all d (List.mem_cons_of_mem c hd)
    exact congrArg Prod.snd (takeDigits_append hall hrest)

theorem minus_match? : Grammar.minus.match? cs = some (takeMinus cs).2 := by
  rw [Grammar.minus, match?_maybe]
  unfold takeMinus
  split
  · rfl
  · next hminus =>
    have hnone : (char '-').match? cs = none := by
      rw [Option.eq_none_iff_forall_ne_some]
      intro rest h
      exact hminus rest (match?_char_eq_some_iff.1 h)
    rw [hnone, Option.getD_none]

theorem sign_match? : Grammar.sign.match? cs = some (takeSign cs).2 := by
  rw [Grammar.sign, match?_maybe, match?_orElse]
  unfold takeSign
  split
  · rfl
  · next hplus =>
    have hnone : (char '+').match? cs = none := by
      rw [Option.eq_none_iff_forall_ne_some]
      intro rest h
      exact hplus rest (match?_char_eq_some_iff.1 h)
    have hminus : (maybe (char '-')).match? cs = some (takeMinus cs).2 := minus_match?
    rw [hnone, Option.none_or, ← match?_maybe, hminus]

/-- What a pattern for an exponent takes off is one. -/
theorem exponent_of_match? (h : (maybe Grammar.exponent).match? cs = some rest) :
    ∃ text e, ExponentText text e ∧ cs = text ++ rest := by
  rw [match?_maybe] at h
  cases hmatch : Grammar.exponent.match? cs with
  | none =>
    rw [hmatch] at h
    cases h
    exact ⟨[], 0, .absent, rfl⟩
  | some r =>
    rw [hmatch] at h
    cases h
    rw [Grammar.exponent, match?_append, match?_append, Option.bind_eq_some_iff] at hmatch
    obtain ⟨mid, hbefore, hdigits⟩ := hmatch
    obtain ⟨after, hmark, hsign⟩ := Option.bind_eq_some_iff.1 hbefore
    obtain ⟨ds, hds, rfl, -⟩ := digits_match?_iff.1 hdigits
    rw [sign_match?, Option.some.injEq] at hsign
    obtain ⟨sign, htext, hafter⟩ := takeSign_eq after
    rw [hsign] at hafter
    subst hafter
    rw [match?_orElse, Option.or_eq_some_iff] at hmark
    rcases hmark with he | ⟨-, hE⟩
    · rw [match?_char_eq_some_iff.1 he]
      exact ⟨_, _, .present (.inl rfl) htext hds, by simp⟩
    · rw [match?_char_eq_some_iff.1 hE]
      exact ⟨_, _, .present (.inr rfl) htext hds, by simp⟩

theorem match?_exponent {e : Int} (h : ExponentText text e) (hrest : Word.Ended rest) :
    (maybe Grammar.exponent).match? (text ++ rest) = some rest := by
  rw [match?_maybe]
  cases h with
  | absent =>
    have hmark : (char 'e' <|> char 'E').match? rest = none := by
      rw [match?_orElse, hrest.char_match? (by decide), hrest.char_match? (by decide)]
      rfl
    rw [List.nil_append, Grammar.exponent, match?_append, match?_append, hmark]
    rfl
  | @present mark sign negative digits hmark hsign hdigits =>
    have hafter : (char 'e' <|> char 'E').match? (mark :: (sign ++ digits) ++ rest) =
        some (sign ++ (digits ++ rest)) := by
      rw [List.cons_append, List.append_assoc]
      rcases hmark with rfl | rfl <;> rfl
    have htake : takeSign (sign ++ (digits ++ rest)) = (negative, digits ++ rest) :=
      takeSign_append hsign (hdigits.head_ne (by decide) rest) (hdigits.head_ne (by decide) rest)
    have hdigit : Grammar.digits.match? (digits ++ rest) = some rest :=
      digits_match?_iff.2 ⟨digits, hdigits, rfl, hrest.head_not_digit⟩
    rw [Grammar.exponent, match?_append, match?_append, hafter, Option.bind_some, sign_match?,
      htake, Option.bind_some, hdigit, Option.getD_some]

/-- What a pattern for a float takes off is one, and no word goes on after it. -/
theorem float_of_match? (h : Grammar.float.match? cs = some rest) :
    ∃ text d, FloatText text d ∧ cs = text ++ rest ∧ Word.Ended rest := by
  simp only [Grammar.float, match?_append, Option.bind_eq_some_iff, minus_match?,
    Option.some.injEq] at h
  obtain ⟨end', ⟨after, ⟨fraction', ⟨point, ⟨_, rfl, hwhole⟩, hpoint⟩, hfraction⟩, hexponent⟩,
    hend⟩ := h
  obtain ⟨hpart, rfl⟩ := match?_absent_eq_some_iff.1 hend
  obtain ⟨mark, e, hmark, rfl⟩ := exponent_of_match? hexponent
  obtain ⟨fraction, hdigits', rfl, -⟩ := digits_match?_iff.1 hfraction
  cases match?_char_eq_some_iff.1 hpoint
  obtain ⟨whole, hdigits, hafter, -⟩ := digits_match?_iff.1 hwhole
  obtain ⟨sign, hsign, hcs⟩ := takeMinus_eq cs
  refine ⟨sign ++ (whole ++ '.' :: (fraction ++ mark)), _, .mk hsign hdigits hdigits' hmark, ?_,
    Word.Ended.iff_part_match?.2 hpart⟩
  rw [← hcs, hafter]
  simp

theorem match?_float {d : Decimal} (h : FloatText text d) (hrest : Word.Ended rest) :
    Grammar.float.match? (text ++ rest) = some rest := by
  cases h with
  | @mk sign negative whole fraction mark exponent hsign hwhole hfraction hmark =>
    have hdigit : ∀ c ∈ (mark ++ rest).head?, c.isDigit = false := by
      intro c hc
      cases mark with
      | nil => exact hrest.head_not_digit c hc
      | cons m mark => exact hmark.head_not_digit c hc
    have hminus : takeMinus (sign ++ (whole ++ '.' :: (fraction ++ (mark ++ rest)))) =
        (negative, whole ++ '.' :: (fraction ++ (mark ++ rest))) :=
      takeMinus_append hsign (hwhole.head_ne (by decide) _)
    have hbefore : Grammar.digits.match? (whole ++ '.' :: (fraction ++ (mark ++ rest))) =
        some ('.' :: (fraction ++ (mark ++ rest))) :=
      digits_match?_iff.2 ⟨whole, hwhole, rfl, by rintro c ⟨⟩; decide⟩
    have hafter : Grammar.digits.match? (fraction ++ (mark ++ rest)) = some (mark ++ rest) :=
      digits_match?_iff.2 ⟨fraction, hfraction, rfl, hdigit⟩
    have htext : sign ++ (whole ++ '.' :: (fraction ++ mark)) ++ rest =
        sign ++ (whole ++ '.' :: (fraction ++ (mark ++ rest))) := by simp
    rw [htext, Grammar.float]
    simp only [match?_append, minus_match?, hminus, Option.bind_some, hbefore,
      match?_char_eq_some_iff.2 rfl, hafter, match?_exponent hmark hrest, hrest.absent_part]

theorem integer_of_match? (h : Grammar.integer.match? cs = some rest) :
    ∃ text i, IntegerText text i ∧ cs = text ++ rest ∧ Word.Ended rest := by
  simp only [Grammar.integer, match?_append, Option.bind_eq_some_iff, minus_match?,
    Option.some.injEq] at h
  obtain ⟨end', ⟨_, rfl, hmatch⟩, hend⟩ := h
  obtain ⟨hpart, rfl⟩ := match?_absent_eq_some_iff.1 hend
  rw [match?_orElse, Option.or_eq_none_iff] at hpart
  obtain ⟨digits, hdigits, hafter, -⟩ := digits_match?_iff.1 hmatch
  obtain ⟨sign, hsign, hcs⟩ := takeMinus_eq cs
  refine ⟨sign ++ digits, _, .mk hsign hdigits, ?_, Word.Ended.iff_part_match?.2 hpart.1⟩
  rw [← hcs, hafter, List.append_assoc]

theorem match?_integer {i : Int} (h : IntegerText text i) (hrest : Word.Ended rest) :
    Grammar.integer.match? (text ++ rest) = some rest := by
  cases h with
  | @mk sign negative digits hsign hdigits =>
    have hminus : takeMinus (sign ++ (digits ++ rest)) = (negative, digits ++ rest) :=
      takeMinus_append hsign (hdigits.head_ne (by decide) _)
    have hdigit : Grammar.digits.match? (digits ++ rest) = some rest :=
      digits_match?_iff.2 ⟨digits, hdigits, rfl, hrest.head_not_digit⟩
    have hend : (absent (Grammar.part <|> char '.')).match? rest = some rest := by
      rw [match?_absent_eq_some_iff, match?_orElse, Word.Ended.iff_part_match?.1 hrest,
        hrest.char_match? (by decide)]
      exact ⟨rfl, rfl⟩
    rw [Grammar.integer, List.append_assoc]
    simp only [match?_append, minus_match?, hminus, Option.bind_some, hdigit, hend]

end Decimal

namespace Word

open Decimal

variable {cs rest text : List Char}

theorem isPart_of_isStart {c : Char} (h : isStart c = true) : isPart c = true := by
  rw [isPart, h]
  rfl

theorem isPart_of_isDigit {c : Char} (h : c.isDigit = true) : isPart c = true := by
  rw [isPart, h, Bool.or_true]
  rfl

theorem LiteralText.symbolText {a : Atom} (h : LiteralText text a) : SymbolText text := by
  cases h <;> exact isSymbol_iff.1 (by decide)

/-- The words of the language. -/
theorem isSome_meaning?_iff :
    (meaning? text).isSome = true ↔
      (∃ d, FloatText text d) ∨ (∃ i, IntegerText text i) ∨ SymbolText text := by
  constructor
  · intro h
    obtain ⟨r, hr⟩ := Option.isSome_iff_exists.1 h
    cases meaning?_eq_some_iff.1 hr with
    | literal h => exact .inr (.inr h.symbolText)
    | float h => exact .inl ⟨_, h⟩
    | integer h | oversized h => exact .inr (.inl ⟨_, h⟩)
    | symbol h => exact .inr (.inr h)
  · rintro (⟨d, h⟩ | ⟨i, h⟩ | h)
    · rw [meaning?_eq_some_iff.2 (.float h)]
      rfl
    · rw [meaning?_integer h (decimal?_eq_none_of_integer h)]
      rfl
    · have hsymbol := isSymbol_iff.2 h
      simp only [meaning?]
      split
      · rfl
      · split <;> rfl
      · split
        · rfl
        · rw [if_pos hsymbol]
          rfl

/-- What the pattern takes off is a word with a meaning, and the word ends there. -/
def Taken (l : Lexical) : Prop :=
  ∀ cs rest, l.match? cs = some rest →
    ∃ text, cs = text ++ rest ∧ (meaning? text).isSome = true ∧ Ended rest

theorem Taken.orElse {l m : Lexical} (hl : Taken l) (hm : Taken m) : Taken (l <|> m) := by
  intro cs rest h
  rw [match?_orElse, Option.or_eq_some_iff] at h
  rcases h with h | ⟨-, h⟩
  · exact hl cs rest h
  · exact hm cs rest h

theorem taken_float : Taken Grammar.float := by
  intro cs rest h
  obtain ⟨text, d, htext, hcs, hrest⟩ := float_of_match? h
  exact ⟨text, hcs, isSome_meaning?_iff.2 (.inl ⟨d, htext⟩), hrest⟩

theorem taken_integer : Taken Grammar.integer := by
  intro cs rest h
  obtain ⟨text, i, htext, hcs, hrest⟩ := integer_of_match? h
  exact ⟨text, hcs, isSome_meaning?_iff.2 (.inr (.inl ⟨i, htext⟩)), hrest⟩

theorem taken_name {name : List Char} (hname : (meaning? name).isSome = true) :
    Taken (Lexical.name name ++ absent Grammar.part) := by
  intro cs rest h
  rw [match?_append, Option.bind_eq_some_iff] at h
  obtain ⟨mid, hmid, hend⟩ := h
  obtain ⟨hpart, rfl⟩ := match?_absent_eq_some_iff.1 hend
  exact ⟨name, match?_name_eq_some_iff.1 hmid, hname, Ended.iff_part_match?.2 hpart⟩

theorem taken_boolean : Taken Grammar.boolean := by
  intro cs rest h
  rw [Grammar.boolean, match?_append, Option.bind_eq_some_iff] at h
  obtain ⟨mid, hmid, hend⟩ := h
  rw [match?_orElse, Option.or_eq_some_iff] at hmid
  have hafter : ∀ name, (Lexical.name name).match? cs = some mid →
      (Lexical.name name ++ absent Grammar.part).match? cs = some rest := by
    intro name hname
    rw [match?_append, hname]
    exact hend
  rcases hmid with hmid | ⟨-, hmid⟩
  · exact taken_name (by decide) cs rest (hafter _ hmid)
  · exact taken_name (by decide) cs rest (hafter _ hmid)

theorem symbol_match?_cons {c : Char} (hc : isStart c = true) :
    Grammar.symbol.match? (c :: cs) = some (Lexeme.splitWord cs).2 := by
  rw [Grammar.symbol, match?_append, match?_one_cons, if_pos hc, Option.bind_some, match?_star,
    Grammar.part, rounds_one]
  rfl

theorem taken_symbol : Taken Grammar.symbol := by
  intro cs rest h
  have hstart : (one isStart).match? cs ≠ none := by
    intro hnone
    rw [Grammar.symbol, match?_append, hnone] at h
    cases h
  obtain ⟨mid, hmid⟩ := Option.ne_none_iff_exists'.1 hstart
  obtain ⟨c, hc, rfl⟩ := match?_one_eq_some_iff.1 hmid
  rw [symbol_match?_cons hc] at h
  cases h
  obtain ⟨happend, hall, hend⟩ := Lexeme.splitWord_eq mid
  have htext : SymbolText (c :: (Lexeme.splitWord mid).1) := .mk hc hall
  refine ⟨_, ?_, isSome_meaning?_iff.2 (.inr (.inr htext)), hend⟩
  rw [List.cons_append, happend]

theorem taken_word : Taken Grammar.word :=
  taken_float.orElse (taken_integer.orElse
    (taken_boolean.orElse ((taken_name (by decide)).orElse taken_symbol)))

theorem over_word : Grammar.word.Over isPart := by
  have hdigits : Grammar.digits.Over isPart := over_many.2 fun _ => isPart_of_isDigit
  have hminus : Grammar.minus.Over isPart := over_maybe.2 (over_char.2 (by decide))
  have hmark : (char 'e' <|> char 'E').Over isPart :=
    ⟨over_char.2 (by decide), over_char.2 (by decide)⟩
  have hsign : Grammar.sign.Over isPart :=
    over_maybe.2 ⟨over_char.2 (by decide), over_char.2 (by decide)⟩
  have hexponent : (maybe Grammar.exponent).Over isPart :=
    over_maybe.2 ⟨⟨hmark, hsign⟩, hdigits⟩
  have hpoint : (char '.').Over isPart := over_char.2 (by decide)
  have hfloat : Grammar.float.Over isPart :=
    ⟨⟨⟨⟨⟨hminus, hdigits⟩, hpoint⟩, hdigits⟩, hexponent⟩, over_absent⟩
  have hinteger : Grammar.integer.Over isPart := ⟨⟨hminus, hdigits⟩, over_absent⟩
  have hboolean : Grammar.boolean.Over isPart :=
    ⟨⟨over_name.2 (List.all_eq_true.1 (by decide)), over_name.2 (List.all_eq_true.1 (by decide))⟩,
      over_absent⟩
  have hnil : Grammar.nil.Over isPart :=
    ⟨over_name.2 (List.all_eq_true.1 (by decide)), over_absent⟩
  have hsymbol : Grammar.symbol.Over isPart := ⟨fun _ => isPart_of_isStart, fun _ h => h⟩
  exact ⟨hfloat, hinteger, hboolean, hnil, hsymbol⟩

/-- The pattern takes off all of a word if it has a meaning, and nothing if it has none. -/
theorem word_match? (hword : ∀ c ∈ text, isPart c = true) (hrest : Ended rest) :
    Grammar.word.match? (text ++ rest) =
      if (meaning? text).isSome = true then some rest else none := by
  have hwhole : ∀ r, Grammar.word.match? (text ++ rest) = some r →
      (meaning? text).isSome = true ∧ r = rest := by
    intro r hr
    obtain ⟨text', heq, hmeaning, hended⟩ := taken_word _ _ hr
    obtain ⟨taken, heq', hparts⟩ := over_word.takes hr
    have htaken : taken = text' := List.append_cancel_right (heq'.symm.trans heq)
    have hsplit := Lexeme.splitWord_append hword hrest
    rw [heq, Lexeme.splitWord_append (htaken ▸ hparts) hended] at hsplit
    cases hsplit
    exact ⟨hmeaning, rfl⟩
  by_cases hmeaning : (meaning? text).isSome = true
  · have hsome : (Grammar.word.match? (text ++ rest)).isSome = true := by
      simp only [Grammar.word, match?_orElse, Option.isSome_or, Bool.or_eq_true]
      rcases isSome_meaning?_iff.1 hmeaning with ⟨d, h⟩ | ⟨i, h⟩ | h
      · simp [match?_float h hrest]
      · simp [match?_integer h hrest]
      · cases h with
        | mk hc _ => simp [symbol_match?_cons hc]
    obtain ⟨r, hr⟩ := Option.isSome_iff_exists.1 hsome
    rw [if_pos hmeaning, hr, (hwhole r hr).2]
  · rw [if_neg hmeaning, Option.eq_none_iff_forall_ne_some]
    intro r hr
    exact hmeaning (hwhole r hr).1

theorem word_match?_of_ended (h : Ended cs) : Grammar.word.match? cs = none := by
  have hnone := @word_match? cs [] (by simp) h
  rw [if_neg (by decide)] at hnone
  exact hnone

end Word

section Quoted

variable {c : Char} {cs : List Char}

theorem quotable_pair : Grammar.quotable.match? ('\\' :: c :: cs) = some cs := rfl

theorem quotable_plain (hquote : c ≠ '"') (hslash : c ≠ '\\') :
    Grammar.quotable.match? (c :: cs) = some cs := by
  simp [Grammar.quotable, char, anything, hquote, hslash]

/-- A quoted text is taken off with its quotes. -/
theorem string_match?_quote (cs : List Char) :
    Grammar.string.match? ('"' :: cs) = (Lexeme.splitQuoted cs).map (·.2) := by
  change (char '"').match? (rounds Grammar.quotable.match? cs) = _
  fun_induction Lexeme.splitQuoted cs with
  | case1 =>
    rw [rounds_none rfl]
    rfl
  | case2 cs =>
    rw [rounds_none rfl]
    rfl
  | case3 c cs ih =>
    have hlt : cs.length < ('\\' :: c :: cs).length := by
      simp only [List.length_cons]
      omega
    rw [rounds_some quotable_pair hlt, ih, Option.map_map]
    rfl
  | case4 =>
    rw [rounds_none rfl]
    rfl
  | case5 c cs hquote hpair hlast ih =>
    have hslash : c ≠ '\\' := by
      rintro rfl
      cases cs with
      | nil => exact hlast rfl rfl
      | cons d ds => exact hpair d ds rfl rfl
    rw [rounds_some (quotable_plain hquote hslash) (Nat.lt_succ_self _), ih, Option.map_map]
    rfl

theorem string_match?_of_ne (h : ∀ c ∈ cs.head?, c ≠ '"') : Grammar.string.match? cs = none := by
  rw [Grammar.string, match?_append, match?_append, match?_char_eq_none_iff.2 h]
  rfl

theorem atom_match?_quote (cs : List Char) :
    Grammar.atom.match? ('"' :: cs) = (Lexeme.splitQuoted cs).map (·.2) := by
  have hended : Word.Ended ('"' :: cs) := by
    rintro c ⟨⟩
    decide
  have hword := Word.word_match?_of_ended hended
  rw [Grammar.word] at hword
  simp only [match?_orElse, Option.or_eq_none_iff] at hword
  obtain ⟨hfloat, hinteger, hboolean, hnil, hsymbol⟩ := hword
  simp only [Grammar.atom, match?_orElse, hfloat, hinteger, hboolean, hnil, hsymbol,
    Option.none_or, Option.or_none, string_match?_quote]

theorem atom_match?_of_ne (h : ∀ c ∈ cs.head?, c ≠ '"') :
    Grammar.atom.match? cs = Grammar.word.match? cs := by
  simp only [Grammar.atom, Grammar.word, match?_orElse, string_match?_of_ne h, Option.none_or]

end Quoted

section Skipping

variable {cs mid rest : List Char}

/-- The text begins neither with a separator nor with a comment. -/
def Gapless (cs : List Char) : Prop :=
  ∀ c ∈ cs.head?, Lexeme.isSeparator c = false ∧ c ≠ ';'

/-- What is left of the text has all its lexemes. -/
structure Skips (cs rest : List Char) : Prop where
  length_le : rest.length ≤ cs.length
  scan_eq : ∀ pos, ∃ pos', Lexeme.scan pos cs = Lexeme.scan pos' rest

theorem Skips.refl (cs : List Char) : Skips cs cs :=
  ⟨Nat.le_refl _, fun pos => ⟨pos, rfl⟩⟩

theorem Skips.trans (h : Skips cs mid) (h' : Skips mid rest) : Skips cs rest := by
  refine ⟨h'.length_le.trans h.length_le, fun pos => ?_⟩
  obtain ⟨pos', hscan⟩ := h.scan_eq pos
  obtain ⟨pos'', hscan'⟩ := h'.scan_eq pos'
  exact ⟨pos'', hscan.trans hscan'⟩

theorem separators_match? :
    Grammar.separators.match? cs = some (cs.dropWhile Lexeme.isSeparator) := by
  rw [Grammar.separators, match?_star, rounds_one]

theorem Skips.separators (cs : List Char) : Skips cs (cs.dropWhile Lexeme.isSeparator) := by
  induction cs with
  | nil => exact .refl []
  | cons c cs ih =>
    by_cases hc : Lexeme.isSeparator c = true
    · rw [List.dropWhile_cons_of_pos hc]
      refine Skips.trans ⟨Nat.le_succ _, fun pos => ?_⟩ ih
      exact ⟨_, Lexeme.scan_separator pos hc cs⟩
    · rw [List.dropWhile_cons_of_neg hc]
      exact .refl _

theorem comment_match?_semicolon (cs : List Char) :
    Grammar.comment.match? (';' :: cs) = some (Lexeme.splitComment cs).2 := by
  have hline : (absent (char '\n') ++ anything).match? = (one (· != '\n')).match? := by
    funext ds
    cases ds with
    | nil => rfl
    | cons d ds =>
      by_cases hd : d = '\n' <;> simp [char, anything, hd]
  change some (rounds (absent (char '\n') ++ anything).match? cs) = _
  rw [hline, rounds_one]
  rfl

theorem comment_match?_of_ne (h : ∀ c ∈ cs.head?, c ≠ ';') : Grammar.comment.match? cs = none := by
  rw [Grammar.comment, match?_append, match?_char_eq_none_iff.2 h]
  rfl

/-- A comment is skipped together with the separators after it. -/
theorem comment_separators_match?
    (h : (Grammar.comment ++ Grammar.separators).match? cs = some rest) :
    rest.length < cs.length ∧ Skips cs rest ∧ ∀ c ∈ rest.head?, Lexeme.isSeparator c = false := by
  rcases head_ne_or_eq_cons ';' cs with hne | ⟨line, rfl⟩
  · rw [match?_append, comment_match?_of_ne hne] at h
    cases h
  · rw [match?_append, comment_match?_semicolon, Option.bind_some, separators_match?] at h
    cases h
    have hline := Lexeme.length_splitComment_le line
    have hcomment : Skips (';' :: line) (Lexeme.splitComment line).2 :=
      ⟨Nat.le_succ_of_le hline, fun pos => ⟨_, Lexeme.scan_comment pos line⟩⟩
    have hafter := Skips.separators (Lexeme.splitComment line).2
    have hle := hafter.length_le
    refine ⟨?_, hcomment.trans hafter, Lexeme.head_dropWhile _ _⟩
    rw [List.length_cons]
    omega

/-- All of the gap at the front is skipped. -/
theorem skip_match? (cs : List Char) :
    ∃ rest, Grammar.skip.match? cs = some rest ∧ Gapless rest ∧ Skips cs rest := by
  have hrounds := @rounds_induction (Grammar.comment ++ Grammar.separators).match?
    (fun ds rest => Skips ds rest ∧ ((∀ c ∈ ds.head?, Lexeme.isSeparator c = false) →
      ∀ c ∈ rest.head?, Lexeme.isSeparator c = false))
    (fun ds => ⟨.refl ds, fun h => h⟩)
    (by
      intro ds mid rest hmid hrest
      obtain ⟨-, hskips, hseparator⟩ := comment_separators_match? hmid
      exact ⟨hskips.trans hrest.1, fun _ => hrest.2 hseparator⟩)
    (cs.dropWhile Lexeme.isSeparator)
  have hstops := @rounds_stops (Grammar.comment ++ Grammar.separators).match?
    (fun ds rest h => (comment_separators_match? h).1) (cs.dropWhile Lexeme.isSeparator)
  generalize hrest : rounds (Grammar.comment ++ Grammar.separators).match?
    (cs.dropWhile Lexeme.isSeparator) = rest at hrounds hstops
  refine ⟨rest, ?_, ?_, (Skips.separators cs).trans hrounds.1⟩
  · rw [Grammar.skip, match?_append, separators_match?, Option.bind_some, match?_star, hrest]
  · intro c hc
    refine ⟨hrounds.2 (Lexeme.head_dropWhile _ cs) c hc, ?_⟩
    rcases head_ne_or_eq_cons ';' rest with hne | ⟨line, rfl⟩
    · exact hne c hc
    · rw [match?_append, comment_match?_semicolon] at hstops
      cases hstops

theorem skip_match?_of_gapless (h : Gapless cs) : Grammar.skip.match? cs = some cs := by
  have hseparator : cs.dropWhile Lexeme.isSeparator = cs := by
    cases cs with
    | nil => rfl
    | cons c cs =>
      have hc := (h c rfl).1
      simp [hc]
  have hcomment : (Grammar.comment ++ Grammar.separators).match? cs = none := by
    rw [match?_append, comment_match?_of_ne fun c hc => (h c hc).2]
    rfl
  rw [Grammar.skip, match?_append, separators_match?, hseparator, Option.bind_some, match?_star,
    rounds_none hcomment]

end Skipping

end Scriptlet
