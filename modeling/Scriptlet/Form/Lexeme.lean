import Scriptlet.Form.Word

/-!
Lexemes: brackets, words and quoted texts. Separators and comments stand between them and leave no
trace. At a character that begins no lexeme the list ends.
-/

namespace Scriptlet

inductive LexemeKind where
  | opening (bracket : Bracket)
  | closing (bracket : Bracket)
  | word (text : List Char)
  /-- What stands between the quotes, with its escapes as written. -/
  | quoted (raw : List Char)
  /-- A character that begins no lexeme, or a quote that is never closed. -/
  | stray (c : Char)
  deriving DecidableEq, Repr

structure Lexeme where
  kind : LexemeKind
  span : Span
  deriving DecidableEq, Repr

namespace Lexeme

def isSeparator (c : Char) : Bool := " \t\r\n,".toList.contains c

/-- Splits at the first quote that no backslash precedes. A backslash always takes the next
character with it. -/
def splitQuoted : List Char → Option (List Char × List Char)
  | [] => none
  | '"' :: cs => some ([], cs)
  | '\\' :: c :: cs => (splitQuoted cs).map fun (raw, rest) => ('\\' :: c :: raw, rest)
  | ['\\'] => none
  | c :: cs => (splitQuoted cs).map fun (raw, rest) => (c :: raw, rest)

theorem append_of_splitQuoted {cs raw rest : List Char} (h : splitQuoted cs = some (raw, rest)) :
    raw ++ '"' :: rest = cs := by
  fun_induction splitQuoted cs generalizing raw rest with
  | case1 => simp at h
  | case2 => simp_all
  | case3 c cs ih =>
    obtain ⟨⟨raw', rest'⟩, h', e⟩ := Option.map_eq_some_iff.1 h
    obtain ⟨rfl, rfl⟩ := Prod.mk.inj e
    simp [ih h']
  | case4 => simp at h
  | case5 c cs _ _ _ ih =>
    obtain ⟨⟨raw', rest'⟩, h', e⟩ := Option.map_eq_some_iff.1 h
    obtain ⟨rfl, rfl⟩ := Prod.mk.inj e
    simp [ih h']

/-- The part of a comment before the end of its line. -/
def splitComment (cs : List Char) : List Char × List Char :=
  (cs.takeWhile (· != '\n'), cs.dropWhile (· != '\n'))

/-- The longest word at the front. -/
def splitWord (cs : List Char) : List Char × List Char :=
  (cs.takeWhile Word.isPart, cs.dropWhile Word.isPart)

theorem length_splitComment_le (cs : List Char) : (splitComment cs).2.length ≤ cs.length :=
  (List.dropWhile_suffix _).length_le

theorem length_splitWord_le (cs : List Char) : (splitWord cs).2.length ≤ cs.length :=
  (List.dropWhile_suffix _).length_le

/-- The bracket that a character is, with the way it faces. -/
def bracket? (c : Char) : Option LexemeKind :=
  if c = '(' then some (.opening .round)
  else if c = '[' then some (.opening .square)
  else if c = ')' then some (.closing .round)
  else if c = ']' then some (.closing .square)
  else none

/-- The lexemes of a text that begins at an offset. -/
def scan (pos : Nat) : List Char → List Lexeme
  | [] => []
  | c :: cs =>
    if isSeparator c then scan (pos + c.utf8Size) cs
    else if c = ';' then
      let comment := splitComment cs
      scan (pos + c.utf8Size + utf8Length comment.1) comment.2
    else if c = '"' then
      match h : splitQuoted cs with
      | some (raw, rest) =>
        let stop := pos + 1 + utf8Length raw + 1
        ⟨.quoted raw, ⟨pos, stop⟩⟩ :: scan stop rest
      | none => [⟨.stray c, .point pos⟩]
    else
      match bracket? c with
      | some kind => ⟨kind, ⟨pos, pos + 1⟩⟩ :: scan (pos + 1) cs
      | none =>
        if Word.isPart c then
          let word := splitWord cs
          let stop := pos + utf8Length (c :: word.1)
          ⟨.word (c :: word.1), ⟨pos, stop⟩⟩ :: scan stop word.2
        else [⟨.stray c, .point pos⟩]
termination_by cs => cs.length
decreasing_by
  · simp
  · have := length_splitComment_le cs
    simp only [List.length_cons]
    omega
  · have := congrArg List.length (append_of_splitQuoted h)
    simp at this ⊢
    omega
  · simp
  · have := length_splitWord_le cs
    simp only [List.length_cons]
    omega

end Lexeme

end Scriptlet
