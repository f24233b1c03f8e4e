import Scriptlet.Form.Lexeme
import Scriptlet.Form.Outline
import Scriptlet.Form.SyntaxError
import Scriptlet.Text.Blank

/-!
Reading a source text. First the nesting of its brackets is checked, then the lexemes are arranged
into groups, and last the literals get their values, in the order in which they are written.
-/

namespace Scriptlet

/-- A literal or symbol as it is written. -/
inductive Spelling where
  | word (text : List Char)
  | quoted (raw : List Char)
  deriving DecidableEq, Repr

/-- What could have stood where reading got stuck. -/
inductive Expectation where
  /-- At the very start of the text. -/
  | expression
  /-- In a group, or before the first form. -/
  | form
  /-- After a form at the top. -/
  | formOrEnd
  deriving DecidableEq, Repr

def Expectation.text : Expectation → String
  | expression => "expression"
  | form => "expression, literal or symbol"
  | formOrEnd => "end of input, expression, literal or symbol"

/-- The offset that reading cannot pass, and the character there. -/
structure Stuck where
  pos : Nat
  expected : Expectation
  found : Option Char
  deriving DecidableEq, Repr

def Stuck.foundText (s : Stuck) : String :=
  match s.found with
  | some c => "'" ++ String.singleton c ++ "'"
  | none => "end of input"

/-- A group that is still open. Its items so far are kept newest first. -/
structure OpenGroup where
  bracket : Bracket
  start : Nat
  items : List (Tree Spelling)

/-- The state between two lexemes: open groups, innermost first, and the finished forms at the top,
newest first. -/
structure Arrangement where
  groups : List OpenGroup
  finished : List (Tree Spelling)

namespace Arrangement

def start : Arrangement := ⟨[], []⟩

/-- Adds a tree to the innermost group, or to the top if none is open. -/
def add (a : Arrangement) (t : Tree Spelling) : Arrangement :=
  match a.groups with
  | [] => { a with finished := t :: a.finished }
  | g :: rest => { a with groups := { g with items := t :: g.items } :: rest }

def expectation (a : Arrangement) (pos : Nat) : Expectation :=
  match a.groups, a.finished with
  | _ :: _, _ => .form
  | [], _ :: _ => .formOrEnd
  | [], [] => if pos = 0 then .expression else .form

def stuck (a : Arrangement) (pos : Nat) (found : Option Char) : Stuck :=
  ⟨pos, a.expectation pos, found⟩

def step (a : Arrangement) (l : Lexeme) : Except Stuck Arrangement :=
  match l.kind with
  | .opening b => .ok { a with groups := ⟨b, l.span.start, []⟩ :: a.groups }
  | .closing b =>
    match a.groups with
    | g :: rest =>
      if g.bracket = b then
        .ok (add { a with groups := rest } (.group b g.items.reverse ⟨g.start, l.span.stop⟩))
      else .error (a.stuck l.span.start (some b.closing))
    | [] => .error (a.stuck l.span.start (some b.closing))
  | .word text =>
    if (Word.meaning? text).isSome then .ok (a.add (.leaf (.word text) l.span))
    else .error (a.stuck l.span.start text.head?)
  | .quoted raw => .ok (a.add (.leaf (.quoted raw) l.span))
  | .stray c => .error (a.stuck l.span.start (some c))

/-- The trees of a whole text whose end is at the given offset. -/
def finish (a : Arrangement) (stop : Nat) : Except Stuck (List (Tree Spelling)) :=
  if a.groups.isEmpty && !a.finished.isEmpty then .ok a.finished.reverse
  else .error (a.stuck stop none)

end Arrangement

def arrange (lexemes : List Lexeme) (stop : Nat) : Except Stuck (List (Tree Spelling)) := do
  let a ← lexemes.foldlM Arrangement.step .start
  a.finish stop

/-- The text that a quoted literal denotes, or its first escape that has no meaning. -/
def decodeEscapes : List Char → Except String (List Char)
  | [] => .ok []
  | '\\' :: 'n' :: cs => (decodeEscapes cs).map ('\n' :: ·)
  | '\\' :: 't' :: cs => (decodeEscapes cs).map ('\t' :: ·)
  | '\\' :: 'r' :: cs => (decodeEscapes cs).map ('\r' :: ·)
  | '\\' :: '"' :: cs => (decodeEscapes cs).map ('"' :: ·)
  | '\\' :: '\\' :: cs => (decodeEscapes cs).map ('\\' :: ·)
  | '\\' :: c :: _ => .error (String.ofList ['\\', c])
  | ['\\'] => .error "\\"
  | c :: cs => (decodeEscapes cs).map (c :: ·)

/-- The atom that a spelling denotes. -/
def Spelling.atom : Spelling → Except SyntaxFault Atom
  | word text =>
    match Word.meaning? text with
    | some (.ok a) => .ok a
    | some (.error number) => .error (.badNumber number)
    | none => .error (.other "not a word")
  | quoted raw =>
    match decodeEscapes raw with
    | .ok cs => .ok (.str (String.ofList cs))
    | .error sequence => .error (.badEscape sequence)

mutual

/-- Gives every leaf its value. The first one in order that has none is an error. -/
def Tree.decode : Tree Spelling → Except SyntaxError Form
  | .leaf s span =>
    match s.atom with
    | .ok a => .ok (.leaf a span)
    | .error fault => .error (.new fault span)
  | .group b items span => (Tree.decodeAll items).map fun forms => .group b forms span

def Tree.decodeAll : List (Tree Spelling) → Except SyntaxError (List Form)
  | [] => .ok []
  | t :: ts => do
    let form ← Tree.decode t
    let forms ← Tree.decodeAll ts
    return form :: forms

end

/-- The error of a text in which reading got stuck. If nothing but white space is left there, what
is still open is to blame. -/
def Stuck.error (s : Stuck) (source : List Char) : SyntaxError :=
  let unexpected := SyntaxFault.unexpected s.expected.text s.foundText
  let fault :=
    if s.pos < utf8Length (Text.trimEnd source) then unexpected
    else match unclosed? source with
      | some delimiter => .unclosed delimiter
      | none => unexpected
  .new fault (.point s.pos)

/-- Refuses a text with groups nested deeper than the limit. -/
def withinNesting (limit : Nat) (source : List Char) : Except SyntaxError Unit :=
  match firstTooDeep? limit 0 (outline source).1 with
  | some pos => .error (.new (.tooDeep (limit + 1) limit) ⟨pos, pos + 1⟩)
  | none => .ok ()

/-- The limit on nested groups where none is given. -/
def defaultNesting : Nat := 256

namespace Script

def readChars (limit : Nat) (source : List Char) : Except SyntaxError Script := do
  withinNesting limit source
  match arrange (Lexeme.scan 0 source) (utf8Length source) with
  | .error s => .error (s.error source)
  | .ok trees =>
    let forms ← Tree.decodeAll trees
    return ⟨forms, ⟨0, utf8Length source⟩⟩

/-- Reads a source text whose groups nest no deeper than the limit. -/
def read (limit : Nat) (source : String) : Except SyntaxError Script :=
  readChars limit source.toList

end Script

end Scriptlet
