import Scriptlet.Form.Basic

/-!
The outline of a source text: its brackets outside strings and comments. It is read without regard
to the rest of the text, so it exists also for a text that is not well formed.
-/

namespace Scriptlet

/-- What surrounds a character. -/
inductive Surrounding where
  | code
  | comment
  | text
  /-- Inside a string and right after a backslash. -/
  | escape
  deriving DecidableEq, Repr

namespace Surrounding

/-- What surrounds the characters after `c`. -/
def next (s : Surrounding) (c : Char) : Surrounding :=
  match s with
  | code => if c = ';' then comment else if c = '"' then text else code
  | comment => if c = '\n' then code else comment
  | text => if c = '\\' then escape else if c = '"' then code else text
  | escape => text

def isText : Surrounding → Bool
  | text | escape => true
  | code | comment => false

end Surrounding

/-- A bracket of the outline. -/
inductive Delimiter where
  | opening (bracket : Bracket) (pos : Nat)
  | closing
  deriving DecidableEq, Repr

def Delimiter.ofChar? (c : Char) (pos : Nat) : Option Delimiter :=
  if c = '(' then some (.opening .round pos)
  else if c = '[' then some (.opening .square pos)
  else if c = ')' ∨ c = ']' then some .closing
  else none

/-- The brackets from an offset on, and what surrounds the end of the text. -/
def outlineFrom (s : Surrounding) (pos : Nat) : List Char → List Delimiter × Surrounding
  | [] => ([], s)
  | c :: cs =>
    let (rest, last) := outlineFrom (s.next c) (pos + c.utf8Size) cs
    match s, Delimiter.ofChar? c pos with
    | .code, some d => (d :: rest, last)
    | _, _ => (rest, last)

def outline (source : List Char) : List Delimiter × Surrounding := outlineFrom .code 0 source

/-- The offset of the first bracket that opens a group deeper than the limit. A closing bracket
without a partner leaves the depth at zero. -/
def firstTooDeep? (limit : Nat) (depth : Nat) : List Delimiter → Option Nat
  | [] => none
  | .opening _ pos :: rest =>
    if limit < depth + 1 then some pos else firstTooDeep? limit (depth + 1) rest
  | .closing :: rest => firstTooDeep? limit (depth - 1) rest

/-- The brackets still open at the end, innermost first. Any closing bracket closes the innermost
group, whatever its shape. -/
def openBrackets (stack : List Bracket) : List Delimiter → List Bracket
  | [] => stack
  | .opening b _ :: rest => openBrackets (b :: stack) rest
  | .closing :: rest => openBrackets stack.tail rest

/-- What is left open at the end of the text: a string, or else the innermost bracket. -/
def unclosed? (source : List Char) : Option Char :=
  let (delimiters, last) := outline source
  if last.isText then some '"' else (openBrackets [] delimiters).head?.map Bracket.opening

end Scriptlet
