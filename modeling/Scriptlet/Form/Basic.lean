import Scriptlet.Span

/-!
Forms: the data that a script is written in. An atom is a literal or a symbol; a group holds forms
between round or square brackets.
-/

namespace Scriptlet

inductive Bracket where
  | round
  | square
  deriving DecidableEq, Repr

namespace Bracket

def opening : Bracket → Char
  | round => '('
  | square => '['

def closing : Bracket → Char
  | round => ')'
  | square => ']'

end Bracket

/-- A tree of bracketed groups, with a span at every node. -/
inductive Tree (α : Type) where
  | leaf (a : α) (span : Span)
  | group (bracket : Bracket) (items : List (Tree α)) (span : Span)
  deriving Repr

inductive Atom where
  | nil
  | bool (b : Bool)
  | int (i : Int64)
  | float (x : Float)
  | str (s : String)
  | symbol (name : String)
  deriving Repr

abbrev Form := Tree Atom

namespace Tree

variable {α : Type}

def span : Tree α → Span
  | leaf _ s | group _ _ s => s

end Tree

def Atom.kindName : Atom → String
  | nil => "nil"
  | bool _ => "boolean"
  | int _ => "integer"
  | float _ => "float"
  | str _ => "string"
  | symbol _ => "symbol"

namespace Form

/-- The kind of a form, as diagnostics name it. -/
def kindName : Form → String
  | .leaf a _ => a.kindName
  | .group .round _ _ => "list"
  | .group .square _ _ => "vector"

def symbol? : Form → Option String
  | .leaf (.symbol name) _ => some name
  | _ => none

end Form

/-- The forms of a source text, in order, and the span of the whole text. -/
structure Script where
  forms : List Form
  span : Span
  deriving Repr

end Scriptlet
