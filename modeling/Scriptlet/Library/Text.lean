import Scriptlet.Library.Number
import Scriptlet.Text.Case
import Scriptlet.Value.Printer

/-!
Functions on strings.
-/

namespace Scriptlet.Library

def text (function : String) (v : Value) : Except Fault String :=
  match v.str? with
  | some s => .ok s
  | none => .error (mismatch function "a string" v)

/-- The plain texts of the arguments, one after the other. -/
def str (args : List Value) : Outcome := .ok (.str (String.join (args.map Value.plain)))

def upperCase (v : Value) : Outcome := (text "upper-case" v).map fun s => .str (Text.upper s)

def lowerCase (v : Value) : Outcome := (text "lower-case" v).map fun s => .str (Text.lower s)

def isString : Value → Bool
  | .str _ => true
  | _ => false

end Scriptlet.Library
