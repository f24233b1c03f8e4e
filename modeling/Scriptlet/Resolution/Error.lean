import Scriptlet.Arity
import Scriptlet.Diagnostic

/-!
What can be wrong with the forms of a script: a name that means nothing, or a special form of the
wrong shape.
-/

namespace Scriptlet

inductive ResolutionFault where
  | malformed (form message : String)
  | unknown (name : String)
  | notAFunction (found : String)
  | wrongCount (name : String) (expected : Arity) (found : Nat)
  | repeatedName (name : String)
  | badTarget (found : String)
  deriving DecidableEq, Repr

namespace ResolutionFault

def message : ResolutionFault → String
  | malformed form message => s!"Malformed `{form}`: {message}"
  | unknown name => s!"Unknown function '{name}'"
  | notAFunction found => s!"{found} is not callable"
  | wrongCount name expected found =>
    s!"'{name}' expects {expected.display} argument(s), got {found}"
  | repeatedName name => s!"Name '{name}' is bound more than once"
  | badTarget found => s!"Expected a symbol to bind, found {found}"

def code : ResolutionFault → String
  | malformed .. => "A001"
  | unknown _ => "A002"
  | notAFunction _ => "A003"
  | wrongCount .. => "A004"
  | repeatedName _ => "A005"
  | badTarget _ => "A006"

/-- How the special forms that have a shape of their own are written. -/
def usage? (form : String) : Option String :=
  if form = "if" then some "(if cond then) or (if cond then else)"
  else if form = "let" then some "(let [name value ...] body ...)"
  else if form = "fn" then some "(fn [param ...] body ...)"
  else if form = "quote" then some "(quote form)"
  else none

def help? : ResolutionFault → Option String
  | malformed form _ => (usage? form).map ("Usage: " ++ ·)
  | unknown _ => some "Only locals and engine globals can be called by name"
  | repeatedName _ => some "Use a nested `let` to rebind a name"
  | notAFunction _ | wrongCount .. | badTarget _ => none

end ResolutionFault

structure ResolutionError where
  fault : ResolutionFault
  span : Span
  context : List Context
  deriving DecidableEq, Repr

namespace ResolutionError

def diagnostic (e : ResolutionError) : Diagnostic :=
  { severity := .error
    message := e.fault.message
    span := e.span
    related := e.context.map Context.related
    help := e.fault.help?.toList
    code := some e.fault.code }

def message (e : ResolutionError) : String := e.diagnostic.summary

end ResolutionError

end Scriptlet
