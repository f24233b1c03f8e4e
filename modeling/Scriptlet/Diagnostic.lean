import Scriptlet.Span

/-!
Diagnostics: what every error of the engine turns into before it is shown to a person.
-/

namespace Scriptlet

inductive Severity where
  | error
  | warning
  | info
  deriving DecidableEq, Repr

def Severity.display : Severity → String
  | .error => "error"
  | .warning => "warning"
  | .info => "info"

structure Related where
  span : Span
  message : String
  deriving DecidableEq, Repr

structure Diagnostic where
  severity : Severity
  message : String
  span : Span
  related : List Related
  help : List String
  code : Option String
  deriving DecidableEq, Repr

/-- The message on one line with its code, then one line for each hint. -/
def Diagnostic.summary (d : Diagnostic) : String :=
  let code := match d.code with
    | some c => s!" [{c}]"
    | none => ""
  let help := d.help.map fun h => "\nhelp: " ++ h
  s!"{d.severity.display}: {d.message}{code}" ++ String.join help

/-- Where an error happened, from the outside in. -/
inductive Context where
  | functionCall (name : Option String) (span : Span)
  | specialForm (form : String) (span : Span)
  | definition (what : String) (span : Span)
  deriving DecidableEq, Repr

namespace Context

def span : Context → Span
  | functionCall _ s | specialForm _ s | definition _ s => s

def message : Context → String
  | functionCall (some name) _ => s!"in call to function '{name}'"
  | functionCall none _ => "in function call"
  | specialForm form _ => s!"in `{form}` form"
  | definition what _ => s!"{what} defined here"

def related (c : Context) : Related := ⟨c.span, c.message⟩

end Context

end Scriptlet
