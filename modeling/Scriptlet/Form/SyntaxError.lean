import Scriptlet.Diagnostic

/-!
Why a source text cannot be read as forms.
-/

namespace Scriptlet

inductive SyntaxFault where
  | unexpected (expected found : String)
  | unclosed (delimiter : Char)
  | badNumber (text : String)
  | badEscape (sequence : String)
  | tooDeep (depth maxDepth : Nat)
  | other (message : String)
  deriving DecidableEq, Repr

namespace SyntaxFault

def message : SyntaxFault → String
  | unexpected expected found => s!"Expected {expected}, found {found}"
  | unclosed delimiter => s!"Unclosed delimiter '{delimiter}'"
  | badNumber text => s!"Invalid number literal '{text}'"
  | badEscape sequence => s!"Unknown escape sequence '{sequence}'"
  | tooDeep _ maxDepth => s!"Expression nesting depth exceeds maximum of {maxDepth} levels"
  | other message => message

def code : SyntaxFault → String
  | unexpected .. => "P001"
  | unclosed _ => "P002"
  | badNumber _ => "P003"
  | tooDeep .. => "P004"
  | badEscape _ => "P005"
  | other _ => "P999"

def help : SyntaxFault → List String
  | unclosed _ => ["Add the missing closing delimiter"]
  | badNumber _ => ["Integers must fit in 64 bits"]
  | tooDeep .. => ["Reduce nesting or simplify the expression"]
  | badEscape _ => ["Supported escapes are \\n, \\t, \\r, \\\" and \\\\"]
  | unexpected .. | other _ => []

end SyntaxFault

structure SyntaxError where
  fault : SyntaxFault
  span : Span
  context : List Context
  deriving DecidableEq, Repr

namespace SyntaxError

def new (fault : SyntaxFault) (span : Span) : SyntaxError := ⟨fault, span, []⟩

def diagnostic (e : SyntaxError) : Diagnostic :=
  { severity := .error
    message := e.fault.message
    span := e.span
    related := e.context.map Context.related
    help := e.fault.help
    code := some e.fault.code }

def message (e : SyntaxError) : String := e.diagnostic.summary

end SyntaxError

end Scriptlet
