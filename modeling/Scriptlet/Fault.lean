import Scriptlet.Arity
import Scriptlet.Diagnostic
import Scriptlet.Duration

/-!
Failures of an evaluation. A name that the binding does not supply is one kind, a fault of the
script itself the other; both carry the span of the node that failed.
-/

namespace Scriptlet

/-- The cause of a runtime fault. -/
inductive Fault where
  | zeroDivisor
  | overflow (function : String)
  | wrongType (function expected found : String)
  | wrongCount (function : String) (expected : Arity) (found : Nat)
  | notAFunction (found : String)
  | badIndex (index : Int) (length : Nat)
  | tooDeep (depth maxDepth : Nat)
  | tooManySteps (maxSteps : Nat)
  | tooLong (elapsed limit : Duration)
  | other (message : String)
  deriving DecidableEq, Repr

namespace Fault

def message : Fault → String
  | zeroDivisor => "Division by zero"
  | overflow function => s!"Integer overflow in '{function}'"
  | wrongType function expected found => s!"'{function}' expected {expected}, found {found}"
  | wrongCount function expected found =>
    s!"'{function}' expects {expected.display} argument(s), got {found}"
  | notAFunction found => s!"Value of type {found} is not callable"
  | badIndex index length => s!"Index {index} out of bounds (length: {length})"
  | tooDeep depth maxDepth =>
    s!"Evaluation stack overflow at depth {depth} (limit {maxDepth})"
  | tooManySteps maxSteps => s!"Evaluation exceeded the limit of {maxSteps} steps"
  | tooLong elapsed limit =>
    s!"Evaluation timed out after {elapsed.display} (limit {limit.display})"
  | other message => message

def code : Fault → String
  | zeroDivisor => "R101"
  | overflow _ => "R102"
  | wrongType .. => "R103"
  | wrongCount .. => "R104"
  | notAFunction _ => "R105"
  | badIndex .. => "R106"
  | tooDeep .. => "R201"
  | tooManySteps _ => "R202"
  | tooLong .. => "R203"
  | other _ => "R999"

/-- The function that the fault blames. -/
def function? : Fault → Option String
  | overflow function | wrongType function _ _ | wrongCount function _ _ =>
    some function
  | _ => none

/-- A limit was reached, so the script itself need not be wrong. -/
def isResource : Fault → Bool
  | tooDeep .. | tooManySteps _ | tooLong .. => true
  | _ => false

end Fault

/-- Why evaluating a node gave no value. -/
inductive Failure where
  | unbound (name : String) (span : Span)
  | fault (cause : Fault) (span : Span)
  deriving DecidableEq, Repr

namespace Failure

def span : Failure → Span
  | unbound _ s | fault _ s => s

def fault? : Failure → Option Fault
  | fault cause _ => some cause
  | unbound .. => none

def isUnbound : Failure → Bool
  | unbound .. => true
  | fault .. => false

def diagnostic : Failure → Diagnostic
  | unbound name span =>
    { severity := .error
      message := s!"Unbound symbol '{name}'"
      span
      related := []
      help := [s!"Add '{name}' to the binding passed to evaluate"]
      code := some "R001" }
  | fault cause span =>
    { severity := .error
      message := cause.message
      span
      related := cause.function?.toList.map fun f => (Context.functionCall (some f) span).related
      help := []
      code := some cause.code }

end Failure

/-- The failure of one evaluation, with the name of the script that was evaluated. -/
structure RunError where
  script : String
  failure : Failure
  deriving DecidableEq, Repr

def RunError.message (e : RunError) : String :=
  match e.failure with
  | .unbound name _ => s!"unbound symbol `{name}` in script `{e.script}`"
  | .fault cause _ => s!"runtime fault in script `{e.script}`: {cause.message}"

end Scriptlet
