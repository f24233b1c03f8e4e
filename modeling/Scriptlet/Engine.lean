import Scriptlet.Artifact
import Scriptlet.Evaluation.Basic
import Scriptlet.Form.Reader
import Scriptlet.Library.Standard
import Scriptlet.Resolution.Basic

/-!
The engine: compile a script once, then evaluate it with as many bindings as wanted.
-/

namespace Scriptlet

/-- Why a script was not compiled. -/
inductive Rejection where
  | unnamed
  | faulty (name source : String) (diagnostics : List Diagnostic)
  deriving DecidableEq, Repr

namespace Rejection

def diagnostics : Rejection → List Diagnostic
  | unnamed => []
  | faulty _ _ diagnostics => diagnostics

def source? : Rejection → Option String
  | unnamed => none
  | faulty _ source _ => some source

def codes (r : Rejection) : List String := r.diagnostics.filterMap (·.code)

def message : Rejection → String
  | unnamed => "script name must not be empty"
  | faulty name _ diagnostics =>
    s!"compilation of `{name}` failed with {diagnostics.length} error(s)"

end Rejection

/-- Globals, with the limits that hold where none are given: on the nesting of a script that is
compiled, and on the evaluation of a program. -/
structure Engine where
  environment : Environment
  nesting : Nat := defaultNesting
  limits : Limits := {}

namespace Engine

def standard : Engine := { environment := .standard }

/-- Compiles a script. The serial number becomes the artifact's. -/
def compile (e : Engine) (serial : Nat) (name source : String) : Except Rejection Artifact :=
  if name.isEmpty then .error .unnamed
  else
    match Script.read e.nesting source with
    | .error err => .error (.faulty name source [err.diagnostic])
    | .ok script =>
      match script.resolve e.environment with
      | .error errs => .error (.faulty name source (errs.map ResolutionError.diagnostic))
      | .ok resolved => .ok ⟨serial, name, resolved.body, resolved.free⟩

end Engine

namespace Artifact

/-- The first free name, in order, that the binding lacks. -/
def missing? (a : Artifact) (b : Binding) : Option FreeName :=
  a.free.find? fun v => !b.contains v.name

def run (host : Host) (number : Nat) (limits : Limits) (b : Binding) : Run :=
  { number, binding := b, limits, elapsed := host.elapsed, invoke := Native.run host }

/-- Evaluates the script with one binding. Every free name must be bound before anything runs. -/
def evaluate (host : Host) (number : Nat) (limits : Limits) (a : Artifact) (b : Binding) :
    Except RunError Value :=
  match a.missing? b with
  | some v => .error ⟨a.name, .unbound v.name v.span⟩
  | none =>
    match (Evaluation.eval (run host number limits b) limits.depth a.body .start).1 with
    | .ok v => .ok v
    | .error failure => .error ⟨a.name, failure⟩

end Artifact

/-- An artifact with the limits that it runs under. -/
structure Program where
  artifact : Artifact
  limits : Limits

namespace Program

def compile (e : Engine) (serial : Nat) (name source : String) : Except Rejection Program :=
  (e.compile serial name source).map fun a => ⟨a, e.limits⟩

def evaluate (host : Host) (number : Nat) (p : Program) (b : Binding) : Except RunError Value :=
  p.artifact.evaluate host number p.limits b

end Program

/-- Any failure on the way from a source text to a value. -/
inductive Error where
  | compiling (r : Rejection)
  | running (e : RunError)
  | binding (e : BindingError)
  | registering (e : RegistrationError)
  deriving DecidableEq, Repr

namespace Error

def message : Error → String
  | compiling r => r.message
  | running e => e.message
  | binding e => e.message
  | registering e => e.message

def diagnostics : Error → List Diagnostic
  | compiling r => r.diagnostics
  | running e => [e.failure.diagnostic]
  | binding _ | registering _ => []

end Error

end Scriptlet
