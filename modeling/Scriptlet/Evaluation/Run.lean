import Scriptlet.Binding
import Scriptlet.Fault
import Scriptlet.Library.Builtin
import Scriptlet.Limits
import Scriptlet.Scope

/-!
One run of a script: what it is given, the state it keeps, and the two ways in which a part of it
works in scopes of its own.
-/

namespace Scriptlet

/-- The program around the engine: what its functions do, and how much time a run has used when it
has taken a number of steps. -/
structure Host where
  perform : Nat → List Value → Except Fault Value
  elapsed : Nat → Duration

namespace Native

/-- Runs the function without counting the arguments. -/
def run (host : Host) (f : Native) (args : List Value) : Except Fault Value :=
  match f.action with
  | .builtin op => op.run args
  | .host handle => host.perform handle args

/-- Runs the function if it takes that many arguments. -/
def call (host : Host) (f : Native) (args : List Value) : Except Fault Value :=
  if f.arity.accepts args.length then f.run host args
  else .error (.wrongCount f.name f.arity args.length)

end Native

/-- What stays the same during a run. The number of the run marks the closures that it makes. -/
structure Run where
  number : Nat
  binding : Binding
  limits : Limits
  elapsed : Nat → Duration
  invoke : Native → List Value → Except Fault Value

/-- The scopes of the function that is running, and counts of the steps taken and the closures
made. -/
structure RunState where
  scopes : Scopes Value
  steps : Nat
  made : Nat

def RunState.start : RunState := ⟨∅, 0, 0⟩

/-- A computation in a run. Steps taken before a failure still count. -/
abbrev Eval := ExceptT Failure (StateM RunState)

namespace Eval

variable {α : Type}

def fault (cause : Fault) (span : Span) : Eval α := throw (.fault cause span)

def ofFault (span : Span) : Except Fault α → Eval α
  | .ok a => pure a
  | .error cause => fault cause span

/-- The value of a name in the scopes. -/
def lookup (name : String) : Eval (Option Value) := return (← get).scopes.lookup name

/-- Works with one scope more, and takes it away afterwards in every case. -/
def inScope (scope : Scope Value) (act : Eval α) : Eval α := fun s =>
  let (result, t) := act { s with scopes := s.scopes.push scope }
  match t.scopes.pop with
  | .ok scopes => (result, { t with scopes })
  | .error _ => (result, t)

/-- Works with other scopes, and goes back to the present ones afterwards in every case. -/
def inFrame (frame : Scopes Value) (act : Eval α) : Eval α := fun s =>
  let (result, t) := act { s with scopes := frame }
  (result, { t with scopes := s.scopes })

/-- Binds in the innermost scope. -/
def bindName (name : String) (value : Value) (span : Span) : Eval Unit := do
  let s ← get
  match s.scopes.bind name value with
  | .ok scopes => set { s with scopes }
  | .error e => fault (.other e.message) span

/-- Counts a step and stops the run at a limit. Time is looked at every 256 steps. -/
def tick (run : Run) (span : Span) : Eval Unit := do
  let s ← get
  let steps := s.steps + 1
  set { s with steps }
  match run.limits.steps with
  | some limit => if limit < steps then fault (.tooManySteps limit) span
  | none => pure ()
  match run.limits.time with
  | some limit =>
    if steps % 256 = 0 ∧ limit.nanos < (run.elapsed steps).nanos then
      fault (.tooLong (run.elapsed steps) limit) span
  | none => pure ()

/-- An identity for the next closure of the run. -/
def newIdentity (run : Run) : Eval Identity := do
  let s ← get
  set { s with made := s.made + 1 }
  return ⟨run.number, s.made⟩

end Eval

end Scriptlet
