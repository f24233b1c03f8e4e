import Scriptlet.Evaluation.Run

/-!
Evaluating the compiled tree. The recursion is on the depth that is left, so evaluation ends
whatever the script does.
-/

namespace Scriptlet

namespace Evaluation

/-- Evaluates in order and gives the last value. -/
def body (ev : Node → Eval Value) (last : Value) : List Node → Eval Value
  | [] => return last
  | n :: rest => do
    let v ← ev n
    body ev v rest

/-- Evaluates in order up to the first value that decides. -/
def firstDeciding (ev : Node → Eval Value) (decides : Value → Bool) (last : Value) :
    List Node → Eval Value
  | [] => return last
  | n :: rest => do
    let v ← ev n
    if decides v then return v else firstDeciding ev decides v rest

def args (ev : Node → Eval Value) : List Node → Eval (List Value)
  | [] => return []
  | n :: rest => do
    let v ← ev n
    let vs ← args ev rest
    return v :: vs

/-- Binds names one after the other, each value evaluated where the ones before it are bound. -/
def bindAll (ev : Node → Eval Value) (span : Span) : List (String × Node) → Eval Unit
  | [] => return ()
  | (name, n) :: rest => do
    let v ← ev n
    Eval.bindName name v span
    bindAll ev span rest

def bind (ev : Node → Eval Value) (bindings : List (String × Node)) (nodes : List Node)
    (span : Span) : Eval Value :=
  match Scope.declare (bindings.map (·.1)) with
  | .error e => Eval.fault (.other e.message) span
  | .ok scope => Eval.inScope scope do
    bindAll ev span bindings
    body ev .nil nodes

/-- The value that a closure keeps of an outer name. -/
def captured (run : Run) (name : String) (span : Span) : Eval Value := do
  match ← Eval.lookup name with
  | some v => return v
  | none =>
    match run.binding.get? name with
    | some v => return v
    | none => throw (.unbound name span)

def capturedAll (run : Run) (span : Span) : List String → Eval (List (String × Value))
  | [] => return []
  | name :: rest => do
    let v ← captured run name span
    let vs ← capturedAll run span rest
    return (name, v) :: vs

def closure (run : Run) (l : Lambda) : Eval Value := do
  let kept ← capturedAll run l.span l.captures
  let id ← Eval.newIdentity run
  return .function (.closure id l (sortByName kept))

/-- Runs the body of a closure where only its captures and parameters can be seen. -/
def enter (ev : Node → Eval Value) (l : Lambda) (kept : List (String × Value))
    (values : List Value) (span : Span) : Eval Value :=
  match Scope.ofEntries (l.params.zip values) with
  | .error e => Eval.fault (.other e.message) span
  | .ok params => Eval.inFrame ⟨[params, Scope.ofSorted kept]⟩ (body ev .nil l.body)

/-- Calls a value that was computed. -/
def apply (run : Run) (ev : Node → Eval Value) (callee : Value) (values : List Value)
    (span : Span) : Eval Value :=
  match callee with
  | .function f =>
    if f.arity.accepts values.length then
      match f with
      | .native f => Eval.ofFault span (run.invoke f values)
      | .closure _ l kept => enter ev l kept values span
    else Eval.fault (.wrongCount (f.name?.getD "fn") f.arity values.length) span
  | v => Eval.fault (.notAFunction v.typeName) span

/-- Evaluates a node by evaluating its parts. -/
def dispatch (run : Run) (ev : Node → Eval Value) : Node → Eval Value
  | .constant v _ => return v
  | .localName name span => do
    match ← Eval.lookup name with
    | some v => return v
    | none => throw (.unbound name span)
  | .freeName name span =>
    match run.binding.get? name with
    | some v => return v
    | none => throw (.unbound name span)
  | .list items _ => return .list (← args ev items)
  | .branch cond yes no _ => do
    let c ← ev cond
    if c.isTruthy then ev yes
    else match no with
      | some no => ev no
      | none => return .nil
  | .block nodes _ => body ev .nil nodes
  | .bind bindings nodes span => bind ev bindings nodes span
  | .lambda l => closure run l
  | .allOf items _ => firstDeciding ev (fun v => !v.isTruthy) (.bool true) items
  | .anyOf items _ => firstDeciding ev Value.isTruthy .nil items
  | .nativeCall f nodes span => do
    let values ← args ev nodes
    Eval.ofFault span (run.invoke f values)
  | .call callee nodes span => do
    let f ← ev callee
    let values ← args ev nodes
    apply run ev f values span

/-- Evaluates a node where so many levels of depth are left. -/
def eval (run : Run) : Nat → Node → Eval Value
  | 0, n => Eval.fault (.tooDeep run.limits.depth run.limits.depth) n.span
  | room + 1, n => do
    Eval.tick run n.span
    dispatch run (eval run room) n

end Evaluation

end Scriptlet
