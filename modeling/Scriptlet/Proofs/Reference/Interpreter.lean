import Scriptlet.Evaluation.Run
import Scriptlet.Resolution.Basic

/-!
A reference interpreter. It runs on the forms of a script as they were read, with an environment that
is passed along: a symbol means its innermost local, else the global, else the entry of the binding.
A `fn` keeps the whole environment that it stands in. A function value is only a token here; what it
stands for is in the store.
-/

namespace Scriptlet

namespace Reference

/-- What names stand for. The innermost local comes first. -/
structure Env where
  locals : List (String × Value)
  globals : String → Option Value
  binding : String → Option Value

namespace Env

def value? (env : Env) (x : String) : Option Value :=
  (env.locals.lookup x).or ((env.globals x).or (env.binding x))

def bind (env : Env) (x : String) (v : Value) : Env :=
  { env with locals := (x, v) :: env.locals }

def enter (env : Env) (params : List String) (values : List Value) : Env :=
  { env with locals := params.zip values ++ env.locals }

end Env

/-- What the token of a function stands for. -/
structure Code where
  params : List String
  body : List Form
  env : Env

/-- The code of the functions that there are, and the number of those made by this run. -/
structure Store where
  code : Identity → Option Code
  made : Nat

/-- The store after one more function is made. -/
def Store.add (store : Store) (id : Identity) (c : Code) : Store :=
  ⟨fun i => if i = id then some c else store.code i, store.made + 1⟩

/-- Why there is no value: the script fails, a form means nothing, or there is no more fuel. -/
inductive Stop where
  | failed (e : Failure)
  | malformed (span : Span)
  | spent
  deriving DecidableEq, Repr

abbrev Interp := ExceptT Stop (StateM Store)

/-- What stays the same during a run. -/
structure World where
  number : Nat
  invoke : Native → List Value → Except Fault Value

/-- A way to evaluate forms. -/
abbrev Meaning := Env → Form → Interp Value

variable {α : Type}

def fault (cause : Fault) (span : Span) : Interp α := throw (.failed (.fault cause span))

def ofFault (span : Span) : Except Fault α → Interp α
  | .ok a => pure a
  | .error cause => fault cause span

/-- A function value without code of its own. -/
def token (id : Identity) (params : List String) : Value :=
  .function (.closure id (.mk params [] [] ⟨0, 0⟩) [])

def symbol (env : Env) (x : String) (span : Span) : Interp Value :=
  match env.value? x with
  | some v => return v
  | none => throw (.failed (.unbound x span))

/-- The last value of a sequence. -/
def body (ev : Form → Interp Value) (last : Value) : List Form → Interp Value
  | [] => return last
  | f :: rest => do
    let v ← ev f
    body ev v rest

/-- The first value that decides, else the last one. -/
def firstDeciding (ev : Form → Interp Value) (decides : Value → Bool) (last : Value) :
    List Form → Interp Value
  | [] => return last
  | f :: rest => do
    let v ← ev f
    if decides v then return v else firstDeciding ev decides v rest

def all (ev : Form → Interp Value) : List Form → Interp (List Value)
  | [] => return []
  | f :: rest => do
    let v ← ev f
    let vs ← all ev rest
    return v :: vs

/-- The environment after the names of a `let` are bound, one after the other. -/
def bindings (ev : Meaning) (env : Env) : List Form → Interp Env
  | [] => return env
  | .leaf (.symbol x) _ :: f :: rest => do
    let v ← ev env f
    bindings ev (env.bind x v) rest
  | target :: _ => throw (.malformed target.span)

def function (w : World) (env : Env) (params forms : List Form) (span : Span) : Interp Value :=
  match params.mapM Form.symbol? with
  | none => throw (.malformed span)
  | some names => do
    let store ← get
    let id : Identity := ⟨w.number, store.made⟩
    set (store.add id ⟨names, forms, env⟩)
    return token id names

def apply (w : World) (ev : Meaning) (callee : Value) (values : List Value) (span : Span) :
    Interp Value :=
  match callee with
  | .function (.native f) =>
    if f.arity.accepts values.length then ofFault span (w.invoke f values)
    else fault (.wrongCount f.name f.arity values.length) span
  | .function (.closure id _ _) => do
    let store ← get
    match store.code id with
    | none => throw (.malformed span)
    | some c =>
      if values.length = c.params.length then body (ev (c.env.enter c.params values)) .nil c.body
      else fault (.wrongCount "fn" (.exactly c.params.length) values.length) span
  | v => fault (.notAFunction v.typeName) span

def special (w : World) (ev : Meaning) (env : Env) (args : List Form) (span : Span) :
    SpecialForm → Interp Value
  | .block => body (ev env) .nil args
  | .allOf => firstDeciding (ev env) (fun v => !v.isTruthy) (.bool true) args
  | .anyOf => firstDeciding (ev env) Value.isTruthy .nil args
  | .quotation =>
    match args with
    | [f] => return Form.quoted f
    | _ => throw (.malformed span)
  | .branch =>
    match args with
    | [cond, yes] => do
      let c ← ev env cond
      if c.isTruthy then ev env yes else return .nil
    | [cond, yes, no] => do
      let c ← ev env cond
      if c.isTruthy then ev env yes else ev env no
    | _ => throw (.malformed span)
  | .bind =>
    match args with
    | .group .square pairs _ :: forms => do
      let inner ← bindings ev env pairs
      body (ev inner) .nil forms
    | _ => throw (.malformed span)
  | .lambda =>
    match args with
    | .group .square params _ :: forms => function w env params forms span
    | _ => throw (.malformed span)

/-- A form, by way of its parts. -/
def form (w : World) (ev : Meaning) (env : Env) : Form → Interp Value
  | .leaf (.symbol x) span => symbol env x span
  | .leaf a _ => return a.value
  | .group .square items _ => do
    let values ← all (ev env) items
    return .list values
  | .group .round [] _ => return .list []
  | .group .round (head :: args) span =>
    match (Form.symbol? head).bind SpecialForm.ofName? with
    | some f => special w ev env args span f
    | none => do
      let callee ← ev env head
      let values ← all (ev env) args
      apply w ev callee values span

/-- Every level of forms uses up fuel. -/
def eval (w : World) : Nat → Meaning
  | 0 => fun _ _ => throw .spent
  | fuel + 1 => form w (eval w fuel)

/-- The last value of a script. -/
def script (w : World) (fuel : Nat) (env : Env) (s : Script) : Interp Value :=
  body (eval w fuel env) .nil s.forms

end Reference

end Scriptlet
