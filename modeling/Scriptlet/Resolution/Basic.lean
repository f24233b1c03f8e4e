import Scriptlet.Environment
import Scriptlet.Form.Basic
import Scriptlet.Names
import Scriptlet.Resolution.Resolved

/-!
From forms to the compiled tree. A symbol means the innermost local of its name, else the global,
else an entry of the binding. All errors are found, not only the first: a form with an error stands
in the tree as `nil`, and its neighbours are resolved as if nothing had happened.
-/

namespace Scriptlet

/-- What a form can see: the locals in scope, innermost first, each with its level, and the number
of `fn` forms around the form. -/
structure Place where
  locals : List (String × Nat)
  level : Nat
  deriving Repr

namespace Place

def top : Place := ⟨[], 0⟩

def level? (p : Place) (name : String) : Option Nat := p.locals.lookup name

/-- The place after a `let` name is bound. -/
def bind (p : Place) (name : String) : Place := { p with locals := (name, p.level) :: p.locals }

/-- The body of a `fn`. -/
def enter (p : Place) (params : List String) : Place :=
  ⟨params.map (fun n => (n, p.level + 1)) ++ p.locals, p.level + 1⟩

end Place

/-- The name is bound outside of a `fn` that stands at the level, or nowhere in the script. -/
def Use.isOutside (u : Use) (level : Nat) : Bool :=
  match u.level with
  | some l => l ≤ level
  | none => true

/-- The outer names that the body of a `fn` uses, sorted. -/
def captures (level : Nat) (uses : List Use) : List String :=
  sortNames (distinctNames ((uses.filter fun u => u.isOutside level).map (·.name)))

/-- A name that is read from the binding, with its first place in the source. -/
structure FreeName where
  name : String
  span : Span
  deriving DecidableEq, Repr

def freeNames (uses : List Use) : List FreeName :=
  let free := uses.filter fun u => u.level.isNone
  (sortByName (firstOfEach (free.map fun u => (u.name, u.span)))).map fun p => ⟨p.1, p.2⟩

/-- The data that a literal is. A symbol that is only quoted is its name. -/
def Atom.value : Atom → Value
  | nil => .nil
  | bool b => .bool b
  | int i => .int i
  | float x => .float x
  | str s | symbol s => .str s

mutual

/-- A form as data. Both kinds of groups become lists. -/
def Form.quoted : Form → Value
  | .leaf a _ => a.value
  | .group _ items _ => .list (Form.quotedAll items)

def Form.quotedAll : List Form → List Value
  | [] => []
  | f :: fs => Form.quoted f :: Form.quotedAll fs

end

namespace Resolution

def nilAt (span : Span) : Node := .constant .nil span

def fail (fault : ResolutionFault) (span : Span) (context : List Context) : Resolved Node := do
  Resolved.error ⟨fault, span, context⟩
  return nilAt span

def malformed (f : SpecialForm) (message : String) (span : Span) : Resolved Node :=
  fail (.malformed f.name message) span [.specialForm f.name span]

def symbol (env : Environment) (p : Place) (name : String) (span : Span) : Resolved Node :=
  match p.level? name with
  | some level => do
    Resolved.use ⟨name, span, some level⟩
    return .localName name span
  | none =>
    match env.get? name with
    | some v => return .constant v span
    | none =>
      if isSpecialName name then
        fail (.malformed name "special forms cannot be used as values") span []
      else do
        Resolved.use ⟨name, span, none⟩
        return if p.level = 0 then .freeName name span else .localName name span

/-- A call of a name that is no local, with its arguments resolved. -/
def globalCall (env : Environment) (name : String) (head : Span) (args : List Node) (span : Span) :
    Resolved Node :=
  match env.get? name with
  | none => fail (.unknown name) head []
  | some (.function (.native f)) =>
    if f.arity.accepts args.length then return .nativeCall f args span
    else fail (.wrongCount name f.arity args.length) span [.functionCall (some name) head]
  | some (.function f) => return .call (.constant (.function f) head) args span
  | some v =>
    fail (.notAFunction s!"global '{name}' ({v.typeName})") head [.definition s!"'{name}'" head]

/-- Reports a target that cannot be bound. -/
def badTarget (f : SpecialForm) (seen : List String) (target : Form) : Option ResolutionError :=
  let context := [Context.specialForm f.name target.span]
  match target.symbol? with
  | some name =>
    if isSpecialName name then
      some ⟨.badTarget s!"special form '{name}'", target.span, context⟩
    else if name ∈ seen then some ⟨.repeatedName name, target.span, context⟩
    else none
  | none => some ⟨.badTarget target.kindName, target.span, []⟩

/-- The names that a list of targets binds, if all of them can be bound. The second argument holds
the names seen so far, newest first. -/
def targets (f : SpecialForm) (seen : List String) : List Form → Resolved (Option (List String))
  | [] => return some seen.reverse
  | target :: rest =>
    match badTarget f seen target with
    | some e => do
      Resolved.error e
      let _ ← targets f seen rest
      return none
    | none => targets f ((target.symbol?.getD "") :: seen) rest

def quotation (args : List Form) (span : Span) : Resolved Node :=
  match args with
  | [quoted] => return .constant quoted.quoted span
  | _ => malformed .quotation "expects exactly one form" span

/-- The first of every two forms. -/
def firsts : List Form → List Form
  | [] => []
  | [f] => [f]
  | f :: _ :: rest => f :: firsts rest

mutual

def form (env : Environment) (p : Place) : Form → Resolved Node
  | .leaf (.symbol name) span => symbol env p name span
  | .leaf a span => return .constant a.value span
  | .group .square items span => do return .list (← all env p items) span
  | .group .round items span => list env p items span

def all (env : Environment) (p : Place) : List Form → Resolved (List Node)
  | [] => return []
  | f :: fs => do
    let node ← form env p f
    let nodes ← all env p fs
    return node :: nodes

/-- A list is a special form or a call. -/
def list (env : Environment) (p : Place) (items : List Form) (span : Span) : Resolved Node :=
  match items with
  | [] => return .constant (.list []) span
  | head :: args =>
    match head with
    | .leaf (.symbol name) headSpan =>
      match SpecialForm.ofName? name with
      | some .block => do return .block (← all env p args) span
      | some .allOf => do return .allOf (← all env p args) span
      | some .anyOf => do return .anyOf (← all env p args) span
      | some .quotation => quotation args span
      | some .branch => branch env p args span
      | some .bind => bindForm env p args span
      | some .lambda => lambda env p args span
      | none =>
        match p.level? name with
        | some _ => do
          let callee ← symbol env p name headSpan
          let args ← all env p args
          return .call callee args span
        | none => do
          let args ← all env p args
          globalCall env name headSpan args span
    | .group .round _ _ => do
      let callee ← form env p head
      let args ← all env p args
      return .call callee args span
    | _ => do
      let _ ← all env p args
      fail (.notAFunction s!"{head.kindName} literal") head.span []

def branch (env : Environment) (p : Place) (args : List Form) (span : Span) : Resolved Node :=
  match args with
  | [cond, yes] => do
    let cond ← form env p cond
    let yes ← form env p yes
    return .branch cond yes none span
  | [cond, yes, no] => do
    let cond ← form env p cond
    let yes ← form env p yes
    let no ← form env p no
    return .branch cond yes (some no) span
  | _ => malformed .branch s!"expects 2 or 3 forms, got {args.length}" span

def bindForm (env : Environment) (p : Place) (args : List Form) (span : Span) : Resolved Node :=
  match args with
  | .group .square pairs _ :: body =>
    if pairs.length % 2 ≠ 0 then malformed .bind "binding vector needs an even number of forms" span
    else do
      match ← targets .bind [] (firsts pairs) with
      | none => return nilAt span
      | some names => do
        let (bindings, inner) ← bindingsOf env p names pairs
        let body ← all env inner body
        return .bind bindings body span
  | _ => malformed .bind "expects a binding vector" span

def lambda (env : Environment) (p : Place) (args : List Form) (span : Span) : Resolved Node :=
  match args with
  | .group .square params _ :: body => do
    match ← targets .lambda [] params with
    | none => return nilAt span
    | some names => do
      let (body, uses) ← (all env (p.enter names) body).withUses
      return .lambda (.mk names (captures p.level uses) body span)
  | _ => malformed .lambda "expects a parameter vector" span

/-- The values of a `let`, each resolved where the names before it are bound, and the place after
the last one. -/
def bindingsOf (env : Environment) (p : Place) (names : List String) (pairs : List Form) :
    Resolved (List (String × Node) × Place) :=
  match names, pairs with
  | name :: names, _ :: value :: rest => do
    let node ← form env p value
    let (bindings, inner) ← bindingsOf env (p.bind name) names rest
    return ((name, node) :: bindings, inner)
  | _, _ => return ([], p)

end

end Resolution

/-- A script with its names resolved. -/
structure ResolvedScript where
  body : Node
  free : List FreeName

/-- Resolves a script against the globals. -/
def Script.resolve (env : Environment) (script : Script) :
    Except (List ResolutionError) ResolvedScript :=
  let r := Resolution.all env .top script.forms
  if r.errors.isEmpty then
    let body := match r.value with
      | [node] => node
      | nodes => .block nodes script.span
    .ok ⟨body, freeNames r.uses⟩
  else .error r.errors

end Scriptlet
