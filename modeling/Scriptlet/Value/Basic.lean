import Scriptlet.Arity
import Scriptlet.Span

/-!
Runtime values and the compiled tree. The two belong together: a closure is a value that holds a
compiled body, and a node may hold a constant that is any value.
-/

namespace Scriptlet

/-- What tells one function value from another: who made it, and as which one in order. -/
structure Identity where
  maker : Nat
  serial : Nat
  deriving DecidableEq, Repr, Inhabited

/-- The operations of the standard library. -/
inductive Builtin where
  | add | subtract | multiply | divide | quot | rem | mod | inc | dec | abs | min | max
  | equal | notEqual | less | greater | atMost | atLeast
  | not | isNil | isZero | isEmpty | isNumber | isString
  | str | upperCase | lowerCase
  | list | count | first | rest | nth | conj | concat
  deriving DecidableEq, Repr

/-- What a native function runs: an operation of the standard library, or a function of the host
program that is known to the engine by its number only. -/
inductive Action where
  | builtin (op : Builtin)
  | host (handle : Nat)
  deriving DecidableEq, Repr

structure Native where
  id : Identity
  name : String
  arity : Arity
  doc : String
  action : Action
  deriving DecidableEq, Repr

mutual

inductive Value where
  | nil
  | bool (b : Bool)
  | int (i : Int64)
  | float (x : Float)
  | str (s : String)
  | list (items : List Value)
  | function (f : Function)

inductive Function where
  | native (f : Native)
  /-- A `fn` value with the outer values that it read when it was made, sorted by name. -/
  | closure (id : Identity) (lambda : Lambda) (captured : List (String × Value))

/-- A compiled `fn`. The captures are the outer names that the body reads, sorted. -/
inductive Lambda where
  | mk (params captures : List String) (body : List Node) (span : Span)

inductive Node where
  | constant (value : Value) (span : Span)
  /-- Bound by an enclosing `let`, a parameter or a capture. -/
  | localName (name : String) (span : Span)
  /-- Read from the binding. -/
  | freeName (name : String) (span : Span)
  | list (items : List Node) (span : Span)
  | branch (cond yes : Node) (no : Option Node) (span : Span)
  | block (body : List Node) (span : Span)
  | bind (bindings : List (String × Node)) (body : List Node) (span : Span)
  | lambda (l : Lambda)
  | allOf (items : List Node) (span : Span)
  | anyOf (items : List Node) (span : Span)
  /-- A call of a native function that is known at compile time. -/
  | nativeCall (f : Native) (args : List Node) (span : Span)
  | call (callee : Node) (args : List Node) (span : Span)

end

instance : Inhabited Value := ⟨.nil⟩

namespace Lambda

def params : Lambda → List String
  | mk params _ _ _ => params

def captures : Lambda → List String
  | mk _ captures _ _ => captures

def body : Lambda → List Node
  | mk _ _ body _ => body

def span : Lambda → Span
  | mk _ _ _ span => span

end Lambda

def Node.span : Node → Span
  | constant _ s | localName _ s | freeName _ s | list _ s | branch _ _ _ s | block _ s
  | bind _ _ s | allOf _ s | anyOf _ s | nativeCall _ _ s | call _ _ s => s
  | lambda l => l.span

namespace Function

def name? : Function → Option String
  | native f => some f.name
  | closure .. => none

def arity : Function → Arity
  | native f => f.arity
  | closure _ l _ => .exactly l.params.length

/-- The same function, not merely one that does the same. -/
def same : Function → Function → Bool
  | native f, native g => f.id == g.id
  | closure f _ _, closure g _ _ => f == g
  | _, _ => false

end Function

namespace Value

def typeName : Value → String
  | nil => "nil"
  | bool _ => "boolean"
  | int _ => "integer"
  | float _ => "float"
  | str _ => "string"
  | list _ => "list"
  | function _ => "function"

/-- Everything but `nil` and `false` counts as true. -/
def isTruthy : Value → Bool
  | nil | bool false => false
  | _ => true

def isNil : Value → Bool
  | nil => true
  | _ => false

def bool? : Value → Option Bool
  | bool b => some b
  | _ => none

def int? : Value → Option Int64
  | int i => some i
  | _ => none

/-- Integers are widened. -/
def float? : Value → Option Float
  | float x => some x
  | int i => some (Float.ofInt i.toInt)
  | _ => none

def str? : Value → Option String
  | str s => some s
  | _ => none

def list? : Value → Option (List Value)
  | list items => some items
  | _ => none

def function? : Value → Option Function
  | function f => some f
  | _ => none

end Value

end Scriptlet
