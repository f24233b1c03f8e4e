import Scriptlet.Fault
import Scriptlet.Form.Word
import Scriptlet.Value.Equality

/-!
Numbers: arithmetic and order. Integer results are exact or a fault; an operation with a float on
either side is done in floats.
-/

namespace Scriptlet.Library

abbrev Outcome := Except Fault Value

def mismatch (function expected : String) (found : Value) : Fault :=
  .wrongType function expected found.typeName

def number (function : String) (v : Value) : Except Fault Float :=
  match v.float? with
  | some x => .ok x
  | none => .error (mismatch function "a number" v)

def integer (function : String) (v : Value) : Except Fault Int64 :=
  match v.int? with
  | some i => .ok i
  | none => .error (mismatch function "an integer" v)

/-- An exact integer result. -/
def exactly (function : String) (i : Int) : Except Fault Int64 :=
  match int64? i with
  | some i => .ok i
  | none => .error (.overflow function)

inductive Operator where
  | add
  | sub
  | mul
  | div
  deriving DecidableEq, Repr

/-- Division truncates toward zero. -/
def Operator.onInts (op : Operator) (function : String) (a b : Int64) : Except Fault Int64 :=
  match op with
  | add => exactly function (a.toInt + b.toInt)
  | sub => exactly function (a.toInt - b.toInt)
  | mul => exactly function (a.toInt * b.toInt)
  | div => if b = 0 then .error .zeroDivisor else exactly function (a.toInt.tdiv b.toInt)

def Operator.onFloats (op : Operator) (x y : Float) : Float :=
  match op with
  | add => x + y
  | sub => x - y
  | mul => x * y
  | div => x / y

def binary (op : Operator) (function : String) (a b : Value) : Outcome :=
  match a, b with
  | .int i, .int j => (op.onInts function i j).map .int
  | _, _ => do
    let x ← number function a
    let y ← number function b
    return .float (op.onFloats x y)

/-- Combines the arguments from left to right, starting with the first. -/
def combine (op : Operator) (function : String) : List Value → Outcome
  | [] => .error (.wrongCount function (.atLeast 1) 0)
  | first :: rest => do
    let _ ← number function first
    rest.foldlM (binary op function) first

def add (args : List Value) : Outcome :=
  if args.isEmpty then .ok (.int 0) else combine .add "+" args

def multiply (args : List Value) : Outcome :=
  if args.isEmpty then .ok (.int 1) else combine .mul "*" args

/-- A single argument is negated. -/
def subtract : List Value → Outcome
  | [.int i] => (exactly "-" (-i.toInt)).map .int
  | [v] => (number "-" v).map fun x => .float (-x)
  | args => combine .sub "-" args

/-- The reciprocal of a single argument. -/
def divide : List Value → Outcome
  | [v] => binary .div "/" (.int 1) v
  | args => combine .div "/" args

/-- Two integers of which the second is not zero. -/
def dividend (function : String) (a b : Value) : Except Fault (Int64 × Int64) := do
  let i ← integer function a
  let j ← integer function b
  if j = 0 then .error .zeroDivisor else .ok (i, j)

def quot (a b : Value) : Outcome := do
  let (i, j) ← dividend "quot" a b
  (exactly "quot" (i.toInt.tdiv j.toInt)).map .int

/-- The remainder that belongs to a quotient. It is taken together with the quotient, so it faults
where the quotient does. -/
def remainder (function : String) (i j : Int64) : Except Fault Int64 := do
  let _ ← exactly function (i.toInt.tdiv j.toInt)
  return Int64.ofInt (i.toInt.tmod j.toInt)

/-- The remainder with the sign of the dividend. -/
def rem (a b : Value) : Outcome := do
  let (i, j) ← dividend "rem" a b
  (remainder "rem" i j).map .int

/-- The remainder with the sign of the divisor. -/
def mod (a b : Value) : Outcome := do
  let (i, j) ← dividend "mod" a b
  let r ← remainder "mod" i j
  if r ≠ 0 ∧ decide (r < 0) ≠ decide (j < 0) then return .int (r + j) else return .int r

def inc (v : Value) : Outcome := binary .add "inc" v (.int 1)

def dec (v : Value) : Outcome := binary .sub "dec" v (.int 1)

def abs : Value → Outcome
  | .int i => (exactly "abs" i.toInt.natAbs).map .int
  | v => (number "abs" v).map fun x => .float x.abs

inductive Comparison where
  | less
  | greater
  | atMost
  | atLeast
  deriving DecidableEq, Repr

def Comparison.holds : Comparison → Ordering → Bool
  | less, o => o == .lt
  | greater, o => o == .gt
  | atMost, o => o != .gt
  | atLeast, o => o != .lt

/-- A NaN has no place in the order. -/
def compareFloats? (x y : Float) : Option Ordering :=
  if x < y then some .lt else if x == y then some .eq else if y < x then some .gt else none

def compareInts (i j : Int) : Ordering := if i < j then .lt else if i = j then .eq else .gt

/-- Texts are ordered by code point. -/
def compareTexts (s t : String) : Ordering := if s < t then .lt else if s = t then .eq else .gt

/-- The order of two numbers or two texts. -/
def order (function : String) (a b : Value) : Except Fault (Option Ordering) :=
  match a, b with
  | .int i, .int j => .ok (some (compareInts i.toInt j.toInt))
  | .str s, .str t => .ok (some (compareTexts s t))
  | _, _ => do
    let x ← number function a
    let y ← number function b
    return compareFloats? x y

def compares (c : Comparison) (function : String) (a b : Value) : Except Fault Bool := do
  match ← order function a b with
  | some o => return c.holds o
  | none => return false

/-- Keeps the best argument so far, as it is. -/
def best (c : Comparison) (function : String) : List Value → Outcome
  | [] => .error (.wrongCount function (.atLeast 1) 0)
  | first :: rest => do
    let _ ← number function first
    rest.foldlM (fun best v => do
      let _ ← number function v
      return if ← compares c function v best then v else best) first

/-- Every two neighbours compare as wanted. The first pair that does not ends the search. -/
def ordered (c : Comparison) (function : String) : List Value → Except Fault Bool
  | a :: b :: rest => do
    if ← compares c function a b then ordered c function (b :: rest) else return false
  | _ => .ok true

def isComparable : Value → Bool
  | .int _ | .float _ | .str _ => true
  | _ => false

def chain (c : Comparison) (function : String) (args : List Value) : Outcome :=
  match args with
  | [v] => if isComparable v then .ok (.bool true) else .error (mismatch function "a number or string" v)
  | _ => (ordered c function args).map .bool

/-- Every two neighbours are alike. -/
def allAlike : List Value → Bool
  | a :: b :: rest => a.alike b && allAlike (b :: rest)
  | _ => true

def isZero (v : Value) : Outcome := (number "zero?" v).map fun x => .bool (x == 0)

def isNumber : Value → Bool
  | .int _ | .float _ => true
  | _ => false

end Scriptlet.Library
