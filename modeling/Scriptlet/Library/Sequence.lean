import Scriptlet.Library.Number

/-!
Functions on lists. Wherever a list is read, `nil` is the empty one.
-/

namespace Scriptlet.Library

def items (function : String) (v : Value) : Except Fault (List Value) :=
  match v with
  | .nil => .ok []
  | .list vs => .ok vs
  | _ => .error (mismatch function "a list" v)

/-- The items of a list, or the characters of a string, counted. -/
def count (v : Value) : Outcome := do
  let n ← match v with
    | .str s => .ok s.length
    | _ => (items "count" v).map List.length
  (exactly "count" n).map .int

def first (v : Value) : Outcome := (items "first" v).map fun vs => vs.head?.getD .nil

def rest (v : Value) : Outcome := (items "rest" v).map fun vs => .list (vs.drop 1)

def nth (v index : Value) : Outcome := do
  let vs ← items "nth" v
  let i ← integer "nth" index
  match if i < 0 then none else vs[i.toInt.toNat]? with
  | some item => return item
  | none => throw (.badIndex i.toInt vs.length)

/-- Appends to the end. -/
def conj (v : Value) (added : List Value) : Outcome :=
  (items "conj" v).map fun vs => .list (vs ++ added)

def concat (args : List Value) : Outcome :=
  (args.mapM (items "concat")).map fun parts => .list parts.flatten

/-- True for `nil`, the empty string and the empty list. -/
def isEmpty : Value → Outcome
  | .nil => .ok (.bool true)
  | .str s => .ok (.bool s.isEmpty)
  | .list vs => .ok (.bool vs.isEmpty)
  | v => .error (mismatch "empty?" "a string, list or nil" v)

end Scriptlet.Library
