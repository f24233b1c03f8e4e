import Scriptlet.Json.Number
import Scriptlet.Json.Quoted

/-!
Values from JSON text. Reading stops at the first thing that is wrong, so an object before the end
of a broken text is reported as an object.
-/

namespace Scriptlet.Json

def isSpace (c : Char) : Bool := " \n\t\r".toList.contains c

def skipSpace (cs : List Char) : List Char := cs.dropWhile isSpace

/-- Takes a fixed word off the front. -/
def word (w : String) (v : Value) (cs : List Char) : Except ReadError (Value × List Char) :=
  if w.toList.isPrefixOf cs then .ok (v, cs.drop w.length) else .error .malformed

/-- The items of an array after its first bracket, and what follows the array. No array has more
items than its text has characters, which is what the first number is. -/
def items (read : List Char → Except ReadError (Value × List Char)) :
    Nat → List Char → Except ReadError (List Value × List Char)
  | 0, _ => .error .malformed
  | bound + 1, cs => do
    let (v, cs) ← read cs
    match skipSpace cs with
    | ']' :: rest => return ([v], rest)
    | ',' :: rest =>
      let (vs, rest) ← items read bound rest
      return (v :: vs, rest)
    | _ => throw .malformed

def array (read : List Char → Except ReadError (Value × List Char)) (cs : List Char) :
    Except ReadError (List Value × List Char) :=
  match skipSpace cs with
  | ']' :: rest => .ok ([], rest)
  | _ => items read (cs.length + 1) cs

/-- Reads a value in which arrays nest no deeper than the first number says. -/
def value : Nat → List Char → Except ReadError (Value × List Char)
  | depth, cs =>
    match skipSpace cs with
    | [] => .error .malformed
    | c :: rest =>
      if c = '[' then
        match depth with
        | 0 => .error .malformed
        | depth + 1 => (array (value depth) rest).map fun (vs, rest) => (.list vs, rest)
      else if c = '\x7b' then
        match depth with
        | 0 => .error .malformed
        | _ + 1 => .error .object
      else if c = '"' then (unquote rest).map fun (s, rest) => (.str (String.ofList s), rest)
      else if c = 'n' then word "null" .nil (c :: rest)
      else if c = 't' then word "true" (.bool true) (c :: rest)
      else if c = 'f' then word "false" (.bool false) (c :: rest)
      else if c = '-' ∨ c.isDigit then number (c :: rest)
      else .error .malformed

/-- How deep arrays and objects may nest. -/
def maxNesting : Nat := 127

end Scriptlet.Json

namespace Scriptlet

/-- The value of a JSON text, with nothing after it but space. -/
def Value.ofJson (text : String) : Except Json.ReadError Value := do
  let (v, rest) ← Json.value Json.maxNesting text.toList
  if (Json.skipSpace rest).isEmpty then return v else throw .malformed

end Scriptlet
