/-!
The special forms: names at the head of a list that are part of the language.
-/

namespace Scriptlet

inductive SpecialForm where
  | allOf
  | block
  | lambda
  | branch
  | bind
  | anyOf
  | quotation
  deriving DecidableEq, Repr

namespace SpecialForm

def name : SpecialForm → String
  | allOf => "and"
  | block => "do"
  | lambda => "fn"
  | branch => "if"
  | bind => "let"
  | anyOf => "or"
  | quotation => "quote"

def all : List SpecialForm := [allOf, block, lambda, branch, bind, anyOf, quotation]

def ofName? (n : String) : Option SpecialForm := all.find? fun f => f.name == n

theorem ofName?_name (f : SpecialForm) : ofName? f.name = some f := by
  cases f <;> decide

theorem name_of_ofName? {n : String} {f : SpecialForm} (h : ofName? n = some f) : f.name = n := by
  simpa using List.find?_some h

end SpecialForm

def isSpecialName (n : String) : Bool := (SpecialForm.ofName? n).isSome

end Scriptlet
