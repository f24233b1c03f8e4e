import Scriptlet.Names
import Scriptlet.Value.Basic

/-!
The input of one evaluation: a value for each of some names. Building one either succeeds as a
whole or reports why it cannot be built; a repeated name is never resolved silently.
-/

namespace Scriptlet

/-- Entries are sorted by name, and no name occurs twice. -/
structure Binding where
  entries : List (String × Value)
  sorted : entries.Pairwise fun a b => a.1 < b.1

inductive BindingError where
  | oddCount (count : Nat)
  | badName (position : Nat) (found : String)
  | repeatedName (name : String)
  deriving DecidableEq, Repr

def BindingError.message : BindingError → String
  | oddCount count => s!"binding needs an even number of name/value tokens, got {count}"
  | badName position found =>
    s!"binding token {position} must be a non-empty string name, found {found}"
  | repeatedName name => s!"name '{name}' appears more than once in the binding"

namespace Binding

def empty : Binding := ⟨[], .nil⟩

instance : EmptyCollection Binding := ⟨empty⟩

def ofEntries (entries : List (String × Value)) : Except BindingError Binding :=
  let sorted := sortByName entries
  if h : adjacentRepeat? sorted = none then
    .ok ⟨sorted, pairwise_lt_of_adjacentRepeat? (pairwise_sortBy _ entries) h⟩
  else .error (.repeatedName ((adjacentRepeat? sorted).get (Option.isSome_iff_ne_none.2 h)))

/-- The position of the first empty name, if there is one. -/
def emptyName? (pairs : List (String × Value)) : Option Nat :=
  pairs.findIdx? fun p => p.1.isEmpty

def ofPairs (pairs : List (String × Value)) : Except BindingError Binding :=
  match emptyName? pairs with
  | some i => .error (.badName (2 * i) "an empty string")
  | none => ofEntries pairs

/-- Reads names and values in turn. The position counts tokens from the start. -/
def pairTokens (position : Nat) : List Value → Except BindingError (List (String × Value))
  | name :: value :: rest =>
    match name with
    | .str s =>
      if s.isEmpty then .error (.badName position "an empty string")
      else (pairTokens (position + 2) rest).map fun pairs => (s, value) :: pairs
    | other => .error (.badName position other.typeName)
  | _ => .ok []

/-- A binding from a flat list in which names and values alternate. -/
def ofTokens (tokens : List Value) : Except BindingError Binding :=
  if tokens.length % 2 = 0 then
    match pairTokens 0 tokens with
    | .error e => .error e
    | .ok pairs => ofEntries pairs
  else .error (.oddCount tokens.length)

def get? (b : Binding) (name : String) : Option Value := b.entries.lookup name

def contains (b : Binding) (name : String) : Bool := (b.get? name).isSome

def size (b : Binding) : Nat := b.entries.length

def isEmpty (b : Binding) : Bool := b.entries.isEmpty

/-- The bound names in order. -/
def names (b : Binding) : List String := b.entries.map (·.1)

end Binding

end Scriptlet
