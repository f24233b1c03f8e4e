import Scriptlet.Names

/-!
Scopes in which names are looked up, innermost scope first. A fixed scope is complete when it is
made. A growing scope declares its names at once and binds each of them at most once later; until
then the name is not seen in it, and outer scopes show through.
-/

namespace Scriptlet

inductive Scope (α : Type) where
  | fixed (entries : List (String × α))
  | growing (slots : List (String × Option α))
  deriving Repr

/-- Why a scope could not be made, bound in or taken away. -/
inductive ScopeError where
  | repeated (name : String)
  | outside
  | fixed
  | bound (name : String)
  | undeclared (name : String)
  | nothingToPop
  deriving DecidableEq, Repr

def ScopeError.message : ScopeError → String
  | repeated name => s!"Duplicate name '{name}' in scope"
  | outside => "No scope to bind in"
  | fixed => "Cannot bind in immutable scope"
  | bound name => s!"Name '{name}' already bound in current scope"
  | undeclared name => s!"Name '{name}' not declared in current scope"
  | nothingToPop => "Cannot pop from empty scope stack"

namespace Scope

variable {α : Type}

/-- A fixed scope of entries that the caller has sorted. Of equal names the last one counts. -/
def ofSorted (entries : List (String × α)) : Scope α := .fixed entries.reverse

def ofEntries (entries : List (String × α)) : Except ScopeError (Scope α) :=
  let sorted := sortByName entries
  match adjacentRepeat? sorted with
  | some name => .error (.repeated name)
  | none => .ok (.fixed sorted)

/-- A scope that will bind the given names one by one. -/
def declare (names : List String) : Except ScopeError (Scope α) :=
  let sorted := sortByName (names.map fun n => (n, none))
  match adjacentRepeat? sorted with
  | some name => .error (.repeated name)
  | none => .ok (.growing sorted)

def lookup (name : String) : Scope α → Option α
  | fixed entries => entries.lookup name
  | growing slots => (slots.lookup name).join

/-- Puts a value under a name that is already there. -/
def fill (name : String) (value : α) : List (String × Option α) → List (String × Option α)
  | [] => []
  | (n, v) :: rest => if n = name then (n, some value) :: rest else (n, v) :: fill name value rest

def bind (name : String) (value : α) : Scope α → Except ScopeError (Scope α)
  | fixed _ => .error .fixed
  | growing slots =>
    match slots.lookup name with
    | none => .error (.undeclared name)
    | some (some _) => .error (.bound name)
    | some none => .ok (.growing (fill name value slots))

end Scope

/-- A stack of scopes, the innermost first. -/
structure Scopes (α : Type) where
  toList : List (Scope α)
  deriving Repr

namespace Scopes

variable {α : Type}

def empty : Scopes α := ⟨[]⟩

instance : EmptyCollection (Scopes α) := ⟨empty⟩
instance : Inhabited (Scopes α) := ⟨empty⟩

def size (s : Scopes α) : Nat := s.toList.length

def isEmpty (s : Scopes α) : Bool := s.toList.isEmpty

def push (scope : Scope α) (s : Scopes α) : Scopes α := ⟨scope :: s.toList⟩

def pop (s : Scopes α) : Except ScopeError (Scopes α) :=
  match s.toList with
  | [] => .error .nothingToPop
  | _ :: rest => .ok ⟨rest⟩

/-- The innermost value of a name, with the place of its scope counted from the bottom. -/
def locateIn (name : String) : List (Scope α) → Option (Nat × α)
  | [] => none
  | scope :: rest =>
    match scope.lookup name with
    | some value => some (rest.length, value)
    | none => locateIn name rest

def locate (s : Scopes α) (name : String) : Option (Nat × α) := locateIn name s.toList

def lookup (s : Scopes α) (name : String) : Option α := (s.locate name).map (·.2)

/-- Binds in the innermost scope. -/
def bind (s : Scopes α) (name : String) (value : α) : Except ScopeError (Scopes α) :=
  match s.toList with
  | [] => .error .outside
  | scope :: rest => (scope.bind name value).map fun scope => ⟨scope :: rest⟩

end Scopes

end Scriptlet
