import Scriptlet.Form.Word
import Scriptlet.Library.Builtin
import Scriptlet.Section
import Scriptlet.SpecialForm

/-!
The globals of an engine, and the ways to register them. A registration that fails leaves what was
registered before as it is.
-/

namespace Scriptlet

structure Global where
  name : String
  value : Value
  category : String
  doc : String

/-- Globals in the order in which they were registered. No name is taken twice. -/
structure Environment where
  globals : List Global
  nodup : (globals.map (·.name)).Nodup

/-- What is documented of a global. A constant has no arity. -/
structure GlobalDoc where
  name : String
  arity : Option Arity
  doc : String
  deriving DecidableEq, Repr

inductive RegistrationError where
  | taken (name : String)
  | badName (name reason : String)
  deriving DecidableEq, Repr

def RegistrationError.message : RegistrationError → String
  | taken name => s!"global '{name}' is already registered"
  | badName name reason => s!"'{name}' is not a valid global name: {reason}"

def Global.documentation (g : Global) : GlobalDoc :=
  ⟨g.name, g.value.function?.map Function.arity, g.doc⟩

namespace Environment

def empty : Environment := ⟨[], .nil⟩

instance : EmptyCollection Environment := ⟨empty⟩

def find? (e : Environment) (name : String) : Option Global :=
  e.globals.find? fun g => g.name == name

def get? (e : Environment) (name : String) : Option Value := (e.find? name).map (·.value)

def contains (e : Environment) (name : String) : Bool := (e.find? name).isSome

theorem contains_iff {e : Environment} {name : String} :
    e.contains name = true ↔ ∃ g ∈ e.globals, g.name = name := by
  simp [contains, find?, List.find?_isSome]

/-- Adds a global whose name is not taken. -/
def add (e : Environment) (g : Global) (h : ¬ e.contains g.name) : Environment where
  globals := e.globals ++ [g]
  nodup := by
    have free : ∀ g' ∈ e.globals, g'.name ≠ g.name := fun g' hg' he =>
      h (contains_iff.2 ⟨g', hg', he⟩)
    simpa [List.nodup_append, e.nodup] using free

def size (e : Environment) : Nat := e.globals.length

def isEmpty (e : Environment) : Bool := e.globals.isEmpty

def names (e : Environment) : List String := e.globals.map (·.name)

/-- Adds an item to the first section with the title, or to a new section at the end. -/
def file (title : String) (item : GlobalDoc) : List (Section GlobalDoc) → List (Section GlobalDoc)
  | [] => [(Section.new title).pushItem item]
  | s :: rest => if s.title = title then s.pushItem item :: rest else s :: file title item rest

/-- One section for each category, in the order of first use. -/
def sections (e : Environment) : List (Section GlobalDoc) :=
  e.globals.foldl (fun filed g => file g.category g.documentation filed) []

def documentation (e : Environment) : Section GlobalDoc :=
  e.sections.foldl Section.pushSection (Section.new "Kiln reference")

end Environment

/-- The category of globals that are registered before one is named. -/
def uncategorized : String := "Globals"

/-- Why a name cannot be the name of a global, if it cannot. -/
def nameFlaw? (name : String) : Option String :=
  if name.isEmpty then some "name is empty"
  else if isSpecialName name then some "name is a special form"
  else if Word.isSymbol name.toList && (Word.literal? name).isNone then none
  else some "name is not a symbol"

/-- An environment that is being built, and the number of who builds it. -/
structure Builder where
  maker : Nat
  environment : Environment
  category : Option String

namespace Builder

def start (maker : Nat) : Builder := ⟨maker, ∅, none⟩

/-- Starts with the globals of another environment. -/
def onto (base : Environment) (maker : Nat) : Builder := ⟨maker, base, none⟩

def size (b : Builder) : Nat := b.environment.size

def isEmpty (b : Builder) : Bool := b.environment.isEmpty

/-- Names the category of what is registered next. -/
def setCategory (b : Builder) (category : String) : Builder := { b with category := some category }

def insert (b : Builder) (name : String) (value : Value) (doc : String) :
    Except RegistrationError Builder :=
  match nameFlaw? name with
  | some reason => .error (.badName name reason)
  | none =>
    let g : Global := ⟨name, value, b.category.getD uncategorized, doc⟩
    if h : b.environment.contains name then .error (.taken name)
    else .ok { b with environment := b.environment.add g h }

/-- A native function with an identity of its own. -/
def native (b : Builder) (name : String) (arity : Arity) (doc : String) (action : Action) :
    Native :=
  ⟨⟨b.maker, b.size⟩, name, arity, doc, action⟩

end Builder

/-- A step in building an environment. Whether it succeeds or fails, the builder goes on from the
state that it leaves. -/
abbrev Registration := ExceptT RegistrationError (StateM Builder)

namespace Registration

def category (name : String) : Registration Unit := modify fun b => b.setCategory name

def constant (name : String) (value : Value) (doc : String) : Registration Unit := fun b =>
  match b.insert name value doc with
  | .ok b' => (.ok (), b')
  | .error e => (.error e, b)

def function (name : String) (arity : Arity) (doc : String) (action : Action) :
    Registration Unit := fun b =>
  constant name (.function (.native (b.native name arity doc action))) doc b

def builtin (op : Builtin) : Registration Unit :=
  function op.name op.arity op.doc (.builtin op)

end Registration

/-- The globals of a builder after a registration that succeeds. -/
def Builder.build (b : Builder) (r : Registration Unit) : Except RegistrationError Environment :=
  match r.run b with
  | (.ok (), b') => .ok b'.environment
  | (.error e, _) => .error e

end Scriptlet
