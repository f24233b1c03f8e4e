import Scriptlet.Proofs.Environment
import Scriptlet.Proofs.Environment.Documentation

/-!
What is registered, kept as a ledger of the steps that succeeded. After any operations, successful
or not, the environment has exactly the entries of the ledger.
-/

namespace Scriptlet

namespace Registration

/-- One step of a registration. -/
inductive Step where
  | category (title : String)
  | constant (name : String) (value : Value) (doc : String)
  | function (name : String) (arity : Arity) (doc : String) (action : Action)

def Step.register : Step → Registration Unit
  | category title => Registration.category title
  | constant name value doc => Registration.constant name value doc
  | function name arity doc action => Registration.function name arity doc action

/-- The name that a step registers. -/
def Step.name? : Step → Option String
  | category _ => none
  | constant name _ _ | function name _ _ _ => some name

/-- Steps in a row, up to the first that fails. -/
def inTurn (steps : List Step) : Registration Unit := steps.forM Step.register

def builtinSteps (ops : List Builtin) : List Step :=
  ops.map fun op => .function op.name op.arity op.doc (.builtin op)

/-- The steps of the standard library. -/
def standardSteps : List Step :=
  [.category "Math",
    .constant "PI" (.float pi) "Ratio of a circle's circumference to its diameter",
    .constant "E" (.float eulerNumber) "Euler's number, base of the natural logarithm"] ++
  builtinSteps
    [.add, .subtract, .multiply, .divide, .quot, .rem, .mod, .inc, .dec, .abs, .min, .max] ++
  .category "Comparison" :: builtinSteps [.equal, .notEqual, .less, .greater, .atMost, .atLeast] ++
  .category "Logic" :: builtinSteps [.not, .isNil, .isZero, .isEmpty, .isNumber, .isString] ++
  .category "Strings" :: builtinSteps [.str, .upperCase, .lowerCase] ++
  .category "Lists" :: builtinSteps [.list, .count, .first, .rest, .nth, .conj, .concat]

theorem inTurn_cons (s : Step) (steps : List Step) :
    inTurn (s :: steps) = s.register >>= fun _ => inTurn steps := rfl

theorem inTurn_append (steps steps' : List Step) :
    inTurn (steps ++ steps') = inTurn steps >>= fun _ => inTurn steps' := by
  simp [inTurn]

theorem inTurn_builtinSteps (ops : List Builtin) : inTurn (builtinSteps ops) = ops.forM builtin := by
  induction ops with
  | nil => rfl
  | cons op ops ih =>
    change inTurn (_ :: builtinSteps ops) = _
    rw [inTurn_cons, ih]
    rfl

theorem standard_eq : standard = inTurn standardSteps := by
  simp only [standardSteps, List.append_assoc, inTurn_append, inTurn_cons, List.cons_append,
    List.nil_append, inTurn_builtinSteps, Step.register, standard, math, comparison, logic, strings,
    lists, bind_assoc]

end Registration

open Registration

/-- What was done, as the caller knows it from the answers. -/
inductive Report where
  | titled (title : String)
  | registered (name : String) (value : Value) (doc : String)
  | refused (e : RegistrationError)
  | extended

def Report.ofAnswer (name : String) (value : Value) (doc : String) :
    Except RegistrationError Unit → Report
  | .ok () => registered name value doc
  | .error e => refused e

/-- A function is registered with the identity that the builder gives it. -/
def Registration.Step.report (b : Builder) : Step → Report
  | category title => .titled title
  | constant name value doc =>
    .ofAnswer name value doc ((Registration.constant name value doc).run b).1
  | function name arity doc action =>
    .ofAnswer name (.function (.native (b.native name arity doc action))) doc
      ((Registration.function name arity doc action).run b).1

/-- What steps in a row do. The first that is refused is the last. -/
def Registration.reports : List Step → Builder → List Report
  | [], _ => []
  | s :: steps, b => s.report b :: match s.register.run b with
    | (.ok (), c) => reports steps c
    | (.error _, _) => []

/-- What is registered, and the category of what comes next. -/
structure Ledger where
  category : Option String
  entries : List Global

def Ledger.post (l : Ledger) : Report → Ledger
  | .titled title => { l with category := some title }
  | .registered name value doc =>
    { l with entries := l.entries ++ [⟨name, value, l.category.getD uncategorized, doc⟩] }
  | .refused _ => l
  | .extended => { l with category := none }

namespace Builder

def ledger (b : Builder) : Ledger := ⟨b.category, b.environment.globals⟩

theorem ledger_insert {b b' : Builder} {name : String} {value : Value} {doc : String}
    (h : b.insert name value doc = .ok b') :
    b'.ledger = b.ledger.post (.registered name value doc) := by
  obtain ⟨-, _, rfl⟩ := eq_of_insert h
  rfl

theorem ledger_constant (name : String) (value : Value) (doc : String) (b : Builder) :
    ((Registration.constant name value doc).run b).2.ledger =
      b.ledger.post (.ofAnswer name value doc ((Registration.constant name value doc).run b).1) := by
  obtain ⟨b', hb', hrun⟩ | ⟨e, -, hrun⟩ := constant_run name value doc b
  · rw [hrun]
    exact ledger_insert hb'
  · rw [hrun]
    rfl

/-- The ledger follows the report of a step, whether or not the step succeeds. -/
theorem ledger_register (s : Step) (b : Builder) :
    (s.register.run b).2.ledger = b.ledger.post (s.report b) := by
  cases s with
  | category title => rfl
  | constant name value doc => exact ledger_constant name value doc b
  | function name arity doc action => exact ledger_constant name _ doc b

theorem ledger_inTurn (steps : List Step) (b : Builder) :
    ((inTurn steps).run b).2.ledger = (reports steps b).foldl Ledger.post b.ledger := by
  induction steps generalizing b with
  | nil => rfl
  | cons s steps ih =>
    rw [inTurn_cons, run_bind, reports, List.foldl_cons, ← ledger_register]
    rcases s.register.run b with ⟨_ | _, c⟩
    · rfl
    · exact ih c

end Builder

namespace Registration

variable {s : Step} {steps : List Step} {b c : Builder} {e : RegistrationError}

/-- A function is registered as the constant that it is. -/
theorem register_cases (s : Step) (b : Builder) :
    (∃ title, s = .category title) ∨ ∃ name value doc, s.name? = some name ∧
      s.register.run b = (constant name value doc).run b := by
  cases s with
  | category title => exact .inl ⟨title, rfl⟩
  | constant name value doc => exact .inr ⟨name, value, doc, rfl, rfl⟩
  | function name _ doc _ => exact .inr ⟨name, _, doc, rfl, rfl⟩

/-- A step that fails leaves the whole builder as it was. -/
theorem register_error (h : (s.register.run b).1 = .error e) : (s.register.run b).2 = b := by
  obtain ⟨title, rfl⟩ | ⟨name, value, doc, -, hs⟩ := register_cases s b
  · cases h
  · rw [hs] at h ⊢
    obtain ⟨b', -, hrun⟩ | ⟨e', -, hrun⟩ := constant_run name value doc b
    · rw [hrun] at h
      cases h
    · rw [hrun]

theorem constant_eq_ok_iff {name : String} {value : Value} {doc : String} :
    ((constant name value doc).run b).1 = .ok () ↔
      nameFlaw? name = none ∧ name ∉ b.environment.names := by
  have hfree : b.environment.contains name = false ↔ name ∉ b.environment.names := by
    rw [← Bool.not_eq_true, Environment.contains_iff, Environment.names, List.mem_map]
  rw [and_comm, ← hfree, ← Builder.insert_eq_ok_iff]
  obtain ⟨b', hb', hrun⟩ | ⟨e', he', hrun⟩ := constant_run name value doc b
  · exact iff_of_true (by rw [hrun]) ⟨b', hb'⟩
  · refine iff_of_false (by simp [hrun]) ?_
    rintro ⟨b', hb'⟩
    rw [he'] at hb'
    cases hb'

/-- A step succeeds if its name is in order and free. -/
theorem register_eq_ok_iff :
    (s.register.run b).1 = .ok () ↔
      ∀ name ∈ s.name?, nameFlaw? name = none ∧ name ∉ b.environment.names := by
  obtain ⟨title, rfl⟩ | ⟨name, value, doc, hname, hs⟩ := register_cases s b
  · exact iff_of_true rfl (by simp [Step.name?])
  · rw [hs, hname, constant_eq_ok_iff]
    simp

theorem names_register (h : (s.register.run b).1 = .ok ()) :
    (s.register.run b).2.environment.names = b.environment.names ++ s.name?.toList := by
  obtain ⟨title, rfl⟩ | ⟨name, value, doc, hname, hs⟩ := register_cases s b
  · exact (List.append_nil _).symm
  · rw [hs] at h ⊢
    obtain ⟨b', hb', hrun⟩ | ⟨e', -, hrun⟩ := constant_run name value doc b
    · rw [hrun, hname, Environment.names, (Builder.insert_ok hb').2, List.map_append]
      rfl
    · rw [hrun] at h
      cases h

/-- What fails in a row of steps is one of them, and what the steps before it did remains. -/
theorem inTurn_error (h : ((inTurn steps).run b).1 = .error e) :
    ∃ before s after c, steps = before ++ s :: after ∧ (inTurn before).run b = (.ok (), c) ∧
      (s.register.run c).1 = .error e ∧ ((inTurn steps).run b).2 = c := by
  induction steps generalizing b with
  | nil => cases h
  | cons s steps ih =>
    rw [inTurn_cons, run_bind] at h ⊢
    rcases hs : s.register.run b with ⟨e' | _, d⟩
    · rw [hs] at h
      have hfails : (s.register.run b).1 = .error e := by rw [hs]; exact h
      refine ⟨[], s, steps, b, rfl, rfl, hfails, ?_⟩
      rw [← register_error hfails, hs]
    · rw [hs] at h
      obtain ⟨before, s', after, c, rfl, hbefore, hs', hc⟩ := ih h
      refine ⟨s :: before, s', after, c, rfl, ?_, hs', hc⟩
      rw [inTurn_cons, run_bind, hs]
      exact hbefore

theorem names_inTurn (h : (inTurn steps).run b = (.ok (), c)) :
    c.environment.names = b.environment.names ++ steps.filterMap Step.name? := by
  induction steps generalizing b with
  | nil =>
    cases h
    exact (List.append_nil _).symm
  | cons s steps ih =>
    rw [inTurn_cons, run_bind] at h
    rcases hs : s.register.run b with ⟨e' | _, d⟩
    · rw [hs] at h
      cases h
    · rw [hs] at h
      have hd : d.environment.names = b.environment.names ++ s.name?.toList := by
        have hnames := names_register (s := s) (b := b) (by rw [hs])
        rwa [hs] at hnames
      rw [ih h, hd, List.append_assoc]
      cases hname : s.name? <;> simp [hname]

end Registration

namespace Environment

/-- What is registered: each name once, in order and with its value, and nothing else. -/
structure Lists (e : Environment) (gs : List Global) : Prop where
  names : e.names = gs.map (·.name)
  once : e.names.Nodup
  get? : ∀ name value, e.get? name = some value ↔ ∃ g ∈ gs, g.name = name ∧ g.value = value
  contains : ∀ name, e.contains name = true ↔ name ∈ e.names
  size : e.size = e.names.length
  isEmpty : e.isEmpty = true ↔ e.names = []

theorem lists (e : Environment) : e.Lists e.globals where
  names := rfl
  once := e.nodup
  get? _ _ := get?_eq_some_iff
  contains name := by rw [contains_iff, names, List.mem_map]
  size := (List.length_map _).symm
  isEmpty := by rw [isEmpty, List.isEmpty_iff, names, List.map_eq_nil_iff]

end Environment

namespace Builder

/-- One call on a builder, or a new builder that extends what was built. -/
inductive Operation where
  | step (s : Step)
  | standard
  | extend (maker : Nat)

def Operation.perform (b : Builder) : Operation → Builder
  | step s => (s.register.run b).2
  | standard => (Registration.standard.run b).2
  | extend maker => onto b.environment maker

def Operation.reports (b : Builder) : Operation → List Report
  | step s => [s.report b]
  | standard => Registration.reports standardSteps b
  | extend _ => [.extended]

/-- Whatever an operation answers, the next one follows. -/
def run (b : Builder) (ops : List Operation) : Builder := ops.foldl Operation.perform b

def history : Builder → List Operation → List Report
  | _, [] => []
  | b, op :: ops => op.reports b ++ history (op.perform b) ops

theorem ledger_perform (op : Operation) (b : Builder) :
    (op.perform b).ledger = (op.reports b).foldl Ledger.post b.ledger := by
  cases op with
  | step s => exact ledger_register s b
  | standard =>
    rw [Operation.perform, standard_eq]
    exact ledger_inTurn standardSteps b
  | extend maker => rfl

theorem ledger_run (b : Builder) (ops : List Operation) :
    (b.run ops).ledger = (b.history ops).foldl Ledger.post b.ledger := by
  induction ops generalizing b with
  | nil => rfl
  | cons op ops ih =>
    rw [history, List.foldl_append, ← ledger_perform]
    exact ih (op.perform b)

end Builder

theorem Ledger.entries_isPrefix (l : Ledger) (reports : List Report) :
    l.entries <+: (reports.foldl post l).entries := by
  induction reports generalizing l with
  | nil => exact List.prefix_rfl
  | cons r reports ih =>
    have hpost : l.entries <+: (l.post r).entries := by
      cases r with
      | registered name value doc => exact List.prefix_append _ _
      | titled | refused | extended => exact List.prefix_rfl
    exact hpost.trans (ih (l.post r))

end Scriptlet
