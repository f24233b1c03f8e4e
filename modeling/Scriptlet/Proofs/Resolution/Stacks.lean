import Scriptlet.Proofs.Resolution.Height
import Scriptlet.Proofs.Scope

/-!
Resolution as one walk over the forms that carries its scopes along: a stack of scopes that a `let`
or `fn` pushes to and pops from, and a stack of the `fn` forms that it is in. Whatever it meets, the
walk leaves both stacks as it has found them, and it does to a form what resolution does.
-/

namespace Scriptlet

/-- A `fn` form that the walk is in: how many scopes there were when its parameters were pushed, and
the names in its body so far that are bound outside of it. -/
structure Frame where
  base : Nat
  captures : List String

namespace Frame

/-- Takes up a name, unless it has it. -/
def take (f : Frame) (name : String) : Frame :=
  if name ∈ f.captures then f else { f with captures := f.captures ++ [name] }

/-- Takes up a name that a scope below the parameters binds, or none at all. -/
def meet (name : String) (index : Option Nat) (f : Frame) : Frame :=
  if index.all (· < f.base) then f.take name else f

end Frame

/-- The scopes and the `fn` forms around, both innermost first. -/
structure Stacks where
  scopes : Scopes Unit
  frames : List Frame

namespace Stacks

def empty : Stacks := ⟨∅, []⟩

def capture (s : Stacks) (name : String) (index : Option Nat) : Stacks :=
  { s with frames := s.frames.map (Frame.meet name index) }

/-- The number of `fn` forms around a scope. -/
def level (s : Stacks) (index : Nat) : Nat := s.frames.countP fun f => f.base ≤ index

def push (s : Stacks) (scope : Scope Unit) : Stacks := { s with scopes := s.scopes.push scope }

def bind (s : Stacks) (name : String) : Stacks :=
  match s.scopes.bind name () with
  | .ok scopes => { s with scopes }
  | .error _ => s

def pop (s : Stacks) : Stacks :=
  match s.scopes.pop with
  | .ok scopes => { s with scopes }
  | .error _ => s

/-- Goes into the body of a `fn`. -/
def enter (s : Stacks) (scope : Scope Unit) : Stacks :=
  { s with frames := ⟨s.scopes.size, []⟩ :: s.frames }.push scope

/-- Goes out of the body of a `fn`, with the names that its frame has taken up. -/
def leave (s : Stacks) : List String × Stacks :=
  ((s.frames.head?.map Frame.captures).getD [], { s with frames := s.frames.tail }.pop)

end Stacks

/-- A step of the walk. -/
abbrev Walk (α : Type) := StateT Stacks Resolved α

namespace Walk

open Resolution (nilAt fail malformed globalCall targets quotation firsts)

def symbol (env : Environment) (name : String) (span : Span) : Walk Node := do
  let s ← get
  match s.scopes.locate name with
  | some (index, _) => do
    Resolved.use ⟨name, span, some (s.level index)⟩
    set (s.capture name (some index))
    return .localName name span
  | none =>
    match env.get? name with
    | some v => return .constant v span
    | none =>
      if isSpecialName name then
        fail (.malformed name "special forms cannot be used as values") span []
      else do
        Resolved.use ⟨name, span, none⟩
        if s.frames.isEmpty then return .freeName name span
        else do
          set (s.capture name none)
          return .localName name span

mutual

def form (env : Environment) : Form → Walk Node
  | .leaf (.symbol name) span => symbol env name span
  | .leaf a span => return .constant a.value span
  | .group .square items span => do return .list (← all env items) span
  | .group .round items span => list env items span

def all (env : Environment) : List Form → Walk (List Node)
  | [] => return []
  | f :: fs => do
    let node ← form env f
    let nodes ← all env fs
    return node :: nodes

def list (env : Environment) (items : List Form) (span : Span) : Walk Node :=
  match items with
  | [] => return .constant (.list []) span
  | head :: args =>
    match head with
    | .leaf (.symbol name) headSpan =>
      match SpecialForm.ofName? name with
      | some .block => do return .block (← all env args) span
      | some .allOf => do return .allOf (← all env args) span
      | some .anyOf => do return .anyOf (← all env args) span
      | some .quotation => quotation args span
      | some .branch => branch env args span
      | some .bind => bindForm env args span
      | some .lambda => lambda env args span
      | none => do
        let s ← get
        match s.scopes.lookup name with
        | some _ => do
          let callee ← symbol env name headSpan
          let args ← all env args
          return .call callee args span
        | none => do
          let args ← all env args
          globalCall env name headSpan args span
    | .group .round _ _ => do
      let callee ← form env head
      let args ← all env args
      return .call callee args span
    | _ => do
      let _ ← all env args
      fail (.notAFunction s!"{head.kindName} literal") head.span []

def branch (env : Environment) (args : List Form) (span : Span) : Walk Node :=
  match args with
  | [cond, yes] => do
    let cond ← form env cond
    let yes ← form env yes
    return .branch cond yes none span
  | [cond, yes, no] => do
    let cond ← form env cond
    let yes ← form env yes
    let no ← form env no
    return .branch cond yes (some no) span
  | _ => malformed .branch s!"expects 2 or 3 forms, got {args.length}" span

def bindForm (env : Environment) (args : List Form) (span : Span) : Walk Node :=
  match args with
  | .group .square pairs _ :: body =>
    if pairs.length % 2 ≠ 0 then malformed .bind "binding vector needs an even number of forms" span
    else do
      match ← targets .bind [] (firsts pairs) with
      | none => return nilAt span
      | some names =>
        match Scope.declare names with
        | .error _ => malformed .bind "duplicate binding" span
        | .ok scope => do
          modify (·.push scope)
          let bindings ← bindingsOf env names pairs
          let body ← all env body
          modify (·.pop)
          return .bind bindings body span
  | _ => malformed .bind "expects a binding vector" span

def lambda (env : Environment) (args : List Form) (span : Span) : Walk Node :=
  match args with
  | .group .square params _ :: body => do
    match ← targets .lambda [] params with
    | none => return nilAt span
    | some names =>
      match Scope.ofEntries (names.map fun n => (n, ())) with
      | .error _ => malformed .lambda "duplicate parameter" span
      | .ok scope => do
        modify (·.enter scope)
        let body ← all env body
        let captures ← modifyGet Stacks.leave
        return .lambda (.mk names (sortNames captures) body span)
  | _ => malformed .lambda "expects a parameter vector" span

/-- The values of a `let`. Each name is bound once its value is resolved. -/
def bindingsOf (env : Environment) (names : List String) (pairs : List Form) :
    Walk (List (String × Node)) :=
  match names, pairs with
  | name :: names, _ :: value :: rest => do
    let node ← form env value
    modify (·.bind name)
    let bindings ← bindingsOf env names rest
    return (name, node) :: bindings
  | _, _ => return []

end

end Walk

/-- The same scopes, and the same `fn` forms around. The frames may have taken up more names. -/
structure Stacks.Kept (s t : Stacks) : Prop where
  scopes : t.scopes = s.scopes
  bases : t.frames.map Frame.base = s.frames.map Frame.base

/-- The second stacks have one scope more. -/
def Stacks.Above (s t : Stacks) : Prop :=
  (∃ scope, t.scopes.toList = scope :: s.scopes.toList) ∧
    t.frames.map Frame.base = s.frames.map Frame.base

namespace Stacks

variable {s t u : Stacks}

theorem Kept.refl (s : Stacks) : s.Kept s := ⟨rfl, rfl⟩

theorem Kept.trans (h : s.Kept t) (h' : t.Kept u) : s.Kept u :=
  ⟨h'.scopes.trans h.scopes, h'.bases.trans h.bases⟩

@[simp] theorem base_take (f : Frame) (name : String) : (f.take name).base = f.base := by
  unfold Frame.take
  split <;> rfl

@[simp] theorem base_meet (name : String) (index : Option Nat) (f : Frame) :
    (f.meet name index).base = f.base := by
  unfold Frame.meet
  split
  · exact base_take f name
  · rfl

theorem kept_capture (s : Stacks) (name : String) (index : Option Nat) :
    s.Kept (s.capture name index) := by
  refine ⟨rfl, ?_⟩
  rw [capture, List.map_map]
  exact List.map_congr_left fun f _ => base_meet name index f

theorem above_push (s : Stacks) (scope : Scope Unit) : s.Above (s.push scope) :=
  ⟨⟨scope, rfl⟩, rfl⟩

theorem Above.kept (h : s.Above t) (h' : t.Kept u) : s.Above u := by
  obtain ⟨⟨scope, hscope⟩, hbases⟩ := h
  exact ⟨⟨scope, by rw [h'.scopes, hscope]⟩, h'.bases.trans hbases⟩

/-- Binding a name changes the innermost scope only. -/
theorem Above.bind (h : s.Above t) (name : String) : s.Above (t.bind name) := by
  obtain ⟨⟨scope, hscope⟩, hbases⟩ := h
  unfold Stacks.bind
  split
  · next scopes hbind =>
    refine ⟨?_, hbases⟩
    rw [Scopes.bind, hscope] at hbind
    cases hinner : scope.bind name () with
    | error e =>
      simp only [hinner] at hbind
      cases hbind
    | ok scope' =>
      simp only [hinner] at hbind
      cases hbind
      exact ⟨scope', rfl⟩
  · exact ⟨⟨scope, hscope⟩, hbases⟩

theorem Above.pop (h : s.Above t) : s.Kept t.pop := by
  obtain ⟨⟨scope, hscope⟩, hbases⟩ := h
  have hpop : t.scopes.pop = .ok s.scopes := by rw [Scopes.pop, hscope]
  unfold Stacks.pop
  rw [hpop]
  exact ⟨rfl, hbases⟩

/-- After the body of a `fn` its frame and its scope are taken off again. -/
theorem Kept.leave {scope : Scope Unit} (h : (s.enter scope).Kept t) : s.Kept t.leave.2 := by
  obtain ⟨⟨scopes⟩, frames⟩ := t
  obtain ⟨hscopes, hbases⟩ := h
  cases hscopes
  cases frames with
  | nil => cases hbases
  | cons f frames => exact ⟨rfl, (List.cons.inj hbases).2⟩

end Stacks

namespace Walk

/-- From stacks with the first property the step comes to stacks with the second. -/
def Moves {α : Type} (P : Stacks → Prop) (x : Walk α) (Q : Stacks → Prop) : Prop :=
  ∀ s, P s → Q (x.run s).value.2

namespace Moves

variable {α β : Type} {P Q R : Stacks → Prop}

theorem pure (a : α) : Moves P (Pure.pure a : Walk α) P := fun _ h => h

theorem bind {x : Walk α} {k : α → Walk β} (hx : Moves P x Q) (hk : ∀ a, Moves Q (k a) R) :
    Moves P (x >>= k) R := by
  intro s hs
  exact hk (x.run s).value.1 _ (hx s hs)

theorem change {f : Stacks → Stacks} (h : ∀ s, P s → Q (f s)) : Moves P (modify f : Walk PUnit) Q :=
  h

end Moves

/-- The step leaves the stacks as they are. -/
def Restores {α : Type} (x : Walk α) : Prop := ∀ s : Stacks, s.Kept (x.run s).value.2

namespace Restores

variable {α β : Type} {x : Walk α} {s : Stacks}

theorem moves_above (h : Restores x) : Moves s.Above x s.Above := fun t ht => ht.kept (h t)

theorem of_moves (h : ∀ s : Stacks, Moves (· = s) x s.Kept) : Restores x := fun s => h s s rfl

theorem pure (a : α) : Restores (Pure.pure a : Walk α) := fun s => .refl s

theorem get : Restores (MonadState.get : Walk Stacks) := fun s => .refl s

/-- What does not look at the stacks leaves them alone. -/
theorem lift (r : Resolved α) : Restores (liftM r : Walk α) := fun s => .refl s

theorem bind {k : α → Walk β} (hx : Restores x) (hk : ∀ a, Restores (k a)) :
    Restores (x >>= k) := fun s => (hx s).trans (hk _ _)

end Restores

variable {env : Environment}

/-- What the walk does at a symbol. -/
theorem symbol_run (env : Environment) (name : String) (span : Span) (s : Stacks) :
    (symbol env name span).run s =
      match s.scopes.locate name with
      | some (index, _) =>
        ⟨(.localName name span, s.capture name (some index)), [],
          [⟨name, span, some (s.level index)⟩]⟩
      | none =>
        match env.get? name with
        | some v => pure (.constant v span, s)
        | none =>
          if isSpecialName name then
            (Resolution.fail (.malformed name "special forms cannot be used as values") span []) >>=
              fun n => pure (n, s)
          else if s.frames.isEmpty then ⟨(.freeName name span, s), [], [⟨name, span, none⟩]⟩
          else ⟨(.localName name span, s.capture name none), [], [⟨name, span, none⟩]⟩ := by
  simp only [symbol, StateT.run_bind, StateT.run_get, pure_bind]
  cases s.scopes.locate name with
  | some found => rfl
  | none =>
    cases env.get? name with
    | some v => rfl
    | none =>
      dsimp only
      split
      · rfl
      · cases s.frames.isEmpty <;> rfl

theorem symbol_restores (name : String) (span : Span) : Restores (symbol env name span) := by
  intro s
  rw [symbol_run]
  split
  · exact Stacks.kept_capture s name _
  · split
    · exact .refl s
    · split
      · exact .refl s
      · split
        · exact .refl s
        · exact Stacks.kept_capture s name none

section Parts

variable {f : Form} {args : List Form} {span : Span} (h : ∀ g, Tree.Inside g f → Restores (form env g))
include h

theorem all_restores {gs : List Form} (hgs : ∀ g ∈ gs, Tree.Inside g f) :
    Restores (all env gs) := by
  induction gs with
  | nil =>
    rw [all]
    exact .pure _
  | cons g gs ih =>
    obtain ⟨hg, hrest⟩ := List.forall_mem_cons.1 hgs
    rw [all]
    exact (h g hg).bind fun _ => (ih hrest).bind fun _ => .pure _

theorem branch_restores (hargs : ∀ g ∈ args, Tree.Inside g f) :
    Restores (branch env args span) := by
  unfold branch
  split
  · next cond yes =>
    refine (h cond (hargs cond (by simp))).bind fun _ => ?_
    exact (h yes (hargs yes (by simp))).bind fun _ => .pure _
  · next cond yes no =>
    refine (h cond (hargs cond (by simp))).bind fun _ => ?_
    refine (h yes (hargs yes (by simp))).bind fun _ => ?_
    exact (h no (hargs no (by simp))).bind fun _ => .pure _
  · exact .lift _

/-- The values of a `let` bind in the scope of the `let`, and leave all below it. -/
theorem bindingsOf_moves {s : Stacks} {names : List String} {pairs : List Form}
    (hpairs : ∀ g ∈ pairs, Tree.Inside g f) : Moves s.Above (bindingsOf env names pairs) s.Above := by
  induction names generalizing pairs with
  | nil =>
    rw [bindingsOf]
    · exact .pure _
    · simp
  | cons x names ih =>
    rcases pairs with _ | ⟨target, _ | ⟨value, rest⟩⟩
    · exact .pure _
    · exact .pure _
    · have hrest : ∀ g ∈ rest, Tree.Inside g f := fun g hg => hpairs g (by simp [hg])
      rw [bindingsOf]
      refine .bind (h value (hpairs value (by simp))).moves_above fun _ => ?_
      exact .bind (.change fun t ht => ht.bind x) fun _ => .bind (ih hrest) fun _ => .pure _

theorem bindForm_restores (hargs : ∀ g ∈ args, Tree.Inside g f) :
    Restores (bindForm env args span) := by
  unfold bindForm
  split
  · next pairs vector body =>
    obtain ⟨hvector, hbody⟩ := List.forall_mem_cons.1 hargs
    have hpairs : ∀ g ∈ pairs, Tree.Inside g f := fun g hg => hvector.of_within (.item hg .self)
    split
    · exact .lift _
    · refine .bind (.lift _) fun names => ?_
      cases names with
      | none => exact .pure _
      | some names =>
        dsimp only
        cases Scope.declare names with
        | error e => exact .lift _
        | ok scope =>
          refine .of_moves fun s => .bind (Q := s.Above) (.change ?_) fun _ => ?_
          · intro t ht
            rw [ht]
            exact s.above_push scope
          · refine .bind (bindingsOf_moves h hpairs) fun _ => ?_
            refine .bind (all_restores h hbody).moves_above fun _ => ?_
            exact .bind (.change fun t ht => ht.pop) fun _ => .pure _
  · exact .lift _

theorem lambda_restores (hargs : ∀ g ∈ args, Tree.Inside g f) :
    Restores (lambda env args span) := by
  unfold lambda
  split
  · next params vector body =>
    obtain ⟨hvector, hbody⟩ := List.forall_mem_cons.1 hargs
    refine .bind (.lift _) fun names => ?_
    cases names with
    | none => exact .pure _
    | some names =>
      dsimp only
      cases Scope.ofEntries (names.map fun n => (n, ())) with
      | error e => exact .lift _
      | ok scope =>
        intro s
        exact Stacks.Kept.leave (all_restores h hbody (s.enter scope))
  · exact .lift _

theorem list_restores {items : List Form} (hf : f = .group .round items span) :
    Restores (list env items span) := by
  have hitems : ∀ g ∈ items, Tree.Inside g f := fun g hg => hf ▸ .item hg .self
  rw [list.eq_def]
  split
  · exact .pure _
  · next head args =>
    obtain ⟨hhead, hargs⟩ := List.forall_mem_cons.1 hitems
    have hall : Restores (all env args) := all_restores h hargs
    split
    · next x headSpan =>
      split
      · exact hall.bind fun _ => .pure _
      · exact hall.bind fun _ => .pure _
      · exact hall.bind fun _ => .pure _
      · exact .lift _
      · exact branch_restores h hargs
      · exact bindForm_restores h hargs
      · exact lambda_restores h hargs
      · refine Restores.get.bind fun s => ?_
        split
        · exact (symbol_restores x headSpan).bind fun _ => hall.bind fun _ => .pure _
        · exact hall.bind fun _ => .lift _
    · exact (h _ hhead).bind fun _ => hall.bind fun _ => .pure _
    · exact hall.bind fun _ => .lift _

end Parts

/-- After a form the scopes are those from before it, and the walk is in the same `fn` forms. The
induction is on the nesting of the form. -/
theorem form_restores (f : Form) : Restores (form env f) := by
  induction hd : Tree.depth f using Nat.strongRecOn generalizing f with
  | ind d ih =>
    subst hd
    have ih' : ∀ g, Tree.Inside g f → Restores (form env g) := fun g hg => ih _ hg.depth_lt g rfl
    rw [form.eq_def]
    split
    · exact symbol_restores _ _
    · exact .pure _
    · exact (all_restores ih' fun g hg => .item hg .self).bind fun _ => .pure _
    · exact list_restores ih' rfl

end Walk

end Scriptlet
