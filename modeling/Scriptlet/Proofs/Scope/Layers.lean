import Mathlib.Data.Finmap
import Scriptlet.Proofs.Names.Order
import Scriptlet.Proofs.Result
import Scriptlet.Proofs.Scope

/-!
The stack of scopes as a stack of finite maps. Whatever has been pushed, taken away and bound, with
or without success, a lookup finds a name in the innermost map that binds it, and an operation
fails just where the maps say so. A name that a growing scope has declared and not yet bound is not
in its map, so that outer scopes show through.
-/

namespace Scriptlet

variable {α : Type}

/-- A scope as a finite map. A growing scope has declared the names that can be bound in it. -/
structure Layer (α : Type) where
  declared : Option (Finset String)
  bound : Finmap fun _ : String => α

namespace Layer

/-- The layer of a fixed scope. -/
def fixed (es : List (String × α)) : Layer α := ⟨none, (es.map Prod.toSigma).toFinmap⟩

/-- The layer of a growing scope in which nothing is bound yet. -/
def growing (names : List String) : Layer α := ⟨some names.toFinset, ∅⟩

/-- The innermost layer that binds the name, above so many others, has this value for it. -/
def Innermost (ls : List (Layer α)) (x : String) (below : Nat) (v : α) : Prop :=
  ∃ inner l outer, ls = inner ++ l :: outer ∧ (∀ l' ∈ inner, x ∉ l'.bound) ∧
    l.bound.lookup x = some v ∧ outer.length = below

end Layer

namespace Scopes

/-- What is done to a stack of scopes. -/
inductive Operation (α : Type) where
  | pushEntries (es : List (String × α))
  /-- The entries are in order already. -/
  | pushSorted (es : List (String × α)) (sorted : es.Pairwise fun a b => a.1 < b.1)
  | pushNames (names : List String)
  | pop
  | bind (x : String) (v : α)

def perform (s : Scopes α) : Operation α → Except ScopeError (Scopes α)
  | .pushEntries es => (Scope.ofEntries es).map s.push
  | .pushSorted es _ => .ok (s.push (Scope.ofSorted es))
  | .pushNames names => (Scope.declare names).map s.push
  | .pop => s.pop
  | .bind x v => s.bind x v

/-- The stack goes on as it is after an operation that fails. -/
def after (s : Scopes α) (op : Operation α) : Scopes α :=
  match s.perform op with
  | .ok s' => s'
  | .error _ => s

def run (ops : List (Operation α)) : Scopes α := ops.foldl after ∅

namespace Operation

/-- Why an operation fails on layers. -/
inductive Fails : Operation α → List (Layer α) → ScopeError → Prop where
  | entries {es ls x} (h : LeastRepeated (es.map (·.1)) x) : Fails (pushEntries es) ls (.repeated x)
  | names {names ls x} (h : LeastRepeated names x) : Fails (pushNames names) ls (.repeated x)
  | pop : Fails pop [] .nothingToPop
  | outside {x v} : Fails (bind x v) [] .outside
  | fixed {x v bound ls} : Fails (bind x v) (⟨none, bound⟩ :: ls) .fixed
  | undeclared {x v names bound ls} (h : x ∉ names) :
      Fails (bind x v) (⟨some names, bound⟩ :: ls) (.undeclared x)
  | bound {x v names bound ls} (hx : x ∈ names) (h : x ∈ bound) :
      Fails (bind x v) (⟨some names, bound⟩ :: ls) (.bound x)

/-- What an operation that does not fail makes of the layers. -/
def apply : Operation α → List (Layer α) → List (Layer α)
  | pushEntries es, ls | pushSorted es _, ls => .fixed es :: ls
  | pushNames names, ls => .growing names :: ls
  | pop, ls => ls.tail
  | bind x v, l :: ls => { l with bound := l.bound.insert x v } :: ls
  | bind _ _, [] => []

end Operation

/-- The layers that operations leave. One that fails leaves them as they are. -/
inductive Leave : List (Operation α) → List (Layer α) → Prop where
  | start : Leave [] []
  | done {ops ls op} (h : Leave ops ls) (hop : ∀ e, ¬ op.Fails ls e) :
      Leave (ops ++ [op]) (op.apply ls)
  | failed {ops ls op e} (h : Leave ops ls) (hop : op.Fails ls e) : Leave (ops ++ [op]) ls

end Scopes

namespace Scope

/-- The entries of a scope, where those of a growing scope may be without a value. -/
def slots : Scope α → List (String × Option α)
  | fixed entries => entries.map fun p => (p.1, some p.2)
  | growing slots => slots

/-- The scope has distinct names and binds what the layer binds. -/
inductive Represents : Scope α → Layer α → Prop where
  | fixed {entries bound} (distinct : (entries.map (·.1)).Nodup)
      (shows : ∀ x, entries.lookup x = bound.lookup x) :
      Represents (fixed entries) ⟨none, bound⟩
  | growing {slots names bound} (distinct : (slots.map (·.1)).Nodup)
      (shows : ∀ x, slots.lookup x = if x ∈ names then some (bound.lookup x) else none)
      (within : ∀ x ∈ bound, x ∈ names) : Represents (growing slots) ⟨some names, bound⟩

theorem lookup_slots (scope : Scope α) (x : String) :
    scope.lookup x = (scope.slots.lookup x).join := by
  cases scope with
  | growing => rfl
  | fixed entries =>
    rw [lookup, slots]
    induction entries with
    | nil => rfl
    | cons p entries ih =>
      obtain ⟨y, v⟩ := p
      by_cases hx : x = y
      · simp [hx]
      · simpa [List.lookup_cons, beq_false_of_ne hx] using ih

theorem dlookup_toSigma (es : List (String × α)) (x : String) :
    (es.map Prod.toSigma).dlookup x = es.lookup x := by
  induction es with
  | nil => rfl
  | cons p es ih =>
    obtain ⟨y, v⟩ := p
    rw [List.map_cons, Prod.toSigma_mk, List.lookup_cons]
    by_cases hx : x = y
    · subst hx
      simp
    · rw [List.dlookup_cons_ne _ _ hx, beq_false_of_ne hx, ih]

theorem lookup_fixed (es : List (String × α)) (x : String) :
    (Layer.fixed es).bound.lookup x = es.lookup x := by
  rw [Layer.fixed, Finmap.dlookup_list_toFinmap, dlookup_toSigma]

section Construction

variable {es : List (String × α)} {names : List String} {scope : Scope α} {e : ScopeError}

theorem ofEntries_eq_error_iff :
    ofEntries es = .error e ↔ ∃ x, LeastRepeated (es.map (·.1)) x ∧ e = .repeated x := by
  simp only [← adjacentRepeat?_sortByName_eq_some]
  rw [ofEntries]
  cases adjacentRepeat? (sortByName es) with
  | none => simp
  | some x => simp [eq_comm]

theorem declare_eq_error_iff :
    declare (α := α) names = .error e ↔ ∃ x, LeastRepeated names x ∧ e = .repeated x := by
  conv => rhs; rw [← map_fst_map_const names (none : Option α)]
  simp only [← adjacentRepeat?_sortByName_eq_some]
  rw [declare]
  cases adjacentRepeat? (sortByName (names.map fun n => (n, (none : Option α)))) with
  | none => simp
  | some x => simp [eq_comm]

theorem represents_ofEntries (h : ofEntries es = .ok scope) : scope.Represents (.fixed es) := by
  rw [ofEntries] at h
  split at h
  · cases h
  · next hnone =>
    cases h
    have hdistinct := adjacentRepeat?_sortByName_eq_none.1 hnone
    refine .fixed (nodup_sortByName hdistinct) fun x => ?_
    rw [lookup_sortByName hdistinct, ← lookup_fixed]
    rfl

theorem represents_ofSorted (h : es.Pairwise fun a b => a.1 < b.1) :
    (ofSorted es).Represents (.fixed es) := by
  have hdistinct := nodup_of_pairwise_lt h
  refine .fixed ?_ fun x => ?_
  · rw [List.map_reverse]
    exact List.nodup_reverse.2 hdistinct
  · rw [lookup_reverse hdistinct, ← lookup_fixed]
    rfl

theorem represents_declare (h : declare names = .ok scope) : scope.Represents (.growing names) := by
  rw [declare] at h
  split at h
  · cases h
  · next hnone =>
    cases h
    have hdistinct := adjacentRepeat?_sortByName_eq_none.1 hnone
    refine .growing (nodup_sortByName hdistinct) (fun x => ?_) fun x hx => ?_
    · rw [lookup_sortByName hdistinct, lookup_map_const, Finmap.lookup_empty]
      simp only [List.mem_toFinset]
    · exact absurd hx Finmap.notMem_empty

end Construction

theorem map_fst_fill (x : String) (v : α) (slots : List (String × Option α)) :
    (fill x v slots).map (·.1) = slots.map (·.1) := by
  fun_induction fill x v slots with
  | case1 => rfl
  | case2 => rfl
  | case3 n w rest hne ih => rw [List.map_cons, List.map_cons, ih]

namespace Represents

variable {scope scope' : Scope α} {l : Layer α} {x : String} {v : α}

/-- A name that is declared and not bound is not seen. -/
theorem lookup (h : scope.Represents l) (x : String) : scope.lookup x = l.bound.lookup x := by
  cases h with
  | fixed distinct shows => exact shows x
  | @growing slots names bound distinct shows within =>
    rw [Scope.lookup, shows]
    split
    · rfl
    · next hx => exact (Finmap.lookup_eq_none.2 fun hmem => hx (within x hmem)).symm

theorem bind (h : scope.Represents l) (hbind : scope.bind x v = .ok scope') :
    scope'.Represents { l with bound := l.bound.insert x v } := by
  cases h with
  | fixed => cases hbind
  | @growing slots names bound distinct shows within =>
    rw [Scope.bind] at hbind
    split at hbind
    · cases hbind
    · cases hbind
    · next hslot =>
      cases hbind
      have hx : x ∈ names := by
        by_contra hx
        rw [shows, if_neg hx] at hslot
        cases hslot
      refine .growing (by rwa [map_fst_fill]) (fun y => ?_) fun y hy => ?_
      · rw [lookup_fill]
        by_cases hyx : y = x
        · subst hyx
          rw [if_pos rfl, if_pos hx, hslot, Finmap.lookup_insert]
          rfl
        · rw [if_neg hyx, shows, Finmap.lookup_insert_of_ne _ hyx]
      · rcases Finmap.mem_insert.1 hy with rfl | hy
        · exact hx
        · exact within y hy

/-- Searching the slots in order by halving finds what a lookup finds. -/
theorem bisect (h : scope.Represents l) :
    (sortByName scope.slots).Pairwise (fun a b => a.1 < b.1) ∧
      ∀ x, scope.lookup x = (Scriptlet.bisect x (sortByName scope.slots)).join := by
  have hdistinct : (scope.slots.map (·.1)).Nodup := by
    cases h with
    | fixed distinct shows => simpa [slots, List.map_map, Function.comp_def] using distinct
    | growing distinct shows within => exact distinct
  have hsorted := pairwise_lt_sortByName hdistinct
  refine ⟨hsorted, fun x => ?_⟩
  rw [bisect_eq_lookup hsorted, lookup_sortByName hdistinct, lookup_slots]

end Represents

end Scope

namespace Scopes

open Scope

variable {s s' : Scopes α} {ls : List (Layer α)} {op : Operation α} {e : ScopeError}

/-- A binding fails for what the innermost layer says of the name. -/
theorem bind_eq_error_iff (h : List.Forall₂ Represents s.toList ls) (x : String) (v : α) :
    s.bind x v = .error e ↔ (Operation.bind x v).Fails ls e := by
  obtain ⟨scopes⟩ := s
  cases h with
  | nil =>
    constructor
    · rintro ⟨⟩
      exact .outside
    · rintro ⟨⟩
      rfl
  | @cons scope l scopes ls hscope hrest =>
    cases hscope with
    | fixed =>
      constructor
      · rintro ⟨⟩
        exact .fixed
      · rintro ⟨⟩
        rfl
    | @growing slots names bound distinct shows within =>
      simp only [bind, Scope.bind, shows]
      by_cases hx : x ∈ names
      · rw [if_pos hx]
        cases hbound : bound.lookup x with
        | none =>
          constructor
          · rintro ⟨⟩
          · intro hfails
            cases hfails with
            | undeclared hnot => exact absurd hx hnot
            | bound _ hmem => exact absurd hmem (Finmap.lookup_eq_none.1 hbound)
        | some w =>
          have hmem : x ∈ bound := Finmap.mem_of_lookup_eq_some hbound
          constructor
          · rintro ⟨⟩
            exact .bound hx hmem
          · intro hfails
            cases hfails with
            | undeclared hnot => exact absurd hx hnot
            | bound => rfl
      · rw [if_neg hx]
        constructor
        · rintro ⟨⟩
          exact .undeclared hx
        · intro hfails
          cases hfails with
          | undeclared => rfl
          | bound hmem => exact absurd hmem hx

/-- What fails on the stack fails on the layers, for the same reason. -/
theorem perform_eq_error_iff (h : List.Forall₂ Represents s.toList ls) (op : Operation α)
    (e : ScopeError) : s.perform op = .error e ↔ op.Fails ls e := by
  cases op with
  | pushEntries es =>
    rw [perform, except_map_eq_error_iff, ofEntries_eq_error_iff]
    constructor
    · rintro ⟨x, hx, rfl⟩
      exact .entries hx
    · intro hfails
      cases hfails with
      | entries hx => exact ⟨_, hx, rfl⟩
  | pushSorted es sorted =>
    constructor
    · rintro ⟨⟩
    · rintro ⟨⟩
  | pushNames names =>
    rw [perform, except_map_eq_error_iff, declare_eq_error_iff]
    constructor
    · rintro ⟨x, hx, rfl⟩
      exact .names hx
    · intro hfails
      cases hfails with
      | names hx => exact ⟨_, hx, rfl⟩
  | pop =>
    obtain ⟨scopes⟩ := s
    cases h with
    | nil =>
      constructor
      · rintro ⟨⟩
        exact .pop
      · rintro ⟨⟩
        rfl
    | cons =>
      constructor
      · rintro ⟨⟩
      · rintro ⟨⟩
  | bind x v => exact bind_eq_error_iff h x v

/-- An operation that does not fail does to the stack what it does to the layers. -/
theorem represents_perform (h : List.Forall₂ Represents s.toList ls)
    (hop : s.perform op = .ok s') : List.Forall₂ Represents s'.toList (op.apply ls) := by
  cases op with
  | pushEntries es =>
    obtain ⟨scope, hscope, rfl⟩ := except_map_eq_ok hop
    exact .cons (represents_ofEntries hscope) h
  | pushSorted es sorted =>
    cases hop
    exact .cons (represents_ofSorted sorted) h
  | pushNames names =>
    obtain ⟨scope, hscope, rfl⟩ := except_map_eq_ok hop
    exact .cons (represents_declare hscope) h
  | pop =>
    obtain ⟨scopes⟩ := s
    cases h with
    | nil => cases hop
    | cons hscope hrest =>
      cases hop
      exact hrest
  | bind x v =>
    obtain ⟨scopes⟩ := s
    cases h with
    | nil => cases hop
    | cons hscope hrest =>
      obtain ⟨scope', hbind, rfl⟩ := except_map_eq_ok hop
      exact .cons (hscope.bind hbind) hrest

theorem run_concat (ops : List (Operation α)) (op : Operation α) :
    run (ops ++ [op]) = (run ops).after op := by
  rw [run, List.foldl_append]
  rfl

/-- The layers that operations leave describe the stack. -/
theorem represents_run {ops : List (Operation α)} (h : Leave ops ls) :
    List.Forall₂ Represents (run ops).toList ls := by
  induction h with
  | start => exact .nil
  | @done ops ls op _ hop ih =>
    obtain ⟨s', hs'⟩ : ∃ s', (run ops).perform op = .ok s' :=
      except_exists_ok_iff.2 fun e he => hop e ((perform_eq_error_iff ih op e).1 he)
    rw [run_concat, after, hs']
    exact represents_perform ih hs'
  | @failed ops ls op e _ hop ih =>
    rw [run_concat, after, (perform_eq_error_iff ih op e).2 hop]
    exact ih

theorem exists_leave (ops : List (Operation α)) : ∃ ls, Leave ops ls := by
  induction ops using List.reverseRecOn with
  | nil => exact ⟨[], .start⟩
  | append_singleton ops op ih =>
    obtain ⟨ls, hls⟩ := ih
    by_cases hop : ∃ e, op.Fails ls e
    · obtain ⟨e, he⟩ := hop
      exact ⟨ls, .failed hls he⟩
    · exact ⟨_, .done hls (not_exists.1 hop)⟩

/-- A name is found in the innermost layer that binds it. -/
theorem locate_eq_some_iff (h : List.Forall₂ Represents s.toList ls) (x : String) (below : Nat)
    (v : α) : s.locate x = some (below, v) ↔ Layer.Innermost ls x below v := by
  obtain ⟨scopes⟩ := s
  change List.Forall₂ Represents scopes ls at h
  change locateIn x scopes = _ ↔ _
  induction h with
  | nil =>
    constructor
    · rintro ⟨⟩
    · rintro ⟨inner, l, outer, hls, -⟩
      simp at hls
  | @cons scope l scopes ls hscope hrest ih =>
    rw [locateIn, hscope.lookup]
    cases hbound : l.bound.lookup x with
    | some w =>
      have hmem : x ∈ l.bound := Finmap.mem_of_lookup_eq_some hbound
      constructor
      · rintro ⟨⟩
        exact ⟨[], l, ls, rfl, by simp, hbound, hrest.length_eq.symm⟩
      · rintro ⟨_ | ⟨l', inner⟩, l'', outer, hls, hinner, hv, rfl⟩
        · cases hls
          rw [hbound] at hv
          cases hv
          rw [hrest.length_eq]
        · cases hls
          exact absurd hmem (hinner _ List.mem_cons_self)
    | none =>
      have hnot : x ∉ l.bound := Finmap.lookup_eq_none.1 hbound
      rw [ih]
      constructor
      · rintro ⟨inner, l', outer, rfl, hinner, hv, hbelow⟩
        exact ⟨l :: inner, l', outer, rfl, List.forall_mem_cons.2 ⟨hnot, hinner⟩, hv, hbelow⟩
      · rintro ⟨_ | ⟨l', inner⟩, l'', outer, hls, hinner, hv, hbelow⟩
        · cases hls
          rw [hbound] at hv
          cases hv
        · cases hls
          exact ⟨inner, l'', outer, rfl, (List.forall_mem_cons.1 hinner).2, hv, hbelow⟩

/-- A stack of scopes is used as a stack of finite maps. -/
structure Refines (s : Scopes α) (ls : List (Layer α)) : Prop where
  size : s.size = ls.length
  locate : ∀ x below v, s.locate x = some (below, v) ↔ Layer.Innermost ls x below v
  fails : ∀ op e, s.perform op = .error e ↔ op.Fails ls e
  binds : ∀ x v, (∃ s', s.bind x v = .ok s') ↔
    ∃ names bound outer, ls = ⟨some names, bound⟩ :: outer ∧ x ∈ names ∧ x ∉ bound
  /-- Lookups in a scope are searches by halving. -/
  bisects : ∀ scope ∈ s.toList, (sortByName scope.slots).Pairwise (fun a b => a.1 < b.1) ∧
    ∀ x, scope.lookup x = (bisect x (sortByName scope.slots)).join

/-- A binding succeeds where the innermost scope is growing and the name is declared in it and not
bound. -/
theorem bind_ok_iff (h : List.Forall₂ Represents s.toList ls) (x : String) (v : α) :
    (∃ s', s.bind x v = .ok s') ↔
      ∃ names bound outer, ls = ⟨some names, bound⟩ :: outer ∧ x ∈ names ∧ x ∉ bound := by
  rw [except_exists_ok_iff]
  simp only [ne_eq, bind_eq_error_iff h]
  constructor
  · intro hok
    match ls with
    | [] => exact absurd .outside (hok _)
    | ⟨none, bound⟩ :: outer => exact absurd .fixed (hok _)
    | ⟨some names, bound⟩ :: outer =>
      have hx : x ∈ names := by
        by_contra hx
        exact hok _ (.undeclared hx)
      exact ⟨names, bound, outer, rfl, hx, fun hmem => hok _ (.bound hx hmem)⟩
  · rintro ⟨names, bound, outer, rfl, hx, hfree⟩ e hfails
    cases hfails with
    | undeclared hnot => exact hnot hx
    | bound _ hmem => exact hfree hmem

theorem refines_of_represents (h : List.Forall₂ Represents s.toList ls) : s.Refines ls where
  size := h.length_eq
  locate := locate_eq_some_iff h
  fails := perform_eq_error_iff h
  binds := bind_ok_iff h
  bisects := by
    intro scope hscope
    obtain ⟨i, hi, rfl⟩ := List.mem_iff_getElem.1 hscope
    exact (h.get hi (h.length_eq ▸ hi)).bisect

end Scopes

end Scriptlet
