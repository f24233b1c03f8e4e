import Scriptlet.Proofs.Names
import Scriptlet.Scope

/-!
What lookups show of a stack of scopes. A scope that has just been declared shows nothing, each
binding shows one name more, and the scope of parameters shows exactly the parameters.
-/

namespace Scriptlet

variable {α : Type}

namespace Scopes

theorem lookup_cons (scope : Scope α) (rest : List (Scope α)) (x : String) :
    (Scopes.mk (scope :: rest)).lookup x = (scope.lookup x).or ((Scopes.mk rest).lookup x) := by
  simp only [lookup, locate, locateIn]
  cases scope.lookup x <;> rfl

theorem lookup_push (s : Scopes α) (scope : Scope α) (x : String) :
    (s.push scope).lookup x = (scope.lookup x).or (s.lookup x) :=
  lookup_cons scope s.toList x

/-- The innermost scope is growing and has the names still to bind; `outer` is below it. -/
def Awaits (s : Scopes α) (names : List String) (outer : Scopes α) : Prop :=
  ∃ slots, s.toList = .growing slots :: outer.toList ∧ ∀ n ∈ names, slots.lookup n = some none

theorem Awaits.pop {s outer : Scopes α} {names : List String} (h : s.Awaits names outer) :
    s.pop = .ok outer := by
  obtain ⟨slots, hs, _⟩ := h
  simp [Scopes.pop, hs]

end Scopes

namespace Scope

theorem lookup_fill (name : String) (v : α) (slots : List (String × Option α)) (x : String) :
    (fill name v slots).lookup x =
      if x = name then (slots.lookup x).map fun _ => some v else slots.lookup x := by
  induction slots with
  | nil => simp [fill]
  | cons p slots ih =>
    obtain ⟨n, w⟩ := p
    by_cases hn : n = name
    · subst hn
      by_cases hx : x = n
      · subst hx
        simp [fill]
      · simp [fill, List.lookup_cons, beq_false_of_ne hx, hx]
    · by_cases hx : x = n
      · subst hx
        simp [fill, hn]
      · simp [fill, hn, List.lookup_cons, beq_false_of_ne hx, ih]

/-- Distinct names can be declared. Until they are bound, what was seen before is still seen. -/
theorem declare_ok {names : List String} (h : names.Nodup) :
    ∃ scope : Scope α, declare names = .ok scope ∧ ∀ outer : Scopes α,
      (outer.push scope).Awaits names outer ∧ ∀ x, (outer.push scope).lookup x = outer.lookup x := by
  have hn : ((names.map fun n => (n, (none : Option α))).map (·.1)).Nodup := by
    rwa [map_fst_map_const]
  have hl : ∀ x, (sortByName (names.map fun n => (n, (none : Option α)))).lookup x =
      if x ∈ names then some none else none := fun x => by
    rw [lookup_sortByName hn, lookup_map_const]
  refine ⟨_, by rw [declare, adjacentRepeat?_eq_none (nodup_sortByName hn)], fun outer => ?_⟩
  refine ⟨⟨_, rfl, fun n hmem => by rw [hl, if_pos hmem]⟩, fun x => ?_⟩
  rw [Scopes.lookup_push, Scope.lookup, hl]
  split <;> rfl

theorem ofEntries_ok {es : List (String × α)} (h : (es.map (·.1)).Nodup) :
    ∃ scope, ofEntries es = .ok scope ∧ ∀ x, scope.lookup x = es.lookup x := by
  refine ⟨_, by rw [ofEntries, adjacentRepeat?_eq_none (nodup_sortByName h)], fun x => ?_⟩
  exact lookup_sortByName h x

theorem lookup_ofSorted {es : List (String × α)} (h : (es.map (·.1)).Nodup) (x : String) :
    (ofSorted es).lookup x = es.lookup x :=
  lookup_reverse h x

/-- The frame of a call shows the arguments under the names of the parameters, and then what the
closure has kept. -/
theorem frame_ok {names : List String} {values : List α} {kept : List (String × α)}
    (hnames : names.Nodup) (hlength : names.length = values.length)
    (hkept : (kept.map (·.1)).Nodup) :
    ∃ scope, ofEntries (names.zip values) = .ok scope ∧
      ∀ x, (Scopes.mk [scope, ofSorted kept]).lookup x =
        ((names.zip values).lookup x).or (kept.lookup x) := by
  have hfst : (names.zip values).map (·.1) = names := map_fst_zip_names hlength
  obtain ⟨scope, hscope, hlookup⟩ := ofEntries_ok (hfst.symm ▸ hnames)
  refine ⟨scope, hscope, fun x => ?_⟩
  rw [Scopes.lookup_cons, Scopes.lookup_cons, hlookup, lookup_ofSorted hkept]
  exact congrArg _ Option.or_none

end Scope

/-- A name that is awaited can be bound, and is then the only one that is seen anew. -/
theorem Scopes.Awaits.bind_ok {s outer : Scopes α} {n : String} {names : List String}
    (h : s.Awaits (n :: names) outer) (hn : n ∉ names) (v : α) :
    ∃ s', s.bind n v = .ok s' ∧ s'.Awaits names outer ∧
      ∀ x, s'.lookup x = if x = n then some v else s.lookup x := by
  obtain ⟨slots, hs, hslots⟩ := h
  have hslot : slots.lookup n = some none := hslots n (by simp)
  refine ⟨⟨.growing (Scope.fill n v slots) :: outer.toList⟩, ?_, ?_, fun x => ?_⟩
  · simp [Scopes.bind, hs, Scope.bind, hslot, Except.map]
  · refine ⟨_, rfl, fun y hy => ?_⟩
    have hne : y ≠ n := fun he => hn (he ▸ hy)
    rw [Scope.lookup_fill, if_neg hne]
    exact hslots y (List.mem_cons_of_mem n hy)
  · obtain ⟨scopes⟩ := s
    cases hs
    rw [lookup_cons, lookup_cons, Scope.lookup, Scope.lookup, Scope.lookup_fill]
    split
    · next he =>
      subst he
      rw [hslot]
      rfl
    · rfl

/-- The scope shows values with the property only. -/
def Scope.All (P : α → Prop) (scope : Scope α) : Prop := ∀ x v, scope.lookup x = some v → P v

/-- So does every scope of the stack. -/
def Scopes.All (P : α → Prop) (s : Scopes α) : Prop := ∀ scope ∈ s.toList, scope.All P

section All

variable {P : α → Prop}

theorem Scope.all_declare {names : List String} {scope : Scope α} (h : declare names = .ok scope) :
    scope.All P := by
  rw [declare] at h
  split at h
  · cases h
  · cases h
    intro x v hx
    have hslot := mem_of_lookup (Option.join_eq_some_iff.1 hx)
    obtain ⟨n, -, hn⟩ := List.mem_map.1 ((sortBy_perm _ _).mem_iff.1 hslot)
    cases hn

theorem Scope.all_ofEntries {es : List (String × α)} {scope : Scope α}
    (h : ofEntries es = .ok scope) (hes : ∀ p ∈ es, P p.2) : scope.All P := by
  rw [ofEntries] at h
  split at h
  · cases h
  · cases h
    intro x v hx
    exact hes (x, v) ((sortBy_perm _ _).mem_iff.1 (mem_of_lookup hx))

theorem Scope.all_ofSorted {es : List (String × α)} (hes : ∀ p ∈ es, P p.2) :
    (ofSorted es).All P :=
  fun x v hx => hes (x, v) (List.mem_reverse.1 (mem_of_lookup hx))

theorem Scope.All.bind {scope scope' : Scope α} {name : String} {v : α} (h : scope.All P)
    (hv : P v) (hbind : scope.bind name v = .ok scope') : scope'.All P := by
  cases scope with
  | fixed => cases hbind
  | growing slots =>
    rw [Scope.bind] at hbind
    split at hbind
    · cases hbind
    · cases hbind
    · cases hbind
      intro x w hx
      rw [lookup, lookup_fill] at hx
      split at hx
      · cases hslot : slots.lookup x with
        | none =>
          rw [hslot] at hx
          cases hx
        | some old =>
          rw [hslot] at hx
          cases hx
          exact hv
      · exact h x w hx

namespace Scopes.All

variable {s s' : Scopes α} {name : String} {v : α}

theorem lookup (h : s.All P) (hx : s.lookup name = some v) : P v := by
  obtain ⟨scopes⟩ := s
  induction scopes with
  | nil => cases hx
  | cons scope rest ih =>
    rw [lookup_cons] at hx
    rcases Option.or_eq_some_iff.1 hx with hx | ⟨-, hx⟩
    · exact h scope List.mem_cons_self name v hx
    · exact ih (fun t ht => h t (List.mem_cons_of_mem _ ht)) hx

theorem push (h : s.All P) {scope : Scope α} (hscope : scope.All P) : (s.push scope).All P :=
  List.forall_mem_cons.2 ⟨hscope, h⟩

theorem pop (h : s.All P) (hpop : s.pop = .ok s') : s'.All P := by
  obtain ⟨_ | ⟨scope, rest⟩⟩ := s
  · cases hpop
  · cases hpop
    exact fun t ht => h t (List.mem_cons_of_mem _ ht)

theorem bind (h : s.All P) (hv : P v) (hbind : s.bind name v = .ok s') : s'.All P := by
  obtain ⟨_ | ⟨scope, rest⟩⟩ := s
  · cases hbind
  · obtain ⟨hscope, hrest⟩ := List.forall_mem_cons.1 h
    simp only [Scopes.bind] at hbind
    cases hinner : scope.bind name v with
    | error e =>
      rw [hinner] at hbind
      cases hbind
    | ok scope' =>
      rw [hinner] at hbind
      cases hbind
      exact List.forall_mem_cons.2 ⟨hscope.bind hv hinner, hrest⟩

end Scopes.All

end All

end Scriptlet
