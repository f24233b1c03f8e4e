import Scriptlet.Binding
import Scriptlet.Proofs.Names.Order
import Scriptlet.Proofs.Result

/-!
Bindings as finite maps. Which binding is built, or why none is, depends neither on the order of the
names nor on whether pairs are given or names and values in turn.
-/

namespace Scriptlet

namespace Binding

/-- Names and values in turn. -/
def flatten (pairs : List (String × Value)) : List Value :=
  pairs.flatMap fun p => [.str p.1, p.2]

/-- The token can stand for a name. -/
def Naming (v : Value) : Prop := ∃ s, v = .str s ∧ s ≠ ""

/-- What is said of a token that cannot. -/
def misnomer : Value → String
  | .str _ => "an empty string"
  | v => v.typeName

/-- The first even position at which there is no name, and what there is. -/
structure FirstMisnamed (tokens : List Value) (i : Nat) (found : String) : Prop where
  even : i % 2 = 0
  misnamed : ∃ v, tokens[i]? = some v ∧ ¬ Naming v ∧ found = misnomer v
  first : ∀ j < i, j % 2 = 0 → ∀ v, tokens[j]? = some v → Naming v

/-- The binding has exactly the pairs, in the order of the names. -/
structure Maps (b : Binding) (pairs : List (String × Value)) : Prop where
  get : ∀ n v, b.get? n = some v ↔ (n, v) ∈ pairs
  increasing : b.names.Pairwise (· < ·)
  names : b.names.Perm (pairs.map (·.1))
  /-- A name is found by halving. -/
  bisects : ∀ n, b.get? n = bisect n b.entries

section Entries

variable {pairs pairs' : List (String × Value)} {b : Binding} {e : BindingError}

theorem ofEntries_eq_error_iff :
    ofEntries pairs = .error e ↔ ∃ x, LeastRepeated (pairs.map (·.1)) x ∧ e = .repeatedName x := by
  simp only [← adjacentRepeat?_sortByName_eq_some]
  rw [ofEntries]
  split
  · next h => simp [h]
  · constructor
    · rintro ⟨⟩
      exact ⟨_, (Option.some_get _).symm, rfl⟩
    · rintro ⟨x, hx, rfl⟩
      simp [hx]

theorem ofEntries_eq_ok_iff :
    ofEntries pairs = .ok b ↔ (pairs.map (·.1)).Nodup ∧ b.entries = sortByName pairs := by
  rw [← adjacentRepeat?_sortByName_eq_none, ofEntries]
  split
  · next h =>
    obtain ⟨entries, sorted⟩ := b
    simp [h, eq_comm]
  · next h => simp [h]

theorem exists_ofEntries_iff : (∃ b, ofEntries pairs = .ok b) ↔ (pairs.map (·.1)).Nodup := by
  rw [except_exists_ok_iff, ← not_iff_not, ← exists_error_iff (k := BindingError.repeatedName)]
  simp only [ne_eq, not_forall, not_not, ofEntries_eq_error_iff]

theorem maps_of_ofEntries (h : ofEntries pairs = .ok b) : b.Maps pairs := by
  obtain ⟨hdistinct, hentries⟩ := ofEntries_eq_ok_iff.1 h
  refine ⟨fun n v => ?_, List.pairwise_map.2 b.sorted, ?_, fun n => ?_⟩
  · rw [get?, hentries, lookup_sortByName hdistinct, lookup_eq_some_iff_mem hdistinct]
  · rw [names, hentries]
    exact (sortBy_perm _ pairs).map _
  · exact (bisect_eq_lookup b.sorted n).symm

/-- The order of the entries does not matter. -/
theorem ofEntries_perm (hp : pairs.Perm pairs') : ofEntries pairs = ofEntries pairs' := by
  cases h : ofEntries pairs' with
  | error e =>
    obtain ⟨x, hx, rfl⟩ := ofEntries_eq_error_iff.1 h
    exact ofEntries_eq_error_iff.2 ⟨x, (leastRepeated_perm (hp.map _)).2 hx, rfl⟩
  | ok b =>
    obtain ⟨hdistinct, hentries⟩ := ofEntries_eq_ok_iff.1 h
    have hdistinct' := (hp.map _).nodup_iff.2 hdistinct
    exact ofEntries_eq_ok_iff.2 ⟨hdistinct', by rw [hentries, sortByName_perm hp hdistinct']⟩

end Entries

section Pairs

variable {pairs : List (String × Value)}

theorem emptyName?_eq_none_iff : emptyName? pairs = none ↔ ∀ p ∈ pairs, p.1 ≠ "" := by
  simp [emptyName?]

theorem emptyName?_eq_some_iff {i : Nat} : emptyName? pairs = some i ↔
    ∃ before v after, pairs = before ++ ("", v) :: after ∧ (∀ p ∈ before, p.1 ≠ "") ∧
      before.length = i := by
  rw [emptyName?, List.findIdx?_eq_some_iff_getElem]
  constructor
  · rintro ⟨hi, hempty, hbefore⟩
    have hname : pairs[i] = ("", pairs[i].2) := Prod.ext (by simpa using hempty) rfl
    refine ⟨pairs.take i, pairs[i].2, pairs.drop (i + 1), ?_, ?_, by simp; omega⟩
    · rw [← hname, List.getElem_cons_drop, List.take_append_drop]
    · intro p hp
      obtain ⟨j, hj, rfl⟩ := List.mem_iff_getElem.1 hp
      simpa using hbefore j (by simp at hj; omega)
  · rintro ⟨before, v, after, rfl, hbefore, rfl⟩
    refine ⟨by simp, by simp, fun j hj => ?_⟩
    simpa [List.getElem_append_left hj] using hbefore before[j] (List.getElem_mem hj)

theorem ofPairs_of_named (h : ∀ p ∈ pairs, p.1 ≠ "") : ofPairs pairs = ofEntries pairs := by
  rw [ofPairs, emptyName?_eq_none_iff.2 h]

/-- Why pairs are no binding: the first empty name, and without one the least repeated name. -/
theorem ofPairs_eq_error_iff {e : BindingError} : ofPairs pairs = .error e ↔
    (∃ before v after, pairs = before ++ ("", v) :: after ∧ (∀ p ∈ before, p.1 ≠ "") ∧
      e = .badName (2 * before.length) "an empty string") ∨
    (∀ p ∈ pairs, p.1 ≠ "") ∧ ∃ x, LeastRepeated (pairs.map (·.1)) x ∧ e = .repeatedName x := by
  cases hempty : emptyName? pairs with
  | none =>
    have hnamed := emptyName?_eq_none_iff.1 hempty
    rw [ofPairs_of_named hnamed, ofEntries_eq_error_iff]
    constructor
    · exact fun h => .inr ⟨hnamed, h⟩
    · rintro (⟨before, v, after, rfl, -⟩ | ⟨-, h⟩)
      · exact absurd rfl (hnamed ("", v) (by simp))
      · exact h
  | some i =>
    obtain ⟨before, v, after, hpairs, hbefore, rfl⟩ := emptyName?_eq_some_iff.1 hempty
    rw [ofPairs, hempty]
    constructor
    · rintro ⟨⟩
      exact .inl ⟨before, v, after, hpairs, hbefore, rfl⟩
    · rintro (⟨before', v', after', hpairs', hbefore', rfl⟩ | ⟨hnamed, -⟩)
      · have hsome := emptyName?_eq_some_iff.2 ⟨before', v', after', hpairs', hbefore', rfl⟩
        rw [hempty] at hsome
        rw [Option.some.inj hsome]
      · rw [emptyName?_eq_none_iff.2 hnamed] at hempty
        cases hempty

theorem exists_ofPairs_iff : (∃ b, ofPairs pairs = .ok b) ↔
    (∀ p ∈ pairs, p.1 ≠ "") ∧ (pairs.map (·.1)).Nodup := by
  cases hempty : emptyName? pairs with
  | none =>
    have hnamed := emptyName?_eq_none_iff.1 hempty
    rw [ofPairs_of_named hnamed, exists_ofEntries_iff, and_iff_right hnamed]
  | some i =>
    have hnamed : ¬ ∀ p ∈ pairs, p.1 ≠ "" := by
      rw [← emptyName?_eq_none_iff, hempty]
      exact Option.some_ne_none i
    refine iff_of_false ?_ fun h => hnamed h.1
    rw [ofPairs, hempty]
    rintro ⟨b, ⟨⟩⟩

end Pairs

section Tokens

variable {name value : Value} {rest tokens : List Value} {pairs : List (String × Value)}
  {position i j : Nat} {found found' : String}

theorem pairTokens_of_not_naming (h : ¬ Naming name) :
    pairTokens position (name :: value :: rest) = .error (.badName position (misnomer name)) := by
  cases name with
  | str s =>
    have hs : s = "" := by
      by_contra hs
      exact h ⟨s, rfl, hs⟩
    subst hs
    rfl
  | _ => rfl

theorem pairTokens_str {s : String} (h : s ≠ "") :
    pairTokens position (.str s :: value :: rest) =
      (pairTokens (position + 2) rest).map fun pairs => (s, value) :: pairs := by
  have hs : s.isEmpty = false := by simpa using h
  simp only [pairTokens, hs]
  rfl

namespace FirstMisnamed

theorem here (h : ¬ Naming name) : FirstMisnamed (name :: rest) 0 (misnomer name) :=
  ⟨rfl, ⟨name, rfl, h, rfl⟩, fun j hj => absurd hj (Nat.not_lt_zero j)⟩

theorem later (hname : Naming name) (h : FirstMisnamed rest i found) :
    FirstMisnamed (name :: value :: rest) (i + 2) found := by
  refine ⟨by rw [Nat.add_mod_right, h.even], by simpa using h.misnamed, fun j hj heven v hv => ?_⟩
  match j with
  | 0 =>
    cases hv
    exact hname
  | 1 => cases heven
  | j + 2 =>
    rw [Nat.add_mod_right] at heven
    exact h.first j (by omega) heven v (by simpa using hv)

theorem unique (h : FirstMisnamed tokens i found) (h' : FirstMisnamed tokens j found') :
    i = j ∧ found = found' := by
  obtain ⟨v, hv, hnot, rfl⟩ := h.misnamed
  obtain ⟨v', hv', hnot', rfl⟩ := h'.misnamed
  rcases Nat.lt_trichotomy i j with hlt | rfl | hlt
  · exact absurd (h'.first i hlt h.even v hv) hnot
  · rw [hv] at hv'
    cases hv'
    exact ⟨rfl, rfl⟩
  · exact absurd (h.first j hlt h'.even v' hv') hnot'

end FirstMisnamed

theorem not_firstMisnamed_flatten (hpairs : ∀ p ∈ pairs, p.1 ≠ "") :
    ¬ FirstMisnamed (flatten pairs) i found := by
  rintro ⟨heven, ⟨v, hv, hnot, -⟩, -⟩
  induction pairs generalizing i with
  | nil => cases hv
  | cons p pairs ih =>
    obtain ⟨hp, hpairs⟩ := List.forall_mem_cons.1 hpairs
    match i with
    | 0 =>
      cases hv
      exact hnot ⟨p.1, rfl, hp⟩
    | 1 => cases heven
    | i + 2 => exact ih hpairs (by rwa [Nat.add_mod_right] at heven) (by simpa [flatten] using hv)

/-- An even number of tokens is names and values in turn, or the first token in the place of a name
that is none is reported. -/
theorem pairTokens_cases : ∀ tokens : List Value, tokens.length % 2 = 0 → ∀ position,
    (∃ pairs, tokens = flatten pairs ∧ (∀ p ∈ pairs, p.1 ≠ "") ∧
      pairTokens position tokens = .ok pairs) ∨
    ∃ i found, FirstMisnamed tokens i found ∧
      pairTokens position tokens = .error (.badName (position + i) found)
  | [], _, _ => .inl ⟨[], rfl, by simp, rfl⟩
  | [_], h, _ => absurd h (by simp)
  | name :: value :: rest, h, position => by
    by_cases hname : Naming name
    · obtain ⟨s, rfl, hs⟩ := hname
      rw [pairTokens_str hs]
      rcases pairTokens_cases rest (by rwa [List.length_cons, List.length_cons, Nat.add_assoc,
          Nat.add_mod_right] at h) (position + 2) with
        ⟨pairs, rfl, hpairs, hok⟩ | ⟨i, found, hfirst, herror⟩
      · exact .inl ⟨(s, value) :: pairs, rfl, List.forall_mem_cons.2 ⟨hs, hpairs⟩, by rw [hok]; rfl⟩
      · refine .inr ⟨i + 2, found, hfirst.later ⟨s, rfl, hs⟩, ?_⟩
        rw [herror, Nat.add_assoc, Nat.add_comm 2 i]
        rfl
    · exact .inr ⟨0, _, .here hname, pairTokens_of_not_naming hname⟩

theorem length_flatten (pairs : List (String × Value)) : (flatten pairs).length % 2 = 0 := by
  induction pairs with
  | nil => rfl
  | cons p pairs ih =>
    change ((flatten pairs).length + 2) % 2 = 0
    rw [Nat.add_mod_right, ih]

theorem ofTokens_eq_error_iff (h : tokens.length % 2 = 0) :
    ofTokens tokens = .error (.badName i found) ↔ FirstMisnamed tokens i found := by
  rw [ofTokens, if_pos h]
  rcases pairTokens_cases tokens h 0 with ⟨pairs, rfl, hpairs, hok⟩ | ⟨j, found', hfirst, herror⟩
  · refine iff_of_false ?_ (not_firstMisnamed_flatten hpairs)
    simp only [hok]
    intro he
    obtain ⟨x, -, hx⟩ := ofEntries_eq_error_iff.1 he
    cases hx
  · simp only [herror, Nat.zero_add]
    constructor
    · rintro ⟨⟩
      exact hfirst
    · intro hfirst'
      obtain ⟨rfl, rfl⟩ := hfirst.unique hfirst'
      rfl

/-- Pairs that are given as tokens are paired again. -/
theorem pairTokens_flatten (pairs : List (String × Value)) (position : Nat) :
    pairTokens position (flatten pairs) =
      match emptyName? pairs with
      | some i => .error (.badName (position + 2 * i) "an empty string")
      | none => .ok pairs := by
  induction pairs generalizing position with
  | nil => rfl
  | cons p pairs ih =>
    obtain ⟨n, v⟩ := p
    change pairTokens position (.str n :: v :: flatten pairs) = _
    rw [emptyName?, List.findIdx?_cons]
    by_cases hn : n = ""
    · subst hn
      exact pairTokens_of_not_naming fun ⟨s, hs, hne⟩ => hne (Value.str.inj hs).symm
    · have hempty : n.isEmpty = false := by simpa using hn
      rw [pairTokens_str hn, ih, hempty, emptyName?]
      cases pairs.findIdx? fun p => p.1.isEmpty with
      | none => rfl
      | some i =>
        change Except.error _ = Except.error _
        rw [Nat.add_assoc, Nat.mul_add, Nat.add_comm (2 * i)]

theorem ofTokens_flatten (pairs : List (String × Value)) :
    ofTokens (flatten pairs) = ofPairs pairs := by
  rw [ofTokens, if_pos (length_flatten pairs), pairTokens_flatten, ofPairs]
  cases emptyName? pairs with
  | none => rfl
  | some i =>
    change Except.error _ = Except.error _
    rw [Nat.zero_add]

end Tokens

/-- Pairs make a binding just where their names are distinct and not empty, and the binding is then
the finite map of the pairs. In another order the pairs give the same binding or the same repeated
name. Given as tokens they give what they give as pairs; an odd number of tokens gives nothing, and
otherwise the first position of a name that holds none is reported. -/
theorem ofPairs_maps (pairs : List (String × Value)) :
    ((∃ b, ofPairs pairs = .ok b) ↔ (∀ p ∈ pairs, p.1 ≠ "") ∧ (pairs.map (·.1)).Nodup) ∧
      (∀ b, ofPairs pairs = .ok b → b.Maps pairs) ∧
      (∀ pairs', pairs'.Perm pairs → (∀ p ∈ pairs, p.1 ≠ "") → ofPairs pairs' = ofPairs pairs) ∧
      (∀ e, ofPairs pairs = .error e ↔
        (∃ before v after, pairs = before ++ ("", v) :: after ∧ (∀ p ∈ before, p.1 ≠ "") ∧
          e = .badName (2 * before.length) "an empty string") ∨
        (∀ p ∈ pairs, p.1 ≠ "") ∧ ∃ x, LeastRepeated (pairs.map (·.1)) x ∧ e = .repeatedName x) ∧
      ofTokens (flatten pairs) = ofPairs pairs ∧
      (∀ tokens, tokens.length % 2 = 1 → ofTokens tokens = .error (.oddCount tokens.length)) ∧
      (∀ tokens, tokens.length % 2 = 0 →
        (∀ i found, ofTokens tokens = .error (.badName i found) ↔ FirstMisnamed tokens i found) ∧
        ((∀ i found, ¬ FirstMisnamed tokens i found) → ∃ pairs, tokens = flatten pairs)) := by
  refine ⟨exists_ofPairs_iff, fun b hb => ?_, fun pairs' hp hnamed => ?_,
    fun e => ofPairs_eq_error_iff, ofTokens_flatten pairs, fun tokens hodd => ?_,
    fun tokens heven => ⟨fun i found => ofTokens_eq_error_iff heven, fun hnone => ?_⟩⟩
  · rw [ofPairs_of_named (exists_ofPairs_iff.1 ⟨b, hb⟩).1] at hb
    exact maps_of_ofEntries hb
  · have hnamed' : ∀ p ∈ pairs', p.1 ≠ "" := fun p hmem => hnamed p (hp.mem_iff.1 hmem)
    rw [ofPairs_of_named hnamed, ofPairs_of_named hnamed', ofEntries_perm hp]
  · rw [ofTokens, if_neg (by omega)]
  · rcases pairTokens_cases tokens heven 0 with ⟨pairs, hpairs, -⟩ | ⟨i, found, hfirst, -⟩
    · exact ⟨pairs, hpairs⟩
    · exact absurd hfirst (hnone i found)

/-- The names come in another order, as tokens in between. -/
theorem ofPairs_maps_reordered : ∃ b, ofTokens [.str "y", .int 2, .str "x", .str "one"] = .ok b ∧
    ofPairs [("x", .str "one"), ("y", .int 2)] = .ok b ∧ b.get? "y" = some (.int 2) ∧
    b.names.Perm ["y", "x"] := by
  obtain ⟨hok, hmaps, hperm, -, htokens, -⟩ := ofPairs_maps [("y", .int 2), ("x", .str "one")]
  obtain ⟨b, hb⟩ := hok.2 ⟨by decide, by decide⟩
  have hswap := hperm [("x", .str "one"), ("y", .int 2)] (.swap _ _ _) (by decide)
  exact ⟨b, htokens.trans hb, hswap.trans hb, ((hmaps b hb).get _ _).2 (by simp),
    (hmaps b hb).names⟩

end Binding

end Scriptlet
