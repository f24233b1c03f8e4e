import Mathlib.Data.List.Duplicate
import Scriptlet.Proofs.Names

/-!
Entries in the order of their names. The first repetition among them is the least name that is
repeated, in whatever order the entries came, and a name is found among them by halving.
-/

namespace Scriptlet

variable {α : Type}

/-- The least of the names that occur more than once. -/
structure LeastRepeated (names : List String) (x : String) : Prop where
  repeated : names.Duplicate x
  least : ∀ y, names.Duplicate y → x ≤ y

theorem nodup_of_pairwise_lt {es : List (String × α)} (h : es.Pairwise fun a b => a.1 < b.1) :
    (es.map (·.1)).Nodup := by
  rw [List.Nodup, List.pairwise_map]
  refine h.imp fun {a b} hlt he => ?_
  rw [he] at hlt
  exact String.lt_irrefl _ hlt

section Repetition

variable {names names' : List String} {x y : String}

theorem LeastRepeated.unique (hx : LeastRepeated names x) (hy : LeastRepeated names y) : x = y :=
  String.le_antisymm (hx.least y hy.repeated) (hy.least x hx.repeated)

theorem duplicate_perm (h : names.Perm names') : names.Duplicate x ↔ names'.Duplicate x := by
  rw [List.duplicate_iff_two_le_count, List.duplicate_iff_two_le_count, h.count_eq]

/-- The order of the names does not matter. -/
theorem leastRepeated_perm (h : names.Perm names') :
    LeastRepeated names x ↔ LeastRepeated names' x := by
  constructor
  · intro hx
    exact ⟨(duplicate_perm h).1 hx.repeated, fun y hy => hx.least y ((duplicate_perm h).2 hy)⟩
  · intro hx
    exact ⟨(duplicate_perm h).2 hx.repeated, fun y hy => hx.least y ((duplicate_perm h).1 hy)⟩

theorem LeastRepeated.not_nodup (h : LeastRepeated names x) : ¬ names.Nodup :=
  h.repeated.not_nodup

/-- Among entries in order, the first repetition is the least one. -/
theorem leastRepeated_of_adjacentRepeat? {es : List (String × α)}
    (hs : es.Pairwise fun a b => a.1 ≤ b.1) (h : adjacentRepeat? es = some x) :
    LeastRepeated (es.map (·.1)) x := by
  fun_induction adjacentRepeat? es with
  | case1 a b rest he =>
    cases h
    refine ⟨List.duplicate_cons_self_iff.2 (by simp [he]), fun y hy => ?_⟩
    rcases List.mem_cons.1 hy.mem with rfl | hmem
    · exact String.le_refl _
    · obtain ⟨c, hc, rfl⟩ := List.mem_map.1 hmem
      exact (List.pairwise_cons.1 hs).1 c hc
  | case2 a b rest hne ih =>
    obtain ⟨ha, hrest⟩ := List.pairwise_cons.1 hs
    have hx := ih hrest h
    refine ⟨hx.repeated.duplicate_cons a.1, fun y hy => ?_⟩
    rcases List.duplicate_cons_iff.1 hy with ⟨rfl, hmem⟩ | hy
    · -- A name that comes back after a greater one would not be in order.
      obtain ⟨c, hc, hca⟩ := List.mem_map.1 hmem
      have hba : b.1 ≤ c.1 := by
        rcases List.mem_cons.1 hc with rfl | hc
        · exact String.le_refl _
        · exact (List.pairwise_cons.1 hrest).1 c hc
      rw [hca] at hba
      exact absurd (String.le_antisymm (ha b List.mem_cons_self) hba) hne
    · exact hx.least y hy
  | case3 => cases h

theorem adjacentRepeat?_sortByName_eq_none {es : List (String × α)} :
    adjacentRepeat? (sortByName es) = none ↔ (es.map (·.1)).Nodup := by
  have hperm : ((sortByName es).map (·.1)).Perm (es.map (·.1)) := (sortBy_perm _ es).map _
  rw [← hperm.nodup_iff]
  refine ⟨fun h => ?_, adjacentRepeat?_eq_none⟩
  exact nodup_of_pairwise_lt (pairwise_lt_of_adjacentRepeat? (pairwise_sortBy _ es) h)

/-- What is reported of entries in any order is the least repeated name. -/
theorem adjacentRepeat?_sortByName_eq_some {es : List (String × α)} :
    adjacentRepeat? (sortByName es) = some x ↔ LeastRepeated (es.map (·.1)) x := by
  have hperm : ((sortByName es).map (·.1)).Perm (es.map (·.1)) := (sortBy_perm _ es).map _
  rw [← leastRepeated_perm hperm]
  refine ⟨leastRepeated_of_adjacentRepeat? (pairwise_sortBy _ es), fun hx => ?_⟩
  cases h : adjacentRepeat? (sortByName es) with
  | none =>
    rw [adjacentRepeat?_sortByName_eq_none, ← hperm.nodup_iff] at h
    exact absurd h hx.not_nodup
  | some y =>
    rw [hx.unique (leastRepeated_of_adjacentRepeat? (pairwise_sortBy _ es) h)]

theorem pairwise_lt_sortByName {es : List (String × α)} (h : (es.map (·.1)).Nodup) :
    (sortByName es).Pairwise fun a b => a.1 < b.1 :=
  pairwise_lt_of_adjacentRepeat? (pairwise_sortBy _ es) (adjacentRepeat?_sortByName_eq_none.2 h)

/-- Distinct names come to one order. -/
theorem sortByName_perm {es es' : List (String × α)} (hp : es.Perm es')
    (hn : (es.map (·.1)).Nodup) : sortByName es = sortByName es' := by
  refine List.Perm.eq_of_pairwise (fun a b _ _ hab hba => ?_) (pairwise_lt_sortByName hn)
    (pairwise_lt_sortByName ((hp.map _).nodup_iff.1 hn))
    ((sortBy_perm _ es).trans (hp.trans (sortBy_perm _ es').symm))
  exact absurd (String.lt_trans hab hba) (String.lt_irrefl _)

/-- There is a least repeated name unless the names are distinct. -/
theorem exists_leastRepeated_iff : (∃ x, LeastRepeated names x) ↔ ¬ names.Nodup := by
  have hnames := map_fst_map_const names ()
  constructor
  · rintro ⟨x, hx⟩
    exact hx.not_nodup
  · intro h
    rw [← hnames, ← adjacentRepeat?_sortByName_eq_none, ← ne_eq, Option.ne_none_iff_exists'] at h
    obtain ⟨x, hx⟩ := h
    exact ⟨x, hnames ▸ adjacentRepeat?_sortByName_eq_some.1 hx⟩

/-- An error that names the least repeated name comes up just where the names are not distinct. -/
theorem exists_error_iff {ε : Type} {k : String → ε} :
    (∃ e x, LeastRepeated names x ∧ e = k x) ↔ ¬ names.Nodup := by
  rw [← exists_leastRepeated_iff]
  constructor
  · rintro ⟨e, x, hx, rfl⟩
    exact ⟨x, hx⟩
  · rintro ⟨x, hx⟩
    exact ⟨_, x, hx, rfl⟩

end Repetition

/-- Searches entries in order: halves them until one is left. Of a name that stands several times
in a row, the last entry is found. -/
def bisect (name : String) (es : List (String × α)) : Option α :=
  if h : es.length ≤ 1 then es.lookup name
  else
    have hhalf : es.length / 2 < es.length := by omega
    if name < es[es.length / 2].1 then bisect name (es.take (es.length - es.length / 2))
    else bisect name (es.drop (es.length / 2))
termination_by es.length
decreasing_by all_goals simp only [List.length_take, List.length_drop]; omega

section Search

variable {es : List (String × α)}

/-- A name that no entry of the back half has is looked for in the front half. -/
theorem lookup_reverse_take {i : Nat} {name : String} (h : ∀ p ∈ es.drop i, p.1 ≠ name) :
    es.reverse.lookup name = (es.take i).reverse.lookup name := by
  have hnone : (es.drop i).reverse.lookup name = none := by
    rw [lookup_eq_none_iff_notMem]
    intro hmem
    obtain ⟨p, hp, he⟩ := List.mem_map.1 hmem
    exact h p (List.mem_reverse.1 hp) he
  conv => lhs; rw [← List.take_append_drop i es, List.reverse_append, lookup_append_or, hnone]
  exact Option.none_or

/-- A name that an entry of the back half has, or none of the front half, is looked for there. -/
theorem lookup_reverse_drop {i : Nat} {name : String}
    (h : ∀ p ∈ es.take i, p.1 = name → ∃ q ∈ es.drop i, q.1 = name) :
    es.reverse.lookup name = (es.drop i).reverse.lookup name := by
  conv => lhs; rw [← List.take_append_drop i es, List.reverse_append, lookup_append_or]
  cases hback : (es.drop i).reverse.lookup name with
  | some v => rfl
  | none =>
    have hnone : (es.take i).reverse.lookup name = none := by
      rw [lookup_eq_none_iff_notMem] at hback ⊢
      intro hmem
      obtain ⟨p, hp, he⟩ := List.mem_map.1 hmem
      obtain ⟨q, hq, he⟩ := h p (List.mem_reverse.1 hp) he
      exact hback (List.mem_map.2 ⟨q, List.mem_reverse.2 hq, he⟩)
    rw [hnone]
    rfl

/-- The search finds what a search from the end would find. -/
theorem bisect_eq_lookup_reverse (hs : es.Pairwise fun a b => a.1 ≤ b.1) (name : String) :
    bisect name es = es.reverse.lookup name := by
  fun_induction bisect name es with
  | case1 es hshort =>
    match es, hshort with
    | [], _ => rfl
    | [p], _ => rfl
  | case2 es hlong hhalf hlt ih =>
    rw [ih (hs.sublist (List.take_sublist _ _))]
    refine (lookup_reverse_take fun p hp he => ?_).symm
    -- What is cut off begins behind the middle, so all names there are greater.
    obtain ⟨j, hj, rfl⟩ := List.mem_iff_getElem.1 hp
    rw [List.length_drop] at hj
    rw [List.getElem_drop] at he
    have hmiddle : es[es.length / 2].1 ≤ es[es.length - es.length / 2 + j].1 := by
      by_cases hsame : es.length / 2 = es.length - es.length / 2 + j
      · simp only [← hsame]
        exact String.le_refl _
      · exact List.pairwise_iff_getElem.1 hs _ _ _ _ (by omega)
    exact String.not_le.2 hlt (he ▸ hmiddle)
  | case3 es hlong hhalf hlt ih =>
    rw [ih (hs.sublist (List.drop_sublist _ _))]
    refine (lookup_reverse_drop fun p hp he => ?_).symm
    have hmem : es[es.length / 2] ∈ es.drop (es.length / 2) := by
      rw [List.drop_eq_getElem_cons hhalf]
      exact List.mem_cons_self
    refine ⟨_, hmem, String.le_antisymm (String.not_lt.1 hlt) ?_⟩
    obtain ⟨j, hj, rfl⟩ := List.mem_iff_getElem.1 hp
    rw [List.length_take] at hj
    rw [List.getElem_take] at he
    rw [← he]
    exact List.pairwise_iff_getElem.1 hs _ _ _ _ (by omega)

/-- Where no name is repeated, the search is a lookup. -/
theorem bisect_eq_lookup (hs : es.Pairwise fun a b => a.1 < b.1) (name : String) :
    bisect name es = es.lookup name := by
  rw [bisect_eq_lookup_reverse (hs.imp Std.le_of_lt), lookup_reverse (nodup_of_pairwise_lt hs)]

end Search

end Scriptlet
