import Mathlib.Data.List.Forall2
import Mathlib.Data.List.Nodup
import Scriptlet.Names

/-!
Looking names up in lists of entries. Where no name is repeated, the order of the entries does not
matter, so sorting and reversing keep what is found.
-/

namespace Scriptlet

variable {α β : Type}

theorem mem_of_lookup {es : List (String × α)} {x : String} {v : α} (h : es.lookup x = some v) :
    (x, v) ∈ es := by
  obtain ⟨before, after, rfl, _⟩ := List.lookup_eq_some_iff.1 h
  simp

theorem lookup_isSome_iff_mem {es : List (String × α)} {x : String} :
    (es.lookup x).isSome ↔ x ∈ es.map (·.1) := by
  simp only [List.lookup_isSome_iff, List.mem_map, beq_iff_eq]
  constructor <;> rintro ⟨p, hp, he⟩ <;> exact ⟨p, hp, he.symm⟩

theorem lookup_eq_none_iff_notMem {es : List (String × α)} {x : String} :
    es.lookup x = none ↔ x ∉ es.map (·.1) := by
  rw [← lookup_isSome_iff_mem, Option.not_isSome_iff_eq_none]

theorem lookup_eq_some_iff_mem {es : List (String × α)} (h : (es.map (·.1)).Nodup) {x : String}
    {v : α} : es.lookup x = some v ↔ (x, v) ∈ es := by
  refine ⟨mem_of_lookup, fun hm => ?_⟩
  induction es with
  | nil => simp at hm
  | cons p es ih =>
    obtain ⟨y, w⟩ := p
    obtain ⟨hy, hes⟩ := List.nodup_cons.1 h
    rcases List.mem_cons.1 hm with he | hin
    · cases he
      simp
    · have hne : x ≠ y := by
        rintro rfl
        exact hy (List.mem_map.2 ⟨(x, v), hin, rfl⟩)
      rw [List.lookup_cons, beq_false_of_ne hne]
      exact ih hes hin

theorem lookup_perm {es es' : List (String × α)} (hp : es.Perm es') (h : (es.map (·.1)).Nodup)
    (x : String) : es.lookup x = es'.lookup x := by
  have h' : (es'.map (·.1)).Nodup := (hp.map _).nodup_iff.1 h
  ext v
  rw [lookup_eq_some_iff_mem h, lookup_eq_some_iff_mem h', hp.mem_iff]

theorem lookup_append_or (es es' : List (String × α)) (x : String) :
    (es ++ es').lookup x = (es.lookup x).or (es'.lookup x) := by
  simp [List.lookup_append]

theorem map_fst_map_const (names : List String) (c : α) :
    (names.map fun n => (n, c)).map (·.1) = names := by
  simp [List.map_map, Function.comp_def]

theorem lookup_map_const (names : List String) (c : α) (x : String) :
    (names.map fun n => (n, c)).lookup x = if x ∈ names then some c else none := by
  induction names with
  | nil => rfl
  | cons n names ih =>
    by_cases hx : x = n
    · simp [hx]
    · simp [List.lookup_cons, beq_false_of_ne hx, ih, hx]

/-- Entries in order already are not moved by sorting. -/
theorem sortByName_eq_self {es : List (String × α)} (h : (es.map (·.1)).Pairwise (· < ·)) :
    sortByName es = es := by
  induction es with
  | nil => rfl
  | cons p es ih =>
    obtain ⟨hp, hes⟩ := List.pairwise_cons.1 h
    change insertBy (·.1) p (sortByName es) = p :: es
    rw [ih hes]
    cases es with
    | nil => rfl
    | cons q es =>
      have hlt : p.1 < q.1 := hp q.1 (by simp)
      simp [insertBy, String.lt_asymm hlt]

theorem adjacentRepeat?_eq_none {es : List (String × α)} (h : (es.map (·.1)).Nodup) :
    adjacentRepeat? es = none := by
  fun_induction adjacentRepeat? es with
  | case1 a b rest he => simp [he] at h
  | case2 a b rest _ ih => exact ih (List.nodup_cons.1 h).2
  | case3 => rfl

theorem nodup_sortByName {es : List (String × α)} (h : (es.map (·.1)).Nodup) :
    ((sortByName es).map (·.1)).Nodup :=
  ((sortBy_perm _ es).map _).nodup_iff.2 h

theorem lookup_sortByName {es : List (String × α)} (h : (es.map (·.1)).Nodup) (x : String) :
    (sortByName es).lookup x = es.lookup x :=
  lookup_perm (sortBy_perm _ es) (nodup_sortByName h) x

theorem lookup_reverse {es : List (String × α)} (h : (es.map (·.1)).Nodup) (x : String) :
    es.reverse.lookup x = es.lookup x :=
  lookup_perm (List.reverse_perm es) (by rw [List.map_reverse]; exact List.nodup_reverse.2 h) x

/-- Values that match one by one are found under the same names. -/
theorem lookup_zip {R : α → β → Prop} {names : List String} {as : List α} {bs : List β}
    (h : List.Forall₂ R as bs) (x : String) :
    Option.Rel R ((names.zip as).lookup x) ((names.zip bs).lookup x) := by
  induction h generalizing names with
  | nil => simp
  | @cons a b as bs hab _ ih =>
    cases names with
    | nil => exact .none
    | cons n names =>
      simp only [List.zip_cons_cons, List.lookup_cons]
      split
      · exact .some hab
      · exact ih

theorem rel_mono {R R' : α → β → Prop} {a : Option α} {b : Option β} (h : Option.Rel R a b)
    (hR : ∀ a b, R a b → R' a b) : Option.Rel R' a b := by
  cases h with
  | none => exact .none
  | some h => exact .some (hR _ _ h)

theorem rel_iff {R : α → β → Prop} {a : Option α} {b : Option β} :
    Option.Rel R a b ↔ a.isSome = b.isSome ∧ ∀ v w, a = some v → b = some w → R v w := by
  refine ⟨fun h => ?_, fun ⟨hsome, h⟩ => ?_⟩
  · cases h with
    | none => exact ⟨rfl, fun _ _ hv => nomatch hv⟩
    | some h =>
      refine ⟨rfl, fun v w hv hw => ?_⟩
      cases hv
      cases hw
      exact h
  · cases a with
    | none =>
      cases b with
      | none => exact .none
      | some => cases hsome
    | some v =>
      cases b with
      | none => cases hsome
      | some w => exact .some (h v w rfl rfl)

theorem rel_or {R : α → β → Prop} {a a' : Option α} {b b' : Option β} (h : Option.Rel R a b)
    (h' : Option.Rel R a' b') : Option.Rel R (a.or a') (b.or b') := by
  cases h with
  | none => exact h'
  | some h => exact .some h

theorem map_fst_zip_names {names : List String} {as : List α} (h : names.length = as.length) :
    (names.zip as).map (·.1) = names :=
  List.map_fst_zip (Nat.le_of_eq h)

theorem mem_distinctNames {names : List String} {x : String} :
    x ∈ distinctNames names ↔ x ∈ names := by
  induction names with
  | nil => rfl
  | cons n names ih =>
    rw [distinctNames, List.mem_cons, List.mem_filter, ih, List.mem_cons, bne_iff_ne]
    by_cases hx : x = n <;> simp [hx]

theorem nodup_distinctNames (names : List String) : (distinctNames names).Nodup := by
  induction names with
  | nil => exact .nil
  | cons n names ih => exact List.nodup_cons.2 ⟨by simp, ih.filter _⟩

theorem mem_sortNames {names : List String} {x : String} : x ∈ sortNames names ↔ x ∈ names :=
  (sortBy_perm id names).mem_iff

/-- Distinct names are strictly increasing once they are sorted. -/
theorem pairwise_lt_of_nodup {names : List String} (h : names.Pairwise (· ≤ ·))
    (hn : names.Nodup) : names.Pairwise (· < ·) := by
  refine (h.and hn).imp fun hab => ?_
  exact String.not_le.1 fun hba => hab.2 (String.le_antisymm hab.1 hba)

theorem pairwise_sortNames {names : List String} (h : names.Nodup) :
    (sortNames names).Pairwise (· < ·) :=
  pairwise_lt_of_nodup (pairwise_sortBy id names) ((sortBy_perm id names).nodup_iff.2 h)

theorem lookup_filter_ne (es : List (String × α)) {n x : String} (hx : x ≠ n) :
    (es.filter fun q => q.1 != n).lookup x = es.lookup x := by
  induction es with
  | nil => rfl
  | cons p es ih =>
    obtain ⟨y, v⟩ := p
    by_cases hy : y = n
    · subst hy
      simp [List.lookup_cons, beq_false_of_ne hx, ih]
    · simp [hy, List.lookup_cons, ih]

theorem lookup_firstOfEach (es : List (String × α)) (x : String) :
    (firstOfEach es).lookup x = es.lookup x := by
  induction es with
  | nil => rfl
  | cons p es ih =>
    obtain ⟨y, v⟩ := p
    by_cases hx : x = y
    · simp [firstOfEach, hx]
    · rw [firstOfEach, List.lookup_cons, List.lookup_cons, lookup_filter_ne _ hx, ih]

theorem nodup_firstOfEach (es : List (String × α)) : ((firstOfEach es).map (·.1)).Nodup := by
  induction es with
  | nil => exact .nil
  | cons p es ih =>
    refine List.nodup_cons.2 ⟨by simp, ?_⟩
    exact ih.sublist (List.filter_sublist.map _)

end Scriptlet
