/-!
Lists of things with a name, put in order and checked for repeated names. Names are ordered by
code point, which is the order of their bytes.
-/

namespace Scriptlet

variable {α : Type}

/-- Puts an item before the first one whose name is not less. -/
def insertBy (name : α → String) (a : α) : List α → List α
  | [] => [a]
  | b :: rest => if name b < name a then b :: insertBy name a rest else a :: b :: rest

/-- Sorts by name. Items of one name keep their order. -/
def sortBy (name : α → String) (items : List α) : List α := items.foldr (insertBy name) []

theorem insertBy_perm (name : α → String) (a : α) (items : List α) :
    (insertBy name a items).Perm (a :: items) := by
  fun_induction insertBy name a items with
  | case1 => exact .rfl
  | case2 b rest _ ih => exact (ih.cons b).trans (.swap a b rest)
  | case3 => exact .rfl

theorem sortBy_perm (name : α → String) (items : List α) : (sortBy name items).Perm items := by
  induction items with
  | nil => exact .rfl
  | cons a items ih => exact (insertBy_perm name a _).trans (ih.cons a)

theorem pairwise_insertBy (name : α → String) (a : α) {items : List α}
    (h : items.Pairwise fun b c => name b ≤ name c) :
    (insertBy name a items).Pairwise fun b c => name b ≤ name c := by
  fun_induction insertBy name a items with
  | case1 => exact List.pairwise_singleton _ a
  | case2 b rest hlt ih =>
    have hb := List.pairwise_cons.1 h
    refine List.pairwise_cons.2 ⟨fun c hc => ?_, ih hb.2⟩
    rcases List.mem_cons.1 ((insertBy_perm name a rest).mem_iff.1 hc) with rfl | hc
    · exact Std.le_of_lt hlt
    · exact hb.1 c hc
  | case3 b rest hlt =>
    have hab : name a ≤ name b := String.not_lt.1 hlt
    refine List.pairwise_cons.2 ⟨fun c hc => ?_, h⟩
    rcases List.mem_cons.1 hc with rfl | hc
    · exact hab
    · exact String.le_trans hab ((List.pairwise_cons.1 h).1 c hc)

theorem pairwise_sortBy (name : α → String) (items : List α) :
    (sortBy name items).Pairwise fun b c => name b ≤ name c := by
  induction items with
  | nil => exact .nil
  | cons a items ih => exact pairwise_insertBy name a ih

def sortByName (entries : List (String × α)) : List (String × α) := sortBy (·.1) entries

def sortNames (names : List String) : List String := sortBy id names

/-- The first name that occurs twice in a row. In a sorted list it is the least repeated name. -/
def adjacentRepeat? : List (String × α) → Option String
  | a :: b :: rest => if a.1 = b.1 then some a.1 else adjacentRepeat? (b :: rest)
  | _ => none

theorem pairwise_lt_of_adjacentRepeat? {entries : List (String × α)}
    (hs : entries.Pairwise fun a b => a.1 ≤ b.1) (h : adjacentRepeat? entries = none) :
    entries.Pairwise fun a b => a.1 < b.1 := by
  fun_induction adjacentRepeat? entries with
  | case1 => simp at h
  | case2 a b rest hne ih =>
    have hs' := List.pairwise_cons.1 hs
    have hlt := ih hs'.2 h
    have hab : a.1 < b.1 :=
      String.not_le.1 fun hba => hne (String.le_antisymm (hs'.1 b (by simp)) hba)
    refine List.pairwise_cons.2 ⟨fun c hc => ?_, hlt⟩
    rcases List.mem_cons.1 hc with rfl | hc
    · exact hab
    · exact String.lt_trans hab ((List.pairwise_cons.1 hlt).1 c hc)
  | case3 entries hshort =>
    match entries, hshort with
    | [], _ => exact .nil
    | [a], _ => exact List.pairwise_singleton _ a
    | a :: b :: rest, hshort => exact (hshort a b rest rfl).elim

/-- Keeps the first entry of each name. -/
def firstOfEach : List (String × α) → List (String × α)
  | [] => []
  | p :: rest => p :: (firstOfEach rest).filter fun q => q.1 != p.1

/-- Keeps the first of equal names. -/
def distinctNames : List String → List String
  | [] => []
  | n :: rest => n :: (distinctNames rest).filter (· != n)

end Scriptlet
