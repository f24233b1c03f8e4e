import Mathlib.Data.List.TakeWhile

/-!
Patterns of characters. A pattern is tried at the front of a text, where it takes characters off or
fails. It keeps to the first way in which it matches: a choice to its first alternative that does,
a repetition to as many rounds as there are.
-/

namespace Scriptlet

inductive Lexical where
  | done
  | one (p : Char → Bool)
  | seq (l m : Lexical)
  | choice (l m : Lexical)
  | star (l : Lexical)
  /-- The pattern must not match here. It takes nothing off. -/
  | absent (l : Lexical)

namespace Lexical

instance : Append Lexical := ⟨seq⟩

instance : OrElse Lexical := ⟨fun l m => choice l (m ())⟩

/-- What is left after as many rounds as there are. A round that takes nothing off is the last. -/
def rounds (f : List Char → Option (List Char)) (cs : List Char) : List Char :=
  match f cs with
  | some rest => if rest.length < cs.length then rounds f rest else cs
  | none => cs
termination_by cs.length

/-- What is left of a text where the pattern matches. -/
def match? : Lexical → List Char → Option (List Char)
  | done, cs => some cs
  | one _, [] => none
  | one p, c :: cs => if p c then some cs else none
  | seq l m, cs => (l.match? cs).bind m.match?
  | choice l m, cs => (l.match? cs).or (m.match? cs)
  | star l, cs => some (rounds l.match? cs)
  | absent l, cs => if (l.match? cs).isSome then none else some cs

/-- One given character. -/
def char (c : Char) : Lexical := one (· == c)

def anything : Lexical := one fun _ => true

def maybe (l : Lexical) : Lexical := l <|> done

/-- One round at least. -/
def many (l : Lexical) : Lexical := l ++ star l

/-- The characters of a name, one after the other. -/
def name (cs : List Char) : Lexical := cs.foldr (fun c l => char c ++ l) done

variable {l m : Lexical} {p : Char → Bool} {c : Char} {cs rest : List Char}

@[simp]
theorem match?_done : done.match? cs = some cs := rfl

@[simp]
theorem match?_one_nil : (one p).match? [] = none := rfl

@[simp]
theorem match?_one_cons : (one p).match? (c :: cs) = if p c = true then some cs else none := rfl

@[simp]
theorem match?_append : (l ++ m).match? cs = (l.match? cs).bind m.match? := rfl

@[simp]
theorem match?_orElse : (l <|> m).match? cs = (l.match? cs).or (m.match? cs) := rfl

@[simp]
theorem match?_star : (star l).match? cs = some (rounds l.match? cs) := rfl

@[simp]
theorem match?_absent :
    (absent l).match? cs = if (l.match? cs).isSome = true then none else some cs := rfl

theorem match?_one_eq_some_iff :
    (one p).match? cs = some rest ↔ ∃ c, p c = true ∧ cs = c :: rest := by
  cases cs with
  | nil => simp
  | cons d ds =>
    rw [match?_one_cons]
    by_cases hd : p d = true
    · simp only [if_pos hd, Option.some.injEq, List.cons.injEq]
      constructor
      · rintro rfl
        exact ⟨d, hd, rfl, rfl⟩
      · rintro ⟨c, -, -, rfl⟩
        rfl
    · simp only [if_neg hd, reduceCtorEq, List.cons.injEq, false_iff]
      rintro ⟨c, hc, rfl, -⟩
      exact hd hc

theorem match?_one_eq_none_iff : (one p).match? cs = none ↔ ∀ c ∈ cs.head?, p c = false := by
  cases cs with
  | nil => simp
  | cons d ds =>
    rw [match?_one_cons]
    by_cases hd : p d = true <;> simp [hd]

theorem match?_char_eq_some_iff : (char c).match? cs = some rest ↔ cs = c :: rest := by
  rw [char, match?_one_eq_some_iff]
  simp

theorem match?_char_eq_none_iff : (char c).match? cs = none ↔ ∀ d ∈ cs.head?, d ≠ c := by
  rw [char, match?_one_eq_none_iff]
  simp

/-- The character is not at the front of the text, or it is. -/
theorem head_ne_or_eq_cons (c : Char) (cs : List Char) :
    (∀ d ∈ cs.head?, d ≠ c) ∨ ∃ rest, cs = c :: rest := by
  rw [← match?_char_eq_none_iff]
  cases h : (char c).match? cs with
  | none => exact .inl rfl
  | some rest => exact .inr ⟨rest, match?_char_eq_some_iff.1 h⟩

theorem match?_absent_eq_some_iff :
    (absent l).match? cs = some rest ↔ l.match? cs = none ∧ cs = rest := by
  rw [match?_absent]
  cases l.match? cs <;> simp

theorem match?_maybe : (maybe l).match? cs = some ((l.match? cs).getD cs) := by
  rw [maybe, match?_orElse]
  cases l.match? cs <;> rfl

theorem match?_many : (many l).match? cs = (l.match? cs).map (rounds l.match?) := by
  rw [many, match?_append]
  cases l.match? cs <;> rfl

/-- A name is matched by its own characters. -/
theorem match?_name_eq_some_iff {word : List Char} :
    (name word).match? cs = some rest ↔ cs = word ++ rest := by
  induction word generalizing cs with
  | nil => simp [name]
  | cons c word ih =>
    change (char c ++ name word).match? cs = some rest ↔ _
    rw [match?_append, Option.bind_eq_some_iff]
    constructor
    · rintro ⟨mid, hc, hword⟩
      rw [match?_char_eq_some_iff.1 hc, ih.1 hword, List.cons_append]
    · rintro rfl
      exact ⟨word ++ rest, match?_char_eq_some_iff.2 rfl, ih.2 rfl⟩

section Rounds

variable {f g : List Char → Option (List Char)}

theorem rounds_none (h : f cs = none) : rounds f cs = cs := by
  rw [rounds, h]

theorem rounds_some (h : f cs = some rest) (hlt : rest.length < cs.length) :
    rounds f cs = rounds f rest := by
  rw [rounds, h]
  exact if_pos hlt

/-- What one round preserves, any number of them does. -/
theorem rounds_induction {R : List Char → List Char → Prop} (hrefl : ∀ cs, R cs cs)
    (hround : ∀ cs mid rest, f cs = some mid → R mid rest → R cs rest) (cs : List Char) :
    R cs (rounds f cs) := by
  fun_induction rounds f cs with
  | case1 cs rest hrest _ ih => exact hround cs rest _ hrest ih
  | case2 cs => exact hrefl cs
  | case3 cs => exact hrefl cs

/-- Rounds that take something off go on until none is left. -/
theorem rounds_stops (hf : ∀ cs rest, f cs = some rest → rest.length < cs.length)
    (cs : List Char) : f (rounds f cs) = none := by
  fun_induction rounds f cs with
  | case1 cs rest _ _ ih => exact ih
  | case2 cs rest hrest hnot => exact absurd (hf cs rest hrest) hnot
  | case3 cs hnone => exact hnone

theorem rounds_one : rounds (one p).match? cs = cs.dropWhile p := by
  induction cs with
  | nil => exact rounds_none rfl
  | cons c cs ih =>
    by_cases hc : p c = true
    · have hmatch : (one p).match? (c :: cs) = some cs := if_pos hc
      rw [rounds_some hmatch (Nat.lt_succ_self _), ih, List.dropWhile_cons_of_pos hc]
    · have hmatch : (one p).match? (c :: cs) = none := if_neg hc
      rw [rounds_none hmatch, List.dropWhile_cons_of_neg hc]

end Rounds

/-- The pattern takes off characters of a class only. -/
def Over (p : Char → Bool) : Lexical → Prop
  | done | absent _ => True
  | one q => ∀ c, q c = true → p c = true
  | seq l m | choice l m => l.Over p ∧ m.Over p
  | star l => l.Over p

@[simp]
theorem over_one {q : Char → Bool} : (one q).Over p ↔ ∀ c, q c = true → p c = true := .rfl

@[simp]
theorem over_char : (char c).Over p ↔ p c = true := by
  rw [char, over_one]
  simp

@[simp]
theorem over_append : (l ++ m).Over p ↔ l.Over p ∧ m.Over p := .rfl

@[simp]
theorem over_star : (star l).Over p ↔ l.Over p := .rfl

@[simp]
theorem over_maybe : (maybe l).Over p ↔ l.Over p := and_iff_left trivial

@[simp]
theorem over_many : (many l).Over p ↔ l.Over p := and_self_iff

@[simp]
theorem over_absent : (absent l).Over p := trivial

@[simp]
theorem over_name {word : List Char} : (name word).Over p ↔ ∀ c ∈ word, p c = true := by
  induction word with
  | nil => exact iff_of_true trivial (by simp)
  | cons c word ih =>
    change (char c ++ name word).Over p ↔ _
    rw [over_append, over_char, ih, List.forall_mem_cons]

theorem Over.takes (h : l.Over p) (hmatch : l.match? cs = some rest) :
    ∃ text, cs = text ++ rest ∧ ∀ c ∈ text, p c = true := by
  induction l generalizing cs rest with
  | done =>
    cases hmatch
    exact ⟨[], rfl, by simp⟩
  | one q =>
    obtain ⟨c, hc, rfl⟩ := match?_one_eq_some_iff.1 hmatch
    exact ⟨[c], rfl, by simpa using h c hc⟩
  | seq l m ihl ihm =>
    obtain ⟨mid, hl, hm⟩ := Option.bind_eq_some_iff.1 hmatch
    obtain ⟨text, rfl, htext⟩ := ihl h.1 hl
    obtain ⟨text', rfl, htext'⟩ := ihm h.2 hm
    refine ⟨text ++ text', by simp, ?_⟩
    intro c hc
    exact (List.mem_append.1 hc).elim (htext c) (htext' c)
  | choice l m ihl ihm =>
    rcases Option.or_eq_some_iff.1 hmatch with hl | ⟨-, hm⟩
    · exact ihl h.1 hl
    · exact ihm h.2 hm
  | star l ih =>
    cases hmatch
    refine rounds_induction (R := fun cs rest => ∃ text, cs = text ++ rest ∧ ∀ c ∈ text, p c = true)
      ?_ ?_ cs
    · intro cs
      exact ⟨[], rfl, by simp⟩
    · rintro cs mid rest hmid ⟨text', rfl, htext'⟩
      obtain ⟨text, rfl, htext⟩ := ih h hmid
      refine ⟨text ++ text', by simp, ?_⟩
      intro c hc
      exact (List.mem_append.1 hc).elim (htext c) (htext' c)
  | absent l =>
    obtain ⟨-, rfl⟩ := match?_absent_eq_some_iff.1 hmatch
    exact ⟨[], rfl, by simp⟩

end Lexical

end Scriptlet
