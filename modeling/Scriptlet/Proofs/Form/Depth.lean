import Scriptlet.Proofs.Form.Descent
import Scriptlet.Proofs.Form.Outline

/-!
The check of the nesting bounds the depth of the descent, also on a text that is not well formed.
The check counts no fewer groups at a place than the descent has open there, and where the descent
gives up a group it goes back to a place at which fewer were open.
-/

namespace Scriptlet

/-- With so many groups open, the check has nothing against what is left of a text. -/
def Passes (limit groups : Nat) (cs : List Char) : Prop :=
  ∃ pos, firstTooDeep? limit groups (outlineFrom .code pos cs).1 = none

namespace Passes

variable {limit groups : Nat} {b : Bracket} {cs text rest : List Char}

theorem of_class {P : Char → Bool}
    (hP : [';', '"', '(', '[', ')', ']'].all (fun d => !P d) = true)
    (htext : ∀ c ∈ text, P c = true) (h : Passes limit groups (text ++ rest)) :
    Passes limit groups rest := by
  induction text with
  | nil => exact h
  | cons c text ih =>
    obtain ⟨pos, hpass⟩ := h
    rw [List.cons_append, outlineFrom_code_cons (htext c List.mem_cons_self) hP] at hpass
    exact ih (fun d hd => htext d (List.mem_cons_of_mem c hd)) ⟨_, hpass⟩

/-- An opening bracket has room for one more group. -/
theorem opening (h : Passes limit groups (b.opening :: cs)) :
    groups + 1 ≤ limit ∧ Passes limit (groups + 1) cs := by
  obtain ⟨pos, hpass⟩ := h
  have houtline : (outlineFrom .code pos (b.opening :: cs)).1 =
      .opening b pos :: (outlineFrom .code (pos + 1) cs).1 := by cases b <;> rfl
  rw [houtline, firstTooDeep?] at hpass
  by_cases hdeep : limit < groups + 1
  · rw [if_pos hdeep] at hpass
    cases hpass
  · rw [if_neg hdeep] at hpass
    exact ⟨Nat.le_of_not_lt hdeep, _, hpass⟩

theorem closing (h : Passes limit (groups + 1) (b.closing :: cs)) : Passes limit groups cs := by
  obtain ⟨pos, hpass⟩ := h
  have houtline : (outlineFrom .code pos (b.closing :: cs)).1 =
      .closing :: (outlineFrom .code (pos + 1) cs).1 := by cases b <;> rfl
  rw [houtline] at hpass
  exact ⟨_, hpass⟩

/-- The descent leaves a comment before the end of its line, and the check after it. -/
theorem comment (h : Passes limit groups (';' :: cs)) :
    Passes limit groups (Lexeme.splitComment cs).2 := by
  obtain ⟨pos, hpass⟩ := h
  obtain ⟨hcs, hline, hhead⟩ := Lexeme.splitComment_eq cs
  rw [outlineFrom_cons pos (fun _ => rfl)] at hpass
  change firstTooDeep? limit groups (outlineFrom .comment _ cs).1 = none at hpass
  rw [← hcs, outlineFrom_append, outlineFrom_line hline, List.nil_append] at hpass
  cases hrest : (Lexeme.splitComment cs).2 with
  | nil => exact ⟨pos, rfl⟩
  | cons c after =>
    rw [hrest] at hhead hpass
    cases hhead c rfl
    obtain ⟨place, hpass⟩ : ∃ place,
        firstTooDeep? limit groups (outlineFrom .comment place ('\n' :: after)).1 = none :=
      ⟨_, hpass⟩
    refine ⟨place, ?_⟩
    rw [outlineFrom_cons place (by simp)] at hpass
    rw [outlineFrom_cons place (fun _ => rfl)]
    exact hpass

theorem quoted {raw : List Char} (hsplit : Lexeme.splitQuoted cs = some (raw, rest))
    (h : Passes limit groups ('"' :: cs)) : Passes limit groups rest := by
  obtain ⟨pos, hpass⟩ := h
  have hraw := Lexeme.escaped_of_splitQuoted hsplit
  rw [← Lexeme.append_of_splitQuoted hsplit, outlineFrom_cons pos (fun _ => rfl)] at hpass
  change firstTooDeep? limit groups (outlineFrom .text _ (raw ++ '"' :: rest)).1 = none at hpass
  rw [outlineFrom_append, outlineFrom_escaped hraw, List.nil_append,
    outlineFrom_cons _ (by simp)] at hpass
  exact ⟨_, hpass⟩

theorem of_withinNesting (h : withinNesting limit text = .ok ()) : Passes limit 0 text :=
  ⟨0, withinNesting_eq_ok_iff.1 h⟩

end Passes

/-- What the pattern takes off leaves the check as it was. -/
def Lexical.Neutral (l : Lexical) : Prop :=
  ∀ limit groups cs rest, l.match? cs = some rest → Passes limit groups cs →
    Passes limit groups rest

namespace Lexical

variable {l m : Lexical}

theorem Neutral.append (hl : l.Neutral) (hm : m.Neutral) : (l ++ m).Neutral := by
  intro limit groups cs rest h hpass
  obtain ⟨mid, hmid, hrest⟩ := Option.bind_eq_some_iff.1 h
  exact hm _ _ mid rest hrest (hl _ _ cs mid hmid hpass)

theorem Neutral.star (hl : l.Neutral) : (Lexical.star l).Neutral := by
  intro limit groups cs rest h
  cases h
  refine rounds_induction (R := fun cs rest => Passes limit groups cs → Passes limit groups rest)
    (fun _ hpass => hpass) ?_ cs
  intro cs mid rest hmid hrest hpass
  exact hrest (hl _ _ cs mid hmid hpass)

theorem Neutral.of_over {P : Char → Bool}
    (hP : [';', '"', '(', '[', ')', ']'].all (fun d => !P d) = true) (h : l.Over P) :
    l.Neutral := by
  intro limit groups cs rest hmatch hpass
  obtain ⟨text, rfl, htext⟩ := h.takes hmatch
  exact hpass.of_class hP htext

end Lexical

namespace Grammar

theorem comment_neutral : comment.Neutral := by
  intro limit groups cs rest h hpass
  rcases Lexical.head_ne_or_eq_cons ';' cs with hne | ⟨line, rfl⟩
  · rw [comment_match?_of_ne hne] at h
    cases h
  · rw [comment_match?_semicolon] at h
    cases h
    exact hpass.comment

theorem skip_neutral : skip.Neutral := by
  have hseparators : separators.Neutral := .of_over (P := Lexeme.isSeparator) (by decide)
    (Lexical.over_star.2 fun _ hc => hc)
  exact hseparators.append (comment_neutral.append hseparators).star

theorem atom_neutral : atom.Neutral := by
  intro limit groups cs rest h hpass
  rcases Lexical.head_ne_or_eq_cons '"' cs with hne | ⟨inner, rfl⟩
  · rw [atom_match?_of_ne hne] at h
    exact Lexical.Neutral.of_over (by decide) Word.over_word _ _ _ _ h hpass
  · rw [atom_match?_quote, Option.map_eq_some_iff] at h
    obtain ⟨⟨raw, _⟩, hsplit, rfl⟩ := h
    exact hpass.quoted hsplit

theorem ending_neutral : ending.Neutral := by
  intro limit groups cs rest h hpass
  obtain ⟨-, rfl⟩ := Lexical.match?_absent_eq_some_iff.1 h
  exact hpass

end Grammar

/-- All that the pattern takes off outside of groups leaves the check as it was. -/
def Pattern.Neutral : Pattern → Prop
  | .atomic l => l.Neutral
  | .seq p q | .choice p q => p.Neutral ∧ q.Neutral
  | .star p | .group _ p => p.Neutral
  | .form => True

namespace Grammar

theorem items_neutral : items.Neutral := by
  have hdone : Lexical.done.Neutral := by
    rintro limit groups cs rest ⟨⟩ hpass
    exact hpass
  exact ⟨skip_neutral, ⟨⟨trivial, skip_neutral, trivial⟩, hdone⟩, skip_neutral⟩

theorem form_neutral : form.Neutral := ⟨items_neutral, items_neutral, atom_neutral⟩

theorem main_neutral : main.Neutral := ⟨skip_neutral, trivial, items_neutral, ending_neutral⟩

end Grammar

namespace Descent

/-- The groups whose opening brackets have been taken and that are not done with. -/
def openGroups : List Frame → Nat
  | [] => 0
  | .closing _ :: stack => openGroups stack + 1
  | .andThen _ :: stack | .orElse _ _ :: stack | .again _ _ :: stack => openGroups stack

def State.depth : State → Nat
  | .trying _ _ stack | .ended _ stack => openGroups stack

/-- Every text to go back to passes the check with the groups that are open then, and every group
that is open has passed it. -/
inductive Guarded (limit : Nat) : List Frame → Prop where
  | nil : Guarded limit []
  | andThen {q stack} (hq : q.Neutral) (h : Guarded limit stack) :
      Guarded limit (.andThen q :: stack)
  | orElse {q saved stack} (hq : q.Neutral) (hsaved : Passes limit (openGroups stack) saved)
      (h : Guarded limit stack) : Guarded limit (.orElse q saved :: stack)
  | again {p saved stack} (hp : p.Neutral) (hsaved : Passes limit (openGroups stack) saved)
      (h : Guarded limit stack) : Guarded limit (.again p saved :: stack)
  | closing {b stack} (hlimit : openGroups stack + 1 ≤ limit) (h : Guarded limit stack) :
      Guarded limit (.closing b :: stack)

/-- What is left of the text passes the check with the groups that are open. -/
inductive Safe (limit : Nat) : State → Prop where
  | trying {p cs stack} (hp : p.Neutral) (hpass : Passes limit (openGroups stack) cs)
      (h : Guarded limit stack) : Safe limit (.trying p cs stack)
  | ended {r stack} (hpass : ∀ cs ∈ r, Passes limit (openGroups stack) cs)
      (h : Guarded limit stack) : Safe limit (.ended r stack)

variable {limit : Nat} {s t : State} {stack : List Frame}

theorem Safe.failed (h : Guarded limit stack) : Safe limit (.ended none stack) := by
  refine .ended ?_ h
  rintro cs ⟨⟩

theorem Safe.succeeded {cs : List Char} (hpass : Passes limit (openGroups stack) cs)
    (h : Guarded limit stack) : Safe limit (.ended (some cs) stack) := by
  refine .ended ?_ h
  rintro cs ⟨⟩
  exact hpass

/-- A step keeps the descent safe. -/
theorem Step.safe (h : Step s t) (hs : Safe limit s) : Safe limit t := by
  cases hs with
  | @trying p cs stack hp hpass hstack =>
    cases h with
    | atomic => exact .ended (fun rest hrest => hp _ _ _ rest hrest hpass) hstack
    | seq => exact .trying hp.1 hpass (.andThen hp.2 hstack)
    | choice => exact .trying hp.1 hpass (.orElse hp.2 hpass hstack)
    | star => exact .trying hp hpass (.again hp hpass hstack)
    | opened hopen =>
      cases Lexical.match?_char_eq_some_iff.1 hopen
      obtain ⟨hlimit, hinner⟩ := hpass.opening
      exact .trying hp hinner (.closing hlimit hstack)
    | unopened => exact .failed hstack
    | form => exact .trying Grammar.form_neutral hpass hstack
  | @ended r frames hpass hframes =>
    cases h with
    | next =>
      cases hframes with
      | andThen hq hstack => exact .trying hq (hpass _ rfl) hstack
    | broken =>
      cases hframes with
      | andThen _ hstack => exact .failed hstack
    | chosen =>
      cases hframes with
      | orElse _ _ hstack => exact .succeeded (hpass _ rfl) hstack
    | other =>
      cases hframes with
      | orElse hq hsaved hstack => exact .trying hq hsaved hstack
    | round =>
      cases hframes with
      | again hp _ hstack => exact .trying hp (hpass _ rfl) hstack
    | enough =>
      cases hframes with
      | again _ hsaved hstack => exact .succeeded hsaved hstack
    | closed =>
      cases hframes with
      | closing _ hstack =>
        refine .ended (fun rest hrest => ?_) hstack
        cases Lexical.match?_char_eq_some_iff.1 hrest
        exact (hpass _ rfl).closing
    | unclosed =>
      cases hframes with
      | closing _ hstack => exact .failed hstack

/-- A run keeps the descent safe. -/
theorem Reaches.safe (h : Reaches s t) (hs : Safe limit s) : Safe limit t := by
  induction h with
  | refl => exact hs
  | tail _ hstep ih => exact hstep.safe ih

theorem Guarded.openGroups_le (h : Guarded limit stack) : openGroups stack ≤ limit := by
  induction h with
  | nil => exact Nat.zero_le limit
  | andThen _ _ ih | orElse _ _ _ ih | again _ _ _ ih => exact ih
  | closing hlimit => exact hlimit

theorem Safe.depth_le (h : Safe limit s) : s.depth ≤ limit := by
  cases h with
  | trying _ _ hstack | ended _ hstack => exact hstack.openGroups_le

/-- A descent ends on every text, with success just where the reader arranges the lexemes of the
text into trees. On any text that passes the check of its nesting it never has more groups open than
the limit says, whether it ends with success or not. -/
theorem reaches_depth_le (text : List Char) :
    (∃! r, Reaches (start text) (.ended r [])) ∧
    (Reaches (start text) (.ended (some []) []) ↔
      ∃ trees, arrange (Lexeme.scan 0 text) (utf8Length text) = .ok trees) ∧
    ∀ limit, withinNesting limit text = .ok () →
      ∀ s, Reaches (start text) s → s.depth ≤ limit := by
  refine ⟨exists_unique_end text, reaches_end_iff text, ?_⟩
  intro limit hnesting s hs
  have hstart : Safe limit (start text) :=
    .trying Grammar.main_neutral (.of_withinNesting hnesting) .nil
  exact (hs.safe hstart).depth_le

/-- Three groups, of which the last is closed by a bracket of the other shape, a comment with
brackets in it, and a string that the text cuts off. -/
theorem reaches_depth_le_mismatched :
    withinNesting 3 "([(] ;)[(\n \"[(".toList = .ok () ∧
      ∀ s, Reaches (start "([(] ;)[(\n \"[(".toList) s → s.depth ≤ 3 := by
  have hnesting : withinNesting 3 "([(] ;)[(\n \"[(".toList = .ok () := by rfl
  exact ⟨hnesting, (reaches_depth_le "([(] ;)[(\n \"[(".toList).2.2 3 hnesting⟩

end Descent

end Scriptlet
