import Mathlib.Logic.Relation
import Scriptlet.Proofs.Form.Grammar
import Scriptlet.Proofs.Form.Spelling

/-!
The recursive descent of the grammar: a machine that tries patterns on a text and keeps what is
still to do on a stack. It comes to an end on every text, and it takes a text just where the reader
can arrange the lexemes of the text into trees.
-/

namespace Scriptlet

open LexemeKind (Legible)

/-- A pattern that may try forms within forms. -/
inductive Pattern where
  /-- Matched at one go, as no form is tried within. -/
  | atomic (l : Lexical)
  | seq (p q : Pattern)
  | choice (p q : Pattern)
  | star (p : Pattern)
  /-- A pattern between two brackets. -/
  | group (bracket : Bracket) (p : Pattern)
  | form

namespace Grammar

/-- Any number of forms, with what is skipped between them. -/
def forms : Pattern :=
  .choice (.seq .form (.star (.seq (.atomic skip) .form))) (.atomic .done)

/-- What stands between two brackets. -/
def items : Pattern := .seq (.atomic skip) (.seq forms (.atomic skip))

def form : Pattern := .choice (.group .round items) (.choice (.group .square items) (.atomic atom))

/-- One form or more, up to the end of the text. -/
def main : Pattern := .seq (.atomic skip) (.seq .form (.seq items (.atomic ending)))

end Grammar

namespace Descent

/-- What is still to do once a pattern has been tried. A saved text is gone back to. -/
inductive Frame where
  | andThen (q : Pattern)
  | orElse (q : Pattern) (saved : List Char)
  | again (p : Pattern) (saved : List Char)
  /-- The opening bracket of a group has been taken. -/
  | closing (bracket : Bracket)

inductive State where
  /-- A pattern is about to be tried on a text. -/
  | trying (p : Pattern) (cs : List Char) (stack : List Frame)
  /-- What was tried has left the rest of a text, or has failed. -/
  | ended (r : Option (List Char)) (stack : List Frame)

def start (text : List Char) : State := .trying Grammar.main text []

inductive Step : State → State → Prop where
  | atomic {l cs stack} : Step (.trying (.atomic l) cs stack) (.ended (l.match? cs) stack)
  | seq {p q cs stack} : Step (.trying (.seq p q) cs stack) (.trying p cs (.andThen q :: stack))
  | choice {p q cs stack} :
      Step (.trying (.choice p q) cs stack) (.trying p cs (.orElse q cs :: stack))
  | star {p cs stack} : Step (.trying (.star p) cs stack) (.trying p cs (.again p cs :: stack))
  | opened {b p cs inner stack} (h : (Lexical.char (Bracket.opening b)).match? cs = some inner) :
      Step (.trying (.group b p) cs stack) (.trying p inner (.closing b :: stack))
  | unopened {b p cs stack} (h : (Lexical.char (Bracket.opening b)).match? cs = none) :
      Step (.trying (.group b p) cs stack) (.ended none stack)
  | form {cs stack} : Step (.trying .form cs stack) (.trying Grammar.form cs stack)
  | next {q cs stack} : Step (.ended (some cs) (.andThen q :: stack)) (.trying q cs stack)
  | broken {q stack} : Step (.ended none (.andThen q :: stack)) (.ended none stack)
  | chosen {q cs saved stack} :
      Step (.ended (some cs) (.orElse q saved :: stack)) (.ended (some cs) stack)
  | other {q saved stack} : Step (.ended none (.orElse q saved :: stack)) (.trying q saved stack)
  | round {p cs saved stack} :
      Step (.ended (some cs) (.again p saved :: stack)) (.trying (.star p) cs stack)
  | enough {p saved stack} :
      Step (.ended none (.again p saved :: stack)) (.ended (some saved) stack)
  | closed {b cs stack} : Step (.ended (some cs) (.closing b :: stack))
      (.ended ((Lexical.char (Bracket.closing b)).match? cs) stack)
  | unclosed {b stack} : Step (.ended none (.closing b :: stack)) (.ended none stack)

/-- The states that a descent goes through. -/
def Reaches : State → State → Prop := Relation.ReflTransGen Step

theorem Step.unique {s t u : State} (h : Step s t) (h' : Step s u) : t = u := by
  cases h <;> cases h' <;> simp_all

/-- A descent has one end. -/
theorem Reaches.ended_unique {s : State} {r r' : Option (List Char)}
    (h : Reaches s (.ended r [])) (h' : Reaches s (.ended r' [])) : r = r' := by
  have hlast : ∀ r r' : Option (List Char), Reaches (.ended r []) (.ended r' []) → r = r' := by
    intro r r' hreaches
    rcases Relation.ReflTransGen.cases_head hreaches with heq | ⟨_, hstep, -⟩
    · cases heq
      rfl
    · cases hstep
  have hunique : Relator.RightUnique Step := fun _ _ _ => Step.unique
  rcases Relation.ReflTransGen.total_of_right_unique hunique h h' with hreaches | hreaches
  · exact hlast r r' hreaches
  · exact (hlast r' r hreaches).symm

/-- Whatever is on the stack, trying the pattern on the text comes to the result. -/
def Delivers (p : Pattern) (cs : List Char) (r : Option (List Char)) : Prop :=
  ∀ stack, Reaches (.trying p cs stack) (.ended r stack)

namespace Delivers

variable {p q : Pattern} {b : Bracket} {l : Lexical} {cs mid : List Char}
  {r : Option (List Char)}

theorem atomic (h : l.match? cs = r) : Delivers (.atomic l) cs r := by
  subst h
  exact fun _ => .single .atomic

theorem seq (hp : Delivers p cs (some mid)) (hq : Delivers q mid r) : Delivers (.seq p q) cs r :=
  fun stack => .head .seq ((hp _).trans (.head .next (hq stack)))

theorem seq_none (hp : Delivers p cs none) : Delivers (.seq p q) cs none :=
  fun _ => .head .seq ((hp _).trans (.single .broken))

theorem choice_some (hp : Delivers p cs (some mid)) : Delivers (.choice p q) cs (some mid) :=
  fun _ => .head .choice ((hp _).trans (.single .chosen))

theorem choice_none (hp : Delivers p cs none) (hq : Delivers q cs r) :
    Delivers (.choice p q) cs r :=
  fun stack => .head .choice ((hp _).trans (.head .other (hq stack)))

theorem star_some (hp : Delivers p cs (some mid)) (hrounds : Delivers (.star p) mid r) :
    Delivers (.star p) cs r :=
  fun stack => .head .star ((hp _).trans (.head .round (hrounds stack)))

theorem star_none (hp : Delivers p cs none) : Delivers (.star p) cs (some cs) :=
  fun _ => .head .star ((hp _).trans (.single .enough))

theorem group (hp : Delivers p cs (some mid)) :
    Delivers (.group b p) (b.opening :: cs) ((Lexical.char b.closing).match? mid) :=
  fun _ => .head (.opened (Lexical.match?_char_eq_some_iff.2 rfl))
    ((hp _).trans (.single .closed))

theorem group_none (h : (Lexical.char b.opening).match? cs = none) :
    Delivers (.group b p) cs none :=
  fun _ => .single (.unopened h)

theorem form (h : Delivers Grammar.form cs r) : Delivers .form cs r :=
  fun stack => .head .form (h stack)

end Delivers

end Descent

section Spelled

variable {cs mid rest : List Char} {n m : Nat} {b : Bracket}

/-- Up to the rest, the lexemes of the text spell so many trees. -/
structure SpellsUpTo (cs rest : List Char) (n : Nat) : Prop where
  length_le : rest.length ≤ cs.length
  scan_eq : ∀ pos, ∃ pos' ls ts, Lexeme.scan pos cs = ls ++ Lexeme.scan pos' rest ∧
    Spells Legible ls ts ∧ ts.length = n

theorem Skips.spellsUpTo (h : Skips cs rest) : SpellsUpTo cs rest 0 := by
  refine ⟨h.length_le, fun pos => ?_⟩
  obtain ⟨pos', hscan⟩ := h.scan_eq pos
  exact ⟨pos', [], [], hscan, .nil, rfl⟩

theorem SpellsUpTo.trans (h : SpellsUpTo cs mid n) (h' : SpellsUpTo mid rest m) :
    SpellsUpTo cs rest (n + m) := by
  refine ⟨h'.length_le.trans h.length_le, fun pos => ?_⟩
  obtain ⟨pos', ls, ts, hscan, hspells, hlength⟩ := h.scan_eq pos
  obtain ⟨pos'', ls', ts', hscan', hspells', hlength'⟩ := h'.scan_eq pos'
  refine ⟨pos'', ls ++ ls', ts ++ ts', ?_, hspells.append hspells', ?_⟩
  · rw [hscan, hscan', List.append_assoc]
  · rw [List.length_append, hlength, hlength']

/-- One lexeme that spells a leaf. -/
theorem SpellsUpTo.leaf {kind : LexemeKind} {s : Spelling} (hlegible : Legible kind s)
    (hlength : rest.length ≤ cs.length)
    (hscan : ∀ pos, ∃ stop, Lexeme.scan pos cs = ⟨kind, ⟨pos, stop⟩⟩ :: Lexeme.scan stop rest) :
    SpellsUpTo cs rest 1 := by
  refine ⟨hlength, fun pos => ?_⟩
  obtain ⟨stop, hscan⟩ := hscan pos
  exact ⟨stop, [⟨kind, ⟨pos, stop⟩⟩], [.leaf s ⟨pos, stop⟩], hscan, .leaf hlegible .nil, rfl⟩

theorem SpellsUpTo.group (h : SpellsUpTo cs (b.closing :: rest) n) :
    SpellsUpTo (b.opening :: cs) rest 1 := by
  have hle := h.length_le
  rw [List.length_cons] at hle
  refine ⟨by rw [List.length_cons]; omega, fun pos => ?_⟩
  obtain ⟨pos', ls, ts, hscan, hspells, -⟩ := h.scan_eq (pos + 1)
  refine ⟨pos' + 1, ⟨.opening b, ⟨pos, pos + 1⟩⟩ :: (ls ++ [⟨.closing b, ⟨pos', pos' + 1⟩⟩]),
    [.group b ts ⟨pos, pos' + 1⟩], ?_, .group hspells .nil, rfl⟩
  rw [Lexeme.scan_opening, hscan, Lexeme.scan_closing]
  simp

end Spelled

section Stopping

variable {cs rest : List Char} {n : Nat} {b : Bracket}

/-- Wherever the text begins and whatever has been taken in before it, reading gets stuck in it. -/
def Doomed (cs : List Char) : Prop :=
  ∀ pos stop (a : Arrangement), ∃ s : Stuck,
    ((Lexeme.scan pos cs).foldlM Arrangement.step a >>= fun a => a.finish stop) = .error s

theorem Doomed.of_step {l : Nat → Lexeme} {ls : Nat → List Lexeme}
    (hscan : ∀ pos, Lexeme.scan pos cs = l pos :: ls pos)
    (hstep : ∀ pos a, ∃ s, Arrangement.step a (l pos) = .error s) : Doomed cs := by
  intro pos stop a
  obtain ⟨s, hs⟩ := hstep pos a
  refine ⟨s, ?_⟩
  rw [hscan, List.foldlM_cons, hs]
  rfl

theorem Doomed.of_spellsUpTo (h : SpellsUpTo cs rest n) (hrest : Doomed rest) : Doomed cs := by
  intro pos stop a
  obtain ⟨pos', ls, ts, hscan, hspells, -⟩ := h.scan_eq pos
  rw [hscan, hspells.run]
  exact hrest pos' stop _

theorem Doomed.opening (h : Doomed cs) : Doomed (b.opening :: cs) := by
  intro pos stop a
  rw [Lexeme.scan_opening, List.foldlM_cons]
  exact h (pos + 1) stop _

/-- A text on which no form follows: it is over, or a group ends, or reading gets stuck. -/
def Stops (cs : List Char) : Prop :=
  cs = [] ∨ (∃ b after, cs = Bracket.closing b :: after) ∨ Doomed cs

/-- Reading gets stuck in a group that does not end with its own closing bracket. -/
theorem Stops.doomed_group (hstops : Stops rest) (h : SpellsUpTo cs rest n)
    (hclosing : (Lexical.char b.closing).match? rest = none) : Doomed (b.opening :: cs) := by
  rcases hstops with rfl | ⟨b', after, rfl⟩ | hdoomed
  · intro pos stop a
    obtain ⟨pos', ls, ts, hscan, hspells, -⟩ := h.scan_eq (pos + 1)
    have hend : Lexeme.scan pos' [] = [] := Lexeme.scan_lastGap pos' (.gap .nil)
    rw [Lexeme.scan_opening, List.foldlM_cons, hscan, hend]
    change ∃ s, ((ls ++ []).foldlM Arrangement.step ⟨⟨b, pos, []⟩ :: a.groups, a.finished⟩ >>=
      fun a => a.finish stop) = .error s
    rw [hspells.run, Arrangement.foldl_add_group]
    exact ⟨_, rfl⟩
  · have hne : b ≠ b' := by
      rintro rfl
      rw [Lexical.match?_char_eq_some_iff.2 rfl] at hclosing
      cases hclosing
    intro pos stop a
    obtain ⟨pos', ls, ts, hscan, hspells, -⟩ := h.scan_eq (pos + 1)
    rw [Lexeme.scan_opening, List.foldlM_cons, hscan, Lexeme.scan_closing]
    change ∃ s, ((ls ++ ⟨.closing b', ⟨pos', pos' + 1⟩⟩ :: Lexeme.scan (pos' + 1) after).foldlM
      Arrangement.step ⟨⟨b, pos, []⟩ :: a.groups, a.finished⟩ >>= fun a => a.finish stop) = .error s
    rw [hspells.run, Arrangement.foldl_add_group, List.foldlM_cons, Arrangement.step]
    simp only [if_neg hne]
    exact ⟨_, rfl⟩
  · exact (Doomed.of_spellsUpTo h hdoomed).opening

/-- A text whose forms end early is not arranged into trees. -/
theorem Stops.arrange_error (hstops : Stops rest) (h : SpellsUpTo cs rest n)
    (hn : rest = [] → n = 0) (stop : Nat) :
    ∃ s, arrange (Lexeme.scan 0 cs) stop = .error s := by
  obtain ⟨pos', ls, ts, hscan, hspells, hlength⟩ := h.scan_eq 0
  change ∃ s, ((Lexeme.scan 0 cs).foldlM Arrangement.step .start >>= fun a => a.finish stop) =
    .error s
  rw [hscan, hspells.run]
  rcases hstops with rfl | ⟨b, after, rfl⟩ | hdoomed
  · have hend : Lexeme.scan pos' [] = [] := Lexeme.scan_lastGap pos' (.gap .nil)
    rw [hn rfl, List.length_eq_zero_iff] at hlength
    rw [hend, hlength]
    exact ⟨_, rfl⟩
  · rw [Arrangement.start, Arrangement.foldl_add_top, Lexeme.scan_closing, List.foldlM_cons]
    exact ⟨_, rfl⟩
  · exact hdoomed pos' stop _

end Stopping

namespace Descent

variable {cs text : List Char} {b : Bracket}

/-- Trying a form where no gap is in front takes one off, or fails where no form follows. -/
inductive Yields (cs : List Char) : Prop where
  | form {rest : List Char} (hlt : rest.length < cs.length) (h : Delivers .form cs (some rest))
      (hspells : SpellsUpTo cs rest 1)
  | nothing (h : Delivers .form cs none) (hstops : Stops cs)

section Items

variable {n : Nat} (hforms : ∀ ds : List Char, ds.length ≤ n → Gapless ds → Yields ds)

include hforms

/-- The forms after the first, and the gap after the last. -/
theorem rounds_delivered (hn : cs.length ≤ n) :
    ∃ mid rest k, Delivers (.star (.seq (.atomic Grammar.skip) .form)) cs (some mid) ∧
      Grammar.skip.match? mid = some rest ∧ SpellsUpTo cs rest k ∧ Stops rest := by
  induction hlength : cs.length using Nat.strongRecOn generalizing cs with
  | _ length ih =>
    obtain ⟨front, hskip, hgapless, hskips⟩ := skip_match? cs
    have hle := hskips.length_le
    cases hforms front (by omega) hgapless with
    | @form after hlt h hspells =>
      obtain ⟨mid, rest, k, hrounds, hmid, hafter, hstops⟩ :=
        ih after.length (by omega) (by omega) rfl
      exact ⟨mid, rest, 0 + 1 + k, .star_some (.seq (.atomic hskip) h) hrounds, hmid,
        (hskips.spellsUpTo.trans hspells).trans hafter, hstops⟩
    | nothing h hstops =>
      exact ⟨cs, front, 0, .star_none (.seq (.atomic hskip) h), hskip, hskips.spellsUpTo, hstops⟩

/-- What stands between two brackets is taken up to where no form follows. -/
theorem items_delivered (hn : cs.length ≤ n) :
    ∃ rest k, Delivers Grammar.items cs (some rest) ∧ SpellsUpTo cs rest k ∧ Stops rest := by
  obtain ⟨front, hskip, hgapless, hskips⟩ := skip_match? cs
  have hle := hskips.length_le
  cases hforms front (by omega) hgapless with
  | @form after hlt h hspells =>
    have hlength : after.length ≤ n := by omega
    obtain ⟨mid, rest, k, hrounds, hmid, hafter, hstops⟩ := rounds_delivered hforms hlength
    refine ⟨rest, 0 + 1 + k, ?_, (hskips.spellsUpTo.trans hspells).trans hafter, hstops⟩
    exact .seq (.atomic hskip) (.seq (.choice_some (.seq h hrounds)) (.atomic hmid))
  | nothing h hstops =>
    refine ⟨front, 0, ?_, hskips.spellsUpTo, hstops⟩
    have hnone : Delivers Grammar.forms front (some front) :=
      .choice_none (.seq_none h) (.atomic rfl)
    exact .seq (.atomic hskip) (.seq hnone (.atomic (skip_match?_of_gapless hgapless)))

end Items

/-- Where no bracket opens, a form is an atom. -/
theorem form_delivers_atom (h : ∀ b, (Lexical.char (Bracket.opening b)).match? cs = none) :
    Delivers .form cs (Grammar.atom.match? cs) :=
  .form (.choice_none (.group_none (h .round))
    (.choice_none (.group_none (h .square)) (.atomic rfl)))

/-- Where a bracket opens, a form is a group. -/
theorem form_delivers_group {r : Option (List Char)}
    (h : Delivers (.group b Grammar.items) (b.opening :: cs) r) :
    Delivers .form (b.opening :: cs) r := by
  have hatom : Grammar.atom.match? (b.opening :: cs) = none := by
    have hne : ∀ c ∈ (b.opening :: cs).head?, c ≠ '"' := by
      rintro c ⟨⟩
      cases b <;> decide
    have hended : Word.Ended (b.opening :: cs) := by
      rintro c ⟨⟩
      cases b <;> decide
    rw [atom_match?_of_ne hne, Word.word_match?_of_ended hended]
  cases b with
  | round =>
    cases r with
    | some rest => exact .form (.choice_some h)
    | none => exact .form (.choice_none h (.choice_none (.group_none rfl) (.atomic hatom)))
  | square =>
    cases r with
    | some rest => exact .form (.choice_none (.group_none rfl) (.choice_some h))
    | none => exact .form (.choice_none (.group_none rfl) (.choice_none h (.atomic hatom)))

theorem yields_group (hforms : ∀ ds : List Char, ds.length ≤ cs.length → Gapless ds → Yields ds) :
    Yields (b.opening :: cs) := by
  obtain ⟨rest, k, hitems, hspells, hstops⟩ := items_delivered hforms (Nat.le_refl _)
  have hgroup := form_delivers_group (.group (b := b) hitems)
  cases hclosing : (Lexical.char b.closing).match? rest with
  | some after =>
    rw [hclosing] at hgroup
    rw [Lexical.match?_char_eq_some_iff.1 hclosing] at hspells
    have hle := hspells.length_le
    rw [List.length_cons] at hle
    exact .form (by rw [List.length_cons]; omega) hgroup hspells.group
  | none =>
    rw [hclosing] at hgroup
    exact .nothing hgroup (.inr (.inr (hstops.doomed_group hspells hclosing)))

theorem yields_quoted (cs : List Char) : Yields ('"' :: cs) := by
  have hform : Delivers .form ('"' :: cs) (Grammar.atom.match? ('"' :: cs)) :=
    form_delivers_atom fun b => by cases b <;> rfl
  rw [atom_match?_quote] at hform
  cases hsplit : Lexeme.splitQuoted cs with
  | some p =>
    obtain ⟨raw, rest⟩ := p
    rw [hsplit] at hform
    have hlength := congrArg List.length (Lexeme.append_of_splitQuoted hsplit)
    simp only [List.length_append, List.length_cons] at hlength
    have hlt : rest.length < ('"' :: cs).length := by
      rw [List.length_cons]
      omega
    have hlegible : Legible (.quoted raw) (.quoted raw) := .quoted
    refine .form hlt hform (.leaf hlegible (Nat.le_of_lt hlt) fun pos => ?_)
    refine ⟨pos + 1 + utf8Length raw + 1, ?_⟩
    rw [Lexeme.scan_quote]
    simp only [hsplit]
  | none =>
    rw [hsplit] at hform
    refine .nothing hform (.inr (.inr ?_))
    have hscan : ∀ pos, Lexeme.scan pos ('"' :: cs) = [⟨.stray '"', .point pos⟩] := by
      intro pos
      rw [Lexeme.scan_quote]
      simp only [hsplit]
    exact .of_step hscan fun pos a => ⟨_, rfl⟩

/-- Where neither a bracket opens nor a quoted text begins, a form is a word. -/
theorem form_delivers_word (hopening : ∀ b, (Lexical.char (Bracket.opening b)).match? cs = none)
    (hquote : ∀ c ∈ cs.head?, c ≠ '"') : Delivers .form cs (Grammar.word.match? cs) := by
  rw [← atom_match?_of_ne hquote]
  exact form_delivers_atom hopening

theorem yields_word {c : Char} (hc : Word.isPart c = true) (cs : List Char) :
    Yields (c :: cs) := by
  obtain ⟨happend, hall, hended⟩ := Lexeme.splitWord_eq cs
  have hopening : ∀ b, (Lexical.char (Bracket.opening b)).match? (c :: cs) = none := by
    intro b
    have hne : c ≠ b.opening := Lexeme.ne_of_isPart hc (by cases b <;> decide)
    simp [Lexical.char, hne]
  have hquote : ∀ d ∈ (c :: cs).head?, d ≠ '"' := by
    rintro d ⟨⟩
    exact Lexeme.ne_of_isPart hc (by decide)
  have hform := form_delivers_word hopening hquote
  have hparts : ∀ d ∈ c :: (Lexeme.splitWord cs).1, Word.isPart d = true := by
    intro d hd
    rcases List.mem_cons.1 hd with rfl | hd
    · exact hc
    · exact hall d hd
  have hword := Word.word_match? hparts hended
  rw [List.cons_append, happend] at hword
  rw [hword] at hform
  by_cases hmeaning : (Word.meaning? (c :: (Lexeme.splitWord cs).1)).isSome = true
  · rw [if_pos hmeaning] at hform
    have hle := Lexeme.length_splitWord_le cs
    have hlt : (Lexeme.splitWord cs).2.length < (c :: cs).length := Nat.lt_succ_of_le hle
    refine .form hlt hform (.leaf (.word hmeaning) (Nat.le_of_lt hlt) fun pos => ?_)
    exact ⟨_, Lexeme.scan_word pos hc cs⟩
  · rw [if_neg hmeaning] at hform
    refine .nothing hform (.inr (.inr (.of_step (fun pos => Lexeme.scan_word pos hc cs) ?_)))
    intro pos a
    exact ⟨_, if_neg hmeaning⟩

/-- Where no bracket opens and neither a quoted text nor a word begins, no form follows. -/
theorem yields_nothing (hopening : ∀ b, (Lexical.char (Bracket.opening b)).match? cs = none)
    (hquote : ∀ c ∈ cs.head?, c ≠ '"') (hended : Word.Ended cs) (hstops : Stops cs) :
    Yields cs := by
  have hform := form_delivers_word hopening hquote
  rw [Word.word_match?_of_ended hended] at hform
  exact .nothing hform hstops

/-- A character with which no form begins closes a group, or reading gets stuck at it. -/
theorem yields_other {c : Char} (hgapless : Gapless (c :: cs))
    (hopening : ∀ b, c ≠ Bracket.opening b) (hquote : c ≠ '"') (hpart : Word.isPart c = false) :
    Yields (c :: cs) := by
  obtain ⟨hseparator, hsemicolon⟩ := hgapless c rfl
  have hnone : ∀ b, (Lexical.char (Bracket.opening b)).match? (c :: cs) = none := by
    intro b
    rw [Lexical.match?_char_eq_none_iff]
    rintro d ⟨⟩
    exact hopening b
  refine yields_nothing hnone (by simpa using hquote) (by rintro d ⟨⟩; exact hpart) (.inr ?_)
  by_cases hclosing : ∃ b, c = Bracket.closing b
  · obtain ⟨b, rfl⟩ := hclosing
    exact .inl ⟨b, cs, rfl⟩
  · right
    have hround : c ≠ '(' ∧ c ≠ ')' := ⟨hopening .round, fun he => hclosing ⟨.round, he⟩⟩
    have hsquare : c ≠ '[' ∧ c ≠ ']' := ⟨hopening .square, fun he => hclosing ⟨.square, he⟩⟩
    have hbracket : Lexeme.bracket? c = none := by simp [Lexeme.bracket?, hround, hsquare]
    exact .of_step (fun pos => Lexeme.scan_stray pos hseparator hsemicolon hquote hbracket hpart cs)
      fun pos a => ⟨_, rfl⟩

/-- Without a gap in front, trying a form comes to an end. The induction is on the length of the
text, since a group tries forms on what is left after its opening bracket. -/
theorem yields (hgapless : Gapless cs) : Yields cs := by
  induction hlength : cs.length using Nat.strongRecOn generalizing cs with
  | _ length ih =>
    subst hlength
    match cs with
    | [] => exact yields_nothing (fun b => rfl) (by simp) (by simp [Word.Ended]) (.inl rfl)
    | c :: cs =>
      have hforms : ∀ ds : List Char, ds.length ≤ cs.length → Gapless ds → Yields ds :=
        fun ds hle hds => ih ds.length (Nat.lt_succ_of_le hle) hds rfl
      by_cases hopening : ∃ b, c = Bracket.opening b
      · obtain ⟨b, rfl⟩ := hopening
        exact yields_group hforms
      by_cases hquote : c = '"'
      · subst hquote
        exact yields_quoted cs
      by_cases hpart : Word.isPart c = true
      · exact yields_word hpart cs
      · exact yields_other hgapless (fun b he => hopening ⟨b, he⟩) hquote (by simpa using hpart)

/-- A descent takes all of a text that the reader arranges into trees, and fails on any other. -/
theorem main_delivered (text : List Char) :
    (Delivers Grammar.main text (some []) ∧
      ∃ trees, arrange (Lexeme.scan 0 text) (utf8Length text) = .ok trees) ∨
    (Delivers Grammar.main text none ∧
      ∃ s, arrange (Lexeme.scan 0 text) (utf8Length text) = .error s) := by
  obtain ⟨front, hskip, hgapless, hskips⟩ := skip_match? text
  have hstart : Delivers (.atomic Grammar.skip) text (some front) := .atomic hskip
  cases yields hgapless with
  | nothing h hstops =>
    right
    exact ⟨.seq hstart (.seq_none h), hstops.arrange_error hskips.spellsUpTo (fun _ => rfl) _⟩
  | @form after _ h hspells =>
    obtain ⟨rest, k, hitems, hafter, hstops⟩ :=
      items_delivered (fun ds _ hds => yields hds) (Nat.le_refl after.length)
    have hall := (hskips.spellsUpTo.trans hspells).trans hafter
    cases rest with
    | nil =>
      left
      refine ⟨.seq hstart (.seq h (.seq hitems (.atomic rfl))), ?_⟩
      obtain ⟨pos, ls, ts, hscan, hspelled, hlength⟩ := hall.scan_eq 0
      have hend : Lexeme.scan pos [] = [] := Lexeme.scan_lastGap pos (.gap .nil)
      rw [hend, List.append_nil] at hscan
      have hne : ts ≠ [] := by
        rintro rfl
        rw [List.length_nil] at hlength
        omega
      exact ⟨ts, arrange_eq_ok_iff.2 ⟨hscan ▸ hspelled, hne⟩⟩
    | cons c rest =>
      right
      exact ⟨.seq hstart (.seq h (.seq hitems (.atomic rfl))),
        hstops.arrange_error hall (by simp) _⟩

/-- Every descent ends. -/
theorem exists_unique_end (text : List Char) : ∃! r, Reaches (start text) (.ended r []) := by
  have hsome : ∃ r, Reaches (start text) (.ended r []) := by
    rcases main_delivered text with ⟨h, -⟩ | ⟨h, -⟩
    · exact ⟨_, h []⟩
    · exact ⟨_, h []⟩
  obtain ⟨r, hr⟩ := hsome
  exact ⟨r, hr, fun r' hr' => hr'.ended_unique hr⟩

/-- The descent takes a text just where the reader arranges its lexemes. -/
theorem reaches_end_iff (text : List Char) :
    Reaches (start text) (.ended (some []) []) ↔
      ∃ trees, arrange (Lexeme.scan 0 text) (utf8Length text) = .ok trees := by
  constructor
  · intro h
    rcases main_delivered text with ⟨-, htrees⟩ | ⟨hnone, -⟩
    · exact htrees
    · cases h.ended_unique (hnone [])
  · rintro ⟨trees, htrees⟩
    rcases main_delivered text with ⟨hsome, -⟩ | ⟨-, s, hs⟩
    · exact hsome []
    · rw [htrees] at hs
      cases hs

end Descent

end Scriptlet
