import Scriptlet.Form.Reader
import Scriptlet.Proofs.Form.Word
import Scriptlet.Proofs.Result

/-!
How lexemes spell forms. A word or a quoted text spells a leaf, and a pair of brackets of one shape
spells a group of what stands between them. The reader arranges lexemes into the trees that they
spell, and then gives the leaves their values.
-/

namespace Scriptlet

/-- The lexemes spell the trees, in order. Which lexeme spells which leaf is a parameter. -/
inductive Spells {α : Type} (leaf : LexemeKind → α → Prop) :
    List Lexeme → List (Tree α) → Prop where
  | nil : Spells leaf [] []
  | leaf {kind span a ls ts} (ha : leaf kind a) (h : Spells leaf ls ts) :
      Spells leaf (⟨kind, span⟩ :: ls) (.leaf a span :: ts)
  | group {b opens closes inner items ls ts} (hitems : Spells leaf inner items)
      (h : Spells leaf ls ts) :
      Spells leaf (⟨.opening b, opens⟩ :: (inner ++ ⟨.closing b, closes⟩ :: ls))
        (.group b items ⟨opens.start, closes.stop⟩ :: ts)

/-- The escapes of the language: the character after the backslash, and what the two stand for. -/
inductive Escape : Char → Char → Prop where
  | newline : Escape 'n' '\n'
  | tab : Escape 't' '\t'
  | return : Escape 'r' '\r'
  | quote : Escape '"' '"'
  | backslash : Escape '\\' '\\'

/-- The characters that a quoted text stands for. -/
inductive Unescaped : List Char → List Char → Prop where
  | nil : Unescaped [] []
  | plain {c raw cs} (hc : c ≠ '\\') (h : Unescaped raw cs) : Unescaped (c :: raw) (c :: cs)
  | escape {c d raw cs} (hc : Escape c d) (h : Unescaped raw cs) :
      Unescaped ('\\' :: c :: raw) (d :: cs)

namespace LexemeKind

/-- What a lexeme denotes: an atom, or the error of an integer out of range. -/
inductive Denotes : LexemeKind → Except String Atom → Prop where
  | word {text r} (h : Word.Means text r) : Denotes (.word text) r
  | string {raw cs} (h : Unescaped raw cs) : Denotes (.quoted raw) (.ok (.str (String.ofList cs)))

/-- The lexeme denotes the atom. -/
def DenotesAtom (kind : LexemeKind) (a : Atom) : Prop := kind.Denotes (.ok a)

/-- The lexeme is kept as it is written, if it is a word of the language or a quoted text. -/
inductive Legible : LexemeKind → Spelling → Prop where
  | word {text} (h : (Word.meaning? text).isSome = true) : Legible (.word text) (.word text)
  | quoted {raw} : Legible (.quoted raw) (.quoted raw)

end LexemeKind

open LexemeKind (Denotes DenotesAtom Legible)

namespace Spells

variable {α : Type} {leaf : LexemeKind → α → Prop} {ls ms : List Lexeme} {ts us : List (Tree α)}

theorem append (h : Spells leaf ls ts) (h' : Spells leaf ms us) :
    Spells leaf (ls ++ ms) (ts ++ us) := by
  induction h with
  | nil => exact h'
  | leaf ha _ ih => exact .leaf ha ih
  | @group b opens closes inner items ls ts hitems _ _ ih =>
    rw [List.cons_append, List.append_assoc, List.cons_append, List.cons_append]
    exact .group hitems ih

end Spells

namespace Arrangement

/-- An arrangement stands for the lexemes that it has taken in. What comes after the bracket of an
open group spells the items of the group so far. -/
inductive Holds : Arrangement → List Lexeme → Prop where
  | top {finished ls} (h : Spells Legible ls finished.reverse) : Holds ⟨[], finished⟩ ls
  | inside {g groups finished ls opens inner} (h : Holds ⟨groups, finished⟩ ls)
      (hstart : opens.start = g.start) (hitems : Spells Legible inner g.items.reverse) :
      Holds ⟨g :: groups, finished⟩ (ls ++ ⟨.opening g.bracket, opens⟩ :: inner)

variable {a a' : Arrangement} {ls : List Lexeme}

theorem Holds.add {ms : List Lexeme} {t : Tree Spelling} (h : a.Holds ls)
    (ht : Spells Legible ms [t]) : (a.add t).Holds (ls ++ ms) := by
  cases h with
  | @top finished ls h =>
    have hfinished := h.append ht
    rw [← List.reverse_cons] at hfinished
    exact .top hfinished
  | @inside g groups finished ls opens inner h hstart hitems =>
    have hmore := hitems.append ht
    rw [← List.reverse_cons] at hmore
    rw [List.append_assoc, List.cons_append]
    exact Holds.inside (g := { g with items := t :: g.items }) h hstart hmore

/-- One step takes in one lexeme. -/
theorem Holds.step {l : Lexeme} (h : a.Holds ls) (hstep : a.step l = .ok a') :
    a'.Holds (ls ++ [l]) := by
  obtain ⟨kind, span⟩ := l
  cases kind with
  | opening b =>
    cases hstep
    exact Holds.inside (g := ⟨b, span.start, []⟩) h rfl .nil
  | closing b =>
    cases h with
    | top => cases hstep
    | @inside g groups finished ls opens inner h hstart hitems =>
      simp only [Arrangement.step] at hstep
      split at hstep
      · next hb =>
        cases hstep
        subst hb
        have hgroup : Spells Legible (⟨.opening g.bracket, opens⟩ ::
            (inner ++ [⟨.closing g.bracket, span⟩]))
            [.group g.bracket g.items.reverse ⟨opens.start, span.stop⟩] := .group hitems .nil
        rw [hstart] at hgroup
        rw [List.append_assoc, List.cons_append]
        exact h.add hgroup
      · cases hstep
  | word text =>
    simp only [Arrangement.step] at hstep
    split at hstep
    · next hlegible =>
      cases hstep
      exact h.add (.leaf (.word hlegible) .nil)
    · cases hstep
  | quoted raw =>
    cases hstep
    exact h.add (.leaf .quoted .nil)
  | stray c => cases hstep

/-- A run of steps takes in all its lexemes. -/
theorem Holds.run {ms : List Lexeme} (h : a.Holds ls)
    (hrun : ms.foldlM Arrangement.step a = .ok a') : a'.Holds (ls ++ ms) := by
  induction ms generalizing a ls with
  | nil =>
    cases hrun
    rwa [List.append_nil]
  | cons l ms ih =>
    rw [List.foldlM_cons] at hrun
    cases hstep : a.step l with
    | error s =>
      rw [hstep] at hrun
      cases hrun
    | ok b =>
      rw [hstep] at hrun
      have hrest := ih (h.step hstep) hrun
      rwa [List.append_assoc, List.singleton_append] at hrest

theorem foldl_add_top (ts finished : List (Tree Spelling)) :
    ts.foldl add ⟨[], finished⟩ = ⟨[], ts.reverse ++ finished⟩ := by
  induction ts generalizing finished with
  | nil => rfl
  | cons t ts ih =>
    rw [List.foldl_cons]
    exact (ih (t :: finished)).trans (by simp)

theorem foldl_add_group (ts : List (Tree Spelling)) (g : OpenGroup) (groups : List OpenGroup)
    (finished : List (Tree Spelling)) :
    ts.foldl add ⟨g :: groups, finished⟩ =
      ⟨{ g with items := ts.reverse ++ g.items } :: groups, finished⟩ := by
  induction ts generalizing g with
  | nil => rfl
  | cons t ts ih =>
    rw [List.foldl_cons]
    exact (ih { g with items := t :: g.items }).trans (by simp)

end Arrangement

/-- Lexemes that spell trees are taken in, and the trees are added. -/
theorem Spells.run {ls : List Lexeme} {ts : List (Tree Spelling)} (h : Spells Legible ls ts)
    (a : Arrangement) (rest : List Lexeme) :
    (ls ++ rest).foldlM Arrangement.step a =
      rest.foldlM Arrangement.step (ts.foldl Arrangement.add a) := by
  induction h generalizing a rest with
  | nil => rfl
  | @leaf kind span s ls ts ha _ ih =>
    have hstep : a.step ⟨kind, span⟩ = .ok (a.add (.leaf s span)) := by
      cases ha with
      | word hlegible => exact if_pos hlegible
      | quoted => rfl
    rw [List.cons_append, List.foldlM_cons, hstep, List.foldl_cons]
    exact ih (a.add (.leaf s span)) rest
  | @group b opens closes inner items ls ts _ _ ihitems ih =>
    have hclose : (⟨⟨b, opens.start, items.reverse ++ []⟩ :: a.groups, a.finished⟩ :
        Arrangement).step ⟨.closing b, closes⟩ =
          .ok (a.add (.group b items ⟨opens.start, closes.stop⟩)) := by
      simp [Arrangement.step]
    rw [List.cons_append, List.foldlM_cons, List.append_assoc, List.cons_append]
    refine (ihitems _ _).trans ?_
    rw [Arrangement.foldl_add_group, List.foldlM_cons, hclose, List.foldl_cons]
    exact ih _ rest

/-- The reader arranges lexemes into the trees that they spell, if there are any. -/
theorem arrange_eq_ok_iff {ls : List Lexeme} {stop : Nat} {ts : List (Tree Spelling)} :
    arrange ls stop = .ok ts ↔ Spells Legible ls ts ∧ ts ≠ [] := by
  constructor
  · intro h
    unfold arrange at h
    cases hrun : ls.foldlM Arrangement.step .start with
    | error s =>
      rw [hrun] at h
      cases h
    | ok a =>
      rw [hrun] at h
      have hstart : Arrangement.start.Holds [] := .top .nil
      have hholds := hstart.run hrun
      rw [List.nil_append] at hholds
      change a.finish stop = .ok ts at h
      unfold Arrangement.finish at h
      cases hholds with
      | @top finished ls hspells =>
        split at h
        · next hne =>
          cases h
          refine ⟨hspells, ?_⟩
          simpa using hne
        · cases h
      | inside => cases h
  · rintro ⟨h, hne⟩
    have hrun := h.run .start []
    rw [List.append_nil, Arrangement.start, Arrangement.foldl_add_top, List.append_nil] at hrun
    change (do
      let a ← ls.foldlM Arrangement.step .start
      a.finish stop) = .ok ts
    rw [Arrangement.start, hrun]
    change Arrangement.finish ⟨[], ts.reverse⟩ stop = .ok ts
    simp [Arrangement.finish, hne]

section Values

theorem decodeEscapes_escape {c d : Char} (h : Escape c d) (raw : List Char) :
    decodeEscapes ('\\' :: c :: raw) = (decodeEscapes raw).map (d :: ·) := by
  cases h <;> rfl

theorem decodeEscapes_plain {c : Char} (hc : c ≠ '\\') (raw : List Char) :
    decodeEscapes (c :: raw) = (decodeEscapes raw).map (c :: ·) := by
  rw [decodeEscapes] <;> (intros; exact hc ‹_›)

/-- A quoted text is decoded to what it stands for. -/
theorem decodeEscapes_eq_ok_iff {raw cs : List Char} :
    decodeEscapes raw = .ok cs ↔ Unescaped raw cs := by
  constructor
  · intro h
    fun_induction decodeEscapes raw generalizing cs with
    | case1 =>
      cases h
      exact .nil
    | case2 raw ih | case3 raw ih | case4 raw ih | case5 raw ih | case6 raw ih =>
      obtain ⟨ds, hds, rfl⟩ := except_map_eq_ok h
      exact .escape (by constructor) (ih hds)
    | case7 => cases h
    | case8 => cases h
    | case9 c raw _ _ _ _ _ hpair hlast ih =>
      obtain ⟨ds, hds, rfl⟩ := except_map_eq_ok h
      refine .plain ?_ (ih hds)
      rintro rfl
      cases raw with
      | nil => exact hlast rfl rfl
      | cons d raw => exact hpair d raw rfl rfl
  · intro h
    induction h with
    | nil => rfl
    | plain hc _ ih => rw [decodeEscapes_plain hc, ih]; rfl
    | escape hc _ ih => rw [decodeEscapes_escape hc, ih]; rfl

namespace Tree

theorem decode_leaf (s : Spelling) (span : Span) :
    Tree.decode (.leaf s span) = match s.atom with
      | .ok a => .ok (.leaf a span)
      | .error fault => .error (.new fault span) :=
  rfl

theorem decode_group (b : Bracket) (items : List (Tree Spelling)) (span : Span) :
    Tree.decode (.group b items span) =
      (Tree.decodeAll items).map fun forms => .group b forms span :=
  rfl

theorem decodeAll_cons {t : Tree Spelling} {ts : List (Tree Spelling)} :
    Tree.decodeAll (t :: ts) = match Tree.decode t with
      | .error e => .error e
      | .ok f => (Tree.decodeAll ts).map (f :: ·) := by
  rw [Tree.decodeAll]
  cases Tree.decode t with
  | error => rfl
  | ok f => cases h : Tree.decodeAll ts <;> rfl

theorem decodeAll_cons_eq_ok {t : Tree Spelling} {ts : List (Tree Spelling)} {fs : List Form}
    (h : Tree.decodeAll (t :: ts) = .ok fs) :
    ∃ f gs, Tree.decode t = .ok f ∧ Tree.decodeAll ts = .ok gs ∧ fs = f :: gs := by
  rw [decodeAll_cons] at h
  cases ht : Tree.decode t with
  | error =>
    rw [ht] at h
    cases h
  | ok f =>
    rw [ht] at h
    obtain ⟨gs, hgs, rfl⟩ := except_map_eq_ok h
    exact ⟨f, gs, rfl, hgs, rfl⟩

end Tree

open LexemeKind (Denotes DenotesAtom Legible)

/-- A legible lexeme denotes the atom that its spelling has. -/
theorem LexemeKind.Legible.denotes {kind : LexemeKind} {s : Spelling} (h : Legible kind s)
    {a : Atom} (ha : s.atom = .ok a) : kind.DenotesAtom a := by
  cases h with
  | @word text =>
    simp only [Spelling.atom] at ha
    split at ha
    · next b hb =>
      cases ha
      exact .word (Word.meaning?_eq_some_iff.1 hb)
    · cases ha
    · cases ha
  | @quoted raw =>
    simp only [Spelling.atom] at ha
    split at ha
    · next cs hcs =>
      cases ha
      exact .string (decodeEscapes_eq_ok_iff.1 hcs)
    · cases ha

/-- A lexeme that denotes something has a spelling, and the spelling says what it denotes. -/
theorem LexemeKind.Denotes.legible {kind : LexemeKind} {r : Except String Atom}
    (h : kind.Denotes r) :
    ∃ s, kind.Legible s ∧ s.atom = r.mapError SyntaxFault.badNumber := by
  cases h with
  | @word text r h =>
    have hmeaning := Word.meaning?_eq_some_iff.2 h
    refine ⟨.word text, .word (by rw [hmeaning]; rfl), ?_⟩
    cases r <;> simp only [Spelling.atom, hmeaning] <;> rfl
  | @string raw cs h =>
    refine ⟨.quoted raw, .quoted, ?_⟩
    simp only [Spelling.atom, decodeEscapes_eq_ok_iff.2 h]
    rfl

namespace Spells

variable {ls : List Lexeme}

/-- Trees that have values are spelled as the forms that they become. -/
theorem decode {trees : List (Tree Spelling)} {forms : List Form} (h : Spells Legible ls trees)
    (hdecode : Tree.decodeAll trees = .ok forms) : Spells DenotesAtom ls forms := by
  induction h generalizing forms with
  | nil =>
    cases hdecode
    exact .nil
  | @leaf kind span s ls ts ha _ ih =>
    obtain ⟨f, gs, hf, hgs, rfl⟩ := Tree.decodeAll_cons_eq_ok hdecode
    rw [Tree.decode_leaf] at hf
    split at hf
    · next a hatom =>
      cases hf
      exact .leaf (ha.denotes hatom) (ih hgs)
    · cases hf
  | @group b opens closes inner items ls ts _ _ ihitems ih =>
    obtain ⟨f, gs, hf, hgs, rfl⟩ := Tree.decodeAll_cons_eq_ok hdecode
    rw [Tree.decode_group] at hf
    obtain ⟨fs, hfs, rfl⟩ := except_map_eq_ok hf
    exact .group (ihitems hfs) (ih hgs)

/-- Forms that are spelled are what the trees of their spellings become. -/
theorem encode {forms : List Form} (h : Spells DenotesAtom ls forms) :
    ∃ trees, Spells Legible ls trees ∧ Tree.decodeAll trees = .ok forms := by
  induction h with
  | nil => exact ⟨[], .nil, rfl⟩
  | @leaf kind span a ls fs ha _ ih =>
    obtain ⟨s, hs, hatom⟩ := ha.legible
    obtain ⟨ts, hts, hdecode⟩ := ih
    refine ⟨.leaf s span :: ts, .leaf hs hts, ?_⟩
    rw [Tree.decodeAll_cons, Tree.decode_leaf, hatom, hdecode]
    rfl
  | @group b opens closes inner items ls fs _ _ ihitems ih =>
    obtain ⟨us, hus, hitems⟩ := ihitems
    obtain ⟨ts, hts, hdecode⟩ := ih
    refine ⟨.group b us _ :: ts, .group hus hts, ?_⟩
    rw [Tree.decodeAll_cons, Tree.decode_group, hitems, hdecode]
    rfl

end Spells

end Values

section Leaves

variable {α ε : Type}

mutual

/-- The leaves of a tree with their places, from left to right. -/
def Tree.leaves : Tree α → List (α × Span)
  | .leaf a span => [(a, span)]
  | .group _ items _ => Tree.leavesAll items

def Tree.leavesAll : List (Tree α) → List (α × Span)
  | [] => []
  | t :: ts => Tree.leaves t ++ Tree.leavesAll ts

end

/-- The first leaf without a value, with its place. -/
def Tree.unsettled? (ts : List (Tree (Except ε α))) : Option (ε × Span) :=
  (Tree.leavesAll ts).findSome? fun l =>
    match l.1 with
    | .ok _ => none
    | .error e => some (e, l.2)

/-- What decoding gives if the first leaf without a value is the given one. -/
def Tree.DecodesUpTo (spelled : List (Tree Spelling)) : Option (String × Span) → Prop
  | none => ∃ forms, Tree.decodeAll spelled = .ok forms
  | some (text, span) => Tree.decodeAll spelled = .error (.new (.badNumber text) span)

theorem Tree.DecodesUpTo.cons {t : Tree Spelling} {ts : List (Tree Spelling)}
    {first rest : Option (String × Span)} (ht : Tree.DecodesUpTo [t] first)
    (hts : Tree.DecodesUpTo ts rest) : Tree.DecodesUpTo (t :: ts) (first.or rest) := by
  cases first with
  | some p =>
    have herror : Tree.decodeAll [t] = .error (.new (.badNumber p.1) p.2) := ht
    change Tree.decodeAll (t :: ts) = .error (.new (.badNumber p.1) p.2)
    rw [Tree.decodeAll_cons] at herror ⊢
    cases hdecode : Tree.decode t with
    | error e =>
      rw [hdecode] at herror
      exact herror
    | ok f =>
      rw [hdecode] at herror
      cases herror
  | none =>
    obtain ⟨forms, hforms⟩ := ht
    obtain ⟨f, gs, hf, hgs, rfl⟩ := Tree.decodeAll_cons_eq_ok hforms
    rw [Option.none_or]
    cases rest with
    | some p =>
      have herror : Tree.decodeAll ts = .error (.new (.badNumber p.1) p.2) := hts
      change Tree.decodeAll (t :: ts) = .error (.new (.badNumber p.1) p.2)
      rw [Tree.decodeAll_cons, hf, herror]
      rfl
    | none =>
      obtain ⟨fs, hfs⟩ := hts
      refine ⟨f :: fs, ?_⟩
      rw [Tree.decodeAll_cons, hf, hfs]
      rfl

/-- Where an integer is out of range, decoding ends at the first one. -/
theorem Spells.decodes {ls : List Lexeme} {trees : List (Tree (Except String Atom))}
    (h : Spells LexemeKind.Denotes ls trees) :
    ∃ spelled, Spells Legible ls spelled ∧ Tree.DecodesUpTo spelled (Tree.unsettled? trees) := by
  induction h with
  | nil => exact ⟨[], .nil, [], rfl⟩
  | @leaf kind span r ls ts ha _ ih =>
    obtain ⟨s, hs, hatom⟩ := ha.legible
    obtain ⟨spelled, hspelled, hdecode⟩ := ih
    refine ⟨.leaf s span :: spelled, .leaf hs hspelled, ?_⟩
    rw [Tree.unsettled?, Tree.leavesAll, List.findSome?_append]
    refine Tree.DecodesUpTo.cons ?_ hdecode
    cases r with
    | ok a =>
      refine ⟨[.leaf a span], ?_⟩
      rw [Tree.decodeAll_cons, Tree.decode_leaf, hatom]
      rfl
    | error text =>
      change Tree.decodeAll [.leaf s span] = .error (.new (.badNumber text) span)
      rw [Tree.decodeAll_cons, Tree.decode_leaf, hatom]
      rfl
  | @group b opens closes inner items ls ts _ _ ihitems ih =>
    obtain ⟨us, hus, hitems⟩ := ihitems
    obtain ⟨spelled, hspelled, hdecode⟩ := ih
    refine ⟨.group b us _ :: spelled, .group hus hspelled, ?_⟩
    rw [Tree.unsettled?, Tree.leavesAll, List.findSome?_append]
    refine Tree.DecodesUpTo.cons ?_ hdecode
    rw [Tree.leaves]
    change Tree.DecodesUpTo _ (Tree.unsettled? items)
    cases hfirst : Tree.unsettled? items with
    | none =>
      rw [hfirst] at hitems
      obtain ⟨fs, hfs⟩ := hitems
      refine ⟨[.group b fs ⟨opens.start, closes.stop⟩], ?_⟩
      rw [Tree.decodeAll_cons, Tree.decode_group, hfs]
      rfl
    | some p =>
      rw [hfirst] at hitems
      have herror : Tree.decodeAll us = .error (.new (.badNumber p.1) p.2) := hitems
      change Tree.decodeAll [_] = .error (.new (.badNumber p.1) p.2)
      rw [Tree.decodeAll_cons, Tree.decode_group, herror]
      rfl

/-- A lexeme that is legible has a meaning or a fault of its own. -/
theorem LexemeKind.Legible.explained {kind : LexemeKind} {s : Spelling} (h : Legible kind s)
    {fault : SyntaxFault} (hs : s.atom = .error fault) (message : String) :
    fault ≠ .other message := by
  rintro rfl
  cases h with
  | @word text hlegible =>
    obtain ⟨r, hr⟩ := Option.isSome_iff_exists.1 hlegible
    simp only [Spelling.atom, hr] at hs
    cases r <;> cases hs
  | @quoted raw =>
    simp only [Spelling.atom] at hs
    split at hs <;> cases hs

/-- The error of a leaf without a value. -/
def Tree.fault? (l : Spelling × Span) : Option SyntaxError :=
  match l.1.atom with
  | .ok _ => none
  | .error fault => some (.new fault l.2)

mutual

theorem Tree.decode_eq_error_iff (t : Tree Spelling) (e : SyntaxError) :
    Tree.decode t = .error e ↔ (Tree.leaves t).findSome? Tree.fault? = some e := by
  cases t with
  | leaf s span =>
    rw [Tree.decode_leaf, Tree.leaves, List.findSome?_singleton, Tree.fault?]
    cases s.atom <;> simp
  | group b items span =>
    rw [Tree.decode_group, Tree.leaves, ← Tree.decodeAll_eq_error_iff items e]
    exact except_map_eq_error_iff

/-- Decoding fails just where a leaf has no value, with the error of the first such leaf. -/
theorem Tree.decodeAll_eq_error_iff (ts : List (Tree Spelling)) (e : SyntaxError) :
    Tree.decodeAll ts = .error e ↔ (Tree.leavesAll ts).findSome? Tree.fault? = some e := by
  cases ts with
  | nil => exact iff_of_false nofun nofun
  | cons t ts =>
    have hrest := Tree.decodeAll_eq_error_iff ts e
    rw [Tree.decodeAll_cons, Tree.leavesAll, List.findSome?_append]
    cases hhead : Tree.decode t with
    | error e' =>
      rw [(Tree.decode_eq_error_iff t e').1 hhead]
      simp
    | ok f =>
      have hnone : (Tree.leaves t).findSome? Tree.fault? = none := by
        rw [Option.eq_none_iff_forall_ne_some]
        intro e' he'
        rw [(Tree.decode_eq_error_iff t e').2 he'] at hhead
        cases hhead
      rw [hnone, Option.none_or, ← hrest]
      exact except_map_eq_error_iff

end

/-- The leaves are spelled by lexemes that stand where they do. -/
theorem Spells.exists_lexeme {leaf : LexemeKind → α → Prop} {ls : List Lexeme} {ts : List (Tree α)}
    (h : Spells leaf ls ts) {a : α} {span : Span} (ha : (a, span) ∈ Tree.leavesAll ts) :
    ∃ kind, leaf kind a ∧ ⟨kind, span⟩ ∈ ls := by
  induction h with
  | nil => cases ha
  | @leaf kind span' a' ls ts hleaf _ ih =>
    rw [Tree.leavesAll, Tree.leaves, List.singleton_append, List.mem_cons] at ha
    rcases ha with ha | ha
    · cases ha
      exact ⟨kind, hleaf, List.mem_cons_self⟩
    · obtain ⟨kind, hkind, hmem⟩ := ih ha
      exact ⟨kind, hkind, List.mem_cons_of_mem _ hmem⟩
  | @group b opens closes inner items ls ts _ _ ihitems ih =>
    rw [Tree.leavesAll, Tree.leaves, List.mem_append] at ha
    rcases ha with ha | ha
    · obtain ⟨kind, hkind, hmem⟩ := ihitems ha
      exact ⟨kind, hkind, by simp [hmem]⟩
    · obtain ⟨kind, hkind, hmem⟩ := ih ha
      exact ⟨kind, hkind, by simp [hmem]⟩

/-- An error of decoding is one of a leaf, and a lexeme stands there that spells the leaf. -/
theorem Spells.exists_of_decode_error {ls : List Lexeme} {trees : List (Tree Spelling)}
    (h : Spells Legible ls trees) {e : SyntaxError} (he : Tree.decodeAll trees = .error e) :
    ∃ kind s span fault, Legible kind s ∧ ⟨kind, span⟩ ∈ ls ∧ s.atom = .error fault ∧
      e = .new fault span := by
  obtain ⟨⟨s, span⟩, hmem, hfault⟩ :=
    List.exists_of_findSome?_eq_some ((Tree.decodeAll_eq_error_iff trees e).1 he)
  obtain ⟨kind, hkind, hlexeme⟩ := h.exists_lexeme hmem
  rw [Tree.fault?] at hfault
  split at hfault
  · cases hfault
  · next fault hs =>
    cases hfault
    exact ⟨kind, s, span, fault, hkind, hlexeme, hs, rfl⟩

end Leaves

section Places

variable {α : Type}

mutual

/-- The tree without its places. -/
def Tree.unplaced : Tree α → Tree α
  | .leaf a _ => .leaf a (.point 0)
  | .group b items _ => .group b (Tree.unplacedAll items) (.point 0)

def Tree.unplacedAll : List (Tree α) → List (Tree α)
  | [] => []
  | t :: ts => Tree.unplaced t :: Tree.unplacedAll ts

end

/-- Lexemes that differ in their places only spell trees that differ in their places only. -/
theorem Spells.moved {leaf : LexemeKind → α → Prop} {ls ls' : List Lexeme} {ts : List (Tree α)}
    (h : Spells leaf ls ts) (hkinds : ls'.map (·.kind) = ls.map (·.kind)) :
    ∃ ts', Spells leaf ls' ts' ∧ Tree.unplacedAll ts' = Tree.unplacedAll ts := by
  induction h generalizing ls' with
  | nil =>
    have hnil : ls' = [] := List.map_eq_nil_iff.1 hkinds
    subst hnil
    exact ⟨[], .nil, rfl⟩
  | @leaf kind span a ls ts ha _ ih =>
    obtain ⟨l, rest, rfl, hl, hrest⟩ := List.map_eq_cons_iff.1 hkinds
    obtain ⟨ts', hts', hsame⟩ := ih hrest
    obtain ⟨kind', span'⟩ := l
    cases hl
    refine ⟨.leaf a span' :: ts', .leaf ha hts', ?_⟩
    simp only [Tree.unplacedAll, Tree.unplaced, hsame]
  | @group b opens closes inner items ls ts _ _ ihitems ih =>
    obtain ⟨l, rest, rfl, hl, hrest⟩ := List.map_eq_cons_iff.1 hkinds
    rw [List.map_append] at hrest
    obtain ⟨inner', after, rfl, hinner, hafter⟩ := List.map_eq_append_iff.1 hrest
    obtain ⟨m, rest', rfl, hm, hrest'⟩ := List.map_eq_cons_iff.1 hafter
    obtain ⟨items', hitems', hsameItems⟩ := ihitems hinner
    obtain ⟨ts', hts', hsame⟩ := ih hrest'
    obtain ⟨kind, opens'⟩ := l
    obtain ⟨kind', closes'⟩ := m
    cases hl
    cases hm
    refine ⟨.group b items' ⟨opens'.start, closes'.stop⟩ :: ts', .group hitems' hts', ?_⟩
    simp only [Tree.unplacedAll, Tree.unplaced, hsameItems, hsame]

end Places

end Scriptlet
