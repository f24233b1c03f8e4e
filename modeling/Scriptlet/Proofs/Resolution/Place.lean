import Scriptlet.Proofs.Resolution.Free
import Scriptlet.Proofs.Resolution.Origin

/-!
Places in the source. Every form that is read, every node that is compiled and every free name
stands in the source: its span begins and ends between characters, in order.
-/

namespace Scriptlet

/-- The offset lies between two characters of the text, or at one of its ends. -/
def Boundary (text : List Char) (pos : Nat) : Prop :=
  ∃ before after, text = before ++ after ∧ pos = utf8Length before

/-- The span covers a part of the source, and cuts no character. -/
structure Span.Within (span : Span) (source : String) : Prop where
  ordered : span.start ≤ span.stop
  inside : span.stop ≤ source.utf8ByteSize
  start_valid : (String.Pos.Raw.mk span.start).IsValid source
  stop_valid : (String.Pos.Raw.mk span.stop).IsValid source

/-- The same of a text that is given as its characters. -/
structure Span.Cuts (span : Span) (text : List Char) : Prop where
  ordered : span.start ≤ span.stop
  start : Boundary text span.start
  stop : Boundary text span.stop

theorem Boundary.isValid {source : String} {pos : Nat} (h : Boundary source.toList pos) :
    (String.Pos.Raw.mk pos).IsValid source := by
  obtain ⟨before, after, htext, rfl⟩ := h
  apply String.Pos.Raw.isValid_iff_exists_append.2
  refine ⟨String.ofList before, String.ofList after, ?_, ?_⟩
  · rw [← String.ofList_append, ← htext, String.ofList_toList]
  · have hlength := utf8Length_toList (String.ofList before)
    rw [String.toList_ofList] at hlength
    rw [hlength]
    rfl

theorem Boundary.le_utf8Length {text : List Char} {pos : Nat} (h : Boundary text pos) :
    pos ≤ utf8Length text := by
  obtain ⟨before, after, rfl, rfl⟩ := h
  rw [utf8Length_append]
  exact Nat.le_add_right _ _

theorem Span.Cuts.within {span : Span} {source : String} (h : span.Cuts source.toList) :
    span.Within source :=
  ⟨h.ordered, h.stop.isValid.le_utf8ByteSize, h.start.isValid, h.stop.isValid⟩

theorem Layout.cuts {afterWord : Bool} {text : List Char} {ls : List Lexeme}
    (h : Layout afterWord 0 text ls) : ∀ l ∈ ls, l.span.Cuts text := by
  intro l hl
  obtain ⟨before, inside, after, rfl, -, hspan⟩ := h.covers l hl
  rw [hspan]
  simp only [Nat.zero_add]
  refine ⟨Nat.le_add_right _ _, ⟨before, _, rfl, rfl⟩, ⟨before ++ inside, after, by simp, ?_⟩⟩
  rw [utf8Length_append]

/-- Trees that are spelled stand where their lexemes do, a group from its first to its last. -/
theorem Spells.cuts {α : Type} {leaf : LexemeKind → α → Prop} {text : List Char} {ls : List Lexeme}
    {ts : List (Tree α)} (h : Spells leaf ls ts) (hcuts : ∀ l ∈ ls, l.span.Cuts text)
    (hordered : (ls.map (·.span)).Pairwise fun s t => s.start < t.start) :
    ∀ t ∈ ts, ∀ u, Tree.Within u t → u.span.Cuts text := by
  induction h with
  | nil =>
    intro t ht
    cases ht
  | @leaf kind span a ls ts _ _ ih =>
    obtain ⟨hspan, hrest⟩ := List.forall_mem_cons.1 hcuts
    intro t ht u hu
    rcases List.mem_cons.1 ht with rfl | ht
    · cases hu with
      | self => exact hspan
    · exact ih hrest (List.pairwise_cons.1 hordered).2 t ht u hu
  | @group b opens closes inner items ls ts _ _ ihitems ih =>
    simp only [List.map_cons, List.map_append, List.pairwise_cons, List.pairwise_append] at hordered
    obtain ⟨hopens, hinner, ⟨-, hls⟩, -⟩ := hordered
    intro t ht u hu
    rcases List.mem_cons.1 ht with rfl | ht
    · cases hu with
      | self =>
        have hfirst : opens.Cuts text := hcuts ⟨.opening b, opens⟩ (by simp)
        have hlast : closes.Cuts text := hcuts ⟨.closing b, closes⟩ (by simp)
        have hbefore : opens.start < closes.start := hopens closes (by simp)
        have hafter := hlast.ordered
        exact ⟨by simp only [Tree.span]; omega, hfirst.start, hlast.stop⟩
      | item hmem hwithin =>
        exact ihitems (fun l hl => hcuts l (by simp [hl])) hinner _ hmem u hwithin
    · exact ih (fun l hl => hcuts l (by simp [hl])) hls t ht u hu

/-- Every form that is read stands in the source, and so does the script as a whole. -/
theorem Script.read_within {limit : Nat} {source : String} {script : Script}
    (h : read limit source = .ok script) :
    (∀ f ∈ script.forms, ∀ g, Tree.Within g f → g.span.Within source) ∧
      script.span.Within source := by
  obtain ⟨-, -, ⟨ls, hlayout, hspells⟩, hspan⟩ := readChars_eq_ok_iff.1 h
  constructor
  · intro f hf g hg
    exact (hspells.cuts hlayout.cuts hlayout.ordered.1 f hf g hg).within
  · rw [hspan]
    have hcuts : (Span.mk 0 (utf8Length source.toList)).Cuts source.toList :=
      ⟨Nat.zero_le _, ⟨[], _, rfl, rfl⟩, ⟨_, [], (List.append_nil _).symm, rfl⟩⟩
    exact hcuts.within

section Leaves

variable {α : Type} {a : α} {span : Span}

mutual

theorem Tree.within_of_mem_leaves {t : Tree α} (h : (a, span) ∈ Tree.leaves t) :
    Tree.Within (.leaf a span) t := by
  cases t with
  | leaf b s =>
    rw [Tree.leaves] at h
    cases List.mem_singleton.1 h
    exact .self
  | group b items s =>
    rw [Tree.leaves] at h
    obtain ⟨u, hu, hwithin⟩ := Tree.within_of_mem_leavesAll h
    exact .item hu hwithin

theorem Tree.within_of_mem_leavesAll {ts : List (Tree α)} (h : (a, span) ∈ Tree.leavesAll ts) :
    ∃ t ∈ ts, Tree.Within (.leaf a span) t := by
  cases ts with
  | nil => cases h
  | cons t ts =>
    rw [Tree.leavesAll] at h
    rcases List.mem_append.1 h with h | h
    · exact ⟨t, List.mem_cons_self, Tree.within_of_mem_leaves h⟩
    · obtain ⟨u, hu, hwithin⟩ := Tree.within_of_mem_leavesAll h
      exact ⟨u, List.mem_cons_of_mem _ hu, hwithin⟩

end

end Leaves

namespace Engine

variable {e : Engine} {serial : Nat} {name source : String} {a : Artifact}

/-- Every node of a compiled script stands in the source of the script. -/
theorem node_within (h : e.compile serial name source = .ok a) {n : Node} (hn : n.Within a.body) :
    n.span.Within source := by
  obtain ⟨script, nodes, uses, hread, -, ha⟩ := compile_ok h
  obtain ⟨hforms, hscript⟩ := Script.read_within hread
  rcases ha.within hn with ⟨f, hf, g, hg, p, us, hresolves⟩ | rfl
  · rw [hresolves.span_eq]
    exact hforms f hf g hg
  · exact hscript

/-- The place of a free name is in the source. -/
theorem free_within (h : e.compile serial name source = .ok a) {v : FreeName} (hv : v ∈ a.free) :
    v.span.Within source := by
  obtain ⟨script, nodes, uses, hread, -, ha⟩ := compile_ok h
  rw [ha.free] at hv
  have hfound := List.mem_of_find?_eq_some (mem_freeNames.1 hv)
  have hspan : v.span ∈ freeSpans uses := List.mem_map_of_mem hfound
  obtain ⟨⟨atom, span⟩, hleaf, hsame⟩ :=
    List.mem_map.1 (ha.forms.sublist_freeSpans.mem hspan)
  obtain ⟨f, hf, hwithin⟩ := Tree.within_of_mem_leavesAll hleaf
  rw [← hsame]
  exact (Script.read_within hread).1 f hf _ hwithin

end Engine

end Scriptlet
