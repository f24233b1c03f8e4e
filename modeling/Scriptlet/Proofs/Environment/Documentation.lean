import Mathlib.Data.List.Induction
import Scriptlet.Environment
import Scriptlet.Proofs.Names

/-!
The documentation of an environment groups the globals by category. The sections come in the order
in which the categories were first used, and in each of them the globals keep their order.
-/

namespace Scriptlet

theorem distinctNames_concat (names : List String) (n : String) :
    distinctNames (names ++ [n]) =
      if n ∈ names then distinctNames names else distinctNames names ++ [n] := by
  induction names with
  | nil => rfl
  | cons m names ih =>
    rw [List.cons_append, distinctNames, ih, distinctNames]
    by_cases hm : n = m
    · subst hm
      by_cases hn : n ∈ names <;> simp [hn]
    · by_cases hn : n ∈ names <;> simp [hn, hm, List.filter_append]

/-- What is registered under a category, in order. -/
def Global.inCategory (gs : List Global) (title : String) : List Global :=
  gs.filter fun g => g.category == title

/-- The section of a category. -/
def Global.sectionOf (gs : List Global) (title : String) : Section GlobalDoc :=
  .mk title [] ((Global.inCategory gs title).map Global.documentation)

namespace Environment

section Filing

variable {titles : List String} {title : String} {item : GlobalDoc} {s : String → Section GlobalDoc}

/-- An item goes to the section that has the title. -/
theorem file_of_mem (hs : ∀ t, (s t).title = t) (hdistinct : titles.Nodup) (h : title ∈ titles) :
    file title item (titles.map s) =
      titles.map fun t => if t = title then (s t).pushItem item else s t := by
  induction titles with
  | nil => cases h
  | cons t titles ih =>
    obtain ⟨ht, hdistinct⟩ := List.nodup_cons.1 hdistinct
    rw [List.map_cons, List.map_cons, file, hs]
    by_cases htitle : t = title
    · have hrest : ∀ u ∈ titles, s u = if u = title then (s u).pushItem item else s u := by
        intro u hu
        have hne : u ≠ title := fun hut => ht (htitle ▸ hut ▸ hu)
        rw [if_neg hne]
      rw [if_pos htitle, if_pos htitle, ← List.map_congr_left hrest]
    · rw [if_neg htitle, if_neg htitle,
        ih hdistinct ((List.mem_cons.1 h).resolve_left (Ne.symm htitle))]

/-- A new title gets a section at the end. -/
theorem file_of_notMem (hs : ∀ t, (s t).title = t) (h : title ∉ titles) :
    file title item (titles.map s) = titles.map s ++ [(Section.new title).pushItem item] := by
  induction titles with
  | nil => rfl
  | cons t titles ih =>
    obtain ⟨ht, hrest⟩ := not_or.1 (mt List.mem_cons.2 h)
    rw [List.map_cons, file, hs, if_neg (Ne.symm ht), ih hrest]
    rfl

end Filing

/-- One global more stands in its own section only, at the end. -/
theorem sectionOf_concat (gs : List Global) (g : Global) (title : String) :
    Global.sectionOf (gs ++ [g]) title =
      if title = g.category then (Global.sectionOf gs title).pushItem g.documentation
      else Global.sectionOf gs title := by
  rw [Global.sectionOf, Global.inCategory, List.filter_append, List.map_append]
  by_cases ht : title = g.category
  · subst ht
    simp [Global.sectionOf, Global.inCategory, Section.pushItem, Section.title, Section.sections,
      Section.items]
  · simp [Global.sectionOf, Global.inCategory, ht, Ne.symm ht]

/-- The sections are the categories in the order of first use, each with its globals in order. -/
theorem foldl_file (gs : List Global) :
    gs.foldl (fun filed g => file g.category g.documentation filed) [] =
      (distinctNames (gs.map (·.category))).map (Global.sectionOf gs) := by
  induction gs using List.reverseRecOn with
  | nil => rfl
  | append_singleton gs g ih =>
    have htitle : ∀ t, (Global.sectionOf gs t).title = t := fun _ => rfl
    rw [List.foldl_append, ih, List.map_append, List.map_singleton, distinctNames_concat]
    change file g.category g.documentation _ = _
    split
    · next hmem =>
      rw [file_of_mem htitle (nodup_distinctNames _) (mem_distinctNames.2 hmem)]
      exact List.map_congr_left fun t _ => (sectionOf_concat gs g t).symm
    · next hmem =>
      have hold : ∀ t ∈ distinctNames (gs.map (·.category)),
          Global.sectionOf (gs ++ [g]) t = Global.sectionOf gs t := by
        intro t ht
        have hne : t ≠ g.category := fun he => hmem (mem_distinctNames.1 (he ▸ ht))
        rw [sectionOf_concat, if_neg hne]
      have hnew : Global.sectionOf gs g.category = Section.new g.category := by
        have hnone : Global.inCategory gs g.category = [] := by
          rw [Global.inCategory, List.filter_eq_nil_iff]
          intro g' hg' he
          exact hmem (List.mem_map.2 ⟨g', hg', by simpa using he⟩)
        rw [Global.sectionOf, hnone]
        rfl
      rw [file_of_notMem htitle (mt mem_distinctNames.1 hmem), List.map_append,
        List.map_congr_left hold, List.map_singleton, sectionOf_concat, if_pos rfl, hnew]

theorem foldl_pushSection (ss : List (Section GlobalDoc)) (root : Section GlobalDoc) :
    ss.foldl Section.pushSection root = .mk root.title (root.sections ++ ss) root.items := by
  induction ss generalizing root with
  | nil =>
    cases root
    simp [Section.title, Section.sections, Section.items]
  | cons s ss ih => rw [List.foldl_cons, ih, Section.title_pushSection, Section.items_pushSection,
      Section.sections_pushSection, List.append_assoc, List.singleton_append]

/-- Titles that cover the categories divide the globals up. -/
theorem flatMap_inCategory_perm {titles : List String} (hdistinct : titles.Nodup)
    {gs : List Global} (h : ∀ g ∈ gs, g.category ∈ titles) :
    (titles.flatMap (Global.inCategory gs)).Perm gs := by
  induction titles generalizing gs with
  | nil =>
    have hnone : gs = [] := List.eq_nil_iff_forall_not_mem.2 fun g hg => by simpa using h g hg
    rw [hnone]
    exact .rfl
  | cons t titles ih =>
    obtain ⟨ht, hdistinct⟩ := List.nodup_cons.1 hdistinct
    -- The other sections are those of the globals that are not in the first one.
    have hothers : ∀ u ∈ titles, Global.inCategory gs u =
        Global.inCategory (gs.filter fun g => !(g.category == t)) u := by
      intro u hu
      have hne : u ≠ t := fun he => ht (he ▸ hu)
      rw [Global.inCategory, Global.inCategory, List.filter_filter]
      refine List.filter_congr fun g _ => ?_
      by_cases hg : g.category = u <;> simp [hg, hne]
    have hcover : ∀ g ∈ gs.filter (fun g => !(g.category == t)), g.category ∈ titles := by
      intro g hg
      obtain ⟨hmem, hne⟩ := List.mem_filter.1 hg
      exact (List.mem_cons.1 (h g hmem)).resolve_left (by simpa using hne)
    rw [List.flatMap_cons, List.flatMap_congr hothers]
    exact ((ih hdistinct hcover).append_left _).trans (List.filter_append_perm _ gs)

/-- What is documented: each global once, with its arity and its text, in the section of its
category. The sections come in the order of first use, and the globals in each in their order. -/
structure Documents (e : Environment) (gs : List Global) : Prop where
  title : e.documentation.title = "Kiln reference"
  items : e.documentation.items = []
  sections : e.documentation.sections =
    (distinctNames (gs.map (·.category))).map (Global.sectionOf gs)
  titles : (e.documentation.sections.map Section.title).Nodup
  all : (e.documentation.sections.flatMap Section.items).Perm (gs.map Global.documentation)
  once : ∀ g ∈ gs, ∃! s, s ∈ e.documentation.sections ∧ g.documentation ∈ s.items

theorem documentation_eq (e : Environment) : e.documentation = .mk "Kiln reference"
    ((distinctNames (e.globals.map (·.category))).map (Global.sectionOf e.globals)) [] := by
  rw [documentation, sections, foldl_file, foldl_pushSection]
  rfl

theorem documents (e : Environment) : e.Documents e.globals := by
  have hsections : e.documentation.sections =
      (distinctNames (e.globals.map (·.category))).map (Global.sectionOf e.globals) := by
    rw [documentation_eq]
    rfl
  refine ⟨?_, ?_, hsections, ?_, ?_, fun g hg => ?_⟩
  · rw [documentation_eq]
    rfl
  · rw [documentation_eq]
    rfl
  · rw [hsections, List.map_map]
    change ((distinctNames _).map id).Nodup
    rw [List.map_id]
    exact nodup_distinctNames _
  · have hcover : ∀ g ∈ e.globals, g.category ∈ distinctNames (e.globals.map (·.category)) :=
      fun g hg => mem_distinctNames.2 (List.mem_map_of_mem hg)
    rw [hsections, List.flatMap_map]
    change ((distinctNames _).flatMap fun t =>
      (Global.inCategory e.globals t).map Global.documentation).Perm _
    rw [← List.map_flatMap]
    exact (flatMap_inCategory_perm (nodup_distinctNames _) hcover).map _
  · rw [hsections]
    refine ⟨Global.sectionOf e.globals g.category, ⟨?_, ?_⟩, ?_⟩
    · exact List.mem_map_of_mem (mem_distinctNames.2 (List.mem_map_of_mem hg))
    · exact List.mem_map_of_mem (List.mem_filter.2 ⟨hg, beq_self_eq_true _⟩)
    · rintro s ⟨hs, hitem⟩
      obtain ⟨t, -, rfl⟩ := List.mem_map.1 hs
      obtain ⟨g', hg', hdoc⟩ := List.mem_map.1 hitem
      obtain ⟨hmem, ht⟩ := List.mem_filter.1 hg'
      have hname : g'.name = g.name := congrArg GlobalDoc.name hdoc
      have hsame : g' = g := List.inj_on_of_nodup_map e.nodup hmem hg hname
      rw [← hsame, beq_iff_eq.1 ht]

end Environment

end Scriptlet
