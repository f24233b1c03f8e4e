import Scriptlet.Proofs.Resolution.Place

/-!
Places in a text that cannot be read. Whatever the text is, its lexemes begin and end between
characters, and so do its brackets, and everything that reading can complain about is at one of them
or at the end.
-/

namespace Scriptlet

/-- The text is what the source has from the offset on. -/
def Stands (source : List Char) (pos : Nat) (text : List Char) : Prop :=
  ∃ before, source = before ++ text ∧ pos = utf8Length before

namespace Stands

variable {source piece text : List Char} {pos : Nat}

theorem self (source : List Char) : Stands source 0 source := ⟨[], rfl, rfl⟩

theorem boundary (h : Stands source pos text) : Boundary source pos := by
  obtain ⟨before, hsource, hpos⟩ := h
  exact ⟨before, text, hsource, hpos⟩

theorem drop (h : Stands source pos (piece ++ text)) :
    Stands source (pos + utf8Length piece) text := by
  obtain ⟨before, hsource, hpos⟩ := h
  refine ⟨before ++ piece, ?_, ?_⟩
  · rw [hsource, List.append_assoc]
  · rw [hpos, utf8Length_append]

theorem point (h : Stands source pos text) : (Span.point pos).Cuts source :=
  ⟨Nat.le_refl pos, h.boundary, h.boundary⟩

theorem cuts (h : Stands source pos (piece ++ text)) :
    (Span.mk pos (pos + utf8Length piece)).Cuts source :=
  ⟨Nat.le_add_right _ _, h.boundary, h.drop.boundary⟩

end Stands

section Text

variable {source text : List Char} {pos : Nat}

theorem dropBytes_append (before text : List Char) :
    dropBytes (utf8Length before) (before ++ text) = text := by
  induction before with
  | nil => cases text <;> rfl
  | cons c cs ih =>
    obtain ⟨n, hn⟩ : ∃ n, c.utf8Size + utf8Length cs = n + 1 :=
      ⟨c.utf8Size + utf8Length cs - 1, by have := c.utf8Size_pos; omega⟩
    rw [utf8Length_cons, List.cons_append, hn, dropBytes, ← hn, Nat.add_sub_cancel_left, ih]

theorem takeBytes_append (piece rest : List Char) :
    takeBytes (utf8Length piece) (piece ++ rest) = piece := by
  induction piece with
  | nil => cases rest <;> rfl
  | cons c cs ih =>
    obtain ⟨n, hn⟩ : ∃ n, c.utf8Size + utf8Length cs = n + 1 :=
      ⟨c.utf8Size + utf8Length cs - 1, by have := c.utf8Size_pos; omega⟩
    rw [utf8Length_cons, List.cons_append, hn, takeBytes, ← hn, Nat.add_sub_cancel_left, ih]

/-- The text of a span is what stands between what is before and after it. -/
theorem Span.text_append (before inside after : List Char) :
    (Span.mk (utf8Length before) (utf8Length before + utf8Length inside)).text
      (before ++ (inside ++ after)) = inside := by
  rw [text, dropBytes_append, Nat.add_sub_cancel_left, takeBytes_append]

/-- A later boundary leaves a part of the text between. -/
theorem Stands.between {stop : Nat} (h : Stands source pos text) (hstop : Boundary source stop)
    (hle : pos ≤ stop) : ∃ piece rest, text = piece ++ rest ∧ stop = pos + utf8Length piece := by
  obtain ⟨before, hsource, hpos⟩ := h
  obtain ⟨before', after, hsource', hstop⟩ := hstop
  rw [hsource] at hsource'
  rcases List.append_eq_append_iff.1 hsource' with ⟨piece, hbefore, htext⟩ | ⟨piece, hbefore, -⟩
  · refine ⟨piece, after, htext, ?_⟩
    rw [hstop, hbefore, utf8Length_append, hpos]
  · have hlength := congrArg utf8Length hbefore
    rw [utf8Length_append] at hlength
    refine ⟨[], text, rfl, ?_⟩
    rw [utf8Length_nil]
    omega

end Text

theorem boundary_of_isValid {source : String} {pos : Nat}
    (h : (String.Pos.Raw.mk pos).IsValid source) : Boundary source.toList pos := by
  obtain ⟨before, after, hsource, hpos⟩ := String.Pos.Raw.isValid_iff_exists_append.1 h
  refine ⟨before.toList, after.toList, ?_, ?_⟩
  · rw [hsource, String.toList_append]
  · rw [utf8Length_toList]
    exact congrArg String.Pos.Raw.byteIdx hpos

/-- A span in the source has a text: what stands there in the source, between what stands before and
after it. -/
theorem Span.Within.text_eq {span : Span} {source : String} (h : span.Within source) :
    ∃ before inside after, source.toList = before ++ (inside ++ after) ∧
      span = ⟨utf8Length before, utf8Length before + utf8Length inside⟩ ∧
      span.text source.toList = inside := by
  obtain ⟨before, text, hsource, hstart⟩ := boundary_of_isValid h.start_valid
  have hstands : Stands source.toList span.start text := ⟨before, hsource, hstart⟩
  obtain ⟨inside, after, rfl, hstop⟩ :=
    hstands.between (boundary_of_isValid h.stop_valid) h.ordered
  rw [hstart] at hstop
  have hspan : span = ⟨utf8Length before, utf8Length before + utf8Length inside⟩ := by
    rw [← hstop, ← hstart]
  exact ⟨before, inside, after, hsource, hspan, by rw [hspan, hsource, text_append]⟩

/-- Scanning any text finds nothing but parts of it. -/
theorem Lexeme.scan_cuts {source text : List Char} {pos : Nat} (h : Stands source pos text) :
    ∀ l ∈ scan pos text, l.span.Cuts source := by
  fun_induction scan pos text with
  | case1 pos =>
    intro l hl
    cases hl
  | case2 pos c cs _ ih =>
    have hfront : Stands source pos ([c] ++ cs) := h
    exact ih hfront.drop
  | case3 pos cs comment _ ih =>
    have hfront : Stands source pos ((';' :: comment.1) ++ comment.2) := by
      rwa [List.cons_append, (splitComment_eq cs).1]
    have hrest := hfront.drop
    rw [utf8Length_cons, ← Nat.add_assoc] at hrest
    exact ih hrest
  | case4 pos cs raw rest hsplit stop _ _ ih =>
    have hfront : Stands source pos (('"' :: (raw ++ ['"'])) ++ rest) := by
      rw [← append_of_splitQuoted hsplit] at h
      simpa using h
    have hstop : pos + utf8Length ('"' :: (raw ++ ['"'])) = stop := by
      have hquote : '"'.utf8Size = 1 := rfl
      simp only [utf8Length_cons, utf8Length_append, utf8Length_nil]
      omega
    refine List.forall_mem_cons.2 ⟨?_, ih (hstop ▸ hfront.drop)⟩
    rw [← hstop]
    exact hfront.cuts
  | case5 => exact List.forall_mem_singleton.2 h.point
  | case6 pos c cs _ _ _ kind hbracket ih =>
    have hfront : Stands source pos ([c] ++ cs) := h
    have hsize : utf8Length [c] = 1 := (Layout.written_of_bracket? hbracket).2.2
    refine List.forall_mem_cons.2 ⟨?_, ih (hsize ▸ hfront.drop)⟩
    rw [← hsize]
    exact hfront.cuts
  | case7 pos c cs _ _ _ _ _ word stop ih =>
    have hfront : Stands source pos ((c :: word.1) ++ word.2) := by
      rwa [List.cons_append, (splitWord_eq cs).1]
    exact List.forall_mem_cons.2 ⟨hfront.cuts, ih hfront.drop⟩
  | case8 => exact List.forall_mem_singleton.2 h.point

theorem Delimiter.size_of_ofChar? {c : Char} {pos at' : Nat} {b : Bracket}
    (h : ofChar? c pos = some (.opening b at')) : at' = pos ∧ c.utf8Size = 1 := by
  unfold ofChar? at h
  split at h
  · next hc =>
    cases h
    exact ⟨rfl, hc ▸ rfl⟩
  · split at h
    · next hc =>
      cases h
      exact ⟨rfl, hc ▸ rfl⟩
    · split at h <;> cases h

/-- A bracket that opens a group is one byte of the source. -/
theorem outlineFrom_cuts {source text : List Char} {s : Surrounding} {pos at' : Nat} {b : Bracket}
    (h : Stands source pos text) (hb : .opening b at' ∈ (outlineFrom s pos text).1) :
    (Span.mk at' (at' + 1)).Cuts source := by
  induction text generalizing s pos with
  | nil => cases hb
  | cons c cs ih =>
    have hfront : Stands source pos ([c] ++ cs) := h
    rw [outlineFrom] at hb
    simp only at hb
    split at hb
    · next d hd =>
      rcases List.mem_cons.1 hb with rfl | hb
      · obtain ⟨rfl, hsize⟩ := Delimiter.size_of_ofChar? hd
        have hcuts := hfront.cuts
        rwa [utf8Length_cons, hsize] at hcuts
      · exact ih hfront.drop hb
    · exact ih hfront.drop hb

theorem mem_of_firstTooDeep? {limit depth pos : Nat} {ds : List Delimiter}
    (h : firstTooDeep? limit depth ds = some pos) : ∃ b, .opening b pos ∈ ds := by
  induction ds generalizing depth with
  | nil => cases h
  | cons d ds ih =>
    cases d with
    | opening b start =>
      rw [firstTooDeep?] at h
      split at h
      · cases h
        exact ⟨b, List.mem_cons_self⟩
      · obtain ⟨b', hb⟩ := ih h
        exact ⟨b', List.mem_cons_of_mem _ hb⟩
    | closing =>
      obtain ⟨b', hb⟩ := ih h
      exact ⟨b', List.mem_cons_of_mem _ hb⟩

/-- What a text is refused for is in the text. -/
theorem Script.cuts_of_readChars {limit : Nat} {text : List Char} {e : SyntaxError}
    (h : readChars limit text = .error e) : e.context = [] ∧ e.span.Cuts text := by
  have hscan := Lexeme.scan_cuts (Stands.self text)
  cases hdeep : firstTooDeep? limit 0 (outline text).1 with
  | some pos =>
    rw [readChars, withinNesting, hdeep] at h
    cases h
    obtain ⟨b, hb⟩ := mem_of_firstTooDeep? hdeep
    exact ⟨rfl, outlineFrom_cuts (Stands.self text) hb⟩
  | none =>
    have hnesting : withinNesting limit text = .ok () := by rw [withinNesting, hdeep]
    cases harrange : arrange (Lexeme.scan 0 text) (utf8Length text) with
    | error s =>
      rw [readChars_of_stuck hnesting harrange] at h
      cases h
      have hboundary : Boundary text s.pos := by
        rcases pos_of_arrange harrange with hpos | ⟨l, hl, hpos⟩
        · exact ⟨text, [], (List.append_nil text).symm, hpos⟩
        · rw [hpos]
          exact (hscan l hl).start
      exact ⟨rfl, Nat.le_refl _, hboundary, hboundary⟩
    | ok trees =>
      rw [readChars_of_arrange hnesting harrange] at h
      obtain ⟨hspells, -⟩ := arrange_eq_ok_iff.1 harrange
      obtain ⟨kind, _, span, _, -, hl, -, rfl⟩ :=
        hspells.exists_of_decode_error (except_map_eq_error_iff.1 h)
      exact ⟨rfl, hscan ⟨kind, span⟩ hl⟩

/-- The one span has all of the other. -/
structure Span.Contains (outer inner : Span) : Prop where
  start : outer.start ≤ inner.start
  stop : inner.stop ≤ outer.stop

namespace Span.Contains

variable {s t u : Span}

theorem refl (s : Span) : s.Contains s := ⟨Nat.le_refl _, Nat.le_refl _⟩

theorem trans (h : s.Contains t) (h' : t.Contains u) : s.Contains u :=
  ⟨h.start.trans h'.start, h'.stop.trans h.stop⟩

end Span.Contains

/-- A lexeme ends before the next one begins. -/
theorem Layout.separate {afterWord : Bool} {pos : Nat} {text : List Char} {ls : List Lexeme}
    (h : Layout afterWord pos text ls) :
    (ls.map (·.span)).Pairwise fun s t => s.stop ≤ t.start := by
  induction h with
  | last => exact .nil
  | lexeme _ _ _ h ih =>
    refine List.pairwise_cons.2 ⟨fun s hs => ?_, ih⟩
    obtain ⟨l, hl, rfl⟩ := List.mem_map.1 hs
    exact h.ordered.2 l hl

/-- Lexemes in a row, of which some stand between two others. -/
theorem Lexeme.separate_between {opens closes : Lexeme} {inner ls : List Lexeme}
    (h : ((opens :: (inner ++ closes :: ls)).map (·.span)).Pairwise fun s t => s.stop ≤ t.start) :
    (∀ l ∈ inner, (Span.mk opens.span.stop closes.span.start).Contains l.span) ∧
      (inner.map (·.span)).Pairwise (fun s t => s.stop ≤ t.start) ∧
      (ls.map (·.span)).Pairwise (fun s t => s.stop ≤ t.start) ∧
      ∀ s ∈ ls.map (·.span), closes.span.stop ≤ s.start := by
  simp only [List.map_cons, List.map_append, List.pairwise_cons, List.pairwise_append] at h
  obtain ⟨hopens, hinner, ⟨hstop, hls⟩, hcloses⟩ := h
  refine ⟨fun l hl => ⟨?_, ?_⟩, hinner, hls, hstop⟩
  · exact hopens _ (List.mem_append_left _ (List.mem_map_of_mem hl))
  · exact hcloses _ (List.mem_map_of_mem hl) _ List.mem_cons_self

/-- Trees that are spelled stand in the part of the text where their lexemes do, and each tree has
all that stands in it. -/
theorem Spells.contains {α : Type} {leaf : LexemeKind → α → Prop} {ls : List Lexeme}
    {ts : List (Tree α)} (h : Spells leaf ls ts) (hproper : ∀ l ∈ ls, l.span.start ≤ l.span.stop)
    (hseparate : (ls.map (·.span)).Pairwise fun s t => s.stop ≤ t.start) {whole : Span}
    (hwhole : ∀ l ∈ ls, whole.Contains l.span) :
    ∀ t ∈ ts, whole.Contains t.span ∧
      ∀ u, Tree.Within u t → ∀ v, Tree.Within v u → u.span.Contains v.span := by
  induction h generalizing whole with
  | nil =>
    intro t ht
    cases ht
  | @leaf kind span a ls ts _ _ ih =>
    obtain ⟨hspan, hrest⟩ := List.forall_mem_cons.1 hwhole
    refine List.forall_mem_cons.2 ⟨⟨hspan, ?_⟩, ?_⟩
    · intro u hu v hv
      cases hu with
      | self =>
        cases hv with
        | self => exact .refl _
    · exact ih (fun l hl => hproper l (List.mem_cons_of_mem _ hl))
        (List.pairwise_cons.1 hseparate).2 hrest
  | @group b opens closes inner items ls ts _ _ ihitems ih =>
    -- What is in the group stands between its brackets, so these are the whole for the items.
    obtain ⟨hbetween, hinner, hls, -⟩ := Lexeme.separate_between hseparate
    have hfirst := hproper ⟨.opening b, opens⟩ (by simp)
    have hlast := hproper ⟨.closing b, closes⟩ (by simp)
    have hitems := ihitems (fun l hl => hproper l (by simp [hl])) hinner hbetween
    have hgroup : (Span.mk opens.start closes.stop).Contains ⟨opens.stop, closes.start⟩ :=
      ⟨hfirst, hlast⟩
    refine List.forall_mem_cons.2 ⟨⟨?_, ?_⟩, ?_⟩
    · exact ⟨(hwhole ⟨.opening b, opens⟩ (by simp)).start,
        (hwhole ⟨.closing b, closes⟩ (by simp)).stop⟩
    · intro u hu v hv
      cases hu with
      | self =>
        cases hv with
        | self => exact .refl _
        | item hmem hv =>
          obtain ⟨hitem, hinside⟩ := hitems _ hmem
          exact hgroup.trans (hitem.trans (hinside _ .self v hv))
      | item hmem hu => exact (hitems _ hmem).2 u hu v hv
    · exact ih (fun l hl => hproper l (by simp [hl])) hls fun l hl => hwhole l (by simp [hl])

/-- A script that is read has its forms, and each form has all that stands in it. -/
theorem Script.read_contains {limit : Nat} {source : String} {script : Script}
    (h : read limit source = .ok script) :
    ∀ f ∈ script.forms, script.span.Contains f.span ∧
      ∀ g, Tree.Within g f → ∀ k, Tree.Within k g → g.span.Contains k.span := by
  obtain ⟨-, -, ⟨ls, hlayout, hspells⟩, hspan⟩ := readChars_eq_ok_iff.1 h
  have hcuts := hlayout.cuts
  have hwhole : ∀ l ∈ ls, script.span.Contains l.span := by
    intro l hl
    rw [hspan]
    exact ⟨Nat.zero_le _, (hcuts l hl).stop.le_utf8Length⟩
  exact hspells.contains (fun l hl => (hcuts l hl).ordered) hlayout.separate hwhole

end Scriptlet
