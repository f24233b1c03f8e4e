import Mathlib.Data.List.Forall2
import Scriptlet.Proofs.Form.Unfinished

/-!
String literals. The scan and the decoding both pair a backslash with the character behind it, from
left to right, so they agree on where a literal ends and on what its escapes are. A literal stands
for the string that is written in it, and one with an escape that has no meaning is refused for its
first such escape.
-/

namespace Scriptlet

open LexemeKind (Legible Complete)

/-- How a character is written between quotes. A quote or a backslash is escaped, and the end of a
line, a tabulation and a carriage return may be. -/
inductive QuotedChar : Char → List Char → Prop where
  | plain {c} (hquote : c ≠ '"') (hslash : c ≠ '\\') : QuotedChar c [c]
  | escape {c d} (h : Escape d c) : QuotedChar c ['\\', d]

/-- The characters that are escaped, each behind a backslash that is not escaped itself. -/
def escapes : List Char → List Char
  | [] => []
  | '\\' :: c :: cs => c :: escapes cs
  | _ :: cs => escapes cs

theorem exists_escape_iff {c : Char} : (∃ d, Escape c d) ↔ c ∈ ['n', 't', 'r', '"', '\\'] := by
  constructor
  · rintro ⟨d, h⟩
    cases h <;> decide
  · simp only [List.mem_cons, List.not_mem_nil, or_false]
    rintro (rfl | rfl | rfl | rfl | rfl) <;> exact ⟨_, by constructor⟩

instance (c : Char) : Decidable (∃ d, Escape c d) := decidable_of_iff _ exists_escape_iff.symm

/-- The first escape that has no meaning. -/
def firstUnknown? (raw : List Char) : Option Char := (escapes raw).find? (¬ ∃ d, Escape · d)

/-- The literal with the given text between its quotes. -/
def stringLiteral (raw : List Char) : String := String.ofList ('"' :: (raw ++ ['"']))

section Writing

variable {cs : List Char} {pieces : List (List Char)}

theorem QuotedChar.escaped (h : List.Forall₂ QuotedChar cs pieces) : Escaped pieces.flatten := by
  induction h with
  | nil => exact .nil
  | cons hc _ ih =>
    cases hc with
    | plain hquote hslash => exact .plain hquote hslash ih
    | escape => exact .pair ih

theorem QuotedChar.unescaped (h : List.Forall₂ QuotedChar cs pieces) :
    Unescaped pieces.flatten cs := by
  induction h with
  | nil => exact .nil
  | cons hc _ ih =>
    cases hc with
    | plain _ hslash => exact .plain hslash ih
    | escape hescape => exact .escape hescape ih

end Writing

section Escapes

variable {raw : List Char} {c : Char}

theorem firstUnknown?_plain {c : Char} (hc : c ≠ '\\') (raw : List Char) :
    firstUnknown? (c :: raw) = firstUnknown? raw := by
  rw [firstUnknown?, escapes, ← firstUnknown?]
  intros
  exact hc ‹_›

theorem firstUnknown?_escape {c d : Char} (h : Escape c d) (raw : List Char) :
    firstUnknown? ('\\' :: c :: raw) = firstUnknown? raw := by
  rw [firstUnknown?, escapes, List.find?_cons_of_neg, ← firstUnknown?]
  simpa using ⟨d, h⟩

theorem firstUnknown?_unknown {c : Char} (h : ¬ ∃ d, Escape c d) (raw : List Char) :
    firstUnknown? ('\\' :: c :: raw) = some c := by
  rw [firstUnknown?, escapes, List.find?_cons_of_pos]
  simpa using h

theorem decodeEscapes_unknown {c : Char} (h : ¬ ∃ d, Escape c d) (raw : List Char) :
    decodeEscapes ('\\' :: c :: raw) = .error (String.ofList ['\\', c]) := by
  rw [decodeEscapes] <;> (rintro rfl; exact h ⟨_, by constructor⟩)

/-- Decoding fails just where an escape has no meaning, with the first such escape. -/
theorem Escaped.decodeEscapes_eq_error_iff (h : Escaped raw) {sequence : String} :
    decodeEscapes raw = .error sequence ↔
      ∃ c, firstUnknown? raw = some c ∧ sequence = String.ofList ['\\', c] := by
  induction h with
  | nil => exact iff_of_false nofun nofun
  | @plain c raw _ hslash _ ih =>
    rw [decodeEscapes_plain hslash, except_map_eq_error_iff, ih, firstUnknown?_plain hslash]
  | @pair c raw _ ih =>
    by_cases hc : ∃ d, Escape c d
    · obtain ⟨d, hc⟩ := hc
      rw [decodeEscapes_escape hc, except_map_eq_error_iff, ih, firstUnknown?_escape hc]
    · rw [decodeEscapes_unknown hc, firstUnknown?_unknown hc]
      simp [eq_comm]

/-- What stands between quotes does not end with a backslash of its own. -/
theorem Escaped.decodeEscapes_ne (h : Escaped raw) : decodeEscapes raw ≠ .error "\\" := by
  intro herror
  obtain ⟨c, -, hsequence⟩ := h.decodeEscapes_eq_error_iff.1 herror
  have hlength := congrArg String.length hsequence
  simp at hlength

/-- A quoted text that is found in a text is closed where no quote is escaped. -/
theorem escaped_of_mem_scan {text : List Char} {span : Span}
    (h : ⟨.quoted raw, span⟩ ∈ Lexeme.scan 0 text) : Escaped raw := by
  obtain ⟨front, rest, ls, rfl, hfront, hrest⟩ := Front.exists_leftover text false 0 (by rintro ⟨⟩)
  rw [hfront.scan_append hrest.head, List.mem_append] at h
  rcases h with h | h
  · obtain ⟨before, inside, after, -, hwritten, -⟩ := hfront.layout.covers _ h
    cases hwritten with
    | quoted hraw => exact hraw
  · obtain ⟨hscan, -⟩ | ⟨c, cs, -, hscan⟩ := hrest.scan_eq (0 + utf8Length front)
    · rw [hscan] at h
      cases h
    · rw [hscan, List.mem_singleton] at h
      cases h

end Escapes

/-- A literal that stands alone is one lexeme. -/
theorem Escaped.layout (h : Escaped raw) :
    Layout false 0 (stringLiteral raw).toList
      [⟨.quoted raw, ⟨0, (stringLiteral raw).utf8ByteSize⟩⟩] := by
  have htext : (stringLiteral raw).toList = '"' :: (raw ++ ['"']) := String.toList_ofList
  have hlayout : Layout false 0 ('"' :: (raw ++ ['"']) ++ []) _ :=
    .at_front (.quoted h) (.last (.gap .nil))
  rwa [List.append_nil, Nat.zero_add, ← htext, utf8Length_toList] at hlayout

namespace Script

variable {limit : Nat} {raw : List Char}

theorem read_unescaped {s : String} (h : Escaped raw) (hs : Unescaped raw s.toList) :
    read limit (stringLiteral raw) =
      .ok ⟨[.leaf (.str s) ⟨0, (stringLiteral raw).utf8ByteSize⟩],
        ⟨0, (stringLiteral raw).utf8ByteSize⟩⟩ := by
  have hatom : (LexemeKind.quoted raw).DenotesAtom (.str s) := by
    have hstring := LexemeKind.Denotes.string hs
    rwa [String.ofList_toList] at hstring
  have hlaid : LaidOut (stringLiteral raw).toList
      [.leaf (.str s) ⟨0, (stringLiteral raw).utf8ByteSize⟩] :=
    ⟨_, h.layout, .leaf hatom .nil⟩
  refine readChars_eq_ok_iff.2 ⟨?_, List.cons_ne_nil _ _, hlaid, by rw [utf8Length_toList]⟩
  exact (hlaid.withinNesting_iff limit).2 (Nat.zero_le limit)

/-- In a text of complete forms, the first literal without a value is reported with its place. -/
theorem read_firstUnknown {source : String} {ls : List Lexeme} {trees : List (Tree Spelling)}
    {before after : List (Spelling × Span)} {span : Span} {c : Char}
    (hlayout : Layout false 0 source.toList ls) (hspells : Spells Complete ls trees)
    (hdepth : Tree.depthAll trees ≤ limit)
    (hleaves : Tree.leavesAll trees = before ++ (.quoted raw, span) :: after)
    (hbefore : ∀ l ∈ before, ∃ a, l.1.atom = .ok a) (hc : firstUnknown? raw = some c) :
    read limit source = .error (.new (.badEscape (String.ofList ['\\', c])) span) := by
  have hnesting := (hlayout.withinNesting_iff hspells Complete.delimiter?_eq_none limit).2 hdepth
  rw [LexemeKind.complete_eq_legible] at hspells
  refine readChars_of_decode_error hnesting hlayout hspells ?_
  rw [Tree.decodeAll_eq_error_iff, hleaves, List.findSome?_append]
  have hnone : before.findSome? Tree.fault? = none := by
    rw [List.findSome?_eq_none_iff]
    intro l hl
    obtain ⟨a, ha⟩ := hbefore l hl
    rw [Tree.fault?, ha]
  have hraw : Escaped raw := by
    obtain ⟨kind, hkind, hmem⟩ := hspells.exists_lexeme (hleaves ▸ List.mem_append_cons_self)
    cases hkind
    rw [← hlayout.scan_eq] at hmem
    exact escaped_of_mem_scan hmem
  have hfault : (Spelling.quoted raw).atom =
      .error (.badEscape (String.ofList ['\\', c])) := by
    rw [Spelling.atom, hraw.decodeEscapes_eq_error_iff.2 ⟨c, hc, rfl⟩]
  rw [hnone, Option.none_or, List.findSome?_cons, Tree.fault?, hfault]

/-- An escape without a meaning is one of a quoted text that is found where it is reported. -/
theorem exists_of_badEscape {text : List Char} {sequence : String} {span : Span}
    (h : readChars limit text = .error (.new (.badEscape sequence) span)) :
    ∃ raw, ⟨.quoted raw, span⟩ ∈ Lexeme.scan 0 text ∧ decodeEscapes raw = .error sequence := by
  obtain ⟨pos, hread⟩ | ⟨s, -, -, hread⟩ | ⟨trees, -, -, hspells, hread⟩ :=
    readChars_cases limit text
  · rw [hread] at h
    cases h
  · rw [hread, Stuck.error] at h
    split at h
    · cases h
    · split at h <;> cases h
  · rw [hread] at h
    obtain ⟨kind, s, span, fault, hkind, hmem, hs, he⟩ :=
      hspells.exists_of_decode_error (except_map_eq_error_iff.1 h)
    cases he
    cases hkind with
    | word =>
      rw [Spelling.atom] at hs
      split at hs <;> cases hs
    | @quoted raw =>
      refine ⟨raw, hmem, ?_⟩
      rw [Spelling.atom] at hs
      split at hs
      · cases hs
      · next hraw =>
        cases hs
        exact hraw

/-- A literal in which every character of a string is written in one of its ways is read as the
string, and a literal with an escape that has no meaning is refused for the first such escape, where
it stands alone and where it is the first form without a value. No quoted text that is found in a
source ends with a backslash of its own, so none is refused for that. -/
theorem read_literal (limit : Nat) :
    (∀ (s : String) (pieces : List (List Char)), List.Forall₂ QuotedChar s.toList pieces →
      read limit (stringLiteral pieces.flatten) =
        .ok ⟨[.leaf (.str s) ⟨0, (stringLiteral pieces.flatten).utf8ByteSize⟩],
          ⟨0, (stringLiteral pieces.flatten).utf8ByteSize⟩⟩) ∧
    (∀ raw, Escaped raw → (∃ c ∈ escapes raw, ¬ ∃ d, Escape c d) →
      ∃ c, firstUnknown? raw = some c ∧
        read limit (stringLiteral raw) = .error (.new (.badEscape (String.ofList ['\\', c]))
          ⟨0, (stringLiteral raw).utf8ByteSize⟩)) ∧
    (∀ (source : String) ls trees before raw span after c, Layout false 0 source.toList ls →
      Spells Complete ls trees → Tree.depthAll trees ≤ limit →
      Tree.leavesAll trees = before ++ (.quoted raw, span) :: after →
      (∀ l ∈ before, ∃ a, l.1.atom = .ok a) → firstUnknown? raw = some c →
        read limit source = .error (.new (.badEscape (String.ofList ['\\', c])) span)) ∧
    ∀ source : String,
      (∀ raw span, ⟨.quoted raw, span⟩ ∈ Lexeme.scan 0 source.toList →
        decodeEscapes raw ≠ .error "\\") ∧
      ∀ span, read limit source ≠ .error (.new (.badEscape "\\") span) := by
  refine ⟨?_, ?_, ?_, ?_⟩
  · intro s pieces h
    exact read_unescaped (QuotedChar.escaped h) (QuotedChar.unescaped h)
  · rintro raw hraw ⟨b, hb, hunknown⟩
    have hsome : (firstUnknown? raw).isSome := by
      rw [firstUnknown?, List.find?_isSome]
      exact ⟨b, hb, by simpa using hunknown⟩
    obtain ⟨c, hc⟩ := Option.isSome_iff_exists.1 hsome
    have hleaves (span : Span) :
        Tree.leavesAll [.leaf (Spelling.quoted raw) span] = [] ++ [(Spelling.quoted raw, span)] :=
      rfl
    exact ⟨c, hc, read_firstUnknown hraw.layout (.leaf .quoted .nil) (Nat.zero_le limit)
      (hleaves _) (by simp) hc⟩
  · intro source ls trees before raw span after c hlayout hspells hdepth hleaves hbefore hc
    exact read_firstUnknown hlayout hspells hdepth hleaves hbefore hc
  · intro source
    constructor
    · intro raw span h
      exact (escaped_of_mem_scan h).decodeEscapes_ne
    · intro span h
      obtain ⟨raw, hmem, hraw⟩ := exists_of_badEscape h
      exact (escaped_of_mem_scan hmem).decodeEscapes_ne hraw

/-- Two backslashes before an escape leave it an escape. The end of a line is written in both of its
ways. -/
theorem read_literal_backslashes :
    read 0 "\"\\\\\\n\n\"" = .ok ⟨[.leaf (.str "\\\n\n") ⟨0, 7⟩], ⟨0, 7⟩⟩ ∧
      read 0 "\"\\\\\\q\"" = .error (.new (.badEscape "\\q") ⟨0, 6⟩) ∧
      read 1 "[\"\\\\\" \"\\x\\y\"]" = .error (.new (.badEscape "\\x") ⟨6, 12⟩) := by
  have hpieces : List.Forall₂ QuotedChar "\\\n\n".toList [['\\', '\\'], ['\\', 'n'], ['\n']] :=
    .cons (.escape .backslash) (.cons (.escape .newline)
      (.cons (.plain (by decide) (by decide)) .nil))
  have hsource : stringLiteral [['\\', '\\'], ['\\', 'n'], ['\n']].flatten =
      "\"\\\\\\n\n\"" := rfl
  have hsize : "\"\\\\\\n\n\"".utf8ByteSize = 7 := rfl
  refine ⟨?_, ?_, ?_⟩
  · have hread := (read_literal 0).1 _ _ hpieces
    rwa [hsource, hsize] at hread
  · have hunknown : ∃ c ∈ escapes ['\\', '\\', '\\', 'q'], ¬ ∃ d, Escape c d :=
      ⟨'q', by decide, by decide⟩
    obtain ⟨c, hc, hread⟩ := (read_literal 0).2.1 _ (.pair (.pair .nil)) hunknown
    cases hc
    exact hread
  · have hlast : Layout false 5 (' ' :: '"' :: '\\' :: 'x' :: '\\' :: 'y' :: '"' :: [']'])
        [⟨.quoted ['\\', 'x', '\\', 'y'], ⟨6, 12⟩⟩, ⟨.closing .square, ⟨12, 13⟩⟩] :=
      .lexeme (.separator (c := ' ') (by decide) .nil) (by simp) (.quoted (.pair (.pair .nil)))
        (.at_front (.closing .square) (.last (.gap .nil)))
    have hlayout : Layout false 0 "[\"\\\\\" \"\\x\\y\"]".toList
        [⟨.opening .square, ⟨0, 1⟩⟩, ⟨.quoted ['\\', '\\'], ⟨1, 5⟩⟩,
          ⟨.quoted ['\\', 'x', '\\', 'y'], ⟨6, 12⟩⟩, ⟨.closing .square, ⟨12, 13⟩⟩] :=
      .at_front (.opening .square) (.at_front (.quoted (.pair .nil)) hlast)
    have hspells : Spells Complete
        [⟨.opening .square, ⟨0, 1⟩⟩, ⟨.quoted ['\\', '\\'], ⟨1, 5⟩⟩,
          ⟨.quoted ['\\', 'x', '\\', 'y'], ⟨6, 12⟩⟩, ⟨.closing .square, ⟨12, 13⟩⟩]
        [.group .square [.leaf (.quoted ['\\', '\\']) ⟨1, 5⟩,
        .leaf (.quoted ['\\', 'x', '\\', 'y']) ⟨6, 12⟩] ⟨0, 13⟩] :=
      .group (.leaf .quoted (.leaf .quoted .nil)) .nil
    have hbefore : ∀ l ∈ [(Spelling.quoted ['\\', '\\'], Span.mk 1 5)], ∃ a, l.1.atom = .ok a := by
      rintro l hl
      cases List.mem_singleton.1 hl
      exact ⟨.str "\\", rfl⟩
    exact (read_literal 1).2.2.1 _ _ _ _ _ _ [] 'x' hlayout hspells (Nat.le_refl 1) rfl hbefore rfl

end Script

end Scriptlet
