import Mathlib.Algebra.Group.Int.Defs
import Mathlib.Data.List.TakeWhile
import Scriptlet.Form.Word

/-!
The grammar of words. A float has digits on both sides of a point and may have an exponent, an
integer is digits after an optional minus sign, and any other word is a symbol or one of the three
literal names. The meaning that the reader gives to a word is the one that the grammar gives it.
-/

namespace Scriptlet

namespace Decimal

/-- One or more decimal digits. -/
structure Digits (cs : List Char) : Prop where
  ne_nil : cs ≠ []
  all : ∀ c ∈ cs, c.isDigit = true

/-- An optional minus sign, and whether it is there. -/
inductive MinusText : List Char → Bool → Prop where
  | absent : MinusText [] false
  | present : MinusText ['-'] true

/-- The optional sign of an exponent, and whether it is a minus. -/
inductive SignText : List Char → Bool → Prop where
  | absent : SignText [] false
  | plus : SignText ['+'] false
  | minus : SignText ['-'] true

/-- The number with the sign. -/
def signed (negative : Bool) (n : Nat) : Int := if negative then -n else n

inductive ExponentText : List Char → Int → Prop where
  | absent : ExponentText [] 0
  | present {mark sign negative digits} (hmark : mark = 'e' ∨ mark = 'E')
      (hsign : SignText sign negative) (hdigits : Digits digits) :
      ExponentText (mark :: (sign ++ digits)) (signed negative (digitsValue digits))

inductive FloatText : List Char → Decimal → Prop where
  | mk {sign negative whole fraction mark exponent} (hsign : MinusText sign negative)
      (hwhole : Digits whole) (hfraction : Digits fraction) (hmark : ExponentText mark exponent) :
      FloatText (sign ++ (whole ++ '.' :: (fraction ++ mark)))
        (ofParts negative whole fraction exponent)

inductive IntegerText : List Char → Int → Prop where
  | mk {sign negative digits} (hsign : MinusText sign negative) (hdigits : Digits digits) :
      IntegerText (sign ++ digits) (signed negative (digitsValue digits))

variable {cs rest : List Char}

theorem Digits.head (h : Digits cs) : ∃ c ds, cs = c :: ds ∧ c.isDigit = true := by
  cases cs with
  | nil => exact absurd rfl h.ne_nil
  | cons c ds => exact ⟨c, ds, rfl, h.all c (by simp)⟩

/-- What is taken as digits, and what comes after it. -/
theorem takeDigits_eq (cs : List Char) :
    (takeDigits cs).1 ++ (takeDigits cs).2 = cs ∧
      ∀ c ∈ (takeDigits cs).1, c.isDigit = true := by
  constructor
  · exact List.takeWhile_append_dropWhile
  · intro c hc
    exact List.mem_takeWhile_imp hc

/-- Digits are taken up to a character that is none. -/
theorem takeDigits_append (h : ∀ c ∈ cs, c.isDigit = true)
    (hrest : ∀ c ∈ rest.head?, c.isDigit = false) : takeDigits (cs ++ rest) = (cs, rest) := by
  rw [takeDigits, List.takeWhile_append_of_pos h, List.dropWhile_append_of_pos h]
  cases rest with
  | nil => simp
  | cons c rest =>
    have hc : c.isDigit = false := hrest c rfl
    simp [hc]

theorem takeMinus_eq (cs : List Char) :
    ∃ sign, MinusText sign (takeMinus cs).1 ∧ sign ++ (takeMinus cs).2 = cs := by
  unfold takeMinus
  split
  · exact ⟨_, .present, rfl⟩
  · exact ⟨_, .absent, rfl⟩

theorem takeMinus_append {sign : List Char} {negative : Bool} (h : MinusText sign negative)
    (hrest : rest.head? ≠ some '-') : takeMinus (sign ++ rest) = (negative, rest) := by
  cases h with
  | present => rfl
  | absent =>
    unfold takeMinus
    split
    · next he => exact absurd (congrArg List.head? he) hrest
    · rfl

theorem takeSign_eq (cs : List Char) :
    ∃ sign, SignText sign (takeSign cs).1 ∧ sign ++ (takeSign cs).2 = cs := by
  unfold takeSign takeMinus
  split
  · exact ⟨_, .plus, rfl⟩
  · split
    · exact ⟨_, .minus, rfl⟩
    · exact ⟨_, .absent, rfl⟩

theorem takeSign_append {sign : List Char} {negative : Bool} (h : SignText sign negative)
    (hminus : rest.head? ≠ some '-') (hplus : rest.head? ≠ some '+') :
    takeSign (sign ++ rest) = (negative, rest) := by
  cases h with
  | plus => rfl
  | minus => rfl
  | absent =>
    unfold takeSign
    split
    · next he => exact absurd (congrArg List.head? he) hplus
    · exact takeMinus_append .absent hminus

theorem Digits.head_ne (h : Digits cs) {c : Char} (hc : c.isDigit = false) (rest : List Char) :
    (cs ++ rest).head? ≠ some c := by
  obtain ⟨d, ds, rfl, hd⟩ := h.head
  intro he
  cases he
  rw [hd] at hc
  cases hc

theorem exponent?_eq_some_iff {e : Int} : exponent? cs = some e ↔ ExponentText cs e := by
  constructor
  · intro h
    cases cs with
    | nil =>
      cases h
      exact .absent
    | cons mark cs =>
      obtain ⟨sign, hsign, hcs⟩ := takeSign_eq cs
      obtain ⟨happend, hall⟩ := takeDigits_eq (takeSign cs).2
      simp only [exponent?] at h
      split at h
      · next hc =>
        obtain ⟨hmark, hne, hrest⟩ := hc
        have hexponent := ExponentText.present hmark hsign ⟨hne, hall⟩
        rw [hrest, List.append_nil] at happend
        rw [happend, hcs] at hexponent
        rw [← Option.some.inj h, happend]
        exact hexponent
      · cases h
  · intro h
    cases h with
    | absent => rfl
    | @present mark sign negative digits hmark hsign hdigits =>
      have htake : takeSign (sign ++ digits) = (negative, digits) := by
        apply takeSign_append hsign
        · simpa using hdigits.head_ne (c := '-') (by decide) []
        · simpa using hdigits.head_ne (c := '+') (by decide) []
      have hall : takeDigits digits = (digits, []) := by
        simpa using @takeDigits_append digits [] hdigits.all (by simp)
      simp only [exponent?, htake, hall]
      exact if_pos ⟨hmark, hdigits.ne_nil, trivial⟩

theorem ExponentText.head_not_digit {e : Int} (h : ExponentText cs e) :
    ∀ c ∈ cs.head?, c.isDigit = false := by
  intro c hc
  cases h with
  | absent => cases hc
  | present hmark =>
    cases hc
    rcases hmark with rfl | rfl <;> decide

end Decimal

namespace Word

open Decimal

/-- A sign or a letter, and then any characters of a word. -/
inductive SymbolText : List Char → Prop where
  | mk {c cs} (hc : isStart c = true) (hcs : ∀ d ∈ cs, isPart d = true) : SymbolText (c :: cs)

/-- The names that stand for values. -/
inductive LiteralText : List Char → Atom → Prop where
  | nil : LiteralText ['n', 'i', 'l'] .nil
  | true : LiteralText ['t', 'r', 'u', 'e'] (.bool true)
  | false : LiteralText ['f', 'a', 'l', 's', 'e'] (.bool false)

/-- What a word means. An integer that does not fit in 64 bits means nothing, and its text is the
error. -/
inductive Means : List Char → Except String Atom → Prop where
  | literal {text a} (h : LiteralText text a) : Means text (.ok a)
  | float {text d} (h : FloatText text d) : Means text (.ok (.float d.toFloat))
  | integer {text i} (h : IntegerText text i) (hrange : -2 ^ 63 ≤ i ∧ i < 2 ^ 63) :
      Means text (.ok (.int (Int64.ofInt i)))
  | oversized {text i} (h : IntegerText text i) (hrange : ¬ (-2 ^ 63 ≤ i ∧ i < 2 ^ 63)) :
      Means text (.error (String.ofList text))
  | symbol {text} (h : SymbolText text) (hliteral : ∀ a, ¬ LiteralText text a)
      (hfloat : ∀ d, ¬ FloatText text d) (hinteger : ∀ i, ¬ IntegerText text i) :
      Means text (.ok (.symbol (String.ofList text)))

variable {text : List Char}

theorem decimal?_eq_some_iff {d : Decimal} : decimal? text = some d ↔ FloatText text d := by
  constructor
  · intro h
    obtain ⟨sign, hsign, htext⟩ := takeMinus_eq text
    obtain ⟨hwhole, hwholeAll⟩ := takeDigits_eq (takeMinus text).2
    simp only [decimal?] at h
    split at h
    · next rest hpoint =>
      obtain ⟨hfraction, hfractionAll⟩ := takeDigits_eq rest
      split at h
      · next hne =>
        obtain ⟨e, he, rfl⟩ := Option.map_eq_some_iff.1 h
        have hfloat := FloatText.mk hsign ⟨hne.1, hwholeAll⟩ ⟨hne.2, hfractionAll⟩
          (exponent?_eq_some_iff.1 he)
        rw [hfraction, ← hpoint, hwhole, htext] at hfloat
        exact hfloat
      · cases h
    · cases h
  · intro h
    cases h with
    | @mk sign negative whole fraction mark exponent hsign hwhole hfraction hmark =>
      have hminus : takeMinus (sign ++ (whole ++ '.' :: (fraction ++ mark))) =
          (negative, whole ++ '.' :: (fraction ++ mark)) :=
        takeMinus_append hsign (hwhole.head_ne (by decide) _)
      have hbefore : takeDigits (whole ++ '.' :: (fraction ++ mark)) =
          (whole, '.' :: (fraction ++ mark)) :=
        takeDigits_append hwhole.all (by rintro c ⟨⟩; decide)
      have hafter : takeDigits (fraction ++ mark) = (fraction, mark) :=
        takeDigits_append hfraction.all hmark.head_not_digit
      have hne : whole ≠ [] ∧ fraction ≠ [] := ⟨hwhole.ne_nil, hfraction.ne_nil⟩
      simp only [decimal?, hminus, hbefore, hafter, if_pos hne,
        exponent?_eq_some_iff.2 hmark, Option.map_some]

theorem integer?_eq_some_iff {i : Int} : integer? text = some i ↔ IntegerText text i := by
  constructor
  · intro h
    obtain ⟨sign, hsign, htext⟩ := takeMinus_eq text
    simp only [integer?] at h
    split at h
    · next hdigits =>
      have hinteger := IntegerText.mk hsign ⟨hdigits.1, List.all_eq_true.1 hdigits.2⟩
      rw [htext] at hinteger
      rw [← Option.some.inj h]
      exact hinteger
    · cases h
  · intro h
    cases h with
    | @mk sign negative digits hsign hdigits =>
      have hminus : takeMinus (sign ++ digits) = (negative, digits) := by
        apply takeMinus_append hsign
        simpa using hdigits.head_ne (c := '-') (by decide) []
      have hall : digits ≠ [] ∧ digits.all Char.isDigit = true :=
        ⟨hdigits.ne_nil, List.all_eq_true.2 hdigits.all⟩
      simp only [integer?, hminus, if_pos hall]
      rfl

theorem isSymbol_iff : isSymbol text = true ↔ SymbolText text := by
  constructor
  · intro h
    cases text with
    | nil => cases h
    | cons c cs =>
      obtain ⟨hc, hcs⟩ := Bool.and_eq_true_iff.1 h
      exact .mk hc (List.all_eq_true.1 hcs)
  · intro h
    cases h with
    | mk hc hcs => exact Bool.and_eq_true_iff.2 ⟨hc, List.all_eq_true.2 hcs⟩

theorem literal?_eq_some_iff {a : Atom} :
    literal? (String.ofList text) = some a ↔ LiteralText text a := by
  have hofList : ∀ name : String, String.ofList text = name ↔ text = name.toList := by
    intro name
    constructor
    · rintro rfl
      exact String.toList_ofList.symm
    · rintro rfl
      exact String.ofList_toList
  simp only [literal?, hofList]
  constructor
  · intro h
    split at h
    · next he =>
      cases h
      rw [he]
      exact .nil
    · split at h
      · next he =>
        cases h
        rw [he]
        exact .true
      · split at h
        · next he =>
          cases h
          rw [he]
          exact .false
        · cases h
  · intro h
    cases h <;> rfl

theorem fitsInt64_iff {i : Int} : fitsInt64 i = true ↔ -2 ^ 63 ≤ i ∧ i < 2 ^ 63 := by
  have hmin : Int64.minValue.toInt = -2 ^ 63 := by decide
  have hmax : Int64.maxValue.toInt = 2 ^ 63 - 1 := by decide
  rw [fitsInt64, Bool.and_eq_true_iff, decide_eq_true_iff, decide_eq_true_iff, hmin, hmax]
  omega

/-- A number has a digit, so it is no literal name. -/
theorem LiteralText.not_number {a : Atom} (h : LiteralText text a) :
    decimal? text = none ∧ integer? text = none := by
  cases h <;> exact ⟨by decide, by decide⟩

/-- A float has a point, and an integer has none. -/
theorem decimal?_eq_none_of_integer {i : Int} (h : IntegerText text i) : decimal? text = none := by
  apply Option.eq_none_iff_forall_not_mem.2
  intro d hd
  have hpoint : '.' ∈ text := by
    cases decimal?_eq_some_iff.1 hd
    simp
  cases h with
  | mk hsign hdigits =>
    rcases List.mem_append.1 hpoint with hmem | hmem
    · cases hsign with
      | absent => cases hmem
      | present => exact absurd hmem (by decide)
    · exact absurd (hdigits.all _ hmem) (by decide)

/-- An integer is read as its value, or refused with its text. -/
theorem meaning?_integer {i : Int} (h : IntegerText text i) (hfloat : decimal? text = none) :
    meaning? text = some (if fitsInt64 i then .ok (.int (Int64.ofInt i))
      else .error (String.ofList text)) := by
  simp only [meaning?, hfloat, integer?_eq_some_iff.2 h, int64?]
  by_cases hfits : fitsInt64 i = true
  · simp only [if_pos hfits]
  · simp only [if_neg hfits]

/-- The reader gives a word the meaning that the grammar gives it. -/
theorem meaning?_eq_some_iff {r : Except String Atom} : meaning? text = some r ↔ Means text r := by
  constructor
  · intro h
    cases hd : decimal? text with
    | some d =>
      simp only [meaning?, hd, Option.some.injEq] at h
      subst h
      exact .float (decimal?_eq_some_iff.1 hd)
    | none =>
      cases hi : integer? text with
      | some i =>
        have hinteger := integer?_eq_some_iff.1 hi
        rw [meaning?_integer hinteger hd] at h
        by_cases hfits : fitsInt64 i = true
        · rw [if_pos hfits] at h
          cases h
          exact .integer hinteger (fitsInt64_iff.1 hfits)
        · rw [if_neg hfits] at h
          cases h
          exact .oversized hinteger (mt fitsInt64_iff.2 hfits)
      | none =>
        simp only [meaning?, hd, hi] at h
        split at h
        · next a ha =>
          cases h
          exact .literal (literal?_eq_some_iff.1 ha)
        · next hliteral =>
          split at h
          · next hsymbol =>
            cases h
            refine .symbol (isSymbol_iff.1 hsymbol) ?_ ?_ ?_
            · intro a ha
              rw [literal?_eq_some_iff.2 ha] at hliteral
              cases hliteral
            · intro d hd'
              rw [decimal?_eq_some_iff.2 hd'] at hd
              cases hd
            · intro i hi'
              rw [integer?_eq_some_iff.2 hi'] at hi
              cases hi
          · cases h
  · intro h
    cases h with
    | literal h =>
      obtain ⟨hd, hi⟩ := h.not_number
      simp only [meaning?, hd, hi, literal?_eq_some_iff.2 h]
    | float h => simp only [meaning?, decimal?_eq_some_iff.2 h]
    | integer h hrange =>
      rw [meaning?_integer h (decimal?_eq_none_of_integer h), if_pos (fitsInt64_iff.2 hrange)]
    | oversized h hrange =>
      rw [meaning?_integer h (decimal?_eq_none_of_integer h), if_neg (mt fitsInt64_iff.1 hrange)]
    | symbol h hliteral hfloat hinteger =>
      have hd : decimal? text = none := Option.eq_none_iff_forall_not_mem.2 fun d hd =>
        hfloat d (decimal?_eq_some_iff.1 hd)
      have hi : integer? text = none := Option.eq_none_iff_forall_not_mem.2 fun i hi =>
        hinteger i (integer?_eq_some_iff.1 hi)
      have hl : literal? (String.ofList text) = none := Option.eq_none_iff_forall_not_mem.2
        fun a ha => hliteral a (literal?_eq_some_iff.1 ha)
      simp only [meaning?, hd, hi, hl, if_pos (isSymbol_iff.2 h)]

end Word

end Scriptlet
