import Scriptlet.Json.Printer
import Scriptlet.Json.Reader
import Scriptlet.Proofs.Decimal.Digits
import Scriptlet.Proofs.Value.Data

/-!
Data written as JSON text reads back as it was. Each reader is given the text that the printer wrote
and whatever comes after it, takes just that text, and leaves the rest.
-/

namespace Scriptlet.Json

open Decimal

/-- What may come after a value: nothing, a comma, or the end of an array. -/
def Follows (rest : List Char) : Prop := ∀ c ∈ rest.head?, c = ',' ∨ c = ']'

theorem follows_close (rest : List Char) : Follows (']' :: rest) := by
  rintro c ⟨⟩
  exact .inr rfl

theorem follows_comma (rest : List Char) : Follows (',' :: rest) := by
  rintro c ⟨⟩
  exact .inl rfl

section Numbers

variable {rest : List Char}

theorem Follows.not_digit (h : Follows rest) : ∀ c ∈ rest.head?, c.isDigit = false := by
  intro c hc
  rcases h c hc with rfl | rfl <;> decide

theorem Follows.not_floatMark (h : Follows rest) :
    (rest.head?.map isFloatMark).getD false = false := by
  cases hhead : rest.head? with
  | none => rfl
  | some c =>
    rcases h c hhead with rfl | rfl <;> decide

/-- Digits are gathered as long as their number fits. -/
theorem gather_eq {n : Nat} {cs : List Char} (h : Nat.ofDigitChars 10 cs n ≤ maxSignificand) :
    gather n cs = (Nat.ofDigitChars 10 cs n, []) := by
  induction cs generalizing n with
  | nil => rfl
  | cons c cs ih =>
    rw [Nat.ofDigitChars_cons] at h ⊢
    have hle : 10 * n + (c.toNat - 48) ≤ Nat.ofDigitChars 10 cs (10 * n + (c.toNat - 48)) := by
      rw [Nat.ofDigitChars_eq_ofDigitChars_zero]
      have hpow := Nat.le_mul_of_pos_left (10 * n + (c.toNat - 48)) (Nat.pow_pos (n := cs.length)
        (by decide : 0 < 10))
      omega
    rw [gather, if_pos (Nat.le_trans hle h)]
    exact ih h

theorem gather_toDigits {n : Nat} (h : n ≤ maxSignificand) :
    gather 0 (Nat.toDigits 10 n) = (n, []) := by
  have hvalue : Nat.ofDigitChars 10 (Nat.toDigits 10 n) 0 = n := Nat.ofDigitChars_ten_toDigits
  rw [gather_eq (hvalue.symm ▸ h), hvalue]

theorem whole_toInt (i : Int64) :
    whole (decide (i.toInt < 0)) i.toInt.natAbs = .ok (.int i) := by
  have hsigned := signed_natAbs i.toInt
  unfold signed at hsigned
  unfold whole
  by_cases hneg : i.toInt < 0
  · rw [if_pos (decide_eq_true hneg)] at hsigned ⊢
    rw [if_neg (by omega), hsigned, int64?_toInt]
  · have hfalse : ¬ decide (i.toInt < 0) = true := fun h => hneg (of_decide_eq_true h)
    rw [if_neg hfalse] at hsigned ⊢
    rw [hsigned, int64?_toInt]

theorem number_toString (i : Int64) (hrest : Follows rest) :
    number ((toString i.toInt).toList ++ rest) = .ok (.int i, rest) := by
  obtain ⟨sign, hsign, htext⟩ := toString_int i.toInt
  have hdigits := digits_toDigits i.toInt.natAbs
  have hminus := takeMinus_append hsign (hdigits.head_ne (c := '-') (by decide) rest)
  have htake := takeDigits_append hdigits.all hrest.not_digit
  have hzero : ¬ (Nat.toDigits 10 i.toInt.natAbs = [] ∨
      (Nat.toDigits 10 i.toInt.natAbs).head? = some '0' ∧
        (Nat.toDigits 10 i.toInt.natAbs).length ≠ 1) := by
    rintro (hnil | ⟨hhead, hlength⟩)
    · exact hdigits.ne_nil hnil
    · rw [eq_zero_of_head_toDigits _ hhead] at hlength
      exact hlength rfl
  have hfits : i.toInt.natAbs ≤ maxSignificand := by
    have hrange := range_toInt i
    have hmax : maxSignificand = 2 ^ 64 - 1 := rfl
    omega
  rw [htext, List.append_assoc]
  simp only [number, hminus, htake, if_neg hzero, gather_toDigits hfits, hrest.not_floatMark,
    whole_toInt]
  rfl

end Numbers

section Strings

/-- The code of a control character is read back. -/
theorem hexUnit?_hexByte : ∀ n < 32, hexByte n = [Nat.digitChar (n / 16), Nat.digitChar (n % 16)] ∧
    hexUnit? '0' '0' (Nat.digitChar (n / 16)) (Nat.digitChar (n % 16)) = some n := by
  decide

theorem unquote_control {c : Char} (hc : c.toNat < 32) (cs : List Char) :
    unquote (['\\', 'u', '0', '0'] ++ hexByte c.toNat ++ cs) =
      (unquote cs).map fun (s, rest) => (c :: s, rest) := by
  obtain ⟨hbyte, hunit⟩ := hexUnit?_hexByte c.toNat hc
  have hleading : isLeading c.toNat = false := by
    rw [isLeading, decide_eq_false (by omega), Bool.false_and]
  have htrailing : isTrailing c.toNat = false := by
    rw [isTrailing, decide_eq_false (by omega), Bool.false_and]
  simp [hbyte, unquote, hunit, hleading, htrailing]

theorem unquote_plain {c : Char} (hquote : c ≠ '"') (hslash : c ≠ '\\') (hc : ¬ c.toNat < 32)
    (cs : List Char) :
    unquote (c :: cs) = (unquote cs).map fun (s, rest) => (c :: s, rest) := by
  rw [unquote, if_neg (not_or.2 ⟨hslash, hc⟩)]
  · exact hquote
  all_goals
    intros
    exact hslash ‹_›

/-- A character that is written between quotes is read back. -/
theorem unquote_escapeChar (c : Char) (cs : List Char) :
    unquote (escapeChar c ++ cs) = (unquote cs).map fun (s, rest) => (c :: s, rest) := by
  unfold escapeChar
  split
  case h_8 hquote hslash _ _ _ _ _ =>
    split
    · next hcontrol => exact unquote_control hcontrol cs
    · next hplain => exact unquote_plain hquote hslash hplain cs
  all_goals rfl

theorem unquote_quoted (cs rest : List Char) :
    unquote (cs.flatMap escapeChar ++ '"' :: rest) = .ok (cs, rest) := by
  induction cs with
  | nil => rfl
  | cons c cs ih =>
    rw [List.flatMap_cons, List.append_assoc, unquote_escapeChar, ih]
    rfl

end Strings

section Heads

variable {c : Char}

theorem skipSpace_cons (h : isSpace c = false) (cs : List Char) : skipSpace (c :: cs) = c :: cs := by
  rw [skipSpace, List.dropWhile_cons_of_neg (by simp [h])]

/-- A number begins with this character. -/
def IsNumeric (c : Char) : Prop := c = '-' ∨ c.isDigit = true

instance : DecidablePred IsNumeric := fun c => inferInstanceAs (Decidable (c = '-' ∨ _))

theorem IsNumeric.ne (h : IsNumeric c) {d : Char} (hd : ¬ IsNumeric d) : c ≠ d := by
  rintro rfl
  exact hd h

theorem IsNumeric.not_isSpace (h : IsNumeric c) : isSpace c = false := by
  by_cases hspace : isSpace c = true
  · have hmem : c ∈ [' ', '\n', '\t', '\r'] := List.contains_iff_mem.1 hspace
    simp only [List.mem_cons, List.not_mem_nil, or_false] at hmem
    rcases hmem with rfl | rfl | rfl | rfl <;> exact absurd h (by decide)
  · simpa using hspace

theorem toString_head (i : Int) : ∃ c cs, (toString i).toList = c :: cs ∧ IsNumeric c := by
  obtain ⟨sign, hsign, htext⟩ := toString_int i
  obtain ⟨c, cs, hdigits, hc⟩ := (digits_toDigits i.natAbs).head
  rw [htext]
  generalize decide (i < 0) = negative at hsign
  cases hsign with
  | absent => exact ⟨c, cs, hdigits, .inr hc⟩
  | present => exact ⟨'-', _, rfl, .inl rfl⟩

/-- Neither a space nor the end of an array stands in front of a value. -/
theorem jsonChars_head {admits : Char → Prop} {v : Value} (h : v.Data admits) :
    ∃ c cs, v.jsonChars = c :: cs ∧ isSpace c = false ∧ c ≠ ']' := by
  cases h with
  | nil => exact ⟨_, _, rfl, by decide, by decide⟩
  | bool b => cases b <;> exact ⟨_, _, rfl, by decide, by decide⟩
  | str => exact ⟨'"', _, rfl, by decide, by decide⟩
  | list => exact ⟨'[', _, rfl, by decide, by decide⟩
  | int i =>
    obtain ⟨c, cs, htext, hc⟩ := toString_head i.toInt
    exact ⟨c, cs, htext, hc.not_isSpace, hc.ne (by decide)⟩

theorem value_number (h : IsNumeric c) (depth : Nat) (cs : List Char) :
    value depth (c :: cs) = number (c :: cs) := by
  unfold value
  rw [skipSpace_cons h.not_isSpace]
  dsimp only
  rw [if_neg (h.ne (by decide)), if_neg (h.ne (by decide)), if_neg (h.ne (by decide)),
    if_neg (h.ne (by decide)), if_neg (h.ne (by decide)), if_neg (h.ne (by decide))]
  exact if_pos h

theorem value_quoted (depth : Nat) (cs rest : List Char) :
    value depth (quote cs ++ rest) = .ok (.str (String.ofList cs), rest) := by
  have htext : quote cs ++ rest = '"' :: (cs.flatMap escapeChar ++ '"' :: rest) := by
    rw [quote, List.cons_append, List.append_assoc, List.singleton_append]
  have hvalue : ∀ text, value depth ('"' :: text) =
      (unquote text).map fun (s, rest) => (.str (String.ofList s), rest) := by
    intro text
    cases depth <;> rfl
  rw [htext, hvalue, unquote_quoted]
  rfl

theorem value_array (depth : Nat) (cs : List Char) :
    value (depth + 1) ('[' :: cs) =
      (array (value depth) cs).map fun (vs, rest) => (.list vs, rest) :=
  rfl

/-- The words that stand for values, by their first characters. -/
theorem value_word (depth : Nat) {c : Char} {w : String} {v : Value}
    (h : (c, w, v) ∈ [('n', "null", .nil), ('t', "true", .bool true), ('f', "false", .bool false)])
    (cs : List Char) : value depth (c :: cs) = word w v (c :: cs) := by
  simp only [List.mem_cons, List.not_mem_nil, or_false, Prod.mk.injEq] at h
  obtain ⟨rfl, rfl, rfl⟩ | ⟨rfl, rfl, rfl⟩ | ⟨rfl, rfl, rfl⟩ := h <;> cases depth <;> rfl

theorem word_append (w : String) (v : Value) (rest : List Char) :
    word w v (w.toList ++ rest) = .ok (v, rest) := by
  rw [word, if_pos (List.isPrefixOf_iff_prefix.2 (List.prefix_append _ _)), ← String.length_toList,
    List.drop_left]

end Heads

section Arrays

variable {admits : Char → Prop} {v : Value} {vs : List Value}
  {read : List Char → Except ReadError (Value × List Char)}

theorem jsonItems_cons (v w : Value) (vs : List Value) :
    Value.jsonItems (v :: w :: vs) = v.jsonChars ++ ',' :: Value.jsonItems (w :: vs) :=
  rfl

theorem jsonItems_head (h : v.Data admits) (vs : List Value) :
    ∃ c cs, Value.jsonItems (v :: vs) = c :: cs ∧ isSpace c = false ∧ c ≠ ']' := by
  obtain ⟨c, cs, htext, hspace, hclose⟩ := jsonChars_head h
  cases vs with
  | nil => exact ⟨c, cs, htext, hspace, hclose⟩
  | cons w vs =>
    rw [jsonItems_cons, htext]
    exact ⟨c, _, rfl, hspace, hclose⟩

/-- No array has more items than characters. -/
theorem length_jsonItems (h : ∀ v ∈ vs, v.Data admits) :
    vs.length ≤ (Value.jsonItems vs).length := by
  induction vs with
  | nil => exact Nat.zero_le _
  | cons v vs ih =>
    have hrest := ih fun w hw => h w (List.mem_cons_of_mem _ hw)
    cases vs with
    | nil =>
      obtain ⟨c, cs, htext, -⟩ := jsonItems_head (h v List.mem_cons_self) []
      rw [htext]
      exact Nat.succ_le_succ (Nat.zero_le _)
    | cons w vs =>
      simp only [jsonItems_cons, List.length_append, List.length_cons] at hrest ⊢
      omega

/-- The reader takes the text of the value off the front, whatever follows it. -/
def Reads (read : List Char → Except ReadError (Value × List Char)) (v : Value) : Prop :=
  ∀ rest, Follows rest → read (v.jsonChars ++ rest) = .ok (v, rest)

theorem items_jsonItems (h : ∀ v ∈ vs, Reads read v) (hne : vs ≠ []) {bound : Nat}
    (hbound : vs.length ≤ bound) (rest : List Char) :
    items read bound (Value.jsonItems vs ++ ']' :: rest) = .ok (vs, rest) := by
  induction vs generalizing bound with
  | nil => exact absurd rfl hne
  | cons v vs ih =>
    rw [List.length_cons] at hbound
    obtain ⟨bound, rfl⟩ : ∃ k, bound = k + 1 := ⟨bound - 1, by omega⟩
    have hv := h v List.mem_cons_self
    cases vs with
    | nil =>
      rw [Value.jsonItems, items, hv _ (follows_close rest)]
      rfl
    | cons w vs =>
      have hothers := ih (fun u hu => h u (List.mem_cons_of_mem _ hu)) (List.cons_ne_nil w vs)
        (Nat.le_of_succ_le_succ hbound)
      rw [jsonItems_cons, List.append_assoc, List.cons_append, items, hv _ (follows_comma _)]
      change (do
        let (vs, rest) ← items read bound (Value.jsonItems (w :: vs) ++ ']' :: rest)
        return (v :: vs, rest)) = _
      rw [hothers]
      rfl

theorem array_jsonItems (h : ∀ v ∈ vs, Reads read v) (hdata : ∀ v ∈ vs, v.Data admits)
    (rest : List Char) : array read (Value.jsonItems vs ++ ']' :: rest) = .ok (vs, rest) := by
  cases vs with
  | nil => rfl
  | cons v vs =>
    have hlength := length_jsonItems hdata
    have hbound : (v :: vs).length ≤ (Value.jsonItems (v :: vs) ++ ']' :: rest).length + 1 := by
      rw [List.length_append]
      omega
    have hitems := items_jsonItems h (List.cons_ne_nil v vs) hbound rest
    obtain ⟨c, cs, htext, hspace, hclose⟩ := jsonItems_head (hdata v List.mem_cons_self) vs
    rw [htext, List.cons_append] at hitems ⊢
    rw [array, skipSpace_cons hspace]
    split
    · next he => exact absurd (List.cons.inj he).1 hclose
    · exact hitems

end Arrays

/-- Data in which lists nest no deeper than the reader allows is read back. -/
theorem reads_value {admits : Char → Prop} {v : Value} (h : v.Data admits) {depth : Nat}
    (hdepth : v.depth ≤ depth) : Reads (value depth) v := by
  induction h generalizing depth with
  | nil =>
    intro rest _
    exact (value_word depth (c := 'n') (by simp) _).trans (word_append "null" .nil rest)
  | bool b =>
    intro rest _
    cases b
    · exact (value_word depth (c := 'f') (by simp) _).trans (word_append "false" (.bool false) rest)
    · exact (value_word depth (c := 't') (by simp) _).trans (word_append "true" (.bool true) rest)
  | int i =>
    intro rest hrest
    obtain ⟨c, cs, htext, hc⟩ := toString_head i.toInt
    have hnumber := number_toString i hrest
    rw [htext, List.cons_append] at hnumber
    rw [Value.jsonChars, htext, List.cons_append, value_number hc, hnumber]
  | @str s =>
    intro rest _
    rw [Value.jsonChars, value_quoted, String.ofList_toList]
  | @list items hitems ih =>
    intro rest _
    rw [Value.depth] at hdepth
    obtain ⟨depth, rfl⟩ : ∃ k, depth = k + 1 := ⟨depth - 1, by omega⟩
    have hread : ∀ v ∈ items, Reads (value depth) v := fun v hv =>
      ih v hv ((Value.depth_le_of_mem hv).trans (Nat.le_of_succ_le_succ hdepth))
    rw [Value.jsonChars, List.cons_append, List.append_assoc, value_array, List.singleton_append,
      array_jsonItems hread hitems]
    rfl

end Scriptlet.Json

namespace Scriptlet

end Scriptlet
