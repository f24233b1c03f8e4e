import Mathlib.Data.List.Basic

/-!
The order of strings is the order of their bytes. A character with a smaller code point has a
smaller encoding, and no encoding is the beginning of another.
-/

namespace Scriptlet

/-- The bytes of a text in UTF-8. -/
def utf8Bytes (s : String) : List UInt8 := s.toUTF8.data.toList

theorem utf8Bytes_eq (s : String) : utf8Bytes s = s.toList.flatMap String.utf8EncodeChar := by
  have hbytes : s.toUTF8 = s.toList.utf8Encode := by
    conv => lhs; rw [← String.ofList_toList (s := s)]
    exact String.toByteArray_ofList
  rw [utf8Bytes, hbytes]
  simp [List.utf8Encode]

/-- Bytes that begin with a smaller byte come first. -/
theorem cons_ofNat_lt {m n : Nat} (hn : n < 256) (h : m < n) (bytes bytes' : List UInt8) :
    UInt8.ofNat m :: bytes < UInt8.ofNat n :: bytes' := by
  apply List.Lex.rel
  rw [UInt8.lt_iff_toNat_lt, UInt8.toNat_ofNat', UInt8.toNat_ofNat']
  omega

theorem cons_ofNat_le {m n : Nat} (hn : n < 256) (h : m ≤ n) {bytes bytes' : List UInt8}
    (hrest : m = n → bytes < bytes') : UInt8.ofNat m :: bytes < UInt8.ofNat n :: bytes' := by
  by_cases heq : m = n
  · subst heq
    exact List.Lex.cons (hrest rfl)
  · exact cons_ofNat_lt hn (by omega) bytes bytes'

/-- The encoding grows with the character, whatever comes after it. -/
theorem utf8EncodeChar_lt {c d : Char} (h : c < d) (bytes bytes' : List UInt8) :
    String.utf8EncodeChar c ++ bytes < String.utf8EncodeChar d ++ bytes' := by
  have hval : c.val.toNat < d.val.toNat := h
  have hmax : d.val.toNat < 0x110000 := by
    rcases d.valid with hd | hd
    · exact Nat.lt_trans hd (by decide)
    · exact hd.2
  unfold String.utf8EncodeChar
  generalize c.val.toNat = m at hval ⊢
  generalize d.val.toNat = n at hval hmax ⊢
  -- Encodings of one length are compared byte by byte, others by their first bytes.
  by_cases hn1 : n ≤ 127
  · have hm1 : m ≤ 127 := by omega
    simp only [if_pos hm1, if_pos hn1]
    exact cons_ofNat_lt (by omega) hval _ _
  by_cases hm1 : m ≤ 127
  · simp only [if_pos hm1, if_neg hn1]
    split
    · exact cons_ofNat_lt (by omega) (by omega) _ _
    · split <;> exact cons_ofNat_lt (by omega) (by omega) _ _
  by_cases hn2 : n ≤ 2047
  · have hm2 : m ≤ 2047 := by omega
    simp only [if_neg hm1, if_pos hm2, if_neg hn1, if_pos hn2]
    refine cons_ofNat_le (by omega) (by omega) fun _ => ?_
    exact cons_ofNat_lt (by omega) (by omega) _ _
  by_cases hm2 : m ≤ 2047
  · simp only [if_neg hm1, if_pos hm2, if_neg hn1, if_neg hn2]
    split <;> exact cons_ofNat_lt (by omega) (by omega) _ _
  by_cases hn3 : n ≤ 65535
  · have hm3 : m ≤ 65535 := by omega
    simp only [if_neg hm1, if_neg hm2, if_pos hm3, if_neg hn1, if_neg hn2, if_pos hn3]
    refine cons_ofNat_le (by omega) (by omega) fun _ => ?_
    refine cons_ofNat_le (by omega) (by omega) fun _ => ?_
    exact cons_ofNat_lt (by omega) (by omega) _ _
  by_cases hm3 : m ≤ 65535
  · simp only [if_neg hm1, if_neg hm2, if_pos hm3, if_neg hn1, if_neg hn2, if_neg hn3]
    exact cons_ofNat_lt (by omega) (by omega) _ _
  simp only [if_neg hm1, if_neg hm2, if_neg hm3, if_neg hn1, if_neg hn2, if_neg hn3]
  refine cons_ofNat_le (by omega) (by omega) fun _ => ?_
  refine cons_ofNat_le (by omega) (by omega) fun _ => ?_
  refine cons_ofNat_le (by omega) (by omega) fun _ => ?_
  exact cons_ofNat_lt (by omega) (by omega) _ _

/-- Texts in order have their bytes in order. -/
theorem utf8Bytes_lt {s t : String} (h : s < t) : utf8Bytes s < utf8Bytes t := by
  have hlist : s.toList < t.toList := String.lt_iff.1 h
  rw [utf8Bytes_eq, utf8Bytes_eq]
  generalize s.toList = cs at hlist ⊢
  generalize t.toList = ds at hlist ⊢
  induction hlist with
  | nil =>
    rw [List.flatMap_nil, List.flatMap_cons]
    cases hbytes : String.utf8EncodeChar _ with
    | nil => exact absurd hbytes (String.utf8EncodeChar_ne_nil)
    | cons => exact List.Lex.nil
  | rel hcd =>
    rw [List.flatMap_cons, List.flatMap_cons]
    exact utf8EncodeChar_lt hcd _ _
  | @cons c cs ds _ ih =>
    rw [List.flatMap_cons, List.flatMap_cons]
    exact List.append_left_lt ih

end Scriptlet
