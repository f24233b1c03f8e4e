import Scriptlet.Proofs.Form.Word

/-!
Integers as they are printed: an optional minus sign and decimal digits, of which the first is zero
only if there is no other. Reading the digits gives the number back.
-/

namespace Scriptlet.Decimal

theorem digits_toDigits (n : Nat) : Digits (Nat.toDigits 10 n) :=
  ⟨Nat.toDigits_ne_nil, fun _ hc => Nat.isDigit_of_mem_toDigits (by decide) (by decide) hc⟩

theorem digitsValue_toDigits (n : Nat) : digitsValue (Nat.toDigits 10 n) = n :=
  Nat.ofDigitChars_ten_toDigits

theorem eq_zero_of_head_toDigits (n : Nat) (h : (Nat.toDigits 10 n).head? = some '0') : n = 0 := by
  induction n using Nat.strongRecOn with
  | ind n ih =>
    by_cases hn : n < 10
    · rw [Nat.toDigits_of_lt_base hn] at h
      have hsmall : ∀ m < 10, Nat.digitChar m = '0' → m = 0 := by decide
      exact hsmall n hn (Option.some.inj h)
    · have hle : 10 ≤ n := Nat.le_of_not_lt hn
      obtain ⟨c, cs, hdigits, -⟩ := (digits_toDigits (n / 10)).head
      rw [Nat.toDigits_of_base_le (by decide) hle, hdigits] at h
      have hzero := ih (n / 10) (by omega) (hdigits ▸ h)
      omega

/-- The printed form of an integer. -/
theorem toString_int (i : Int) : ∃ sign, MinusText sign (decide (i < 0)) ∧
    (toString i).toList = sign ++ Nat.toDigits 10 i.natAbs := by
  cases i with
  | ofNat n =>
    refine ⟨[], ?_, ?_⟩
    · have hn : decide (Int.ofNat n < 0) = false := decide_eq_false (Int.not_lt.2 (Int.natCast_nonneg n))
      rw [hn]
      exact .absent
    · change (toString n).toList = _
      simp
  | negSucc n =>
    refine ⟨['-'], ?_, ?_⟩
    · have hn : decide (Int.negSucc n < 0) = true := decide_eq_true (by omega)
      rw [hn]
      exact .present
    · change ("-" ++ toString (n + 1)).toList = _
      simp

theorem signed_natAbs (i : Int) : signed (decide (i < 0)) i.natAbs = i := by
  unfold signed
  split
  · next h =>
    have hneg : i < 0 := of_decide_eq_true h
    omega
  · next h =>
    have hneg : ¬ i < 0 := fun hlt => h (decide_eq_true hlt)
    omega

/-- The printed form of an integer spells it. -/
theorem integerText_toString (i : Int) : IntegerText (toString i).toList i := by
  obtain ⟨sign, hsign, htext⟩ := toString_int i
  have hinteger := IntegerText.mk hsign (digits_toDigits i.natAbs)
  rwa [← htext, digitsValue_toDigits, signed_natAbs] at hinteger

end Scriptlet.Decimal

namespace Scriptlet

theorem range_toInt (i : Int64) : -2 ^ 63 ≤ i.toInt ∧ i.toInt < 2 ^ 63 :=
  ⟨Int64.le_toInt i, Int64.toInt_lt i⟩

theorem int64?_toInt (i : Int64) : int64? i.toInt = some i := by
  rw [int64?, if_pos (Word.fitsInt64_iff.2 (range_toInt i)), Int64.ofInt_toInt]

end Scriptlet
