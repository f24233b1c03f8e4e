import Scriptlet.Proofs.Decimal.Float

/-!
Integers that are not rounded. A float has 53 bits for the digits of a number, so that integers up to
two to the 53rd are converted to themselves, and different ones to floats that differ.
-/

namespace Scriptlet

open Float.Model (UnpackedFloat Format)
open Float.Model.UnpackedFloat (mul pack unpack ExtendedMantissa)

namespace Rounding

section Shifting

/-- Bits that are zero are shifted out without a trace. -/
theorem shiftRight_zeros (m j : Nat) :
    (⟨m * 2 ^ j, false, false⟩ : ExtendedMantissa) >>> j = ⟨m, false, false⟩ := by
  change Nat.repeat ExtendedMantissa.shiftRightOne j _ = _
  induction j generalizing m with
  | zero => rw [pow_zero, mul_one, Nat.repeat]
  | succ j ih =>
    have hpow : m * 2 ^ (j + 1) = m * 2 * 2 ^ j := by ring
    rw [Nat.repeat, hpow, ih, ExtendedMantissa.shiftRightOne]
    simp

variable {m : Nat} {e : Int}

theorem log2_mul_two_pow (hm : m ≠ 0) (j : Nat) : (m * 2 ^ j).log2 = m.log2 + j := by
  have hpow : 0 < 2 ^ j := Nat.two_pow_pos j
  have hle := Nat.log2_self_le hm
  have hlt : m < 2 ^ (m.log2 + 1) := Nat.lt_log2_self
  rw [Nat.log2_eq_iff (Nat.mul_ne_zero hm hpow.ne')]
  constructor
  · rw [pow_add]
    exact Nat.mul_le_mul_right _ hle
  · rw [Nat.add_right_comm, pow_add]
    exact Nat.mul_lt_mul_of_pos_right hlt hpow

/-- The exponent at which a number has 53 digits, or the smallest one that a float has. -/
theorem targetExponent_eq (m : Nat) (e : Int) :
    Format.binary64.targetExponent (Float.Model.totalExponent m e) =
      max (m.log2 + e - 52) (-1074) := by
  have hmin : Format.binary64.minExponent = -1074 := by decide
  have hbits : Format.binary64.mantissaBits = 53 := by decide
  unfold Format.targetExponent Float.Model.totalExponent
  rw [hmin, hbits]
  push_cast
  omega

theorem shiftToTarget_zeros (hm : m.log2 = 52) (he : -1074 ≤ e) (j : Nat) :
    UnpackedFloat.shiftToTargetExponent Format.binary64 (m * 2 ^ j) (e - j) .exact =
      (⟨m, false, false⟩, e) := by
  have hzero : m ≠ 0 := by
    rintro rfl
    cases hm
  unfold UnpackedFloat.shiftToTargetExponent UnpackedFloat.shiftToExponent
  have htarget : Format.binary64.targetExponent
      (Float.Model.totalExponent (m * 2 ^ j) (e - j)) = e := by
    rw [targetExponent_eq, log2_mul_two_pow hzero, hm]
    omega
  have hshift : (e - (e - j)).toNat = j := by omega
  simp only [htarget, hshift, ExtendedMantissa.ofMantissaAndAccuracy, shiftRight_zeros]
  rw [Int.sub_add_cancel]

/-- A number with 53 bits is not rounded. -/
theorem round_zeros (s : UnpackedFloat.Sign) (hm : m.log2 = 52) (hpos : 0 < m) (he : -1074 ≤ e)
    (j : Nat) :
    UnpackedFloat.roundWithAccuracy Format.binary64 s (m * 2 ^ j) (e - j) .exact =
      .finite s m e hpos := by
  have hagain := shiftToTarget_zeros hm he 0
  rw [pow_zero, mul_one, Nat.cast_zero, sub_zero] at hagain
  unfold UnpackedFloat.roundWithAccuracy
  rw [shiftToTarget_zeros hm he j]
  simp only [ExtendedMantissa.roundedMantissa, ExtendedMantissa.accuracy,
    UnpackedFloat.Accuracy.roundToNearestEven, hagain]
  rw [dif_neg hpos.ne']

/-- Packing such a number does not change it. -/
theorem unpack_pack (s : UnpackedFloat.Sign) (hm : m.log2 = 52) (hpos : 0 < m) (he : -1074 ≤ e)
    (he' : e ≤ 971) :
    unpack Format.binary64 (pack Format.binary64 (.finite s m e hpos)) = .finite s m e hpos := by
  obtain ⟨hle, hlt⟩ : 2 ^ 52 ≤ m ∧ m < 2 ^ 53 := (Nat.log2_eq_iff hpos.ne').1 hm
  have hbiased : (e + Format.binary64.exponentBias + Format.binary64.mantissaBitsWithoutImplicit) =
      e + 1075 := by
    change e + 1023 + 52 = e + 1075
    omega
  have hlarge : ¬ 2 ^ Format.binary64.exponentBits ≤ (e + 1075).toNat + 1 := by
    change ¬ 2048 ≤ (e + 1075).toNat + 1
    omega
  have hnormal : m.log2 + 1 = Format.binary64.mantissaBits := by
    rw [hm]
    rfl
  have hexponent : (BitVec.ofNat Format.binary64.exponentBits (e + 1075).toNat).toNat =
      (e + 1075).toNat := by
    rw [BitVec.toNat_ofNat, Nat.mod_eq_of_lt (by omega)]
  have hnonzero : BitVec.ofNat Format.binary64.exponentBits (e + 1075).toNat ≠ 0#_ := by
    intro hzero
    rw [hzero, BitVec.toNat_ofNat, Nat.zero_mod] at hexponent
    omega
  have hmantissa :
      (1#1 ++ BitVec.ofNat Format.binary64.mantissaBitsWithoutImplicit m).toNat = m := by
    rw [BitVec.toNat_append, BitVec.toNat_ofNat, BitVec.toNat_ofNat]
    change 1 <<< 52 ||| m % 2 ^ 52 = m
    rw [← Nat.shiftLeft_add_eq_or_of_lt (Nat.mod_lt m (Nat.two_pow_pos 52)), Nat.shiftLeft_eq]
    omega
  have hback : ((e + 1075).toNat : Int) - (Format.binary64.exponentBias +
      Format.binary64.mantissaBitsWithoutImplicit) = e := by
    change ((e + 1075).toNat : Int) - (1023 + 52) = e
    omega
  simp only [pack, hbiased, if_neg hlarge, if_pos hnormal, unpack,
    UnpackedFloat.unpackExponent_packComponents, UnpackedFloat.unpackMantissa_packComponents,
    UnpackedFloat.unpackSign_packComponents, if_neg (Decimal.exponent_ne hlarge), if_neg hnonzero,
    hexponent, hmantissa, UnpackedFloat.Sign.ofBitVec_toBitVec, hback]

end Shifting

/-- The number is the whole number, with 53 digits in its mantissa. -/
inductive Full (n : Nat) : UnpackedFloat → Prop where
  | intro {m e hm} (hlog : m.log2 = 52) (he : -52 ≤ e) (he' : e ≤ 1)
      (hvalue : m * 2 ^ (e + 52).toNat = n * 2 ^ 52) : Full n (.finite .positive m e hm)

section Whole

variable {n : Nat} {u : UnpackedFloat}

theorem Full.repack (h : Full n u) : unpack Format.binary64 (pack Format.binary64 u) = u := by
  obtain ⟨hlog, he, he', -⟩ := h
  exact unpack_pack .positive hlog _ (by omega) (by omega)

/-- One has the mantissa two to the 52nd. -/
theorem Full.mul_one (h : Full n u) :
    mul Format.binary64 u (.finite .positive (2 ^ 52) (-52) (by decide)) = u := by
  obtain ⟨hlog, he, -, -⟩ := h
  exact round_zeros .positive hlog _ (by omega) 52

/-- The digits of a whole number are moved to the front. -/
theorem full_round (hpos : 0 < n) (hn : n < 2 ^ 53) :
    Full n (UnpackedFloat.round Format.binary64 .positive n 0) := by
  have hlog : n.log2 ≤ 52 := Nat.lt_succ_iff.1 ((Nat.log2_lt hpos.ne').2 hn)
  have hm : (n * 2 ^ (52 - n.log2)).log2 = 52 := by
    rw [log2_mul_two_pow hpos.ne']
    omega
  have hmpos : 0 < n * 2 ^ (52 - n.log2) := Nat.mul_pos hpos (Nat.two_pow_pos _)
  have hround : UnpackedFloat.round Format.binary64 .positive n 0 =
      .finite .positive (n * 2 ^ (52 - n.log2)) (n.log2 - 52) hmpos := by
    have htarget : Format.binary64.targetExponent (Float.Model.totalExponent n 0) =
        n.log2 - 52 := by
      rw [targetExponent_eq]
      omega
    have hshift : ((0 : Int) - (n.log2 - 52)).toNat = 52 - n.log2 := by omega
    have hexponent : (0 : Int) - (52 - n.log2 : Nat) = n.log2 - 52 := by omega
    have hkept := round_zeros .positive hm hmpos (e := n.log2 - 52) (by omega) 0
    rw [pow_zero, mul_one, Nat.cast_zero, sub_zero] at hkept
    unfold UnpackedFloat.round UnpackedFloat.decreaseExponent
    simp only [htarget, hshift, hexponent, Nat.shiftLeft_eq]
    exact hkept
  rw [hround]
  refine .intro hm (by omega) (by omega) ?_
  have hexponent : ((n.log2 : Int) - 52 + 52).toNat = n.log2 := by omega
  rw [hexponent, mul_assoc, ← pow_add, Nat.sub_add_cancel hlog]

/-- A small number is converted as a word, and then multiplied by the first power of ten. -/
theorem toModel_ofNat (hn : n < 2 ^ 53) : (Float.ofNat n).toModel =
    n.toUInt64.toFloat.toModel * (Float.ofBits 4607182418800017408).toModel := by
  change (Float.ofScientific n false 0).toModel = _
  unfold Float.ofScientific
  rw [dif_pos ⟨hn, Nat.zero_le 22⟩]
  rfl

theorem unpack_toFloat (hpos : 0 < n) (hn : n < 2 ^ 53) : n.toUInt64.toFloat.toModel.unpack =
    UnpackedFloat.round Format.binary64 .positive n 0 := by
  have hword : n.toUInt64.toNat = n := Nat.mod_eq_of_lt (by omega)
  have hcompare : compare (n : Int) 0 = .gt := Int.compare_eq_gt.2 (by omega)
  change unpack _ (pack _ (UnpackedFloat.normalize _ n.toUInt64.toNat 0 .positive)) = _
  rw [hword, UnpackedFloat.normalize, hcompare]
  exact (full_round hpos hn).repack

theorem full_ofNat (hpos : 0 < n) (hn : n ≤ 2 ^ 53) : Full n (Float.ofNat n).toModel.unpack := by
  rcases hn.lt_or_eq with hlt | rfl
  · have hround := full_round hpos hlt
    have hone : (Float.ofBits 4607182418800017408).toModel.unpack =
        .finite .positive (2 ^ 52) (-52) (by decide) := rfl
    rw [toModel_ofNat hlt]
    change Full n (unpack _ (pack _ (mul _ n.toUInt64.toFloat.toModel.unpack _)))
    rw [unpack_toFloat hpos hlt, hone, hround.mul_one, hround.repack]
    exact hround
  · change Full (2 ^ 53) (.finite .positive (2 ^ 52) 1 (by decide))
    exact .intro (by decide) (by decide) (by decide) (by decide)

end Whole

/-- The float has the value of the integer. Both are counted in units of two to the minus 52nd, the
smallest that a mantissa of 53 bits needs. -/
inductive Exact (x : Float) (i : Int) : Prop where
  | zero (hi : i = 0) (h : x.toModel.unpack = .zero .positive)
  | finite {s m e hm} (h : x.toModel.unpack = .finite s m e hm) (he : -52 ≤ e)
      (hvalue : m * 2 ^ (e + 52).toNat = i.natAbs * 2 ^ 52) (hsign : s = .negative ↔ i < 0)

theorem exact_ofInt {i : Int} (h : i.natAbs ≤ 2 ^ 53) : Exact (Float.ofInt i) i := by
  cases i with
  | ofNat n =>
    rcases Nat.eq_zero_or_pos n with rfl | hpos
    · exact .zero rfl rfl
    · have hfull : Full n (Float.ofInt n).toModel.unpack := full_ofNat hpos h
      generalize hu : (Float.ofInt n).toModel.unpack = u at hfull
      obtain ⟨-, he, -, hvalue⟩ := hfull
      exact .finite hu he hvalue (iff_of_false nofun (Int.natCast_nonneg n).not_gt)
  | negSucc n =>
    have hneg : (Float.ofInt (.negSucc n)).toModel.unpack =
        unpack _ (pack _ (Float.ofNat n.succ).toModel.unpack.neg) := rfl
    have hfull := full_ofNat n.succ_pos h
    generalize (Float.ofNat n.succ).toModel.unpack = u at hneg hfull
    cases hfull with | @intro m e hm hlog he he' hvalue =>
    have hrepack := unpack_pack .negative hlog hm (e := e) (by omega) (by omega)
    exact .finite (hneg.trans hrepack) he hvalue (iff_of_true rfl (Int.negSucc_lt_zero n))

theorem Exact.unique {x y : Float} {i j : Int} (hx : Exact x i) (hy : Exact y j)
    (h : (x == y) = true) : i = j := by
  have hmodel : x.toModel.unpack.beq y.toModel.unpack = true := h
  obtain ⟨-, -, hsame⟩ := (UnpackedFloat.beq_iff_ne_notANumber_and_eq _ _).1 hmodel
  cases hx with
  | zero hi hx =>
    cases hy with
    | zero hj hy => rw [hi, hj]
    | finite hy =>
      rw [hx, hy] at hsame
      simp at hsame
  | finite hx _ hvalue hsign =>
    cases hy with
    | zero hj hy =>
      rw [hx, hy] at hsame
      simp at hsame
    | finite hy _ hvalue' hsign' =>
      rw [hx, hy] at hsame
      simp only [UnpackedFloat.finite.injEq, reduceCtorEq, false_and, or_self, or_false] at hsame
      obtain ⟨rfl, rfl, rfl⟩ := hsame
      have habs : i.natAbs = j.natAbs :=
        Nat.eq_of_mul_eq_mul_right (Nat.two_pow_pos 52) (hvalue.symm.trans hvalue')
      have hneg : i < 0 ↔ j < 0 := hsign.symm.trans hsign'
      omega

/-- Different integers are not rounded to one float. -/
theorem ofInt_injOn {i j : Int} (hi : i.natAbs ≤ 2 ^ 53) (hj : j.natAbs ≤ 2 ^ 53)
    (h : (Float.ofInt i == Float.ofInt j) = true) : i = j :=
  (exact_ofInt hi).unique (exact_ofInt hj) h

end Rounding

end Scriptlet
