import Mathlib
import Scriptlet.Decimal.Basic

/-!
Which floats are NaN. Packing a float changes neither that it is a NaN nor that it is none, and a
product or a quotient with a finite number other than zero is a NaN only if the first operand is. So
the float nearest to a decimal may be an infinity, but never a NaN.
-/

namespace Scriptlet.Decimal

open Float.Model (UnpackedFloat Format)
open Float.Model.UnpackedFloat (mul div pack unpack packComponents packedInfinity)

section Packing

theorem isNaN_components {s : UnpackedFloat.Sign} {exponent mantissa} (h : exponent ≠ -1#_) :
    (unpack Format.binary64 (packComponents Format.binary64 s exponent mantissa)).isNaN =
      false := by
  simp only [unpack, UnpackedFloat.unpackExponent_packComponents,
    UnpackedFloat.unpackMantissa_packComponents, if_neg h]
  split
  · split <;> rfl
  · rfl

theorem isNaN_infinity (s : UnpackedFloat.Sign) :
    (unpack Format.binary64 (packedInfinity Format.binary64 s)).isNaN = false := by
  cases s <;> decide

/-- A number that is packed as a normal one does not get the exponent of the NaN. -/
theorem exponent_ne {biased : Nat} (h : ¬ 2 ^ Format.binary64.exponentBits ≤ biased + 1) :
    BitVec.ofNat Format.binary64.exponentBits biased ≠ -1#_ := by
  intro he
  have hnat := congrArg BitVec.toNat he
  have hones : (-BitVec.ofNat Format.binary64.exponentBits 1).toNat + 1 =
      2 ^ Format.binary64.exponentBits := by decide
  rw [BitVec.toNat_ofNat, Nat.mod_eq_of_lt (by omega)] at hnat
  omega

theorem isNaN_unpack_pack (u : UnpackedFloat) :
    (unpack Format.binary64 (pack Format.binary64 u)).isNaN = u.isNaN := by
  fun_cases pack with
  | case1 => rw [UnpackedFloat.unpack_packedNaN]
  | case2 s => exact isNaN_infinity s
  | case3 s => rw [UnpackedFloat.unpack_packedZero]
  | case4 s m e hm biased h => exact isNaN_infinity s
  | case5 s m e hm bits biased hlarge hnormal => exact isNaN_components (exponent_ne hlarge)
  | case6 s m e hm bits biased hlarge hnormal => exact isNaN_components (by decide)

end Packing

section Operations

theorem isNaN_round (format : Format) (s : UnpackedFloat.Sign) (m : Nat) (e : Int)
    (accuracy : UnpackedFloat.Accuracy) :
    (UnpackedFloat.roundWithAccuracy format s m e accuracy).isNaN = false := by
  unfold UnpackedFloat.roundWithAccuracy
  dsimp only
  split <;> rfl

theorem isNaN_mul_finite (format : Format) (u : UnpackedFloat) {s m e} (hm) :
    (mul format u (.finite s m e hm)).isNaN = u.isNaN := by
  cases u with
  | finite => exact isNaN_round ..
  | _ => rfl

theorem isNaN_div_finite (format : Format) (u : UnpackedFloat) {s m e} (hm) :
    (div format u (.finite s m e hm)).isNaN = u.isNaN := by
  cases u with
  | finite => exact isNaN_round ..
  | _ => rfl

/-- A finite float that is not zero. -/
def Regular (x : Float) : Prop := ∃ s m e hm, x.toModel.unpack = .finite s m e hm

theorem regular_iff {x : Float} : Regular x ↔
    x.toModel.unpack.isFinite = true ∧ x.toModel.unpack.beq (.zero .positive) = false := by
  unfold Regular
  cases x.toModel.unpack with
  | infinity => simp [UnpackedFloat.isFinite]
  | notANumber => simp [UnpackedFloat.isFinite]
  | zero => simp [UnpackedFloat.beq, UnpackedFloat.compare]
  | finite s m e hm =>
    cases s <;> simp [UnpackedFloat.isFinite, UnpackedFloat.beq, UnpackedFloat.compare, hm]

instance (x : Float) : Decidable (Regular x) := decidable_of_iff' _ regular_iff

variable {x y : Float}

theorem isNaN_mul (hx : x.isNaN = false) (hy : Regular y) : (x * y).isNaN = false := by
  obtain ⟨s, m, e, hm, hy⟩ := hy
  change (unpack _ (pack _ (mul _ x.toModel.unpack y.toModel.unpack))).isNaN = false
  rw [isNaN_unpack_pack, hy, isNaN_mul_finite]
  exact hx

theorem isNaN_div (hx : x.isNaN = false) (hy : Regular y) : (x / y).isNaN = false := by
  obtain ⟨s, m, e, hm, hy⟩ := hy
  change (unpack _ (pack _ (div _ x.toModel.unpack y.toModel.unpack))).isNaN = false
  rw [isNaN_unpack_pack, hy, isNaN_div_finite]
  exact hx

theorem isNaN_neg (x : Float) : (-x).isNaN = x.isNaN := by
  change (unpack _ (pack _ x.toModel.unpack.neg)).isNaN = x.toModel.unpack.isNaN
  rw [isNaN_unpack_pack]
  cases x.toModel.unpack <;> rfl

theorem isNaN_ofUInt64 (n : UInt64) : n.toFloat.isNaN = false := by
  change (unpack _ (pack _ (UnpackedFloat.normalize _ n.toNat 0 .positive))).isNaN = false
  rw [isNaN_unpack_pack]
  unfold UnpackedFloat.normalize UnpackedFloat.round
  dsimp only
  split
  · exact isNaN_round ..
  · rfl
  · exact isNaN_round ..

end Operations

theorem regular_powerOfTen : ∀ (e : Fin 23) (h : e < Float.exactlyRepresentablePowersOfTen.size),
    Regular Float.exactlyRepresentablePowersOfTen[e] := by
  decide +kernel

theorem isNaN_ofScientific_model (format : Format) (m : Nat) (e : Int) :
    (UnpackedFloat.ofScientific format m e).isNaN = false := by
  unfold UnpackedFloat.ofScientific
  split
  · rfl
  · split
    · rfl
    · split
      · rfl
      · split
        · exact isNaN_mul_finite ..
        · exact isNaN_div_finite ..

theorem isNaN_ofScientific (m : Nat) (negative : Bool) (e : Nat) :
    (Float.ofScientific m negative e).isNaN = false := by
  unfold Float.ofScientific
  dsimp only
  split
  · next h =>
    have hpower := regular_powerOfTen ⟨e, Nat.lt_succ_of_le h.2⟩ (Nat.lt_succ_of_le h.2)
    split
    · exact isNaN_div (isNaN_ofUInt64 _) hpower
    · exact isNaN_mul (isNaN_ofUInt64 _) hpower
  · change (unpack _ (pack _ (UnpackedFloat.ofScientific _ m _))).isNaN = false
    rw [isNaN_unpack_pack, isNaN_ofScientific_model]

theorem isNaN_magnitude (digits : Nat) (exponent : Int) :
    (magnitude digits exponent).isNaN = false := by
  unfold magnitude
  dsimp only
  split
  · decide
  · split
    · decide
    · exact isNaN_ofScientific ..

theorem isNaN_toFloat (d : Decimal) : d.toFloat.isNaN = false := by
  unfold toFloat
  dsimp only
  split
  · rw [isNaN_neg, isNaN_magnitude]
  · exact isNaN_magnitude ..

end Scriptlet.Decimal
