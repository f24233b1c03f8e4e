import Mathlib.Data.Int.ModEq
import Scriptlet.Proofs.Library.Arithmetic

/-!
The divisions of integers. Where the quotient has a result, the remainder and the modulus have
theirs, and the three belong together. They fail together as well, for one pair of integers only:
there the quotient does not have 64 bits. A remainder always has, since it is less than the divisor.
-/

namespace Scriptlet

open Library

/-- The ways of dividing two integers. -/
inductive Division where
  | quotient
  | remainder
  | modulus
  deriving DecidableEq, Repr

namespace Division

def builtin : Division → Builtin
  | quotient => .quot
  | remainder => .rem
  | modulus => .mod

/-- The result in the integers without bounds. -/
def exact : Division → Int → Int → Int
  | quotient => Int.tdiv
  | remainder => Int.tmod
  | modulus => Int.fmod

/-- Quotient, remainder and modulus that belong together. The remainder has the sign of the
dividend, and the modulus that of the divisor. -/
structure Laws (a b q r m : Int) : Prop where
  whole : a = q * b + r
  remainder_lt : |r| < |b|
  remainder_sign : r = 0 ∨ r.sign = a.sign
  modulus_modEq : m ≡ a [ZMOD b]
  modulus_lt : |m| < |b|
  modulus_sign : m = 0 ∨ m.sign = b.sign
  modulus_eq : m = r ∨ m = r + b

section Exact

variable {x y : Int}

theorem tmod_nonpos (hx : x ≤ 0) (y : Int) : x.tmod y ≤ 0 := by
  have hneg : 0 ≤ (-x).tmod y := Int.tmod_nonneg y (Int.neg_nonneg_of_nonpos hx)
  rw [Int.neg_tmod] at hneg
  omega

theorem abs_tmod_lt (x : Int) (hy : y ≠ 0) : |x.tmod y| < |y| := by
  rw [Int.abs_eq_natAbs, Int.abs_eq_natAbs, Int.natAbs_tmod]
  exact Int.ofNat_lt.2 (Nat.mod_lt _ (Int.natAbs_pos.2 hy))

/-- The divisor is added to a remainder that has the other sign. -/
theorem fmod_eq (x y : Int) : x.fmod y =
    if x.tmod y ≠ 0 ∧ decide (x.tmod y < 0) ≠ decide (y < 0) then x.tmod y + y else x.tmod y := by
  rw [Int.fmod_eq_tmod]
  simp only [ne_eq, decide_eq_decide]
  by_cases hdvd : y ∣ x
  · have hzero : x.tmod y = 0 := Int.tmod_eq_zero_of_dvd hdvd
    rw [if_pos hdvd, if_neg fun h => h.1 hzero, Int.add_zero]
  · have hne : x.tmod y ≠ 0 := mt Int.dvd_of_tmod_eq_zero hdvd
    rw [if_neg hdvd]
    by_cases hx : 0 ≤ x
    · have hsign := Int.tmod_nonneg y hx
      rw [if_pos hx]
      split <;> split <;> omega
    · have hsign := tmod_nonpos (Int.le_of_not_le hx) y
      rw [if_neg hx]
      split <;> split <;> omega

theorem fmod_cases (x : Int) (hy : y ≠ 0) :
    (x.fmod y = x.tmod y ∨ x.fmod y = x.tmod y + y) ∧ |x.fmod y| < |y| ∧
      (x.fmod y = 0 ∨ (x.fmod y < 0 ↔ y < 0)) := by
  have hlt := abs_tmod_lt x hy
  rw [abs_lt] at hlt ⊢
  rw [fmod_eq]
  split
  · next hsigns =>
    obtain ⟨hne, hsign⟩ := hsigns
    rw [ne_eq, decide_eq_decide] at hsign
    rcases lt_or_gt_of_ne hy with hneg | hpos
    · rw [abs_of_neg hneg] at hlt ⊢
      omega
    · rw [abs_of_pos hpos] at hlt ⊢
      omega
  · next hsigns =>
    rw [ne_eq, ne_eq, decide_eq_decide, not_and_or, not_not, not_not] at hsigns
    exact ⟨.inl rfl, hlt, hsigns⟩

theorem sign_eq {x y : Int} (hx : x ≠ 0) (hy : y ≠ 0) (h : x < 0 ↔ y < 0) : x.sign = y.sign := by
  rcases lt_or_gt_of_ne hx with hneg | hpos
  · rw [Int.sign_eq_neg_one_of_neg hneg, Int.sign_eq_neg_one_of_neg (h.1 hneg)]
  · rw [Int.sign_eq_one_of_pos hpos, Int.sign_eq_one_of_pos (by omega)]

theorem laws (x : Int) (hy : y ≠ 0) : Laws x y (x.tdiv y) (x.tmod y) (x.fmod y) where
  whole := by
    rw [Int.mul_comm, Int.add_comm]
    exact (Int.tmod_add_mul_tdiv x y).symm
  remainder_lt := abs_tmod_lt x hy
  remainder_sign := by
    rw [← Int.sign_eq_zero_iff_zero, Int.sign_tmod]
    split
    · exact .inl rfl
    · exact .inr rfl
  modulus_modEq := by
    rw [Int.fmod_def]
    exact Int.modEq_iff_dvd.2 ⟨x.fdiv y, by omega⟩
  modulus_lt := (fmod_cases x hy).2.1
  modulus_sign := by
    by_cases hzero : x.fmod y = 0
    · exact .inl hzero
    · exact .inr (sign_eq hzero hy ((fmod_cases x hy).2.2.resolve_left hzero))
  modulus_eq := (fmod_cases x hy).1

theorem inRange_tmod (hx : InRange x) (y : Int) : InRange (x.tmod y) := by
  have hle : (x.tmod y).natAbs ≤ x.natAbs := by
    rw [Int.natAbs_tmod]
    exact Nat.mod_le _ _
  unfold InRange at *
  rcases Int.le_total 0 x with h | h
  · have hsign := Int.tmod_nonneg y h
    omega
  · have hsign := tmod_nonpos h y
    omega

theorem inRange_fmod (hy : InRange y) (hne : y ≠ 0) (x : Int) : InRange (x.fmod y) := by
  have hlt := (fmod_cases x hne).2.1
  rw [abs_lt] at hlt
  unfold InRange at *
  rcases lt_or_gt_of_ne hne with hneg | hpos
  · rw [abs_of_neg hneg] at hlt
    omega
  · rw [abs_of_pos hpos] at hlt
    omega

/-- One pair has a quotient that is too large. -/
theorem inRange_tdiv_iff (hx : InRange x) (y : Int) :
    InRange (x.tdiv y) ↔ ¬ (x = -2 ^ 63 ∧ y = -1) := by
  have hle := Int.natAbs_tdiv_le_natAbs x y
  unfold InRange at *
  constructor
  · rintro h ⟨rfl, rfl⟩
    exact absurd h (by decide)
  · intro h
    by_contra hrange
    have hlarge : x.tdiv y = 2 ^ 63 := by omega
    have hmin : x = -2 ^ 63 := by omega
    have hsum := Int.tmod_add_mul_tdiv x y
    have hne : y ≠ 0 := by
      rintro rfl
      rw [Int.tdiv_zero] at hlarge
      omega
    have hlt := abs_tmod_lt x hne
    have hsign := tmod_nonpos (x := x) (by omega) y
    rw [hlarge, hmin] at hsum
    rw [hmin] at hlt hsign
    rw [abs_of_nonpos hsign] at hlt
    rcases lt_or_gt_of_ne hne with hneg | hpos
    · rw [abs_of_neg hneg] at hlt
      omega
    · rw [abs_of_pos hpos] at hlt
      omega

end Exact

section Words

variable {j : Int64}

theorem toInt_ne_zero (hj : j ≠ 0) : j.toInt ≠ 0 := fun h => hj (Int64.toInt_inj.1 h)

theorem least_iff (i j : Int64) :
    (i.toInt = -2 ^ 63 ∧ j.toInt = -1) ↔ i = Int64.minValue ∧ j = -1 := by
  rw [← Int64.toInt_inj, ← Int64.toInt_inj]
  exact Iff.rfl

theorem dividend_ints (function : String) (i : Int64) (hj : j ≠ 0) :
    dividend function (.int i) (.int j) = .ok (i, j) := if_neg hj

theorem exactly_eq (function : String) (x : Int) : exactly function x =
    if InRange x then .ok (Int64.ofInt x) else .error (.overflow function) := by
  rw [exactly, int64?]
  by_cases h : InRange x
  · rw [if_pos (Word.fitsInt64_iff.2 h), if_pos h]
  · rw [if_neg (mt Word.fitsInt64_iff.1 h), if_neg h]

theorem remainder_eq (function : String) (i j : Int64) : Library.remainder function i j =
    if InRange (i.toInt.tdiv j.toInt) then .ok (Int64.ofInt (i.toInt.tmod j.toInt))
    else .error (.overflow function) := by
  rw [Library.remainder, exactly_eq]
  split <;> rfl

theorem toInt_remainder (i j : Int64) :
    (Int64.ofInt (i.toInt.tmod j.toInt)).toInt = i.toInt.tmod j.toInt := by
  have h : InRange (i.toInt.tmod j.toInt) := inRange_tmod (range_toInt i) j.toInt
  exact Int64.toInt_ofInt_of_le h.1 h.2

theorem signs_iff (r j : Int64) : (r ≠ 0 ∧ decide (r < 0) ≠ decide (j < 0)) ↔
    (r.toInt ≠ 0 ∧ decide (r.toInt < 0) ≠ decide (j.toInt < 0)) := by
  have hzero : r ≠ 0 ↔ r.toInt ≠ 0 := not_congr Int64.toInt_inj.symm
  have hr : r < 0 ↔ r.toInt < 0 := Int64.lt_iff_toInt_lt
  have hj : j < 0 ↔ j.toInt < 0 := Int64.lt_iff_toInt_lt
  simp only [hzero, hr, hj]

/-- What is done to the remainder to get the modulus. -/
theorem modulus_eq (i j : Int64) {r : Int64} (hr : r = Int64.ofInt (i.toInt.tmod j.toInt)) :
    (if r ≠ 0 ∧ decide (r < 0) ≠ decide (j < 0) then r + j else r) =
      Int64.ofInt (i.toInt.fmod j.toInt) := by
  have hint : i.toInt.tmod j.toInt = r.toInt := by rw [hr, toInt_remainder]
  rw [fmod_eq, hint]
  simp only [signs_iff]
  split
  · rw [Int64.ofInt_add, Int64.ofInt_toInt, Int64.ofInt_toInt]
  · exact (Int64.ofInt_toInt r).symm

/-- Whichever result is asked for, it is there if the quotient has 64 bits. -/
theorem run_eq (d : Division) (i : Int64) (hj : j ≠ 0) : d.builtin.run [.int i, .int j] =
    if InRange (i.toInt.tdiv j.toInt) then .ok (.int (Int64.ofInt (d.exact i.toInt j.toInt)))
    else .error (.overflow d.builtin.name) := by
  cases d with
  | quotient =>
    change quot (.int i) (.int j) = _
    rw [quot, dividend_ints "quot" i hj]
    change (exactly "quot" (i.toInt.tdiv j.toInt)).map Value.int = _
    rw [exactly_eq]
    split <;> rfl
  | remainder =>
    change rem (.int i) (.int j) = _
    rw [rem, dividend_ints "rem" i hj]
    change (Library.remainder "rem" i j).map Value.int = _
    rw [remainder_eq]
    split <;> rfl
  | modulus =>
    change mod (.int i) (.int j) = _
    rw [mod, dividend_ints "mod" i hj]
    change (Library.remainder "mod" i j >>= fun r =>
      if r ≠ 0 ∧ decide (r < 0) ≠ decide (j < 0) then pure (Value.int (r + j))
      else pure (Value.int r)) = _
    rw [remainder_eq]
    split
    · change _ = Except.ok (Value.int (Int64.ofInt (i.toInt.fmod j.toInt)))
      rw [← modulus_eq i j rfl, apply_ite Value.int, apply_ite Except.ok]
      rfl
    · rfl

theorem inRange_exact_iff (d : Division) (i : Int64) (hj : j ≠ 0) :
    InRange (d.exact i.toInt j.toInt) ↔ ¬ (d = quotient ∧ i = Int64.minValue ∧ j = -1) := by
  cases d with
  | quotient =>
    rw [← least_iff, and_iff_right rfl]
    exact inRange_tdiv_iff (range_toInt i) j.toInt
  | remainder => exact iff_of_true (inRange_tmod (range_toInt i) j.toInt) fun h => nomatch h.1
  | modulus =>
    exact iff_of_true (inRange_fmod (range_toInt j) (toInt_ne_zero hj) i.toInt) fun h => nomatch h.1

end Words

/-- With a divisor other than zero, all three divisions fail for the same pair of integers, and
they call it an overflow. For every other pair they give the exact result. That result itself has
64 bits for all pairs, but for the quotient of the one at which they fail. -/
theorem run_overflow_iff (d : Division) (i : Int64) {j : Int64} (hj : j ≠ 0) :
    (∀ f, d.builtin.run [.int i, .int j] = .error f ↔
      f = .overflow d.builtin.name ∧ i = Int64.minValue ∧ j = -1) ∧
    (¬ (i = Int64.minValue ∧ j = -1) →
      ∃ r : Int64, d.builtin.run [.int i, .int j] = .ok (.int r) ∧
        r.toInt = d.exact i.toInt j.toInt) ∧
    (InRange (d.exact i.toInt j.toInt) ↔ ¬ (d = quotient ∧ i = Int64.minValue ∧ j = -1)) := by
  have hquotient : InRange (i.toInt.tdiv j.toInt) ↔ ¬ (i = Int64.minValue ∧ j = -1) := by
    rw [inRange_tdiv_iff (range_toInt i), least_iff]
  refine ⟨fun f => ?_, fun h => ?_, inRange_exact_iff d i hj⟩
  · rw [run_eq d i hj]
    by_cases h : i = Int64.minValue ∧ j = -1
    · rw [if_neg (mt hquotient.1 (not_not.2 h)), Except.error.injEq, and_iff_left h]
      exact eq_comm
    · rw [if_pos (hquotient.2 h)]
      exact iff_of_false (fun hf => nomatch hf) fun hf => h hf.2
  · have hrange := (inRange_exact_iff d i hj).2 fun hd => h hd.2
    refine ⟨Int64.ofInt (d.exact i.toInt j.toInt), ?_, Int64.toInt_ofInt_of_le hrange.1 hrange.2⟩
    rw [run_eq d i hj, if_pos (hquotient.2 h)]

/-- The modulus for the pair that fails, and for another divisor. -/
theorem run_overflow_iff_modulus :
    (-1 : Int64) ≠ 0 ∧ Builtin.mod.run [.int Int64.minValue, .int (-1)] = .error (.overflow "mod") ∧
      ∃ r : Int64, Builtin.mod.run [.int Int64.minValue, .int 10] = .ok (.int r) ∧ r.toInt = 2 := by
  refine ⟨by decide, ?_, ?_⟩
  · exact ((run_overflow_iff modulus Int64.minValue (by decide)).1 _).2 ⟨rfl, rfl, rfl⟩
  · exact (run_overflow_iff modulus Int64.minValue (by decide)).2.1 (by decide)

/-- The remainder and the modulus that are reported as an overflow are zero. -/
theorem run_overflow_fits :
    Builtin.rem.run [.int Int64.minValue, .int (-1)] = .error (.overflow "rem") ∧
      Builtin.mod.run [.int Int64.minValue, .int (-1)] = .error (.overflow "mod") ∧
      Int64.minValue.toInt.tmod (-1) = 0 ∧ Int64.minValue.toInt.fmod (-1) = 0 :=
  ⟨rfl, rfl, by decide, by decide⟩

/-- A quotient is found only for a divisor other than zero, and only if it has 64 bits. -/
theorem of_quot_run {a b : Int64} {v : Value} (h : Builtin.quot.run [.int a, .int b] = .ok v) :
    b ≠ 0 ∧ InRange (a.toInt.tdiv b.toInt) ∧ v = .int (Int64.ofInt (a.toInt.tdiv b.toInt)) := by
  have hb : b ≠ 0 := by
    rintro rfl
    cases h
  have hrun := run_eq quotient a hb
  have hsame : (Except.ok v : Outcome) = _ := h.symm.trans hrun
  by_cases hrange : InRange (a.toInt.tdiv b.toInt)
  · rw [if_pos hrange] at hsame
    cases hsame
    exact ⟨hb, hrange, rfl⟩
  · rw [if_neg hrange] at hsame
    cases hsame

theorem divide_run (a : Int64) {b : Int64} (hb : b ≠ 0) : Builtin.divide.run [.int a, .int b] =
    (exactly "/" (a.toInt.tdiv b.toInt)).map .int := by
  change ((if b = 0 then .error .zeroDivisor else exactly "/" (a.toInt.tdiv b.toInt) :
    Except Fault Int64).map Value.int >>= pure : Outcome) = _
  rw [if_neg hb, bind_pure]

end Division

/-- Where there is a quotient, there are the remainder and the modulus that belong to it, and
division comes to the same quotient. The sum that the modulus takes does not leave the range. -/
theorem Builtin.quot_run_laws {a b : Int64} {v : Value}
    (h : Builtin.quot.run [.int a, .int b] = .ok v) :
    ∃ q r m : Int64, v = .int q ∧ Builtin.rem.run [.int a, .int b] = .ok (.int r) ∧
      Builtin.mod.run [.int a, .int b] = .ok (.int m) ∧
      Builtin.divide.run [.int a, .int b] = .ok (.int q) ∧
      Division.Laws a.toInt b.toInt q.toInt r.toInt m.toInt ∧
      Library.remainder "mod" a b = .ok r ∧
      (r ≠ 0 ∧ decide (r < 0) ≠ decide (b < 0) → InRange (r.toInt + b.toInt)) := by
  obtain ⟨hb, hrange, rfl⟩ := Division.of_quot_run h
  have hne : b.toInt ≠ 0 := Division.toInt_ne_zero hb
  have hmodulus : InRange (a.toInt.fmod b.toInt) :=
    Division.inRange_fmod (range_toInt b) hne a.toInt
  refine ⟨_, Int64.ofInt (a.toInt.tmod b.toInt), Int64.ofInt (a.toInt.fmod b.toInt), rfl,
    (Division.run_eq .remainder a hb).trans (if_pos hrange),
    (Division.run_eq .modulus a hb).trans (if_pos hrange), ?_, ?_, ?_, fun hsigns => ?_⟩
  · rw [Division.divide_run a hb, Division.exactly_eq, if_pos hrange]
    rfl
  · rw [Int64.toInt_ofInt_of_le hrange.1 hrange.2, Division.toInt_remainder,
      Int64.toInt_ofInt_of_le hmodulus.1 hmodulus.2]
    exact Division.laws a.toInt hne
  · rw [Division.remainder_eq, if_pos hrange]
  · rw [Division.signs_iff, Division.toInt_remainder] at hsigns
    rwa [Division.fmod_eq, if_pos hsigns, ← Division.toInt_remainder] at hmodulus

/-- A remainder to which the divisor has to be added. -/
theorem Builtin.quot_run_laws_signs :
    Builtin.quot.run [.int 7, .int (-2)] = .ok (.int (-3)) ∧
      ∃ q r m : Int64, Value.int (-3) = .int q ∧
        Builtin.rem.run [.int 7, .int (-2)] = .ok (.int r) ∧
        Builtin.mod.run [.int 7, .int (-2)] = .ok (.int m) ∧
        Builtin.divide.run [.int 7, .int (-2)] = .ok (.int q) ∧
        Division.Laws 7 (-2) q.toInt r.toInt m.toInt ∧
        Library.remainder "mod" 7 (-2) = .ok r ∧
        (r ≠ 0 ∧ decide (r < 0) ≠ decide ((-2 : Int64) < 0) → InRange (r.toInt + -2)) :=
  ⟨rfl, quot_run_laws rfl⟩

end Scriptlet
