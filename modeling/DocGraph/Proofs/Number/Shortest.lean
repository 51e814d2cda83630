import DocGraph.Proofs.Number.Rounding
import Mathlib.Algebra.Order.Floor.Semifield

/-!
# Digits that round back

What some digits with a power of ten are rounded to depends on their value only. The order of a
number tells how many digits are there before its point, and seventeen digits from there on are
always enough: the nearest point of that grid is nearer to the number than its `2⁵⁴`th part. So the
search for the fewest digits ends with some that are rounded to the number.
-/

namespace DocGraph.Binary64

variable {digits digits' m tries count : Nat} {exponent exponent' e power order : Int}
  {negative sign : Bool} {q : ℚ}

/-! ## The value of decimal digits -/

/-- The value of some digits with a power of ten. -/
def decimalValue (digits : Nat) (exponent : Int) : ℚ := digits * 10 ^ exponent

theorem cast_tenTo (k : Nat) : (tenTo k : ℚ) = 10 ^ k := by
  rw [tenTo, Nat.pow_eq, Nat.cast_pow, Nat.cast_ofNat]

/-- The count of digits and the exponent tell the order of a decimal number. -/
theorem length_toDigits_add (h : 0 < digits) (exponent : Int) :
    ((Nat.toDigits 10 digits).length : Int) + exponent =
      Int.log 10 (decimalValue digits exponent) + 1 := by
  obtain ⟨before, hbefore⟩ : ∃ before, (Nat.toDigits 10 digits).length = before + 1 :=
    Nat.exists_eq_succ_of_ne_zero Nat.length_toDigits_pos.ne'
  have hhigh : digits < 10 ^ (before + 1) :=
    (Nat.length_toDigits_le_iff (by decide) (by omega)).1 hbefore.le
  have hlow : 10 ^ before ≤ digits := by
    rcases Nat.eq_zero_or_pos before with rfl | hpos
    · exact h
    · by_contra hless
      have := (Nat.length_toDigits_le_iff (b := 10) (by decide) hpos).2 (not_le.1 hless)
      omega
  have hunit : (0 : ℚ) < 10 ^ exponent := zpow_pos (by norm_num) exponent
  have hlow : (10 : ℚ) ^ before ≤ digits := by exact_mod_cast hlow
  have hhigh : (digits : ℚ) < 10 ^ (before + 1) := by exact_mod_cast hhigh
  have hpower : ∀ k : Nat, ((10 : Nat) : ℚ) ^ ((k : Int) + exponent) = 10 ^ k * 10 ^ exponent := by
    intro k
    rw [Nat.cast_ofNat, zpow_add₀ (by norm_num), zpow_natCast]
  have hlog : Int.log 10 (decimalValue digits exponent) = before + exponent := by
    apply log_eq_of_between (by decide)
    · rw [hpower]
      exact mul_le_mul_of_nonneg_right hlow hunit.le
    · rw [add_right_comm, ← Nat.cast_succ, hpower]
      exact mul_lt_mul_of_pos_right hhigh hunit
  rw [hbefore, hlog]
  omega

/-- The numerator and the denominator that decimal digits are rounded as. -/
def decimalRatio (digits : Nat) : Int → Nat × Nat
  | .ofNat k => (digits * tenTo k, 1)
  | .negSucc k => (digits, tenTo (k + 1))

theorem decimalRatio_den_pos (digits : Nat) (exponent : Int) :
    0 < (decimalRatio digits exponent).2 := by
  cases exponent with
  | ofNat k => exact Nat.one_pos
  | negSucc k => exact Nat.pow_pos (by decide)

theorem decimalRatio_value (digits : Nat) (exponent : Int) :
    ((decimalRatio digits exponent).1 : ℚ) / (decimalRatio digits exponent).2 =
      decimalValue digits exponent := by
  cases exponent with
  | ofNat k => simp [decimalRatio, decimalValue, cast_tenTo]
  | negSucc k =>
    simp only [decimalRatio, decimalValue, cast_tenTo, zpow_negSucc]
    rfl

theorem ofDecimal_eq (h : 0 < digits) :
    ofDecimal negative digits exponent =
      if Int.log 10 (decimalValue digits exponent) + 1 > 400 then .infinite negative
      else if Int.log 10 (decimalValue digits exponent) + 1 < -400 then .finite negative 0 0
      else ofRatio negative (decimalRatio digits exponent).1 (decimalRatio digits exponent).2 := by
  simp only [ofDecimal, if_neg h.ne', length_toDigits_add h]
  cases exponent <;> rfl

/-- What decimal digits are rounded to depends on their value only. -/
theorem ofDecimal_congr (h : decimalValue digits exponent = decimalValue digits' exponent') :
    ofDecimal negative digits exponent = ofDecimal negative digits' exponent' := by
  have hzero : digits = 0 ↔ digits' = 0 := by
    have hunit : ∀ x : Int, (10 : ℚ) ^ x ≠ 0 := fun x => (zpow_pos (by norm_num) x).ne'
    rw [decimalValue, decimalValue] at h
    constructor
    · rintro rfl
      simpa [hunit] using h.symm
    · rintro rfl
      simpa [hunit] using h
  by_cases hnone : digits = 0
  · simp only [ofDecimal, if_pos hnone, if_pos (hzero.1 hnone)]
  · have hpos := Nat.pos_of_ne_zero hnone
    have hpos' := Nat.pos_of_ne_zero fun hnone' => hnone (hzero.2 hnone')
    have hratio := @ofRatio_congr (decimalRatio digits exponent).1 _
      (decimalRatio digits' exponent').1 _ negative (decimalRatio_den_pos _ _)
      (decimalRatio_den_pos _ _) (by rw [decimalRatio_value, decimalRatio_value, h])
    rw [ofDecimal_eq hpos, ofDecimal_eq hpos', h, hratio]

/-- What is read has its mantissa in 53 bits, or is too small for any. -/
theorem fits_of_ofDecimal (h : ofDecimal negative digits exponent = .finite sign m e) :
    m = 0 ∨ Fits m e := by
  by_cases hnone : digits = 0
  · simp only [ofDecimal, if_pos hnone] at h
    cases h
    exact .inl rfl
  · rw [ofDecimal_eq (Nat.pos_of_ne_zero hnone)] at h
    split at h
    · cases h
    · split at h
      · cases h
        exact .inl rfl
      · exact fits_of_ofRatio (decimalRatio_den_pos _ _) h

/-! ## The order of a number -/

/-- The value of a mantissa with an exponent. -/
def magnitude (m : Nat) (e : Int) : ℚ := m * 2 ^ e

namespace Fits

theorem magnitude_pos (h : Fits m e) : 0 < magnitude m e :=
  mul_pos (by exact_mod_cast h.pos) (zpow_pos (by norm_num) e)

theorem le_magnitude (h : Fits m e) : (10 : ℚ) ^ (-324 : Int) ≤ magnitude m e := by
  have hone : (1 : ℚ) ≤ m := by exact_mod_cast h.pos
  have hleast : (2 : ℚ) ^ 1074 ≤ 10 ^ 324 := by
    exact_mod_cast (by decide +kernel : 2 ^ 1074 ≤ 10 ^ 324)
  calc (10 : ℚ) ^ (-324 : Int) ≤ 2 ^ minExponent := inv_anti₀ (by positivity) hleast
    _ ≤ 2 ^ e := zpow_le_zpow_right₀ (by norm_num) h.least_le
    _ ≤ m * 2 ^ e := le_mul_of_one_le_left (zpow_pos (by norm_num) e).le hone

theorem magnitude_lt (h : Fits m e) : magnitude m e < 10 ^ (309 : Int) := by
  have htop : (m : ℚ) ≤ 2 ^ 53 := by exact_mod_cast h.lt.le
  have hgreatest : (2 : ℚ) ^ 53 * 2 ^ 971 < 10 ^ 309 := by
    exact_mod_cast (by decide +kernel : 2 ^ 53 * 2 ^ 971 < 10 ^ 309)
  calc magnitude m e ≤ 2 ^ 53 * 2 ^ e :=
        mul_le_mul_of_nonneg_right htop (zpow_pos (by norm_num) e).le
    _ ≤ 2 ^ 53 * 2 ^ (971 : Int) := by
        gcongr
        · norm_num
        · exact h.le_greatest
    _ < 10 ^ (309 : Int) := hgreatest

end Fits

theorem overPower_den_pos (m : Nat) (e power : Int) : 0 < (overPower m e power).2 := by
  have hscaled := @scaleDown_den_pos m _ Nat.one_pos (-e)
  cases power with
  | ofNat k => exact Nat.mul_pos hscaled (Nat.pow_pos (by decide))
  | negSucc k => exact hscaled

theorem overPower_ratio (m : Nat) (e power : Int) :
    ((overPower m e power).1 : ℚ) / (overPower m e power).2 = magnitude m e / 10 ^ power := by
  have hscaled : ((scaleDown m 1 (-e)).1 : ℚ) / (scaleDown m 1 (-e)).2 = magnitude m e := by
    rw [scaleDown_ratio, zpow_neg, div_inv_eq_mul, Nat.cast_one, div_one, magnitude]
  rw [← hscaled]
  cases power with
  | ofNat k => simp [overPower, cast_tenTo, div_div]
  | negSucc k =>
    simp only [overPower, Nat.cast_mul, cast_tenTo, zpow_negSucc, div_inv_eq_mul]
    ring

theorem log_mul_zpow (hq : 0 < q) (k : Int) : Int.log 10 (q * 10 ^ k) = Int.log 10 q + k := by
  have hunit : (0 : ℚ) < 10 ^ k := zpow_pos (by norm_num) k
  have hlow := Int.zpow_log_le_self (b := 10) (by decide) hq
  have hhigh := Int.lt_zpow_succ_log_self (b := 10) (by decide) q
  have hpower : ∀ j : Int, ((10 : Nat) : ℚ) ^ (j + k) = ((10 : Nat) : ℚ) ^ j * 10 ^ k := by
    intro j
    rw [zpow_add₀ (by norm_num), Nat.cast_ofNat]
  apply log_eq_of_between (by decide)
  · rw [hpower]
    exact mul_le_mul_of_nonneg_right hlow hunit.le
  · rw [add_right_comm, hpower]
    exact mul_lt_mul_of_pos_right hhigh hunit

/-- The order is the power of ten of the first digit. -/
theorem orderOf_eq (h : Fits m e) : orderOf m e = Int.log 10 (magnitude m e) := by
  have hratio := overPower_ratio m e (-330)
  rw [zpow_neg, div_inv_eq_mul] at hratio
  have hone : (1 : ℚ) ≤ (overPower m e (-330)).1 / (overPower m e (-330)).2 := by
    rw [hratio]
    have hunit : (0 : ℚ) < 10 ^ (330 : Int) := zpow_pos (by norm_num) _
    calc (1 : ℚ) ≤ 10 ^ (-324 + 330 : Int) := one_le_zpow₀ (by norm_num) (by norm_num)
      _ = 10 ^ (-324 : Int) * 10 ^ (330 : Int) := zpow_add₀ (by norm_num) _ _
      _ ≤ magnitude m e * 10 ^ (330 : Int) := mul_le_mul_of_nonneg_right h.le_magnitude hunit.le
  have hwhole := Nat.floor_div_eq_div (K := ℚ) (overPower m e (-330)).1 (overPower m e (-330)).2
  have hpos : 0 < (overPower m e (-330)).1 / (overPower m e (-330)).2 := by
    rw [← hwhole]
    exact Nat.floor_pos.2 hone
  have hlog : Int.log 10 (((overPower m e (-330)).1 / (overPower m e (-330)).2 : Nat) : ℚ) =
      Int.log 10 (magnitude m e) + 330 := by
    rw [Int.log_natCast, ← hwhole, ← Int.log_of_one_le_right 10 hone, hratio,
      log_mul_zpow h.magnitude_pos]
  have hlength := length_toDigits_add hpos 0
  rw [decimalValue, zpow_zero, mul_one, hlog] at hlength
  simp only [orderOf]
  omega

/-! ## Seventeen digits -/

/-- Digits that are nearer to a number than its `2⁵⁴`th part are rounded to it. -/
theorem ofDecimal_of_near (h : Fits m e)
    (hnear : |decimalValue digits power - magnitude m e| < magnitude m e / 2 ^ 54) :
    ofDecimal negative digits power = .finite negative m e := by
  obtain ⟨habove, hbelow⟩ := abs_sub_lt_iff.1 hnear
  have hpos := h.magnitude_pos
  have hlow := h.le_magnitude
  have hhigh := h.magnitude_lt
  have hvalue : 0 < decimalValue digits power := by linarith
  have hdigits : 0 < digits := by
    rw [Nat.pos_iff_ne_zero]
    rintro rfl
    simp [decimalValue] at hvalue
  have hlower : (-330 : Int) ≤ Int.log 10 (decimalValue digits power) := by
    rw [← Int.zpow_le_iff_le_log (by decide) hvalue]
    have hstep : (10 : ℚ) ^ (-324 : Int) = 10 ^ (-330 : Int) * 10 ^ (6 : Int) :=
      zpow_add₀ (by norm_num) (-330) 6
    have hunit : (0 : ℚ) < 10 ^ (-330 : Int) := zpow_pos (by norm_num) _
    rw [hstep] at hlow
    rw [Nat.cast_ofNat]
    generalize (10 : ℚ) ^ (-330 : Int) = unit at *
    norm_num at hlow
    linarith
  have hupper : Int.log 10 (decimalValue digits power) < 310 := by
    rw [← Int.lt_zpow_iff_log_lt (by decide) hvalue]
    have hstep : (10 : ℚ) ^ (310 : Int) = 10 ^ (309 : Int) * 10 ^ (1 : Int) :=
      zpow_add₀ (by norm_num) 309 1
    rw [Nat.cast_ofNat, hstep, zpow_one]
    generalize (10 : ℚ) ^ (309 : Int) = unit at hhigh ⊢
    linarith only [habove, hhigh, hpos]
  rw [ofDecimal_eq hdigits, if_neg (by omega), if_neg (by omega)]
  apply ofRatio_of_near h (decimalRatio_den_pos _ _)
  rw [decimalRatio_value]
  exact hnear

/-- The nearest point of the grid of seventeen digits is as near as that. -/
theorem near_of_seventeen (h : Fits m e) (hpower : power = orderOf m e - 16) :
    |decimalValue (roundQuotient (overPower m e power).1 (overPower m e power).2) power -
      magnitude m e| < magnitude m e / 2 ^ 54 := by
  have hround := @abs_sub_roundQuotient_le (overPower m e power).1 _ (overPower_den_pos m e power)
  rw [overPower_ratio] at hround
  generalize roundQuotient (overPower m e power).1 (overPower m e power).2 = digits at *
  have hunit : (0 : ℚ) < 10 ^ power := zpow_pos (by norm_num) power
  have horder : (10 : ℚ) ^ power * 10 ^ 16 ≤ magnitude m e := by
    have hlog := Int.zpow_log_le_self (b := 10) (by decide) h.magnitude_pos
    rw [← orderOf_eq h, show orderOf m e = power + (16 : Nat) by omega, Nat.cast_ofNat,
      zpow_add₀ (by norm_num), zpow_natCast] at hlog
    exact hlog
  have hscaled : |magnitude m e - decimalValue digits power| ≤ 1 / 2 * 10 ^ power := by
    have hproduct : magnitude m e - decimalValue digits power =
        (magnitude m e / 10 ^ power - digits) * 10 ^ power := by
      rw [sub_mul, div_mul_cancel₀ _ hunit.ne', decimalValue]
    rw [hproduct, abs_mul, abs_of_pos hunit]
    exact mul_le_mul_of_nonneg_right hround hunit.le
  rw [abs_sub_comm]
  have := h.magnitude_pos
  linarith

/-! ## The search -/

theorem roundsTo_iff :
    roundsTo digits power m e = true ↔ ofDecimal false digits power = .finite false m e :=
  beq_iff_eq

theorem roundsTo_of_gridPoint? (h : gridPoint? m e power = some digits) :
    roundsTo digits power m e = true := by
  simp only [gridPoint?] at h
  generalize roundQuotient (overPower m e power).1 (overPower m e power).2 = nearest at h
  generalize (if nearest = _ then _ else _ : Nat) = other at h
  split at h
  · next hnearest =>
    cases h
    exact hnearest
  · split at h
    · next hother =>
      cases h
      exact hother
    · cases h

/-- There is a point among seventeen digits. -/
theorem isSome_gridPoint?_seventeen (h : Fits m e) (hpower : power = orderOf m e - 16) :
    (gridPoint? m e power).isSome = true := by
  have hrounds := roundsTo_iff.2 (ofDecimal_of_near h (near_of_seventeen h hpower))
  simp only [gridPoint?, if_pos hrounds, Option.isSome_some]

/-- The search ends with digits that round back if some count on its way has any. -/
theorem roundsTo_shortestFrom
    (h : ∃ k < tries, (gridPoint? m e (order - (count + k : Nat) + 1)).isSome = true) :
    roundsTo (shortestFrom m e order tries count).1 (shortestFrom m e order tries count).2 m e =
      true := by
  induction tries generalizing count with
  | zero =>
    obtain ⟨k, hk, -⟩ := h
    exact absurd hk (Nat.not_lt_zero k)
  | succ tries ih =>
    simp only [shortestFrom]
    cases hpoint : gridPoint? m e (order - count + 1) with
    | some digits => exact roundsTo_of_gridPoint? hpoint
    | none =>
      apply ih
      obtain ⟨k, hk, hsome⟩ := h
      cases k with
      | zero =>
        rw [Nat.add_zero, hpoint] at hsome
        cases hsome
      | succ k =>
        refine ⟨k, Nat.lt_of_succ_lt_succ hk, ?_⟩
        rwa [← Nat.add_assoc, Nat.add_right_comm] at hsome

/-- The sign has no part in the rounding. -/
theorem ofRatio_negative {num den : Nat} (h : ofRatio false num den = .finite false m e)
    (negative : Bool) : ofRatio negative num den = .finite negative m e := by
  by_cases hnone : num = 0
  · rw [ofRatio, if_pos hnone] at h ⊢
    cases h
    rfl
  · simp only [ofRatio, if_neg hnone] at h ⊢
    generalize (if _ = twoTo 53 then _ else _ : Nat × Int) = scaled at h ⊢
    split at h
    · cases h
    · next hle =>
      cases h
      rw [if_neg hle]

theorem ofDecimal_negative (h : ofDecimal false digits power = .finite false m e)
    (negative : Bool) : ofDecimal negative digits power = .finite negative m e := by
  by_cases hnone : digits = 0
  · simp only [ofDecimal, if_pos hnone] at h ⊢
    cases h
    rfl
  · rw [ofDecimal_eq (Nat.pos_of_ne_zero hnone)] at h ⊢
    split at h
    · cases h
    · next hlarge =>
      rw [if_neg hlarge]
      split at h
      · next hsmall =>
        cases h
        rw [if_pos hsmall]
      · next hsmall =>
        rw [if_neg hsmall]
        exact ofRatio_negative h negative

/-- The fewest digits that the search finds are rounded to the number. -/
theorem ofDecimal_shortest (h : Fits m e) (negative : Bool) :
    ofDecimal negative (shortestFrom m e (orderOf m e) 17 1).1
      (shortestFrom m e (orderOf m e) 17 1).2 = .finite negative m e := by
  apply ofDecimal_negative
  apply roundsTo_iff.1
  apply roundsTo_shortestFrom
  refine ⟨16, by decide, ?_⟩
  exact isSome_gridPoint?_seventeen h (by omega)

end DocGraph.Binary64
