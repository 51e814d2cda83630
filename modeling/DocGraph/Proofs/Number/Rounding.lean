import DocGraph.Number.Binary64
import Mathlib.Data.Int.Log
import Mathlib.Data.Rat.Floor
import Mathlib.Tactic.Linarith
import Mathlib.Tactic.Positivity
import Mathlib.Tactic.Ring

/-!
# Rounding to double precision

The number that a quotient is rounded to depends on its value only, not on the numerator and
denominator that it is written with. Every number in double precision has a mantissa of 53 bits, or
the least exponent. The numbers next to one are at least its `2⁵³`th part away, so that whatever
lies nearer to it than half of that is rounded to it.
-/

namespace DocGraph.Binary64

variable {num den num' den' m k : Nat} {e : Int} {negative : Bool} {q : ℚ}

/-! ## Quotients -/

theorem roundQuotient_bounds (hden : 0 < den) :
    2 * num ≤ (2 * roundQuotient num den + 1) * den ∧
      2 * roundQuotient num den * den ≤ 2 * num + den := by
  have hdivision := Nat.div_add_mod num den
  have hrest := Nat.mod_lt num hden
  unfold roundQuotient
  generalize num / den = below at *
  generalize num % den = rest at *
  simp only
  split_ifs <;> constructor <;> nlinarith

theorem roundQuotient_le (hden : 0 < den) (h : num ≤ k * den) : roundQuotient num den ≤ k := by
  have hbelow := (@roundQuotient_bounds num den hden).2
  by_contra hmore
  have := Nat.mul_le_mul_right den (not_le.1 hmore)
  rw [Nat.succ_mul] at this
  rw [Nat.mul_assoc] at hbelow
  omega

theorem le_roundQuotient (hden : 0 < den) (h : k * den ≤ num) : k ≤ roundQuotient num den := by
  have habove := (@roundQuotient_bounds num den hden).1
  by_contra hless
  have := Nat.mul_le_mul_right den (not_le.1 hless)
  rw [Nat.succ_mul] at this
  rw [Nat.add_mul, Nat.mul_assoc, Nat.one_mul] at habove
  omega

/-- The rounded quotient is at most one half away. -/
theorem abs_sub_roundQuotient_le (hden : 0 < den) :
    |(num : ℚ) / den - roundQuotient num den| ≤ 1 / 2 := by
  obtain ⟨habove, hbelow⟩ := @roundQuotient_bounds num den hden
  have hpos : (0 : ℚ) < den := by exact_mod_cast hden
  have habove : (2 * num : ℚ) ≤ (2 * roundQuotient num den + 1) * den := by exact_mod_cast habove
  have hbelow : (2 * roundQuotient num den * den : ℚ) ≤ 2 * num + den := by exact_mod_cast hbelow
  rw [abs_sub_le_iff]
  constructor
  · rw [sub_le_iff_le_add, div_le_iff₀ hpos]
    linarith
  · rw [sub_le_iff_le_add, ← sub_le_iff_le_add', le_div_iff₀ hpos]
    linarith

theorem roundQuotient_eq_of_near (hden : 0 < den) (h : |(num : ℚ) / den - m| < 1 / 2) :
    roundQuotient num den = m := by
  have hnear := @abs_sub_roundQuotient_le num den hden
  have hdistance : |((roundQuotient num den : ℤ) : ℚ) - ((m : ℤ) : ℚ)| < 1 := by
    push_cast
    calc |(roundQuotient num den : ℚ) - m|
        ≤ |(roundQuotient num den : ℚ) - num / den| + |(num : ℚ) / den - m| := abs_sub_le _ _ _
      _ < 1 := by rw [abs_sub_comm]; linarith
  rw [← Int.cast_sub, ← Int.cast_abs, ← Int.cast_one, Int.cast_lt, Int.abs_lt_one_iff] at hdistance
  omega

theorem roundQuotient_mul_right (num den : Nat) (hk : 0 < k) :
    roundQuotient (num * k) (den * k) = roundQuotient num den := by
  have hless : ∀ a b : Nat, 2 * (a * k) < b * k ↔ 2 * a < b := fun a b => by
    rw [← Nat.mul_assoc, Nat.mul_lt_mul_right hk]
  have hmore : ∀ a b : Nat, b * k < 2 * (a * k) ↔ b < 2 * a := fun a b => by
    rw [← Nat.mul_assoc, Nat.mul_lt_mul_right hk]
  unfold roundQuotient
  rw [Nat.mul_div_mul_right _ _ hk, Nat.mul_mod_mul_right]
  simp only [hless, hmore]

theorem roundQuotient_congr (hden : 0 < den) (hden' : 0 < den') (h : num * den' = num' * den) :
    roundQuotient num den = roundQuotient num' den' := by
  rw [← roundQuotient_mul_right num den hden', ← roundQuotient_mul_right num' den' hden, h,
    Nat.mul_comm den]

/-! ## Exponents -/

theorem scaleDown_den_pos (hden : 0 < den) (e : Int) : 0 < (scaleDown num den e).2 := by
  cases e with
  | ofNat k => exact Nat.mul_pos hden (Nat.two_pow_pos k)
  | negSucc k => exact hden

theorem cast_twoTo (k : Nat) : (twoTo k : ℚ) = 2 ^ k := by
  rw [twoTo, Nat.pow_eq, Nat.cast_pow, Nat.cast_ofNat]

/-- Scaling divides by a power of two. -/
theorem scaleDown_ratio (num den : Nat) (e : Int) :
    ((scaleDown num den e).1 : ℚ) / (scaleDown num den e).2 = num / den / 2 ^ e := by
  cases e with
  | ofNat k => simp [scaleDown, cast_twoTo, div_div]
  | negSucc k =>
    simp only [scaleDown, Nat.cast_mul, cast_twoTo, zpow_negSucc, div_inv_eq_mul]
    ring

/-- A logarithm is told by the two powers that its argument lies between. -/
theorem log_eq_of_between {b : Nat} (hb : 1 < b) (hlow : (b : ℚ) ^ e ≤ q)
    (hhigh : q < (b : ℚ) ^ (e + 1)) : Int.log b q = e := by
  have hpos : 0 < q := lt_of_lt_of_le (zpow_pos (by exact_mod_cast Nat.zero_lt_of_lt hb) e) hlow
  have hle := (Int.zpow_le_iff_le_log hb hpos).1 hlow
  have hlt := (Int.lt_zpow_iff_log_lt hb hpos).1 hhigh
  omega

theorem log_two_eq_of_between (hlow : (2 : ℚ) ^ e ≤ q) (hhigh : q < 2 ^ (e + 1)) :
    Int.log 2 q = e :=
  log_eq_of_between (by decide) (by exact_mod_cast hlow) (by exact_mod_cast hhigh)

/-- The lengths of numerator and denominator tell the size of a quotient up to a factor of two. -/
theorem ratio_between (hnum : 0 < num) (hden : 0 < den) :
    (2 : ℚ) ^ ((num.log2 : Int) - den.log2 - 1) ≤ num / den ∧
      (num : ℚ) / den < 2 ^ ((num.log2 : Int) - den.log2 + 1) := by
  have hpos : (0 : ℚ) < den := by exact_mod_cast hden
  have hlow : (2 : ℚ) ^ num.log2 ≤ num := by exact_mod_cast Nat.log2_self_le hnum.ne'
  have hhigh : (num : ℚ) < 2 ^ (num.log2 + 1) := by exact_mod_cast @Nat.lt_log2_self num
  have hlow' : (2 : ℚ) ^ den.log2 ≤ den := by exact_mod_cast Nat.log2_self_le hden.ne'
  have hhigh' : (den : ℚ) < 2 ^ (den.log2 + 1) := by exact_mod_cast @Nat.lt_log2_self den
  rw [sub_sub, zpow_sub₀ (by norm_num), add_comm ((num.log2 : Int) - _), ← add_sub_assoc,
    add_comm 1, zpow_sub₀ (by norm_num)]
  norm_cast
  constructor
  · rw [le_div_iff₀ hpos, div_mul_eq_mul_div, div_le_iff₀ (by positivity)]
    push_cast
    exact mul_le_mul hlow hhigh'.le hpos.le (by positivity)
  · rw [div_lt_iff₀ hpos, div_mul_eq_mul_div, lt_div_iff₀ (by positivity)]
    push_cast
    exact mul_lt_mul hhigh hlow' (by positivity) (by positivity)

theorem scaleDown_lt_iff (hden : 0 < den) :
    (scaleDown num den e).1 < twoTo k * (scaleDown num den e).2 ↔
      (num : ℚ) / den < 2 ^ (e + k) := by
  have hpos : (0 : ℚ) < (scaleDown num den e).2 := by exact_mod_cast scaleDown_den_pos hden e
  rw [zpow_add₀ (by norm_num), mul_comm ((2 : ℚ) ^ e), zpow_natCast, ← cast_twoTo,
    ← div_lt_iff₀ (zpow_pos (by norm_num) e), ← scaleDown_ratio, div_lt_iff₀ hpos]
  norm_cast

/-- The exponent of a quotient leaves 53 bits before the point. -/
theorem exponentFor_eq (hnum : 0 < num) (hden : 0 < den) :
    exponentFor num den = max minExponent (Int.log 2 ((num : ℚ) / den) - 52) := by
  obtain ⟨hlow, hhigh⟩ := ratio_between hnum hden
  rw [exponentFor]
  simp only [scaleDown_lt_iff hden]
  congr 1
  generalize (num.log2 : Int) - den.log2 = guess at *
  rw [show guess - 52 + ((52 : Nat) : Int) = guess by omega]
  split
  · next hbelow =>
    rw [log_two_eq_of_between hlow (by rwa [sub_add_cancel])]
    omega
  · next habove => rw [log_two_eq_of_between (not_lt.1 habove) hhigh]

theorem two_zpow_add (e : Int) (k : Nat) : (2 : ℚ) ^ (e + k) = 2 ^ k * 2 ^ e := by
  rw [zpow_add₀ (by norm_num), zpow_natCast, mul_comm]

theorem exponentFor_of_between (hnum : 0 < num) (hden : 0 < den) (hleast : minExponent ≤ e)
    (hlow : (2 : ℚ) ^ (e + 52) ≤ num / den ∨ e = minExponent)
    (hhigh : (num : ℚ) / den < 2 ^ (e + 53)) : exponentFor num den = e := by
  have hpos : (0 : ℚ) < num / den := div_pos (by exact_mod_cast hnum) (by exact_mod_cast hden)
  have hlog := (Int.lt_zpow_iff_log_lt (by decide : 1 < 2) hpos).1 (by exact_mod_cast hhigh)
  rw [exponentFor_eq hnum hden]
  rcases hlow with hlow | hleast'
  · have hlog' := (Int.zpow_le_iff_le_log (by decide : 1 < 2) hpos).1 (by exact_mod_cast hlow)
    omega
  · omega

/-! ## Numbers in double precision -/

/-- That a mantissa and an exponent are those of a number in double precision other than zero. -/
structure Fits (m : Nat) (e : Int) : Prop where
  pos : 0 < m
  lt : m < 2 ^ 53
  least_le : minExponent ≤ e
  le_greatest : e ≤ 971
  normal : 2 ^ 52 ≤ m ∨ e = minExponent

/-- That a number is one of double precision. There is one zero of each sign. -/
def IsDouble : Binary64 → Prop
  | .finite _ m e => m = 0 ∧ e = 0 ∨ Fits m e
  | _ => True

theorem exponentFor_congr (hnum : 0 < num) (hden : 0 < den) (hnum' : 0 < num') (hden' : 0 < den')
    (h : (num : ℚ) / den = num' / den') : exponentFor num den = exponentFor num' den' := by
  rw [exponentFor_eq hnum hden, exponentFor_eq hnum' hden', h]

/-- The number that a quotient is rounded to depends on its value only. -/
theorem ofRatio_congr (hden : 0 < den) (hden' : 0 < den') (h : (num : ℚ) / den = num' / den') :
    ofRatio negative num den = ofRatio negative num' den' := by
  have hpos : (0 : ℚ) < den := by exact_mod_cast hden
  have hpos' : (0 : ℚ) < den' := by exact_mod_cast hden'
  have hzero : num = 0 ↔ num' = 0 := by
    rw [← Nat.cast_eq_zero (R := ℚ), ← Nat.cast_eq_zero (R := ℚ), ← div_left_inj' hpos.ne',
      zero_div, h, div_eq_zero_iff, or_iff_left hpos'.ne']
  by_cases hnum : num = 0
  · rw [ofRatio, ofRatio, if_pos hnum, if_pos (hzero.1 hnum)]
  · have hnum' : num' ≠ 0 := fun hnone => hnum (hzero.2 hnone)
    have hexponent := exponentFor_congr (Nat.pos_of_ne_zero hnum) hden (Nat.pos_of_ne_zero hnum')
      hden' h
    have hratio : ∀ e, roundQuotient (scaleDown num den e).1 (scaleDown num den e).2 =
        roundQuotient (scaleDown num' den' e).1 (scaleDown num' den' e).2 := by
      intro e
      have hscaled := @scaleDown_den_pos num _ hden e
      have hscaled' := @scaleDown_den_pos num' _ hden' e
      apply roundQuotient_congr hscaled hscaled'
      have hsame := scaleDown_ratio num den e
      rw [h, ← scaleDown_ratio, div_eq_div_iff (by exact_mod_cast hscaled.ne')
        (by exact_mod_cast hscaled'.ne')] at hsame
      exact_mod_cast hsame
    simp only [ofRatio, if_neg hnum, if_neg hnum', hexponent, hratio]

/-- A quotient is rounded to the number that it is nearest to at its exponent. -/
theorem ofRatio_of_exponent (hnum : 0 < num) (hden : 0 < den) (he : exponentFor num den = e)
    (h : |(num : ℚ) / den / 2 ^ e - m| < 1 / 2) (hm : m ≠ 2 ^ 53) (hle : e ≤ 971) :
    ofRatio negative num den = .finite negative m e := by
  rw [← scaleDown_ratio] at h
  have hround := roundQuotient_eq_of_near (scaleDown_den_pos hden e) h
  have hsmall : ¬ m = twoTo 53 := hm
  simp only [ofRatio, if_neg hnum.ne', he, hround, if_neg hsmall]
  rw [if_neg (by omega)]

/-- A quotient that is rounded up to the next power of two has the exponent of that. -/
theorem ofRatio_of_carry (hnum : 0 < num) (hden : 0 < den) (he : exponentFor num den = e - 1)
    (h : |(num : ℚ) / den / 2 ^ (e - 1) - 2 ^ 53| < 1 / 2) (hle : e ≤ 971) :
    ofRatio negative num den = .finite negative (2 ^ 52) e := by
  rw [← scaleDown_ratio] at h
  have hround := @roundQuotient_eq_of_near _ _ (2 ^ 53) (scaleDown_den_pos hden (e - 1))
    (by exact_mod_cast h)
  have hcarry : 2 ^ 53 = twoTo 53 := rfl
  simp only [ofRatio, if_neg hnum.ne', he, hround, if_pos hcarry]
  rw [sub_add_cancel, if_neg (by omega)]
  rfl

/-- A distance in units is told by the distance itself. -/
theorem abs_div_sub_lt_half {unit c : ℚ} (hunit : 0 < unit) (h : |q - c * unit| < unit / 2) :
    |q / unit - c| < 1 / 2 := by
  rw [show q / unit - c = (q - c * unit) / unit by field_simp, abs_div, abs_of_pos hunit,
    div_lt_iff₀ hunit]
  linarith

/-- What is nearer to a power of two than its `2⁵⁴`th part is rounded to it from below, too, where
the numbers in double precision stand twice as close. -/
theorem ofRatio_of_near_below (h : Fits m e) (hden : 0 < den) (hleast : e ≠ minExponent)
    (hnear : |(num : ℚ) / den - m * 2 ^ e| < m * 2 ^ e / 2 ^ 54)
    (hless : (num : ℚ) / den < 2 ^ (e + 52)) :
    ofRatio negative num den = .finite negative m e := by
  have hunit : (0 : ℚ) < 2 ^ e := zpow_pos (by norm_num) e
  obtain ⟨habove, hbelow⟩ := abs_sub_lt_iff.1 hnear
  have hsmall : (num : ℚ) / den < 2 ^ 52 * 2 ^ e := by
    rwa [show e + 52 = e + ((52 : Nat) : Int) from rfl, two_zpow_add] at hless
  have hmantissa : m = 2 ^ 52 := by
    have hless : (m : ℚ) < 2 ^ 52 + 1 := by nlinarith
    have hless : m < 2 ^ 52 + 1 := by exact_mod_cast hless
    have := h.normal.resolve_right hleast
    omega
  subst hmantissa
  push_cast at hnear hbelow
  have hhalf : (2 : ℚ) ^ e = 2 * 2 ^ (e - 1) := by rw [zpow_sub_one₀ (by norm_num)]; ring
  have hnum : 0 < num := by
    rw [Nat.pos_iff_ne_zero]
    rintro rfl
    simp at hbelow
    linarith
  have hexponent : exponentFor num den = e - 1 := by
    have hleast' := h.least_le
    apply exponentFor_of_between hnum hden (by omega)
    · left
      rw [show e - 1 + 52 = e + ((51 : Nat) : Int) by omega, two_zpow_add]
      linarith
    · rwa [show e - 1 + 53 = e + 52 by omega]
  refine ofRatio_of_carry hnum hden hexponent ?_ h.le_greatest
  apply abs_div_sub_lt_half (zpow_pos (by norm_num) _)
  rw [hhalf] at hnear
  rw [show (2 : ℚ) ^ 53 * 2 ^ (e - 1) = 2 ^ 52 * (2 * 2 ^ (e - 1)) by ring]
  linarith

/-- What is nearer to a number than its `2⁵⁴`th part is rounded to it. -/
theorem ofRatio_of_near (h : Fits m e) (hden : 0 < den)
    (hnear : |(num : ℚ) / den - m * 2 ^ e| < m * 2 ^ e / 2 ^ 54) :
    ofRatio negative num den = .finite negative m e := by
  have hunit : (0 : ℚ) < 2 ^ e := zpow_pos (by norm_num) e
  have hone : (1 : ℚ) ≤ m := by exact_mod_cast h.pos
  have htop : (m : ℚ) + 1 ≤ 2 ^ 53 := by exact_mod_cast h.lt
  obtain ⟨habove, hbelow⟩ := abs_sub_lt_iff.1 hnear
  by_cases hsame : (2 : ℚ) ^ (e + 52) ≤ num / den ∨ e = minExponent
  · have hnum : 0 < num := by
      rw [Nat.pos_iff_ne_zero]
      rintro rfl
      simp at hbelow
      nlinarith
    have hupper : (num : ℚ) / den < 2 ^ (e + 53) := by
      rw [show e + 53 = e + ((53 : Nat) : Int) from rfl, two_zpow_add]
      nlinarith
    have hexponent := exponentFor_of_between hnum hden h.least_le hsame hupper
    refine ofRatio_of_exponent hnum hden hexponent ?_ h.lt.ne h.le_greatest
    apply abs_div_sub_lt_half hunit
    nlinarith
  · rw [not_or, not_le] at hsame
    exact ofRatio_of_near_below h hden hsame.2 hnear hsame.1

/-- A quotient at its exponent has a mantissa of 53 bits, or the least exponent. -/
theorem mantissa_bounds (hnum : 0 < num) (hden : 0 < den) (he : exponentFor num den = e) :
    roundQuotient (scaleDown num den e).1 (scaleDown num den e).2 ≤ 2 ^ 53 ∧
      (2 ^ 52 ≤ roundQuotient (scaleDown num den e).1 (scaleDown num den e).2 ∨
        e = minExponent) := by
  have hpos : (0 : ℚ) < num / den := div_pos (by exact_mod_cast hnum) (by exact_mod_cast hden)
  have hscaled := @scaleDown_den_pos num _ hden e
  rw [exponentFor_eq hnum hden] at he
  constructor
  · have hlt : (num : ℚ) / den < 2 ^ (e + (53 : Nat)) := by
      exact_mod_cast (Int.lt_zpow_iff_log_lt (by decide : 1 < 2) hpos).2 (by omega)
    exact roundQuotient_le hscaled ((scaleDown_lt_iff hden).2 hlt).le
  · by_cases hleast : e = minExponent
    · exact .inr hleast
    · have hle : (2 : ℚ) ^ (e + (52 : Nat)) ≤ num / den := by
        exact_mod_cast (Int.zpow_le_iff_le_log (by decide : 1 < 2) hpos).2 (by omega)
      exact .inl (le_roundQuotient hscaled (not_lt.1 fun hlt =>
        (not_lt.2 hle) ((scaleDown_lt_iff hden).1 hlt)))

/-- What is rounded to has its mantissa in 53 bits, or is too small for any. -/
theorem fits_of_ofRatio {sign : Bool} (hden : 0 < den)
    (h : ofRatio negative num den = .finite sign m e) : m = 0 ∨ Fits m e := by
  by_cases hnone : num = 0
  · rw [ofRatio, if_pos hnone] at h
    cases h
    exact .inl rfl
  have hnum : 0 < num := Nat.pos_of_ne_zero hnone
  obtain ⟨hupper, hlower⟩ := mantissa_bounds hnum hden rfl
  have hleast : minExponent ≤ exponentFor num den := by
    rw [exponentFor_eq hnum hden]
    omega
  simp only [ofRatio, if_neg hnone] at h
  generalize exponentFor num den = scale at *
  generalize roundQuotient (scaleDown num den scale).1 (scaleDown num den scale).2 = mantissa at *
  by_cases hcarry : mantissa = twoTo 53
  · simp only [if_pos hcarry] at h
    split at h
    · cases h
    · cases h
      exact .inr ⟨by decide, by decide, by omega, by omega, .inl (by decide)⟩
  · simp only [if_neg hcarry] at h
    split at h
    · cases h
    · cases h
      have hne : m ≠ 2 ^ 53 := hcarry
      rcases Nat.eq_zero_or_pos m with hzero | hpos
      · exact .inl hzero
      · exact .inr ⟨hpos, by omega, hleast, by omega, hlower⟩

end DocGraph.Binary64
