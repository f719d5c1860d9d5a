/-
# AdManager.Md5.Sines — the constants of the algorithm.

Step `i` of `transform` adds the whole part of `2 ^ 32 * |sin (i + 1)|`, the angle in radians. Here it is
computed with integers: `exp I`, cut off behind 40 terms of its series, is a Gaussian integer over `40!`, and
its powers have the sines in their imaginary parts. What is cut off is so small that the whole parts are right.
-/
import Mathlib.Algebra.BigOperators.Field
import Mathlib.Analysis.Complex.Basic
import Mathlib.Analysis.Complex.Trigonometric
import Mathlib.Data.Nat.Cast.Field
import Mathlib.NumberTheory.Zsqrtd.GaussianInt

namespace AdManager.Md5

/-! ## With integers -/

/-- The first 40 terms of the series of `exp I`, times `40!`. -/
def expUnit : GaussianInt :=
  ∑ m ∈ Finset.range 40, ⟨0, 1⟩ ^ m * ((Nat.factorial 40 / Nat.factorial m : ℕ) : GaussianInt)

/-- The numerator of `2 ^ 32 * |sin k|`. -/
def sineNumerator (k : Nat) : Nat := 2 ^ 32 * (expUnit ^ k).im.natAbs

/-- Its denominator. -/
def sineDenominator (k : Nat) : Nat := Nat.factorial 40 ^ k

/-- The constant of step `i`. -/
def sineConstant (i : Nat) : UInt32 :=
  UInt32.ofNat (sineNumerator (i + 1) / sineDenominator (i + 1))

/-! ## The error -/

/-- The Gaussian integer stands for the sum of the series. -/
theorem expUnit_toComplex : (expUnit : ℂ) / (Nat.factorial 40 : ℂ) =
    ∑ m ∈ Finset.range 40, Complex.I ^ m / (Nat.factorial m : ℂ) := by
  rw [expUnit, map_sum, Finset.sum_div]
  refine Finset.sum_congr rfl ?_
  intro m hm
  have hle : m ≤ 40 := (Finset.mem_range.mp hm).le
  have hm : (Nat.factorial m : ℂ) ≠ 0 := Nat.cast_ne_zero.mpr (Nat.factorial_ne_zero m)
  have h40 : (Nat.factorial 40 : ℂ) ≠ 0 := Nat.cast_ne_zero.mpr (Nat.factorial_ne_zero 40)
  have hI : GaussianInt.toComplex ⟨0, 1⟩ = Complex.I := by simp [GaussianInt.toComplex_def]
  rw [map_mul, map_pow, hI, map_natCast, Nat.cast_div (Nat.factorial_dvd_factorial hle) hm]
  field_simp

theorem expUnit_close : ‖Complex.exp Complex.I - expUnit / (Nat.factorial 40 : ℂ)‖ ≤ 1 / 10 ^ 47 := by
  rw [expUnit_toComplex]
  refine (Complex.exp_bound Complex.norm_I.le (by norm_num)).trans ?_
  rw [Complex.norm_I]
  norm_num [Nat.factorial]

/-- Powers of two numbers that are close. -/
theorem norm_pow_sub_pow_le {z w : ℂ} {ε : ℝ} (hz : ‖z‖ = 1) (hw : ‖w‖ ≤ 2) (h : ‖z - w‖ ≤ ε) (k : Nat) :
    ‖z ^ k - w ^ k‖ ≤ (2 ^ k - 1) * ε := by
  induction k with
  | zero => simp
  | succ k ih =>
      have hsplit : z ^ (k + 1) - w ^ (k + 1) = z ^ k * (z - w) + (z ^ k - w ^ k) * w := by ring
      calc ‖z ^ (k + 1) - w ^ (k + 1)‖
          ≤ ‖z ^ k * (z - w)‖ + ‖(z ^ k - w ^ k) * w‖ := by rw [hsplit]; exact norm_add_le _ _
        _ = ‖z - w‖ + ‖z ^ k - w ^ k‖ * ‖w‖ := by rw [norm_mul, norm_mul, norm_pow, hz, one_pow, one_mul]
        _ ≤ ε + (2 ^ k - 1) * ε * 2 := by gcongr; exact (norm_nonneg _).trans ih
        _ = (2 ^ (k + 1) - 1) * ε := by ring

/-- The sine of a whole number, up to an error. -/
theorem sin_close (k : Nat) :
    |Real.sin k - (expUnit ^ k).im / (Nat.factorial 40 : ℝ) ^ k| ≤ 2 ^ k / 10 ^ 47 := by
  have hz : ‖Complex.exp Complex.I‖ = 1 := by
    rw [← one_mul Complex.I, ← Complex.ofReal_one]
    exact Complex.norm_exp_ofReal_mul_I 1
  have hw : ‖expUnit / (Nat.factorial 40 : ℂ)‖ ≤ 2 := by
    have hle := norm_le_norm_add_norm_sub' (expUnit / (Nat.factorial 40 : ℂ)) (Complex.exp Complex.I)
    rw [norm_sub_rev] at hle
    refine hle.trans ?_
    rw [hz]
    linarith only [expUnit_close, show (1 : ℝ) / 10 ^ 47 ≤ 1 by norm_num]
  have hpow := norm_pow_sub_pow_le hz hw expUnit_close k
  have him : (Complex.exp Complex.I ^ k - (expUnit / (Nat.factorial 40 : ℂ)) ^ k).im =
      Real.sin k - (expUnit ^ k).im / (Nat.factorial 40 : ℝ) ^ k := by
    have hexp : Complex.exp Complex.I ^ k = Complex.exp ((k : ℝ) * Complex.I) := by
      rw [← Complex.exp_nat_mul, Complex.ofReal_natCast]
    have hden : ((Nat.factorial 40 : ℂ)) ^ k = (((Nat.factorial 40 : ℝ) ^ k : ℝ) : ℂ) := by push_cast; rfl
    rw [Complex.sub_im, hexp, Complex.exp_ofReal_mul_I_im, div_pow, hden, Complex.div_ofReal_im, ← map_pow,
      ← GaussianInt.intCast_im]
  rw [← him]
  refine (Complex.abs_im_le_norm _).trans (hpow.trans ?_)
  rw [mul_one_div]
  gcongr
  linarith

theorem sineDenominator_pos (k : Nat) : 0 < sineDenominator k := Nat.pow_pos (Nat.factorial_pos 40)

/-- The fraction is the sine of `k` on the scale of a word, up to an error. -/
theorem fraction_close {k : Nat} (hk : k ≤ 64) :
    |2 ^ 32 * |Real.sin k| - (sineNumerator k : ℝ) / sineDenominator k| ≤ 1 / 10 ^ 18 := by
  have hfraction : (sineNumerator k : ℝ) / sineDenominator k =
      2 ^ 32 * |(expUnit ^ k).im / (Nat.factorial 40 : ℝ) ^ k| := by
    have hpos : (0 : ℝ) < (Nat.factorial 40 : ℝ) ^ k := by exact_mod_cast sineDenominator_pos k
    have habs : (((expUnit ^ k).im.natAbs : ℕ) : ℝ) = |((expUnit ^ k).im : ℝ)| := by
      rw [Nat.cast_natAbs, Int.cast_abs]
    rw [sineNumerator, sineDenominator, abs_div, abs_of_pos hpos, Nat.cast_mul, habs, mul_div_assoc]
    push_cast
    norm_num
  have hpow : (2 : ℝ) ^ k ≤ 2 ^ 64 := by gcongr; norm_num
  calc |2 ^ 32 * |Real.sin k| - (sineNumerator k : ℝ) / sineDenominator k|
      = 2 ^ 32 * |(|Real.sin k| - |(expUnit ^ k).im / (Nat.factorial 40 : ℝ) ^ k|)| := by
        rw [hfraction, ← mul_sub, abs_mul, abs_of_pos (by norm_num : (0 : ℝ) < 2 ^ 32)]
    _ ≤ 2 ^ 32 * (2 ^ k / 10 ^ 47) := by
        gcongr
        exact (abs_abs_sub_abs_le _ _).trans (sin_close k)
    _ ≤ 2 ^ 32 * (2 ^ 64 / 10 ^ 47) := by gcongr
    _ ≤ 1 / 10 ^ 18 := by norm_num

/-! ## Whole parts -/

/-- The fractions stay away from whole numbers. -/
theorem sine_margins : ∀ i < 64,
    sineDenominator (i + 1) ≤ sineNumerator (i + 1) % sineDenominator (i + 1) * 10 ^ 9 ∧
      sineNumerator (i + 1) % sineDenominator (i + 1) * 10 ^ 9 + sineDenominator (i + 1) ≤
        sineDenominator (i + 1) * 10 ^ 9 ∧
      sineNumerator (i + 1) / sineDenominator (i + 1) < 2 ^ 32 := by
  decide +kernel

/-- **The constants are the whole parts of sines.** -/
theorem sineConstant_eq {i : Nat} (h : i < 64) :
    (sineConstant i).toNat = ⌊2 ^ 32 * |Real.sin (i + 1)|⌋₊ := by
  obtain ⟨hlow, hhigh, hword⟩ := sine_margins i h
  have hclose := fraction_close (k := i + 1) (by omega)
  have hpos : (0 : ℝ) < sineDenominator (i + 1) := by exact_mod_cast sineDenominator_pos (i + 1)
  have hdiv : ((sineNumerator (i + 1) : ℕ) : ℝ) = sineDenominator (i + 1) *
      ((sineNumerator (i + 1) / sineDenominator (i + 1) : ℕ) : ℝ) +
        ((sineNumerator (i + 1) % sineDenominator (i + 1) : ℕ) : ℝ) := by
    exact_mod_cast (Nat.div_add_mod _ _).symm
  rw [sineConstant, UInt32.toNat_ofNat', Nat.mod_eq_of_lt hword]
  generalize sineNumerator (i + 1) / sineDenominator (i + 1) = q at *
  generalize sineNumerator (i + 1) % sineDenominator (i + 1) = r at *
  have hlow' : (1 : ℝ) / 10 ^ 9 ≤ r / sineDenominator (i + 1) := by
    rw [div_le_div_iff₀ (by norm_num) hpos, one_mul]
    exact_mod_cast hlow
  have hhigh' : (r : ℝ) / sineDenominator (i + 1) ≤ 1 - 1 / 10 ^ 9 := by
    rw [div_le_iff₀ hpos]
    have hcast : (r : ℝ) * 10 ^ 9 + sineDenominator (i + 1) ≤ sineDenominator (i + 1) * 10 ^ 9 := by
      exact_mod_cast hhigh
    linarith
  have hsum : (sineNumerator (i + 1) : ℝ) / sineDenominator (i + 1) =
      q + r / sineDenominator (i + 1) := by
    rw [hdiv, add_div, mul_div_cancel_left₀ _ hpos.ne']
  rw [hsum, Nat.cast_add, Nat.cast_one, abs_le] at hclose
  have hsmall : (1 : ℝ) / 10 ^ 18 < 1 / 10 ^ 9 := by norm_num
  symm
  rw [Nat.floor_eq_iff (by positivity)]
  constructor
  · linarith only [hclose.1, hlow', hsmall]
  · linarith only [hclose.2, hhigh', hsmall]

end AdManager.Md5
