import Keyframes.Proofs.Rounding
import Keyframes.Decimal.Significant
import Keyframes.Decimal.Read

/-!
# Nine significant digits

A `Scientific` stands for the rational number `digits * 10 ^ exponent` (`Scientific.value`).
Reading it as a double depends on that value only (`toFloat_congr`). Rounding a positive value
to `k` significant digits moves it by at most half a unit in the last place, and `k` digits of
that unit fit below the value (`roundSignificant_near`).

With nine digits that unit is under a ten-millionth of the value, while single precision keeps
24 bits: the nearest decimal of nine digits to a nonzero single-precision value, read as a double
and rounded to single precision again, gives the value back
(`toSingle_roundSignificant_nine`).

Main statement: `toSingle_roundSignificant_nine`.
-/

namespace Keyframes.Decimal
open Keyframes.Binary

/-! ## The value of a decimal -/

/-- The value of a decimal. -/
def Scientific.value (d : Scientific) : ℚ :=
  d.digits * 10 ^ d.exponent

theorem Scientific.value_eq_zero {d : Scientific} : d.value = 0 ↔ d.digits = 0 := by
  unfold Scientific.value
  rw [mul_eq_zero, or_iff_left (zpow_ne_zero _ (by norm_num))]
  exact_mod_cast Iff.rfl

theorem scale10_snd_pos {num den : Nat} (k : Int) (hden : 0 < den) : 0 < (scale10 num den k).2 := by
  unfold scale10
  split
  · exact hden
  · exact Nat.mul_pos hden (Nat.pow_pos (by decide))

theorem ratio_scale10 (num den : Nat) (k : Int) (hden : 0 < den) :
    ((scale10 num den k).1 : ℚ) / (scale10 num den k).2 = (num : ℚ) / den * 10 ^ k := by
  unfold scale10
  split
  · rename_i nonneg
    have : (10 : ℚ) ^ k = 10 ^ k.toNat := by
      rw [← zpow_natCast, Int.toNat_of_nonneg nonneg]
    push_cast
    rw [this]
    ring
  · rename_i neg
    have : (10 : ℚ) ^ k = ((10 : ℚ) ^ (-k).toNat)⁻¹ := by
      rw [← zpow_natCast, Int.toNat_of_nonneg (by omega), zpow_neg, inv_inv]
    push_cast
    rw [this]
    field_simp

/-- A positive number has `length n` digits: it lies between `10 ^ (length n - 1)` and
`10 ^ length n`. -/
theorem length_bounds {n : Nat} (positive : 0 < n) :
    10 ^ (length n - 1) ≤ n ∧ n < 10 ^ length n := by
  have within := (Nat.length_toDigits_le_iff (n := n) (by decide : 1 < 10) (length_pos n)).1
    (Nat.le_refl _)
  refine ⟨?_, within⟩
  by_cases one : length n = 1
  · rw [one]
    exact positive
  · have shorter := Nat.length_toDigits_le_iff (n := n) (k := length n - 1) (by decide : 1 < 10)
      (by have := length_pos n; omega)
    refine Nat.le_of_not_lt fun below => ?_
    have short : length n ≤ length n - 1 := shorter.2 below
    have := length_pos n
    omega

theorem value_bounds {d : Scientific} (positive : 0 < d.digits) :
    (10 : ℚ) ^ ((length d.digits : Int) + d.exponent - 1) ≤ d.value ∧
      d.value < 10 ^ ((length d.digits : Int) + d.exponent) := by
  obtain ⟨low, high⟩ := length_bounds positive
  have lengthPos := length_pos d.digits
  have split : ((length d.digits : Int) + d.exponent - 1) = ((length d.digits - 1 : Nat) : Int) + d.exponent := by
    omega
  have lowQ : (10 : ℚ) ^ (length d.digits - 1) ≤ d.digits := by exact_mod_cast low
  have highQ : (d.digits : ℚ) < 10 ^ length d.digits := by exact_mod_cast high
  unfold Scientific.value
  rw [split, zpow_add₀ (by norm_num), zpow_add₀ (by norm_num), zpow_natCast, zpow_natCast]
  exact ⟨mul_le_mul_of_nonneg_right lowQ (by positivity),
    mul_lt_mul_of_pos_right highQ (by positivity)⟩

/-- Two decimals of one positive value have their points at one place. -/
theorem top_eq {d e : Scientific} (hd : 0 < d.digits) (he : 0 < e.digits)
    (same : d.value = e.value) :
    (length d.digits : Int) + d.exponent = (length e.digits : Int) + e.exponent := by
  obtain ⟨dLow, dHigh⟩ := value_bounds hd
  obtain ⟨eLow, eHigh⟩ := value_bounds he
  rw [same] at dLow dHigh
  have below := (zpow_lt_zpow_iff_right₀ (by norm_num : (1 : ℚ) < 10)).1 (dLow.trans_lt eHigh)
  have above := (zpow_lt_zpow_iff_right₀ (by norm_num : (1 : ℚ) < 10)).1 (eLow.trans_lt dHigh)
  omega

theorem toFloat_congr (negative : Bool) {d e : Scientific} (same : d.value = e.value) :
    d.toFloat negative = e.toFloat negative := by
  by_cases zero : d.digits = 0
  · have eZero : e.digits = 0 := Scientific.value_eq_zero.1 (same ▸ Scientific.value_eq_zero.2 zero)
    rw [Scientific.toFloat, Scientific.toFloat, if_pos zero, if_pos eZero]
  · have eZero : e.digits ≠ 0 := fun eZero =>
      zero (Scientific.value_eq_zero.1 (same.symm ▸ Scientific.value_eq_zero.2 eZero))
    unfold Scientific.toFloat
    rw [if_neg zero, if_neg eZero]
    dsimp only
    rw [top_eq (Nat.pos_of_ne_zero zero) (Nat.pos_of_ne_zero eZero) same]
    split_ifs
    · rfl
    · rfl
    · apply floatOfRatio_congr negative (scale10_snd_pos _ Nat.one_pos) (scale10_snd_pos _ Nat.one_pos)
      rw [ratio_scale10 _ _ _ Nat.one_pos, ratio_scale10 _ _ _ Nat.one_pos]
      simpa [Scientific.value] using same

/-! ## Rounding to significant digits -/

theorem floorLog10_le {num den : Nat} (hnum : 0 < num) (hden : 0 < den) :
    (10 : ℚ) ^ floorLog10 num den ≤ num / den := by
  unfold floorLog10
  dsimp only
  have ratio := ratio_scale10 1 1 ((length num : Int) - length den) Nat.one_pos
  simp only [Nat.cast_one, div_one, one_mul] at ratio
  have snd := @scale10_snd_pos 1 1 ((length num : Int) - length den) Nat.one_pos
  split
  · rename_i reached
    rw [← ratio_le_iff snd hden, ratio] at reached
    exact reached
  · -- one power lower: `num` has `length num` digits and `den` fewer than `length den + 1`
    obtain ⟨numLow, -⟩ := length_bounds hnum
    obtain ⟨-, denHigh⟩ := length_bounds hden
    have numLowQ : (10 : ℚ) ^ (length num - 1) ≤ num := by exact_mod_cast numLow
    have denHighQ : (den : ℚ) ≤ 10 ^ length den := by exact_mod_cast denHigh.le
    have denPos : (0 : ℚ) < den := by exact_mod_cast hden
    have split : (10 : ℚ) ^ ((length num : Int) - length den - 1) =
        10 ^ (length num - 1) / 10 ^ length den := by
      rw [← zpow_natCast, ← zpow_natCast, ← zpow_sub₀ (by norm_num)]
      congr 1
      have := length_pos num
      omega
    rw [split]
    calc (10 : ℚ) ^ (length num - 1) / 10 ^ length den ≤ num / 10 ^ length den :=
          div_le_div_of_nonneg_right numLowQ (by positivity)
      _ ≤ num / den := div_le_div_of_nonneg_left (by positivity) denPos denHighQ

/-- Rounding a positive value to `k` significant digits moves it by at most half a unit in the
last place `10 ^ t`, and `k` digits of that unit fit below the value. -/
theorem roundSignificant_near {m : Nat} (q : Int) {k : Nat} (positive : 0 < m) (digits : 0 < k) :
    ∃ t : Int, |(roundSignificant m q k).value - m * 2 ^ q| ≤ 10 ^ t / 2 ∧
      10 ^ t * 10 ^ (k - 1) ≤ (m : ℚ) * 2 ^ q := by
  unfold roundSignificant
  dsimp only
  have valueRatio := ratio_scale2_one m q
  have numPos := @scale2_fst_pos m 1 q positive
  have denPos := @scale2_snd_pos m 1 q Nat.one_pos
  generalize scale2 m 1 q = v at valueRatio numPos denPos
  generalize ht : floorLog10 v.1 v.2 - k + 1 = t
  refine ⟨t, ?_, ?_⟩
  · have near := divRoundEven_sub_le (scale10 v.1 v.2 (-t)).1 (scale10 v.1 v.2 (-t)).2
      (scale10_snd_pos (-t) denPos)
    rw [ratio_scale10 _ _ _ denPos, valueRatio] at near
    -- a carry into a new digit is the same value written with one more place
    have value : (if divRoundEven (scale10 v.1 v.2 (-t)).1 (scale10 v.1 v.2 (-t)).2 = 10 ^ k then
          (⟨10 ^ (k - 1), t + 1⟩ : Scientific)
        else ⟨divRoundEven (scale10 v.1 v.2 (-t)).1 (scale10 v.1 v.2 (-t)).2, t⟩).value =
        divRoundEven (scale10 v.1 v.2 (-t)).1 (scale10 v.1 v.2 (-t)).2 * 10 ^ t := by
      split
      · rename_i carried
        rw [carried]
        unfold Scientific.value
        obtain ⟨j, rfl⟩ : ∃ j, k = j + 1 := ⟨k - 1, by omega⟩
        push_cast
        rw [zpow_add_one₀ (by norm_num), pow_succ]
        ring
      · rfl
    rw [value]
    generalize divRoundEven (scale10 v.1 v.2 (-t)).1 (scale10 v.1 v.2 (-t)).2 = r at near
    have unscaled : (r : ℚ) * 10 ^ t - m * 2 ^ q = (r - m * 2 ^ q * 10 ^ (-t)) * 10 ^ t := by
      rw [sub_mul, mul_assoc _ (10 ^ (-t)), ← zpow_add₀ (by norm_num), neg_add_cancel, zpow_zero,
        mul_one]
    rw [unscaled, abs_mul, abs_of_pos (zpow_pos (by norm_num) t : (0 : ℚ) < 10 ^ t)]
    calc |(r : ℚ) - m * 2 ^ q * 10 ^ (-t)| * 10 ^ t ≤ 1 / 2 * 10 ^ t :=
          mul_le_mul_of_nonneg_right near (by positivity)
      _ = 10 ^ t / 2 := by ring
  · have lower := floorLog10_le numPos denPos
    rw [valueRatio] at lower
    calc (10 : ℚ) ^ t * 10 ^ (k - 1) = 10 ^ floorLog10 v.1 v.2 := by
          rw [← zpow_natCast, ← zpow_add₀ (by norm_num)]
          congr 1
          omega
      _ ≤ m * 2 ^ q := lower

theorem roundSignificant_digits_pos {m : Nat} (q : Int) {k : Nat} (positive : 0 < m) (digits : 0 < k) :
    0 < (roundSignificant m q k).digits := by
  obtain ⟨t, near, unit⟩ := roundSignificant_near q positive digits
  have value := zpow_pos (two_pos : (0 : ℚ) < 2) q
  have unitBelow : (10 : ℚ) ^ t ≤ m * 2 ^ q := by
    have : (1 : ℚ) ≤ 10 ^ (k - 1) := one_le_pow₀ (by norm_num)
    nlinarith [zpow_pos (by norm_num : (0 : ℚ) < 10) t]
  have mPositive : (0 : ℚ) < m * 2 ^ q := by
    have : (0 : ℚ) < m := by exact_mod_cast positive
    positivity
  rcases Nat.eq_zero_or_pos (roundSignificant m q k).digits with zero | done
  · rw [Scientific.value_eq_zero.2 zero, zero_sub, abs_neg, abs_of_pos mPositive] at near
    linarith
  · exact done

/-! ## Nine digits read back -/

/-- A decimal of a value well inside the range of doubles reads as the double nearest to its
ratio. -/
theorem toFloat_of_value (negative : Bool) {d : Scientific}
    (large : (10 : ℚ) ^ (-400 : Int) < d.value) (small : d.value < 10 ^ (400 : Int)) :
    d.toFloat negative =
      floatOfRatio negative (scale10 d.digits 1 d.exponent).1 (scale10 d.digits 1 d.exponent).2 := by
  have positive : 0 < d.digits := by
    rcases Nat.eq_zero_or_pos d.digits with zero | positive
    · rw [Scientific.value_eq_zero.2 zero] at large
      exact absurd large (not_lt.2 (by positivity))
    · exact positive
  obtain ⟨low, high⟩ := value_bounds positive
  have notAbove : ¬ 400 < (length d.digits : Int) + d.exponent := by
    have := (zpow_lt_zpow_iff_right₀ (by norm_num : (1 : ℚ) < 10)).1 (low.trans_lt small)
    omega
  have notBelow : ¬ (length d.digits : Int) + d.exponent < -400 := by
    have := (zpow_lt_zpow_iff_right₀ (by norm_num : (1 : ℚ) < 10)).1 (large.trans high)
    omega
  unfold Scientific.toFloat
  rw [if_neg positive.ne']
  dsimp only
  rw [if_neg notAbove, if_neg notBelow]

theorem ratio_scale10_value (d : Scientific) :
    ((scale10 d.digits 1 d.exponent).1 : ℚ) / (scale10 d.digits 1 d.exponent).2 = d.value := by
  rw [ratio_scale10 _ _ _ Nat.one_pos, Nat.cast_one, div_one]
  rfl

/-- Nine significant digits tell single-precision values apart: the nearest decimal of nine
digits to a nonzero single-precision value, read as a double and rounded to single precision,
gives the value back. Its error is under a third of a quarter quantum of single precision, and
reading it as a double adds no more than `2 ^ -52` of it. -/
theorem toSingle_roundSignificant_nine (negative : Bool) {m M : Nat} {q Q : Int}
    (single : Normal Format.single m q) (same : (M : ℚ) * 2 ^ Q = m * 2 ^ q) :
    toSingle ((roundSignificant M Q 9).toFloat negative) = .ok (floatOfBinary negative m q) := by
  have narrow : m < 2 ^ 24 := single.small
  have low : (-149 : Int) ≤ q := single.low
  have high : q ≤ 104 := single.high
  have positiveM : 0 < M := by
    rcases Nat.eq_zero_or_pos M with zero | positive
    · have : (0 : ℚ) < m * 2 ^ q := by have := single.positive; positivity
      rw [zero, Nat.cast_zero, zero_mul] at same
      linarith
    · exact positive
  obtain ⟨t, near, unit⟩ := roundSignificant_near Q positiveM (show 0 < 9 by decide)
  rw [same] at near unit
  generalize roundSignificant M Q 9 = d at near ⊢
  -- everything is measured in `u`, a quarter quantum of the single-precision value
  have u := zpow_pos (two_pos : (0 : ℚ) < 2) (q - 2)
  have quarter : (2 : ℚ) ^ q = 4 * 2 ^ (q - 2) := by
    rw [zpow_sub₀ two_ne_zero, zpow_two]
    ring
  have valueLow : 4 * (2 : ℚ) ^ (q - 2) ≤ m * 2 ^ q := by
    rw [quarter]
    have : (1 : ℚ) ≤ m := by exact_mod_cast single.positive
    nlinarith
  have valueHigh : (m : ℚ) * 2 ^ q < 2 ^ 26 * 2 ^ (q - 2) := by
    rw [quarter]
    have : (m : ℚ) < 2 ^ 24 := by exact_mod_cast narrow
    nlinarith
  -- the decimal is within half a quarter quantum
  have unitSmall : (10 : ℚ) ^ t < 2 ^ (q - 2) := by
    have : (10 : ℚ) ^ t * 10 ^ 8 < 2 ^ 26 * 2 ^ (q - 2) := unit.trans_lt valueHigh
    nlinarith
  obtain ⟨nearLow, nearHigh⟩ := abs_le.1 near
  have leastQuarter : (2 : ℚ) ^ (-151 : Int) ≤ 2 ^ (q - 2) :=
    zpow_le_zpow_right₀ one_le_two (by omega)
  have mostQuarter : (2 : ℚ) ^ (q - 2) ≤ 2 ^ (102 : Int) :=
    zpow_le_zpow_right₀ one_le_two (by omega)
  -- the decimal lies between `2 ^ -151` and `2 ^ 129`, far inside the range of doubles
  have above : (2 : ℚ) ^ (-151 : Int) < d.value := by linarith
  have below : d.value < 2 ^ (129 : Int) := by
    have : (2 : ℚ) ^ 27 * 2 ^ (102 : Int) = 2 ^ (129 : Int) := by norm_num
    nlinarith
  have large : (10 : ℚ) ^ (-400 : Int) < d.value :=
    calc (10 : ℚ) ^ (-400 : Int) ≤ 10 ^ (-46 : Int) := zpow_le_zpow_right₀ (by norm_num) (by omega)
      _ < 2 ^ (-151 : Int) := by norm_num
      _ < d.value := above
  have small : d.value < 10 ^ (400 : Int) :=
    calc d.value < 2 ^ (129 : Int) := below
      _ < 10 ^ (39 : Int) := by norm_num
      _ ≤ 10 ^ (400 : Int) := zpow_le_zpow_right₀ (by norm_num) (by omega)
  have leastDouble : (2 : ℚ) ^ (-1075 : Int) ≤ 2 ^ (-154 : Int) :=
    zpow_le_zpow_right₀ one_le_two (by omega)
  rw [toFloat_of_value negative large small]
  obtain ⟨M', Q', rounded, double, err⟩ :=
    round_double_near (scale10_snd_pos d.exponent Nat.one_pos)
      (by
        rw [ratio_scale10_value]
        have : (2 : ℚ) ^ (-154 : Int) < 2 ^ (-151 : Int) := by norm_num
        linarith)
      (by
        rw [ratio_scale10_value]
        exact below.trans_le (zpow_le_zpow_right₀ one_le_two (by omega)))
  rw [ratio_scale10_value] at err
  unfold floatOfRatio
  rw [rounded]
  apply toSingle_floatOfRounded double
  apply round_of_near Format.single (scale2_snd_pos Q' Nat.one_pos) single
  rw [ratio_scale2_one]
  -- reading as a double adds far less than the rest of the quarter quantum
  have relative : d.value / 2 ^ 52 < 2 ^ (q - 2) / 4 := by
    rw [div_lt_iff₀ (by positivity)]
    nlinarith
  have leastTiny : (2 : ℚ) ^ (-1075 : Int) < 2 ^ (q - 2) / 4 :=
    calc (2 : ℚ) ^ (-1075 : Int) ≤ 2 ^ (-154 : Int) := leastDouble
      _ < 2 ^ (-151 : Int) / 4 := by norm_num
      _ ≤ 2 ^ (q - 2) / 4 := div_le_div_of_nonneg_right leastQuarter (by norm_num)
  obtain ⟨errLow, errHigh⟩ := abs_le.1 err
  rw [abs_lt]
  constructor <;> linarith

end Keyframes.Decimal
