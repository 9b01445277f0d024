import Keyframes.Binary.Single
import Mathlib

/-!
# Rounding is exact on the values of a format

A double is read from its bits by `Parts.ofBits`, and the core library builds a double from bits
by unpacking and packing them again; the two agree on every bit pattern that is not a NaN
(`pack_unpack`). `Format.round` gives back every value the format holds (`round_exact`), and
what it gives is such a value (`round_normal`). Single-precision values are double-precision
values too, so rounding a double to single precision a second time changes nothing
(`toSingle_toSingle`): what it gives `IsSingle`.
-/

namespace Keyframes.Binary
open Float.Model UnpackedFloat

theorem toNat_packComponents (s : Sign) (e : BitVec 11) (m : BitVec 52) :
    (packComponents Format.binary64 s e m).toNat = s.toBitVec.toNat * 2 ^ 63 + e.toNat * 2 ^ 52 + m.toNat := by
  unfold packComponents
  rw [BitVec.toNat_append, BitVec.toNat_append, ← Nat.shiftLeft_add_eq_or_of_lt e.isLt,
    ← Nat.shiftLeft_add_eq_or_of_lt m.isLt, Nat.shiftLeft_eq, Nat.shiftLeft_eq]
  have : s.toBitVec.toNat < 2 := s.toBitVec.isLt
  omega

theorem toNat_unpackMantissa (b : BitVec 64) :
    (@unpackMantissa Format.binary64 b).toNat = b.toNat % 2 ^ 52 := by
  unfold unpackMantissa
  rw [BitVec.toNat_cast, BitVec.extractLsb_toNat]
  simp

theorem toNat_unpackExponent (b : BitVec 64) :
    (@unpackExponent Format.binary64 b).toNat = b.toNat / 2 ^ 52 % 2 ^ 11 := by
  unfold unpackExponent
  rw [BitVec.toNat_cast, BitVec.extractLsb_toNat]
  simp [Nat.shiftRight_eq_div_pow]

theorem toNat_sign_unpackSign (b : BitVec 64) :
    (Sign.ofBitVec (@unpackSign Format.binary64 b)).toBitVec.toNat = b.toNat / 2 ^ 63 := by
  have field : (@unpackSign Format.binary64 b).toNat = b.toNat / 2 ^ 63 := by
    unfold unpackSign
    rw [BitVec.toNat_cast, BitVec.extractLsb_toNat, Nat.shiftRight_eq_div_pow]
    have width : Format.binary64.mantissaBitsWithoutImplicit + Format.binary64.exponentBits = 63 := rfl
    rw [width, Nat.sub_self, Nat.zero_add, Nat.pow_one]
    have := b.isLt
    omega
  have bit := (@unpackSign Format.binary64 b).isLt
  unfold Sign.ofBitVec
  split
  · rename_i zero
    rw [zero] at field
    exact field
  · rename_i nonzero
    have : (@unpackSign Format.binary64 b).toNat ≠ 0 := fun h => nonzero (BitVec.eq_of_toNat_eq h)
    show (1#1 : BitVec 1).toNat = _
    rw [show (1#1 : BitVec 1).toNat = 1 from rfl]
    omega

theorem pack_unpack (b : BitVec 64) (number : UnpackedFloat.unpack Format.binary64 b ≠ .notANumber) :
    UnpackedFloat.pack Format.binary64 (UnpackedFloat.unpack Format.binary64 b) = b := by
  have mant := toNat_unpackMantissa b
  have expo := toNat_unpackExponent b
  have sign := toNat_sign_unpackSign b
  have whole : b.toNat = b.toNat / 2 ^ 63 * 2 ^ 63 + b.toNat / 2 ^ 52 % 2 ^ 11 * 2 ^ 52 + b.toNat % 2 ^ 52 := by
    have := b.isLt
    omega
  unfold UnpackedFloat.unpack at number ⊢
  dsimp only at number ⊢
  split
  · rename_i top
    have topNat : (@unpackExponent Format.binary64 b).toNat = 2047 := by
      rw [top]; rfl
    split
    · rename_i empty
      have emptyNat : (@unpackMantissa Format.binary64 b).toNat = 0 := by
        rw [empty]; rfl
      apply BitVec.eq_of_toNat_eq
      simp only [UnpackedFloat.pack, packedInfinity]
      rw [toNat_packComponents, sign]
      have ones : (-1#11 : BitVec 11).toNat = 2047 := by decide
      rw [ones, show (0 : BitVec 52).toNat = 0 from rfl]
      omega
    · rename_i full
      rw [if_pos top, if_neg full] at number
      exact absurd rfl number
  · rename_i notTop
    split
    · rename_i bottom
      have bottomNat : (@unpackExponent Format.binary64 b).toNat = 0 := by
        rw [bottom]; rfl
      split
      · rename_i empty
        have emptyNat : (@unpackMantissa Format.binary64 b).toNat = 0 := by
          rw [empty]; rfl
        apply BitVec.eq_of_toNat_eq
        simp only [UnpackedFloat.pack, packedZero]
        rw [toNat_packComponents, sign, show (0 : BitVec 52).toNat = 0 from rfl,
          show (0 : BitVec 11).toNat = 0 from rfl]
        omega
      · rename_i full
        have fullNat : (@unpackMantissa Format.binary64 b).toNat ≠ 0 :=
          fun zero => full (BitVec.eq_of_toNat_eq zero)
        have small : (@unpackMantissa Format.binary64 b).toNat.log2 < 52 :=
          (Nat.log2_lt fullNat).2 (@unpackMantissa Format.binary64 b).isLt
        apply BitVec.eq_of_toNat_eq
        simp only [UnpackedFloat.pack]
        have bias : Format.binary64.exponentBias = 1023 := rfl
        have bits : Format.binary64.mantissaBits = 53 := rfl
        rw [bias, bits, bottomNat]
        rw [if_neg (by decide), if_neg (by omega), toNat_packComponents, sign,
          show (0#11 : BitVec 11).toNat = 0 from rfl, BitVec.toNat_ofNat]
        omega
    · rename_i notBottom
      have middle : (@unpackExponent Format.binary64 b).toNat ≠ 2047 :=
        fun ones => notTop (BitVec.eq_of_toNat_eq (by rw [ones]; rfl))
      have above : (@unpackExponent Format.binary64 b).toNat ≠ 0 :=
        fun zero => notBottom (BitVec.eq_of_toNat_eq zero)
      have mantissa : (1#1 ++ @unpackMantissa Format.binary64 b).toNat =
          2 ^ 52 + (@unpackMantissa Format.binary64 b).toNat := by
        rw [BitVec.toNat_append, ← Nat.shiftLeft_add_eq_or_of_lt (@unpackMantissa Format.binary64 b).isLt,
          Nat.shiftLeft_eq]
        rfl
      have top : (1#1 ++ @unpackMantissa Format.binary64 b).toNat.log2 = 52 := by
        rw [Nat.log2_eq_iff (by omega), mantissa]
        have := (@unpackMantissa Format.binary64 b).isLt
        omega
      apply BitVec.eq_of_toNat_eq
      simp only [UnpackedFloat.pack]
      have bias : Format.binary64.exponentBias = 1023 := rfl
      have bits : Format.binary64.mantissaBits = 53 := rfl
      have range := (@unpackExponent Format.binary64 b).isLt
      rw [bias, bits, top, if_neg (by omega), if_pos rfl, toNat_packComponents, sign,
        BitVec.toNat_ofNat, BitVec.toNat_ofNat, mantissa]
      omega

theorem scale2_snd_pos {num den : Nat} (k : Int) (hden : 0 < den) : 0 < (scale2 num den k).2 := by
  unfold scale2
  split
  · exact hden
  · exact Nat.mul_pos hden (Nat.two_pow_pos _)

theorem ratio_scale2 (num den : Nat) (k : Int) (hden : 0 < den) :
    ((scale2 num den k).1 : ℚ) / (scale2 num den k).2 = (num : ℚ) / den * 2 ^ k := by
  unfold scale2
  split
  · rename_i nonneg
    have : (2 : ℚ) ^ k = 2 ^ k.toNat := by
      rw [← zpow_natCast, Int.toNat_of_nonneg nonneg]
    push_cast
    rw [this]
    ring
  · rename_i neg
    have : (2 : ℚ) ^ k = ((2 : ℚ) ^ (-k).toNat)⁻¹ := by
      rw [← zpow_natCast, Int.toNat_of_nonneg (by omega), zpow_neg, inv_inv]
    push_cast
    rw [this]
    field_simp


theorem ratio_le_iff {a b c d : Nat} (hb : 0 < b) (hd : 0 < d) :
    (a : ℚ) / b ≤ c / d ↔ a * d ≤ c * b := by
  rw [div_le_div_iff₀ (by exact_mod_cast hb) (by exact_mod_cast hd)]
  exact_mod_cast Iff.rfl

theorem floorLog2_bounds (num den : Nat) (hnum : 0 < num) (hden : 0 < den) :
    (2 : ℚ) ^ floorLog2 num den ≤ num / den ∧ (num : ℚ) / den < 2 ^ (floorLog2 num den + 1) := by
  have numLow : 2 ^ num.log2 ≤ num := Nat.log2_self_le (by omega)
  have numHigh : num < 2 ^ (num.log2 + 1) := Nat.lt_log2_self
  have denLow : 2 ^ den.log2 ≤ den := Nat.log2_self_le (by omega)
  have denHigh : den < 2 ^ (den.log2 + 1) := Nat.lt_log2_self
  have numLowQ : (2 : ℚ) ^ num.log2 ≤ num := by exact_mod_cast numLow
  have numHighQ : (num : ℚ) < 2 ^ (num.log2 + 1) := by exact_mod_cast numHigh
  have denLowQ : (2 : ℚ) ^ den.log2 ≤ den := by exact_mod_cast denLow
  have denHighQ : (den : ℚ) < 2 ^ (den.log2 + 1) := by exact_mod_cast denHigh
  have denPos : (0 : ℚ) < den := by exact_mod_cast hden
  have guess : ∀ k : Int, (2 : ℚ) ^ ((num.log2 : Int) - den.log2 + k) =
      2 ^ num.log2 * 2 ^ k / 2 ^ den.log2 := by
    intro k
    rw [zpow_add₀ two_ne_zero, zpow_sub₀ two_ne_zero, zpow_natCast, zpow_natCast]
    ring
  unfold floorLog2
  dsimp only
  have ratio := ratio_scale2 1 1 ((num.log2 : Int) - den.log2) Nat.one_pos
  simp only [Nat.cast_one, div_one, one_mul] at ratio
  have snd := @scale2_snd_pos 1 1 ((num.log2 : Int) - den.log2) Nat.one_pos
  split
  · rename_i reached
    rw [← ratio_le_iff snd hden, ratio] at reached
    refine ⟨reached, ?_⟩
    rw [guess 1, div_lt_div_iff₀ denPos (by positivity)]
    calc (num : ℚ) * 2 ^ den.log2 < 2 ^ (num.log2 + 1) * 2 ^ den.log2 :=
          mul_lt_mul_of_pos_right numHighQ (by positivity)
      _ ≤ 2 ^ (num.log2 + 1) * den := mul_le_mul_of_nonneg_left denLowQ (by positivity)
      _ = 2 ^ num.log2 * 2 ^ (1 : Int) * den := by rw [pow_succ, zpow_one]
  · rename_i short
    rw [← ratio_le_iff snd hden, ratio, not_le] at short
    refine ⟨?_, by rw [sub_add_cancel]; exact short⟩
    have lower := guess (-1)
    rw [← sub_eq_add_neg] at lower
    rw [lower, div_le_div_iff₀ (by positivity) denPos]
    calc 2 ^ num.log2 * 2 ^ (-1 : Int) * (den : ℚ) ≤ 2 ^ num.log2 * 2 ^ (-1 : Int) * 2 ^ (den.log2 + 1) :=
          mul_le_mul_of_nonneg_left denHighQ.le (by positivity)
      _ = 2 ^ num.log2 * 2 ^ den.log2 := by
          rw [pow_succ, zpow_neg_one]
          ring
      _ ≤ num * 2 ^ den.log2 := mul_le_mul_of_nonneg_right numLowQ (by positivity)

theorem floorLog2_eq {num den : Nat} (hnum : 0 < num) (hden : 0 < den) {k : Int}
    (lower : (2 : ℚ) ^ k ≤ num / den) (upper : (num : ℚ) / den < 2 ^ (k + 1)) :
    floorLog2 num den = k := by
  obtain ⟨lower', upper'⟩ := floorLog2_bounds num den hnum hden
  have below : floorLog2 num den < k + 1 :=
    (zpow_lt_zpow_iff_right₀ one_lt_two).1 (lower'.trans_lt upper)
  have above : k < floorLog2 num den + 1 :=
    (zpow_lt_zpow_iff_right₀ one_lt_two).1 (lower.trans_lt upper')
  omega

/-- What rounding gives: a significand of the format's width, full unless the quantum is the
least, and a quantum in range. -/
structure Normal (f : Format) (m : Nat) (q : Int) : Prop where
  positive : 0 < m
  small : m < 2 ^ f.precision
  full : 2 ^ (f.precision - 1) ≤ m ∨ q = f.minQuantum
  low : f.minQuantum ≤ q
  high : q ≤ f.maxQuantum

/-- A value the format holds exactly rounds to itself. -/
theorem round_exact (f : Format) {num den M : Nat} {Q : Int} (hnum : 0 < num) (hden : 0 < den)
    (value : (num : ℚ) / den = M * 2 ^ Q) (exact : Normal f M Q) (precise : 0 < f.precision) :
    f.round num den = .finite M Q := by
  obtain ⟨positive, small, normal, low, high⟩ := exact
  have logLow : 2 ^ M.log2 ≤ M := Nat.log2_self_le (by omega)
  have logHigh : M < 2 ^ (M.log2 + 1) := Nat.lt_log2_self
  have exponent : floorLog2 num den = M.log2 + Q := by
    apply floorLog2_eq hnum hden
    · rw [value, zpow_add₀ two_ne_zero, zpow_natCast]
      exact mul_le_mul_of_nonneg_right (by exact_mod_cast logLow) (by positivity)
    · rw [value, add_right_comm, zpow_add₀ two_ne_zero, ← Nat.cast_succ, zpow_natCast]
      exact mul_lt_mul_of_pos_right (by exact_mod_cast logHigh) (by positivity)
  have logSmall : M.log2 < f.precision := (Nat.log2_lt (by omega)).2 small
  have quantum : max (floorLog2 num den - (f.precision - 1 : Nat)) f.minQuantum = Q := by
    rw [exponent]
    rcases normal with full | least
    · have : f.precision - 1 ≤ M.log2 := (Nat.le_log2 (by omega)).2 full
      omega
    · omega
  unfold Format.round
  rw [if_neg (by omega)]
  dsimp only
  rw [quantum]
  have scaled := ratio_scale2 num den (-Q) hden
  rw [value, mul_assoc, ← zpow_add₀ two_ne_zero, add_neg_cancel, zpow_zero, mul_one,
    div_eq_iff (by exact_mod_cast (@scale2_snd_pos num den (-Q) hden).ne')] at scaled
  have whole : (scale2 num den (-Q)).1 = M * (scale2 num den (-Q)).2 := by exact_mod_cast scaled
  have quotient : divRoundEven (scale2 num den (-Q)).1 (scale2 num den (-Q)).2 = M := by
    have positiveDen := @scale2_snd_pos num den (-Q) hden
    unfold divRoundEven
    rw [whole, Nat.mul_div_cancel _ positiveDen, Nat.mul_mod_left]
    simp [positiveDen]
  have notCarried : ¬ M = 2 ^ f.precision := Nat.ne_of_lt small
  rw [quotient]
  simp only [notCarried, if_false]
  rw [if_neg (by omega : ¬ M = 0), if_neg (by omega : ¬ f.maxQuantum < Q)]

theorem round_normal (f : Format) {num den m : Nat} {q : Int} (precise : 0 < f.precision)
    (rounded : f.round num den = .finite m q) : Normal f m q := by
  unfold Format.round at rounded
  split at rounded
  · cases rounded
  rename_i nonzero
  have hnum : 0 < num := by omega
  have hden : 0 < den := by omega
  dsimp only at rounded
  obtain ⟨lower, upper⟩ := floorLog2_bounds num den hnum hden
  generalize hk : floorLog2 num den = k at lower upper rounded
  generalize hq0 : max (k - (f.precision - 1 : Nat)) f.minQuantum = q0 at rounded
  have scaled := ratio_scale2 num den (-q0) hden
  have positiveDen := @scale2_snd_pos num den (-q0) hden
  generalize hab : scale2 num den (-q0) = ab at scaled positiveDen rounded
  obtain ⟨a, b⟩ := ab
  dsimp only at scaled positiveDen rounded
  have bQ : (0 : ℚ) < b := by exact_mod_cast positiveDen
  -- the scaled value lies below `2 ^ precision`, and above half of it unless the quantum is
  -- the least
  have below : a / b < 2 ^ f.precision := by
    have : (a : ℚ) < 2 ^ f.precision * b := by
      rw [← div_lt_iff₀ bQ, scaled]
      calc (num : ℚ) / den * 2 ^ (-q0) < 2 ^ (k + 1) * 2 ^ (-q0) :=
            mul_lt_mul_of_pos_right upper (by positivity)
        _ = 2 ^ (k + 1 - q0) := by rw [← zpow_add₀ two_ne_zero]; rfl
        _ ≤ 2 ^ ((f.precision : Int)) :=
            zpow_le_zpow_right₀ one_le_two (by omega)
        _ = 2 ^ f.precision := zpow_natCast 2 _
    exact (Nat.div_lt_iff_lt_mul positiveDen).2 (by exact_mod_cast this)
  have above : q0 ≠ f.minQuantum → 2 ^ (f.precision - 1) ≤ a / b := by
    intro notLeast
    have exact : q0 = k - (f.precision - 1 : Nat) := by omega
    have : (2 : ℚ) ^ (f.precision - 1) * b ≤ a := by
      rw [← le_div_iff₀ bQ, scaled]
      calc (2 : ℚ) ^ (f.precision - 1) = 2 ^ (k + -q0) := by
            rw [← zpow_natCast, exact]
            congr 1
            omega
        _ = 2 ^ k * 2 ^ (-q0) := zpow_add₀ two_ne_zero _ _
        _ ≤ num / den * 2 ^ (-q0) := mul_le_mul_of_nonneg_right lower (by positivity)
    exact (Nat.le_div_iff_mul_le positiveDen).2 (by exact_mod_cast this)
  have roundedBelow : divRoundEven a b ≤ 2 ^ f.precision :=
    (divRoundEven_le a b).trans (by omega)
  have powers : 2 ^ (f.precision - 1) < 2 ^ f.precision := Nat.pow_lt_pow_right (by omega) (by omega)
  have least : f.minQuantum ≤ q0 := by omega
  by_cases carried : divRoundEven a b = 2 ^ f.precision
  · simp only [carried, if_true] at rounded
    split at rounded
    · cases rounded
    split at rounded
    · cases rounded
    rename_i notOver
    cases rounded
    exact ⟨Nat.two_pow_pos _, powers, Or.inl (Nat.le_refl _), by omega, by omega⟩
  · simp only [carried, if_false] at rounded
    split at rounded
    · cases rounded
    split at rounded
    · cases rounded
    rename_i notZero notOver
    cases rounded
    refine ⟨by omega, by omega, ?_, least, by omega⟩
    by_cases atLeast : q = f.minQuantum
    · exact Or.inr atLeast
    · exact Or.inl ((above atLeast).trans (le_divRoundEven a b))

theorem unpack_ne_notANumber (b : BitVec 64) (number : (Parts.ofBits b.toNat).shape ≠ .nan) :
    UnpackedFloat.unpack Format.binary64 b ≠ .notANumber := by
  intro nan
  apply number
  have mant := toNat_unpackMantissa b
  have expo := toNat_unpackExponent b
  unfold UnpackedFloat.unpack at nan
  dsimp only at nan
  split at nan
  · rename_i top
    split at nan
    · cases nan
    · rename_i full
      have topNat : (@unpackExponent Format.binary64 b).toNat = 2047 := by
        rw [top]; rfl
      have fullNat : (@unpackMantissa Format.binary64 b).toNat ≠ 0 :=
        fun zero => full (BitVec.eq_of_toNat_eq zero)
      unfold Parts.ofBits
      dsimp only
      rw [if_pos (by omega), if_neg (by omega)]
  · split at nan
    · split at nan <;> cases nan
    · cases nan

theorem toBits_ofBits (u : UInt64) (number : (Parts.ofBits u.toNat).shape ≠ .nan) :
    (Float.ofBits u).toBits = u := by
  show UInt64.ofBitVec (UnpackedFloat.pack Format.binary64
    (UnpackedFloat.unpack Format.binary64 u.toBitVec)) = u
  rw [pack_unpack u.toBitVec (unpack_ne_notANumber u.toBitVec number)]

theorem ofFloat_floatOfRounded {negative : Bool} {r : Rounded} (bound : bitsOfRounded negative r < 2 ^ 64)
    (number : (Parts.ofBits (bitsOfRounded negative r)).shape ≠ .nan) :
    Parts.ofFloat (floatOfRounded negative r) = Parts.ofBits (bitsOfRounded negative r) := by
  have small : (bitsOfRounded negative r).toUInt64.toNat = bitsOfRounded negative r := by
    rw [Nat.toUInt64_eq, UInt64.toNat_ofNat', Nat.mod_eq_of_lt bound]
  unfold Parts.ofFloat floatOfRounded
  rw [toBits_ofBits _ (by rw [small]; exact number), small]

theorem ofBits_bitsOfRounded {negative : Bool} {m : Nat} {q : Int} (normal : Normal Format.double m q) :
    bitsOfRounded negative (.finite m q) < 2 ^ 64 ∧
      Parts.ofBits (bitsOfRounded negative (.finite m q)) = ⟨negative, .finite m q⟩ := by
  obtain ⟨positive, small, full, low, high⟩ := normal
  simp only [Format.double] at small full low high
  obtain ⟨s, signed, sign⟩ : ∃ s, (if negative then 2 ^ 63 else 0) = s ∧
      (s = 0 ∧ negative = false ∨ s = 2 ^ 63 ∧ negative = true) := by
    cases negative
    · exact ⟨0, rfl, Or.inl ⟨rfl, rfl⟩⟩
    · exact ⟨2 ^ 63, rfl, Or.inr ⟨rfl, rfl⟩⟩
  have negativeBit : ∀ rest : Nat, rest < 2 ^ 63 → decide (2 ^ 63 ≤ (s + rest) % 2 ^ 64) = negative := by
    intro rest bound
    rcases sign with ⟨rfl, rfl⟩ | ⟨rfl, rfl⟩
    · exact decide_eq_false (by omega)
    · exact decide_eq_true (by omega)
  have signSmall : s = 0 ∨ s = 2 ^ 63 := by omega
  unfold bitsOfRounded
  dsimp only
  rw [signed]
  split
  · rename_i subnormal
    have least : q = -1074 := by omega
    subst least
    refine ⟨by omega, ?_⟩
    have field : (s + m) / 2 ^ 52 % 2 ^ 11 = 0 := by omega
    have fraction : (s + m) % 2 ^ 52 = m := by omega
    unfold Parts.ofBits
    rw [negativeBit m (by omega), field, fraction]
    simp only [positive.ne', if_false, if_true, -Nat.reducePow]
    rw [if_neg (by decide)]
  · rename_i normal
    have exponent : ((q + 1075).toNat : Int) = q + 1075 := Int.toNat_of_nonneg (by omega)
    have range : 1 ≤ (q + 1075).toNat ∧ (q + 1075).toNat ≤ 2046 := by omega
    refine ⟨by omega, ?_⟩
    have field : (s + (q + 1075).toNat * 2 ^ 52 + (m - 2 ^ 52)) / 2 ^ 52 % 2 ^ 11 = (q + 1075).toNat := by
      omega
    have fraction : (s + (q + 1075).toNat * 2 ^ 52 + (m - 2 ^ 52)) % 2 ^ 52 = m - 2 ^ 52 := by omega
    have notTop : (q + 1075).toNat ≠ 2047 := by omega
    have notBottom : (q + 1075).toNat ≠ 0 := by omega
    unfold Parts.ofBits
    rw [field, fraction, Nat.add_assoc s, negativeBit _ (by omega)]
    simp only [notTop, notBottom, if_false, Nat.sub_add_cancel (Nat.le_of_not_lt normal),
      exponent, Int.add_sub_cancel, -Nat.reducePow]

theorem scale2_fst_pos {num den : Nat} (k : Int) (hnum : 0 < num) : 0 < (scale2 num den k).1 := by
  unfold scale2
  split
  · exact Nat.mul_pos hnum (Nat.two_pow_pos _)
  · exact hnum

theorem ratio_scale2_one (m : Nat) (q : Int) :
    ((scale2 m 1 q).1 : ℚ) / (scale2 m 1 q).2 = m * 2 ^ q := by
  rw [ratio_scale2 m 1 q Nat.one_pos, Nat.cast_one, div_one]

/-- Every single-precision value is a normal double-precision value: the significand widens to
53 bits and the quantum drops by as much. -/
theorem Normal.widen {m : Nat} {q : Int} (single : Normal Format.single m q) :
    ∃ M Q, Normal Format.double M Q ∧ (M : ℚ) * 2 ^ Q = m * 2 ^ q := by
  obtain ⟨positive, small, _, low, high⟩ := single
  simp only [Format.single] at small low high
  have logLow : 2 ^ m.log2 ≤ m := Nat.log2_self_le (by omega)
  have logHigh : m < 2 ^ (m.log2 + 1) := Nat.lt_log2_self
  have logSmall : m.log2 < 24 := (Nat.log2_lt (by omega)).2 small
  refine ⟨m * 2 ^ (52 - m.log2), q - (52 - m.log2 : Nat), ⟨?_, ?_, ?_, ?_, ?_⟩, ?_⟩
  · exact Nat.mul_pos positive (Nat.two_pow_pos _)
  · show m * 2 ^ (52 - m.log2) < 2 ^ 53
    calc m * 2 ^ (52 - m.log2) < 2 ^ (m.log2 + 1) * 2 ^ (52 - m.log2) :=
          Nat.mul_lt_mul_of_pos_right logHigh (Nat.two_pow_pos _)
      _ = 2 ^ 53 := by rw [← Nat.pow_add]; congr 1; omega
  · left
    show 2 ^ 52 ≤ m * 2 ^ (52 - m.log2)
    calc 2 ^ 52 = 2 ^ m.log2 * 2 ^ (52 - m.log2) := by rw [← Nat.pow_add]; congr 1; omega
      _ ≤ m * 2 ^ (52 - m.log2) := Nat.mul_le_mul_right _ logLow
  · show (-1074 : Int) ≤ _
    omega
  · show _ ≤ (971 : Int)
    omega
  · push_cast
    rw [mul_assoc, ← zpow_natCast, ← zpow_add₀ two_ne_zero, add_sub_cancel]

theorem ofBits_bitsOfRounded_zero (negative : Bool) :
    bitsOfRounded negative .zero < 2 ^ 64 ∧
      Parts.ofBits (bitsOfRounded negative .zero) = ⟨negative, .zero⟩ := by
  cases negative <;> decide

theorem ofFloat_floatOfBinary {negative : Bool} {m M : Nat} {q Q : Int}
    (double : Normal Format.double M Q) (value : (M : ℚ) * 2 ^ Q = m * 2 ^ q) (positive : 0 < m) :
    Parts.ofFloat (floatOfBinary negative m q) = ⟨negative, .finite M Q⟩ := by
  have rounded : Format.double.round (scale2 m 1 q).1 (scale2 m 1 q).2 = .finite M Q :=
    round_exact Format.double (scale2_fst_pos q positive) (scale2_snd_pos q Nat.one_pos)
      (by rw [ratio_scale2_one, value]) double (by decide)
  obtain ⟨bound, parts⟩ := @ofBits_bitsOfRounded negative M Q double
  unfold floatOfBinary floatOfRatio
  dsimp only
  rw [rounded, ofFloat_floatOfRounded bound (by rw [parts]; nofun), parts]

/-- Rounding to single precision twice rounds once: a value it gives is its own rounding. -/
theorem toSingle_toSingle {x y : Float} (rounded : toSingle x = .ok y) : toSingle y = .ok y := by
  unfold toSingle at rounded
  rcases shape : (Parts.ofFloat x).shape with _ | ⟨m, q⟩ | _ | _ <;>
    simp only [shape] at rounded
  case finite =>
    split at rounded
    · cases rounded
    · cases rounded
      obtain ⟨bound, parts⟩ := ofBits_bitsOfRounded_zero (Parts.ofFloat x).negative
      unfold toSingle
      rw [ofFloat_floatOfRounded bound (by rw [parts]; nofun), parts]
    · rename_i m' q' single
      cases rounded
      have normal := round_normal Format.single (by decide) single
      obtain ⟨M, Q, double, value⟩ := normal.widen
      unfold toSingle
      rw [ofFloat_floatOfBinary double value normal.positive]
      dsimp only
      rw [round_exact Format.single (scale2_fst_pos Q double.positive) (scale2_snd_pos Q Nat.one_pos)
        (by rw [ratio_scale2_one, value]) normal (by decide)]
  all_goals
    cases rounded
    unfold toSingle
    dsimp only
    rw [shape]

/-- Rounding a finite double to single precision, when it stays in range, gives a finite value:
only the overflow leaves the finite numbers, and it fails. -/
theorem toSingle_isFinite {x y : Float} (rounded : toSingle x = .ok y) (finite : isFinite x = true) :
    isFinite y = true := by
  unfold toSingle at rounded
  rcases shape : (Parts.ofFloat x).shape with _ | ⟨m, q⟩ | _ | _ <;>
    simp only [shape] at rounded
  case finite =>
    split at rounded
    · cases rounded
    · cases rounded
      obtain ⟨bound, parts⟩ := ofBits_bitsOfRounded_zero (Parts.ofFloat x).negative
      unfold isFinite
      rw [ofFloat_floatOfRounded bound (by rw [parts]; nofun), parts]
    · rename_i m' q' single
      cases rounded
      have normal := round_normal Format.single (by decide) single
      obtain ⟨M, Q, double, value⟩ := normal.widen
      unfold isFinite
      rw [ofFloat_floatOfBinary double value normal.positive]
  all_goals
    cases rounded
    exact finite

/-- A double that holds a single-precision value: rounding it to single precision keeps it, and it
is finite. -/
def IsSingle (x : Float) : Prop := toSingle x = .ok x ∧ isFinite x = true

theorem isSingle_of_toSingle {x y : Float} (rounded : toSingle x = .ok y) (finite : isFinite y = true) :
    IsSingle y :=
  ⟨toSingle_toSingle rounded, finite⟩

theorem IsSingle.isSingleFinite {x : Float} (single : IsSingle x) : isSingleFinite x = true := by
  unfold Binary.isSingleFinite
  rw [single.1]
  exact single.2

end Keyframes.Binary
