import Keyframes.Proofs.Single

/-!
# Rounding to nearest

`Format.round` takes a positive ratio to the nearest value of a format by exact arithmetic on
natural numbers. This module measures what it does. The quotient it rounds is within half of the
exact one, and a quotient less than half away from a number rounds to that number
(`divRoundEven_sub_le`, `divRoundEven_eq_of_sub_lt`). So a finite rounding lies within half its
quantum of the ratio (`round_sub_le`), and a ratio within a quarter quantum of a value of the
format rounds to that value (`round_of_near`); the quarter leaves room for the quantum that halves
just below a binade. Scaling both terms of a ratio changes nothing (`round_congr`).

For doubles and single precision this gives: a positive ratio well inside the range of doubles
is read within `2 ^ -52` of itself (`round_double_near`), and the doubles that rounding to single
precision gives, unless zero, are single-precision values with the sign of their double
(`toSingle_eq_ok_finite`). A double that is no NaN equals itself (`beq_self_of_number`).

Main statements: `round_sub_le` and `round_of_near`.
-/

namespace Keyframes.Binary

/-! ## The rounded quotient -/

theorem divRoundEven_near (a b : Nat) (hb : 0 < b) :
    2 * a ≤ b * (2 * divRoundEven a b + 1) ∧ b * (2 * divRoundEven a b) ≤ 2 * a + b := by
  have split := Nat.div_add_mod a b
  have below := Nat.mod_lt a hb
  unfold divRoundEven
  dsimp only
  generalize a / b = q at *
  generalize a % b = r at *
  subst split
  split_ifs <;> constructor <;> linarith

theorem divRoundEven_eq_of_near {a b n : Nat} (hb : 0 < b) (below : 2 * a < b * (2 * n + 1))
    (above : b * (2 * n) < 2 * a + b) : divRoundEven a b = n := by
  obtain ⟨low, high⟩ := divRoundEven_near a b hb
  have notMore : divRoundEven a b < n + 1 := by
    have : b * (2 * divRoundEven a b) < b * (2 * (n + 1)) := by nlinarith
    have := Nat.lt_of_mul_lt_mul_left this
    omega
  have notLess : n < divRoundEven a b + 1 := by
    have : b * (2 * n) < b * (2 * (divRoundEven a b + 1)) := by nlinarith
    have := Nat.lt_of_mul_lt_mul_left this
    omega
  omega

theorem divRoundEven_sub_le (a b : Nat) (hb : 0 < b) :
    |(divRoundEven a b : ℚ) - a / b| ≤ 1 / 2 := by
  obtain ⟨low, high⟩ := divRoundEven_near a b hb
  have bQ : (0 : ℚ) < b := by exact_mod_cast hb
  have lowQ : (2 * a : ℚ) ≤ b * (2 * divRoundEven a b + 1) := by exact_mod_cast low
  have highQ : (b : ℚ) * (2 * divRoundEven a b) ≤ 2 * a + b := by exact_mod_cast high
  rw [abs_le]
  constructor
  · have : (a : ℚ) / b ≤ divRoundEven a b + 1 / 2 := by
      rw [div_le_iff₀ bQ]
      linarith
    linarith
  · have : (divRoundEven a b : ℚ) - 1 / 2 ≤ a / b := by
      rw [le_div_iff₀ bQ]
      linarith
    linarith

theorem divRoundEven_eq_of_sub_lt {a b n : Nat} (hb : 0 < b) (near : |(n : ℚ) - a / b| < 1 / 2) :
    divRoundEven a b = n := by
  have bQ : (0 : ℚ) < b := by exact_mod_cast hb
  obtain ⟨low, high⟩ := abs_lt.1 near
  apply divRoundEven_eq_of_near hb
  · have : (a : ℚ) / b < n + 1 / 2 := by linarith
    rw [div_lt_iff₀ bQ] at this
    exact_mod_cast (by linarith : (2 * a : ℚ) < b * (2 * n + 1))
  · have : (n : ℚ) - 1 / 2 < a / b := by linarith
    rw [lt_div_iff₀ bQ] at this
    exact_mod_cast (by linarith : (b : ℚ) * (2 * n) < 2 * a + b)

/-- At the quantum `q0`, a ratio less than half a quantum away from `n * 2 ^ q0` has the
rounded quotient `n`. -/
theorem divRoundEven_scale2_eq {num den n : Nat} {q0 : Int} (hden : 0 < den)
    (near : |(n : ℚ) * 2 ^ q0 - num / den| < 2 ^ (q0 - 1)) :
    divRoundEven (scale2 num den (-q0)).1 (scale2 num den (-q0)).2 = n := by
  apply divRoundEven_eq_of_sub_lt (scale2_snd_pos (-q0) hden)
  rw [ratio_scale2 num den (-q0) hden]
  have unscaled : (n : ℚ) - num / den * 2 ^ (-q0) = (n * 2 ^ q0 - num / den) * 2 ^ (-q0) := by
    rw [sub_mul, mul_assoc, ← zpow_add₀ two_ne_zero, add_neg_cancel, zpow_zero, mul_one]
  rw [unscaled, abs_mul, abs_of_pos (zpow_pos two_pos (-q0) : (0 : ℚ) < 2 ^ (-q0))]
  calc |(n : ℚ) * 2 ^ q0 - num / den| * 2 ^ (-q0) < 2 ^ (q0 - 1) * 2 ^ (-q0) :=
        mul_lt_mul_of_pos_right near (zpow_pos two_pos _)
    _ = 1 / 2 := by
        rw [← zpow_add₀ two_ne_zero, show q0 - 1 + -q0 = -1 by omega, zpow_neg_one]
        norm_num

/-! ## Rounding a ratio depends on the ratio only -/

theorem divRoundEven_mul (c a b : Nat) (positive : 0 < c) :
    divRoundEven (c * a) (c * b) = divRoundEven a b := by
  unfold divRoundEven
  rw [Nat.mul_div_mul_left _ _ positive, Nat.mul_mod_mul_left]
  have below : 2 * (c * (a % b)) < c * b ↔ 2 * (a % b) < b := by
    rw [Nat.mul_left_comm]
    exact Nat.mul_lt_mul_left positive
  have above : c * b < 2 * (c * (a % b)) ↔ b < 2 * (a % b) := by
    rw [Nat.mul_left_comm]
    exact Nat.mul_lt_mul_left positive
  simp only [below, above]

theorem scale2_mul (c a b : Nat) (k : Int) :
    scale2 (c * a) (c * b) k = (c * (scale2 a b k).1, c * (scale2 a b k).2) := by
  unfold scale2
  split <;> simp [Nat.mul_assoc]

theorem floorLog2_mul {c a b : Nat} (hc : 0 < c) (ha : 0 < a) (hb : 0 < b) :
    floorLog2 (c * a) (c * b) = floorLog2 a b := by
  have same : ((c * a : Nat) : ℚ) / (c * b : Nat) = (a : ℚ) / b := by
    push_cast
    rw [mul_div_mul_left _ _ (by exact_mod_cast hc.ne')]
  obtain ⟨lower, upper⟩ := floorLog2_bounds a b ha hb
  exact floorLog2_eq (Nat.mul_pos hc ha) (Nat.mul_pos hc hb) (same ▸ lower) (same ▸ upper)

theorem round_mul (f : Format) {c : Nat} (a b : Nat) (hc : 0 < c) :
    f.round (c * a) (c * b) = f.round a b := by
  unfold Format.round
  by_cases zero : a = 0 ∨ b = 0
  · have scaledZero : c * a = 0 ∨ c * b = 0 := by
      rcases zero with h | h <;> simp [h]
    rw [if_pos scaledZero, if_pos zero]
  · have scaledNonzero : ¬ (c * a = 0 ∨ c * b = 0) := by
      simp only [Nat.mul_eq_zero, not_or] at zero ⊢
      omega
    rw [if_neg scaledNonzero, if_neg zero]
    simp only [not_or] at zero
    dsimp only
    rw [floorLog2_mul hc (Nat.pos_of_ne_zero zero.1) (Nat.pos_of_ne_zero zero.2), scale2_mul,
      divRoundEven_mul _ _ _ hc]

theorem round_congr (f : Format) {a b c d : Nat} (hb : 0 < b) (hd : 0 < d)
    (cross : a * d = c * b) : f.round a b = f.round c d := by
  calc f.round a b = f.round (d * a) (d * b) := (round_mul f a b hd).symm
    _ = f.round (b * c) (b * d) := by rw [Nat.mul_comm d a, cross, Nat.mul_comm c b, Nat.mul_comm d b]
    _ = f.round c d := round_mul f c d hb

theorem floatOfRatio_congr (negative : Bool) {a b c d : Nat} (hb : 0 < b) (hd : 0 < d)
    (same : (a : ℚ) / b = c / d) : floatOfRatio negative a b = floatOfRatio negative c d := by
  have cross : a * d = c * b := by
    rw [div_eq_div_iff (by exact_mod_cast hb.ne') (by exact_mod_cast hd.ne')] at same
    exact_mod_cast same
  unfold floatOfRatio
  rw [round_congr Format.double hb hd cross]

/-! ## The last step of rounding -/

/-- The quantum at which `Format.round` rounds a positive ratio: its binary exponent less the
width of the format, but no less than the least quantum. -/
def Format.quantumOf (f : Format) (num den : Nat) : Int :=
  max (floorLog2 num den - (f.precision - 1 : Nat)) f.minQuantum

/-- The last step of `Format.round`: the rounded quotient `n` at the quantum `q0`. A carry into a
new bit moves to the next quantum, and the result is checked against the range. -/
def Format.settle (f : Format) (n : Nat) (q0 : Int) : Rounded :=
  let carried := n = 2 ^ f.precision
  let m := if carried then 2 ^ (f.precision - 1) else n
  let q := if carried then q0 + 1 else q0
  if m = 0 then .zero
  else if f.maxQuantum < q then .overflow
  else .finite m q

theorem round_eq_settle (f : Format) {num den : Nat} (hnum : 0 < num) (hden : 0 < den) :
    f.round num den = f.settle
      (divRoundEven (scale2 num den (-f.quantumOf num den)).1
        (scale2 num den (-f.quantumOf num den)).2)
      (f.quantumOf num den) := by
  unfold Format.round
  rw [if_neg (by omega)]
  rfl

theorem settle_of_lt {f : Format} {n : Nat} {q0 : Int} (positive : 0 < n)
    (small : n < 2 ^ f.precision) (high : q0 ≤ f.maxQuantum) : f.settle n q0 = .finite n q0 := by
  unfold Format.settle
  simp only [Nat.ne_of_lt small, if_false]
  rw [if_neg (by omega), if_neg (by omega)]

theorem settle_carry {f : Format} {q0 : Int} (room : q0 + 1 ≤ f.maxQuantum) :
    f.settle (2 ^ f.precision) q0 = .finite (2 ^ (f.precision - 1)) (q0 + 1) := by
  unfold Format.settle
  simp only [if_true]
  rw [if_neg (Nat.two_pow_pos _).ne', if_neg (by omega)]

/-- A settled value is the quotient times its quantum, at a quantum no lower: a carry writes
`2 ^ precision` as half of it at the next quantum. -/
theorem settle_eq_finite {f : Format} (precise : 0 < f.precision) {n M : Nat} {q0 Q : Int}
    (settled : f.settle n q0 = .finite M Q) : q0 ≤ Q ∧ (M : ℚ) * 2 ^ Q = n * 2 ^ q0 := by
  unfold Format.settle at settled
  by_cases carried : n = 2 ^ f.precision
  · simp only [carried, if_true] at settled
    rw [if_neg (Nat.two_pow_pos _).ne'] at settled
    split at settled
    · cases settled
    cases settled
    refine ⟨by omega, ?_⟩
    rw [carried, zpow_add_one₀ two_ne_zero, ← mul_assoc]
    push_cast
    rw [mul_right_comm, ← pow_succ, Nat.sub_add_cancel precise]
  · simp only [carried, if_false] at settled
    split at settled
    · cases settled
    split at settled
    · cases settled
    cases settled
    exact ⟨le_refl _, rfl⟩

theorem settle_eq_zero {f : Format} {n : Nat} {q0 : Int} (settled : f.settle n q0 = .zero) :
    n = 0 := by
  unfold Format.settle at settled
  by_cases carried : n = 2 ^ f.precision
  · simp only [carried, if_true] at settled
    rw [if_neg (Nat.two_pow_pos _).ne'] at settled
    split at settled <;> cases settled
  · simp only [carried, if_false] at settled
    split at settled
    · assumption
    split at settled <;> cases settled

theorem settle_ne_overflow {f : Format} {n : Nat} {q0 : Int} (room : q0 + 1 ≤ f.maxQuantum) :
    f.settle n q0 ≠ .overflow := by
  intro settled
  unfold Format.settle at settled
  by_cases carried : n = 2 ^ f.precision
  · simp only [carried, if_true] at settled
    rw [if_neg (Nat.two_pow_pos _).ne', if_neg (by omega)] at settled
    cases settled
  · simp only [carried, if_false] at settled
    split at settled
    · cases settled
    · rw [if_neg (by omega)] at settled
      cases settled

/-! ## How far a rounding moves -/

theorem round_eq_finite {f : Format} (precise : 0 < f.precision) {num den M : Nat} {Q : Int}
    (rounded : f.round num den = .finite M Q) :
    ∃ q0 : Int, q0 ≤ Q ∧ 0 < den ∧
      (M : ℚ) * 2 ^ Q = divRoundEven (scale2 num den (-q0)).1 (scale2 num den (-q0)).2 * 2 ^ q0 := by
  by_cases zero : num = 0 ∨ den = 0
  · rw [Format.round, if_pos zero] at rounded
    cases rounded
  · rw [round_eq_settle f (by omega) (by omega)] at rounded
    obtain ⟨le, value⟩ := settle_eq_finite precise rounded
    exact ⟨_, le, by omega, value⟩

/-- A finite rounding lies within half its quantum of the ratio. -/
theorem round_sub_le {f : Format} (precise : 0 < f.precision) {num den M : Nat} {Q : Int}
    (rounded : f.round num den = .finite M Q) :
    |(M : ℚ) * 2 ^ Q - num / den| ≤ 2 ^ (Q - 1) := by
  obtain ⟨q0, le, hden, value⟩ := round_eq_finite precise rounded
  have near := divRoundEven_sub_le (scale2 num den (-q0)).1 (scale2 num den (-q0)).2
    (scale2_snd_pos (-q0) hden)
  rw [ratio_scale2 num den (-q0) hden] at near
  generalize divRoundEven (scale2 num den (-q0)).1 (scale2 num den (-q0)).2 = n at near value
  have scaled : (n : ℚ) * 2 ^ q0 - num / den = (n - num / den * 2 ^ (-q0)) * 2 ^ q0 := by
    rw [sub_mul, mul_assoc _ (2 ^ (-q0)), ← zpow_add₀ two_ne_zero, neg_add_cancel, zpow_zero,
      mul_one]
  rw [value, scaled, abs_mul, abs_of_pos (zpow_pos two_pos q0 : (0 : ℚ) < 2 ^ q0)]
  calc |(n : ℚ) - num / den * 2 ^ (-q0)| * 2 ^ q0 ≤ 1 / 2 * 2 ^ q0 :=
        mul_le_mul_of_nonneg_right near (zpow_pos two_pos q0).le
    _ = 2 ^ (q0 - 1) := by rw [zpow_sub₀ two_ne_zero, zpow_one]; ring
    _ ≤ 2 ^ (Q - 1) := zpow_le_zpow_right₀ one_le_two (by omega)

/-- A ratio above half the least quantum does not round to zero. -/
theorem round_ne_zero {f : Format} (precise : 0 < f.precision) {num den : Nat} (hden : 0 < den)
    (large : (2 : ℚ) ^ (f.minQuantum - 1) < num / den) : f.round num den ≠ .zero := by
  intro rounded
  have hnum : 0 < num := by
    rcases Nat.eq_zero_or_pos num with zero | positive
    · rw [zero, Nat.cast_zero, zero_div] at large
      exact absurd large (not_lt.2 (zpow_pos two_pos _).le)
    · exact positive
  obtain ⟨lower, -⟩ := floorLog2_bounds num den hnum hden
  rw [round_eq_settle f hnum hden] at rounded
  have quotientZero := settle_eq_zero rounded
  generalize hq0 : f.quantumOf num den = q0 at quotientZero
  have quantum : max (floorLog2 num den - (f.precision - 1 : Nat)) f.minQuantum = q0 := hq0
  have near := divRoundEven_sub_le (scale2 num den (-q0)).1 (scale2 num den (-q0)).2
    (scale2_snd_pos (-q0) hden)
  rw [quotientZero, ratio_scale2 num den (-q0) hden, Nat.cast_zero, zero_sub, abs_neg,
    abs_of_nonneg (by positivity)] at near
  have scaledBack : (num : ℚ) / den = num / den * 2 ^ (-q0) * 2 ^ q0 := by
    rw [mul_assoc, ← zpow_add₀ two_ne_zero, neg_add_cancel, zpow_zero, mul_one]
  by_cases least : q0 = f.minQuantum
  · -- the ratio is at most half the least quantum
    have : (num : ℚ) / den ≤ 2 ^ (q0 - 1) := by
      rw [scaledBack, zpow_sub₀ two_ne_zero, zpow_one]
      nlinarith [zpow_pos (two_pos : (0 : ℚ) < 2) q0]
    rw [least] at this
    linarith
  · -- above the least quantum the scaled quotient has its full width, at least one
    have exact : q0 = floorLog2 num den - (f.precision - 1 : Nat) := by omega
    have : (1 : ℚ) ≤ num / den * 2 ^ (-q0) :=
      calc (1 : ℚ) ≤ 2 ^ (floorLog2 num den + -q0) := one_le_zpow₀ one_le_two (by omega)
        _ = 2 ^ floorLog2 num den * 2 ^ (-q0) := zpow_add₀ two_ne_zero _ _
        _ ≤ num / den * 2 ^ (-q0) := mul_le_mul_of_nonneg_right lower (by positivity)
    linarith

/-- A ratio below the top binade of the format does not overflow. -/
theorem round_ne_overflow {f : Format} (ordered : f.minQuantum < f.maxQuantum) {num den : Nat}
    (hden : 0 < den) (small : (num : ℚ) / den < 2 ^ (f.maxQuantum + f.precision - 1)) :
    f.round num den ≠ .overflow := by
  intro rounded
  have hnum : 0 < num := by
    rcases Nat.eq_zero_or_pos num with zero | positive
    · rw [zero, round_zero] at rounded
      cases rounded
    · exact positive
  obtain ⟨lower, -⟩ := floorLog2_bounds num den hnum hden
  have below : floorLog2 num den < f.maxQuantum + f.precision - 1 :=
    (zpow_lt_zpow_iff_right₀ one_lt_two).1 (lower.trans_lt small)
  have room : f.quantumOf num den + 1 ≤ f.maxQuantum := by
    unfold Format.quantumOf
    omega
  rw [round_eq_settle f hnum hden] at rounded
  exact settle_ne_overflow room rounded

/-- A positive ratio inside the range of doubles rounds to a double no further from it than
`2 ^ -52` of it, or half the least quantum below the normal range. -/
theorem round_double_near {num den : Nat} (hden : 0 < den)
    (large : (2 : ℚ) ^ (-1075 : Int) < num / den) (small : (num : ℚ) / den < 2 ^ (1023 : Int)) :
    ∃ M Q, Format.double.round num den = .finite M Q ∧ Normal Format.double M Q ∧
      |(M : ℚ) * 2 ^ Q - num / den| ≤ num / den / 2 ^ 52 + 2 ^ (-1075 : Int) := by
  have notZero := round_ne_zero (f := Format.double) (by decide) hden large
  have notOver := round_ne_overflow (f := Format.double) (by decide) hden
    (by rw [show Format.double.maxQuantum + (Format.double.precision : Int) - 1 = 1023 from rfl]
        exact small)
  cases rounded : Format.double.round num den with
  | zero => exact absurd rounded notZero
  | overflow => exact absurd rounded notOver
  | finite M Q =>
    have normal := round_normal Format.double (by decide) rounded
    have err := round_sub_le (by decide) rounded
    refine ⟨M, Q, rfl, normal, err.trans ?_⟩
    have tiny : (0 : ℚ) < 2 ^ (-1075 : Int) := zpow_pos two_pos _
    have relative : (0 : ℚ) ≤ num / den / 2 ^ 52 :=
      div_nonneg (div_nonneg (Nat.cast_nonneg _) (Nat.cast_nonneg _)) (by norm_num)
    rcases normal.full with full | least
    · -- a full significand: half a quantum is at most `2 ^ -52` of the value
      have half : (2 : ℚ) ^ (Q - 1) = 2 ^ Q / 2 := by
        rw [zpow_sub_one₀ two_ne_zero]
        ring
      have fullQ : (2 : ℚ) ^ 52 * 2 ^ Q ≤ M * 2 ^ Q :=
        mul_le_mul_of_nonneg_right (by exact_mod_cast full) (zpow_pos two_pos Q).le
      obtain ⟨-, above⟩ := abs_le.1 err
      rw [half] at above ⊢
      have : (2 : ℚ) ^ Q / 2 ≤ num / den / 2 ^ 52 := by
        rw [le_div_iff₀ (by positivity)]
        nlinarith [zpow_pos (two_pos : (0 : ℚ) < 2) Q]
      linarith
    · -- the least quantum: half of it is `2 ^ -1075`
      rw [least]
      have : (Format.double.minQuantum : Int) - 1 = -1075 := rfl
      rw [this]
      linarith

/-! ## Rounding a value nearby -/

/-- A ratio within a quarter quantum of a value of the format rounds to that value. Just below
the binade of `M` the quantum is half as large, which the quarter leaves room for. -/
theorem round_of_near (f : Format) {num den M : Nat} {Q : Int} (hden : 0 < den)
    (normal : Normal f M Q) (near : |(num : ℚ) / den - M * 2 ^ Q| < 2 ^ (Q - 2)) :
    f.round num den = .finite M Q := by
  obtain ⟨positive, small, full, low, high⟩ := normal
  obtain ⟨nearLow, nearHigh⟩ := abs_lt.1 near
  have logLow : 2 ^ M.log2 ≤ M := Nat.log2_self_le (by omega)
  have logHigh : M < 2 ^ (M.log2 + 1) := Nat.lt_log2_self
  have logSmall : M.log2 < f.precision := (Nat.log2_lt (by omega)).2 small
  have logFull : f.precision - 1 ≤ M.log2 ∨ Q = f.minQuantum := by
    rcases full with full | least
    · exact Or.inl ((Nat.le_log2 (by omega)).2 full)
    · exact Or.inr least
  -- the ratio `x` against the binade `[2 ^ L * P, 2 * 2 ^ L * P)` of `M * P`, with `P = 2 ^ Q`
  have P := zpow_pos (two_pos : (0 : ℚ) < 2) Q
  have quarter : (2 : ℚ) ^ (Q - 2) = 2 ^ Q / 4 := by
    rw [zpow_sub₀ two_ne_zero]
    norm_num
  have binade : ∀ j : Int, (2 : ℚ) ^ ((M.log2 : Int) + Q + j) = 2 ^ M.log2 * 2 ^ Q * 2 ^ j := by
    intro j
    rw [zpow_add₀ two_ne_zero, zpow_add₀ two_ne_zero, zpow_natCast]
  have lowP : (2 : ℚ) ^ M.log2 * 2 ^ Q ≤ M * 2 ^ Q :=
    mul_le_mul_of_nonneg_right (by exact_mod_cast logLow) P.le
  have highP : ((M : ℚ) + 1) * 2 ^ Q ≤ 2 * 2 ^ M.log2 * 2 ^ Q := by
    refine mul_le_mul_of_nonneg_right ?_ P.le
    rw [← pow_succ']
    exact_mod_cast logHigh
  have oneP : (2 : ℚ) ^ Q ≤ 2 ^ M.log2 * 2 ^ Q :=
    le_mul_of_one_le_left P.le (one_le_pow₀ one_le_two)
  rw [quarter] at nearLow nearHigh
  have xAbove : (2 : ℚ) ^ ((M.log2 : Int) + Q + -1) < num / den := by
    rw [binade, zpow_neg_one]
    linarith
  have xBelow : (num : ℚ) / den < 2 ^ ((M.log2 : Int) + Q + 1) := by
    rw [binade, zpow_one]
    linarith
  have hnum : 0 < num := by
    rcases Nat.eq_zero_or_pos num with zero | positive
    · rw [zero, Nat.cast_zero, zero_div] at xAbove
      exact absurd xAbove (not_lt.2 (zpow_pos two_pos _).le)
    · exact positive
  -- a quotient of `M` at the quantum `Q` gives `M * 2 ^ Q`
  have atQuantum : f.quantumOf num den = Q → f.round num den = .finite M Q := by
    intro quantum
    have quotient : divRoundEven (scale2 num den (-Q)).1 (scale2 num den (-Q)).2 = M := by
      apply divRoundEven_scale2_eq hden
      rw [abs_sub_comm]
      calc |(num : ℚ) / den - M * 2 ^ Q| < 2 ^ (Q - 2) := near
        _ ≤ 2 ^ (Q - 1) := zpow_le_zpow_right₀ one_le_two (by omega)
    rw [round_eq_settle f hnum hden, quantum, quotient, settle_of_lt positive small high]
  by_cases above : (2 : ℚ) ^ ((M.log2 : Int) + Q) ≤ num / den
  · have exponent : floorLog2 num den = M.log2 + Q :=
      floorLog2_eq hnum hden above xBelow
    apply atQuantum
    unfold Format.quantumOf
    rw [exponent]
    omega
  · have exponent : floorLog2 num den = M.log2 + Q + -1 :=
      floorLog2_eq hnum hden xAbove.le
        (by rw [show (M.log2 : Int) + Q + -1 + 1 = M.log2 + Q by omega]; exact not_le.1 above)
    by_cases least : Q = f.minQuantum
    · apply atQuantum
      unfold Format.quantumOf
      rw [exponent]
      omega
    · -- below the binade of a full significand: `M` is `2 ^ (precision - 1)` and the ratio rounds
      -- up to `2 ^ precision` at the quantum below, which carries back to `M * 2 ^ Q`
      have topBit : M.log2 = f.precision - 1 := by omega
      have powerOfTwo : M = 2 ^ (f.precision - 1) := by
        have lowerBinade : (M : ℚ) < 2 ^ M.log2 + 1 := by
          have : (M : ℚ) * 2 ^ Q < (2 ^ M.log2 + 1) * 2 ^ Q := by
            rw [zpow_add₀ two_ne_zero, zpow_natCast, not_le] at above
            linarith
          exact lt_of_mul_lt_mul_right this P.le
        have : M < 2 ^ M.log2 + 1 := by exact_mod_cast lowerBinade
        rw [← topBit]
        omega
      have quantum : f.quantumOf num den = Q - 1 := by
        unfold Format.quantumOf
        rw [exponent]
        omega
      have quotient : divRoundEven (scale2 num den (-(Q - 1))).1 (scale2 num den (-(Q - 1))).2 =
          2 ^ f.precision := by
        apply divRoundEven_scale2_eq hden
        have same : ((2 ^ f.precision : Nat) : ℚ) * 2 ^ (Q - 1) = M * 2 ^ Q := by
          obtain ⟨k, hk⟩ : ∃ k, f.precision = k + 1 := ⟨f.precision - 1, by omega⟩
          rw [powerOfTwo, hk, Nat.add_sub_cancel, zpow_sub_one₀ two_ne_zero]
          push_cast
          ring
        rw [same, abs_sub_comm]
        calc |(num : ℚ) / den - M * 2 ^ Q| < 2 ^ (Q - 2) := near
          _ = 2 ^ (Q - 1 - 1) := by congr 1; omega
      rw [round_eq_settle f hnum hden, quantum, quotient, settle_carry (by omega),
        Int.sub_add_cancel, powerOfTwo]

/-! ## Single precision -/

theorem toSingle_floatOfRounded {negative : Bool} {M m : Nat} {Q q : Int}
    (double : Normal Format.double M Q)
    (single : Format.single.round (scale2 M 1 Q).1 (scale2 M 1 Q).2 = .finite m q) :
    toSingle (floatOfRounded negative (.finite M Q)) = .ok (floatOfBinary negative m q) := by
  obtain ⟨bound, parts⟩ := @ofBits_bitsOfRounded negative M Q double
  unfold toSingle
  rw [ofFloat_floatOfRounded bound (by rw [parts]; nofun), parts]
  dsimp only
  rw [single]

/-- A finite nonzero value that rounding to single precision gives is a single-precision value
`m * 2 ^ q`, written with the sign of its double. -/
theorem toSingle_eq_ok_finite {x v : Float} {M : Nat} {Q : Int} (rounded : toSingle x = .ok v)
    (shape : (Parts.ofFloat v).shape = .finite M Q) :
    ∃ m q, Normal Format.single m q ∧ (M : ℚ) * 2 ^ Q = m * 2 ^ q ∧
      v = floatOfBinary (Parts.ofFloat v).negative m q := by
  unfold toSingle at rounded
  rcases xShape : (Parts.ofFloat x).shape with _ | ⟨mx, qx⟩ | _ | _ <;>
    simp only [xShape] at rounded
  case finite =>
    split at rounded
    · cases rounded
    · cases rounded
      obtain ⟨bound, parts⟩ := ofBits_bitsOfRounded_zero (Parts.ofFloat x).negative
      rw [ofFloat_floatOfRounded bound (by rw [parts]; nofun), parts] at shape
      cases shape
    · rename_i m q single
      cases rounded
      have normal := round_normal Format.single (by decide) single
      obtain ⟨M', Q', double, value⟩ := normal.widen
      have parts := @ofFloat_floatOfBinary (Parts.ofFloat x).negative m M' q Q' double value
        normal.positive
      rw [parts] at shape ⊢
      cases shape
      exact ⟨m, q, normal, value, rfl⟩
  all_goals
    cases rounded
    rw [xShape] at shape
    cases shape

theorem isFinite_of_toSingle {x v : Float} (rounded : toSingle x = .ok v) (finite : isFinite v = true) :
    isFinite x = true := by
  unfold toSingle at rounded
  unfold isFinite
  rcases xShape : (Parts.ofFloat x).shape with _ | ⟨mx, qx⟩ | _ | _ <;>
    simp only [xShape] at rounded
  · rfl
  · rfl
  all_goals
    cases rounded
    unfold isFinite at finite
    rw [xShape] at finite
    cases finite

theorem Parts.significand_pos {bits m : Nat} {q : Int} (shape : (Parts.ofBits bits).shape = .finite m q) :
    0 < m := by
  unfold Parts.ofBits at shape
  dsimp only at shape
  split_ifs at shape with top bottom empty
  · cases shape
    omega
  · cases shape
    omega

theorem beq_self_of_number {x : Float} (number : (Parts.ofFloat x).shape ≠ .nan) : (x == x) = true := by
  have unpacked : x.toModel.unpack ≠ .notANumber := unpack_ne_notANumber x.toBits.toBitVec number
  show (x.toModel.unpack.compare x.toModel.unpack == some .eq) = true
  generalize x.toModel.unpack = u at unpacked ⊢
  cases u with
  | notANumber => exact absurd rfl unpacked
  | infinity s => cases s <;> rfl
  | zero s => cases s <;> rfl
  | finite s m e positive =>
    cases s <;> simp [Float.Model.UnpackedFloat.compare]

end Keyframes.Binary
