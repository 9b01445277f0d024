import Keyframes.Proofs.Significant
import Keyframes.Proofs.LineFaults

/-!
# The positional text of a decimal

`Scientific.positional` writes a decimal with all its digits in place: the digits of the number
with no zero at its end, and the point placed before them, after them or between two of them,
with zeros to fill. Such a text is a plain decimal (`isPlainDecimal`): an optional minus, a whole
part with no zero in front unless it is `0`, and optionally a point and a fraction that ends in a
digit other than zero; no exponent (`isPlainDecimal_positional`). Read as a number, with a minus
or without, it gives the double nearest to the decimal (`readFloat_positional`).

Main statements: `isPlainDecimal_positional` and `readFloat_positional`.
-/

namespace Keyframes.Decimal
open Keyframes.Binary

/-! ## Digits -/

theorem digitChars_of_ten_le {n : Nat} (large : 10 ≤ n) :
    digitChars n = digitChars (n / 10) ++ [Nat.digitChar (n % 10)] :=
  Nat.toDigits_of_base_le (by decide) large

theorem length_div_ten {n : Nat} (large : 10 ≤ n) : length (n / 10) + 1 = length n := by
  unfold length
  rw [digitChars_of_ten_le large, List.length_append, List.length_singleton]

theorem isDigit_of_mem_digitChars {n : Nat} {c : Char} (mem : c ∈ digitChars n) : c.isDigit = true :=
  Nat.isDigit_of_mem_toDigits (by decide) (by decide) mem

theorem head_digitChars {n : Nat} (positive : 0 < n) : (digitChars n).head? ≠ some '0' := by
  induction n using Nat.strong_induction_on with
  | _ n ih =>
    by_cases large : 10 ≤ n
    · have nonempty : digitChars (n / 10) ≠ [] := Nat.toDigits_ne_nil
      rw [digitChars_of_ten_le large, List.head?_append_of_ne_nil _ nonempty]
      exact ih (n / 10) (by omega) (by omega)
    · rw [digitChars, Nat.toDigits_of_lt_base (by omega), List.head?_cons, Ne, Option.some_inj,
        Nat.digitChar_eq_zero]
      omega

theorem getLast_digitChars (n : Nat) : (digitChars n).getLast? = some (Nat.digitChar (n % 10)) := by
  by_cases large : 10 ≤ n
  · rw [digitChars_of_ten_le large, List.getLast?_concat]
  · rw [digitChars, Nat.toDigits_of_lt_base (by omega), Nat.mod_eq_of_lt (by omega)]
    rfl

theorem digit_bounds {c : Char} (digit : c.isDigit = true) : 48 ≤ c.toNat ∧ c.toNat ≤ 57 := by
  simp only [Char.isDigit, Bool.and_eq_true, decide_eq_true_eq] at digit
  exact digit

/-! ## Dropping the zeros at the end -/

theorem Scientific.trimFuel_value : ∀ (fuel : Nat) (d : Scientific),
    (d.trimFuel fuel).value = d.value
  | 0, d => rfl
  | fuel + 1, d => by
    unfold Scientific.trimFuel
    split
    · rename_i zeros
      rw [Scientific.trimFuel_value fuel]
      obtain ⟨c, hc⟩ : 10 ∣ d.digits := Nat.dvd_of_mod_eq_zero zeros.2
      unfold Scientific.value
      dsimp only
      rw [hc, Nat.mul_div_cancel_left _ (by decide), zpow_add_one₀ (by norm_num)]
      push_cast
      ring
    · rfl

/-- With a digit of fuel for every zero, no zero is left at the end. -/
theorem Scientific.trimFuel_trimmed : ∀ (fuel : Nat) (d : Scientific), 0 < d.digits →
    length d.digits ≤ fuel + 1 → 0 < (d.trimFuel fuel).digits ∧ (d.trimFuel fuel).digits % 10 ≠ 0
  | 0, d, positive, short => by
    have : d.digits < 10 ^ 1 := (length_bounds positive).2.trans_le (Nat.pow_le_pow_right (by decide) short)
    exact ⟨positive, by rw [Scientific.trimFuel]; omega⟩
  | fuel + 1, d, positive, short => by
    unfold Scientific.trimFuel
    split
    · rename_i zeros
      have large : 10 ≤ d.digits := by omega
      have shorter := length_div_ten large
      exact Scientific.trimFuel_trimmed fuel ⟨d.digits / 10, d.exponent + 1⟩ (by dsimp only; omega)
        (by dsimp only; omega)
    · rename_i stop
      exact ⟨positive, by omega⟩

theorem Scientific.trim_value (d : Scientific) : d.trim.value = d.value :=
  Scientific.trimFuel_value _ d

theorem Scientific.trim_trimmed {d : Scientific} (positive : 0 < d.digits) :
    0 < d.trim.digits ∧ d.trim.digits % 10 ≠ 0 :=
  Scientific.trimFuel_trimmed _ d positive (Nat.le_succ _)

/-! ## Plain decimal texts -/

/-- A whole part: digits, with no zero in front unless it is the single digit `0`. -/
def isWholePart (cs : List Char) : Bool :=
  !cs.isEmpty && cs.all Char.isDigit && (cs == ['0'] || cs.head? != some '0')

/-- A fraction: digits, the last of them not zero. -/
def isFractionPart (cs : List Char) : Bool :=
  !cs.isEmpty && cs.all Char.isDigit && cs.getLast? != some '0'

/-- An unsigned plain decimal: a whole part, then optionally a point and a fraction. -/
def isPlainUnsigned (cs : List Char) : Bool :=
  match cs.splitOn '.' with
  | [whole] => isWholePart whole
  | [whole, fraction] => isWholePart whole && isFractionPart fraction
  | _ => false

/-- A plain decimal: an optional minus and an unsigned plain decimal; no exponent. -/
def isPlainDecimal (s : String) : Bool :=
  match s.toList with
  | '-' :: cs => isPlainUnsigned cs
  | cs => isPlainUnsigned cs

theorem isWholePart_of {cs : List Char} (nonempty : cs ≠ []) (digits : ∀ c ∈ cs, c.isDigit = true)
    (head : cs.head? ≠ some '0') : isWholePart cs = true := by
  simp only [isWholePart, Bool.and_eq_true, Bool.not_eq_true', List.isEmpty_eq_false_iff,
    List.all_eq_true, Bool.or_eq_true, bne_iff_ne]
  exact ⟨⟨nonempty, digits⟩, Or.inr head⟩

theorem isFractionPart_of {cs : List Char} (nonempty : cs ≠ []) (digits : ∀ c ∈ cs, c.isDigit = true)
    (last : cs.getLast? ≠ some '0') : isFractionPart cs = true := by
  simp only [isFractionPart, Bool.and_eq_true, Bool.not_eq_true', List.isEmpty_eq_false_iff,
    List.all_eq_true, bne_iff_ne]
  exact ⟨⟨nonempty, digits⟩, last⟩

theorem point_not_mem {cs : List Char} (digits : ∀ c ∈ cs, c.isDigit = true) : '.' ∉ cs :=
  fun mem => absurd (digits '.' mem) (by decide)

theorem isDigit_of_mem_zeros {n : Nat} {c : Char} (mem : c ∈ List.replicate n '0') :
    c.isDigit = true := by
  rw [(List.mem_replicate.1 mem).2]
  rfl

/-- Digits with no zero at either end, with the point placed anywhere, make a plain decimal. -/
theorem isPlainUnsigned_placePoint {ds : List Char} (digits : ∀ c ∈ ds, c.isDigit = true)
    (nonempty : ds ≠ []) (head : ds.head? ≠ some '0') (last : ds.getLast? ≠ some '0')
    (point : Int) : isPlainUnsigned (placePoint ds point) = true := by
  unfold placePoint
  split
  · -- `0.`, zeros, then the digits
    have fraction : ∀ c ∈ List.replicate (-point).toNat '0' ++ ds, c.isDigit = true := by
      intro c mem
      rcases List.mem_append.1 mem with zero | digit
      · exact isDigit_of_mem_zeros zero
      · exact digits c digit
    unfold isPlainUnsigned
    rw [show '0' :: '.' :: (List.replicate (-point).toNat '0' ++ ds) =
        ['0'] ++ '.' :: (List.replicate (-point).toNat '0' ++ ds) from rfl,
      List.splitOn_append_cons_self_of_not_mem (by decide : '.' ∉ ['0']),
      List.splitOn_eq_singleton (point_not_mem fraction)]
    simp only [Bool.and_eq_true]
    refine ⟨rfl, isFractionPart_of (by simp [nonempty]) fraction ?_⟩
    rw [List.getLast?_append_of_ne_nil _ nonempty]
    exact last
  · split
    · -- the digits, then zeros
      have whole : ∀ c ∈ ds ++ List.replicate (point.toNat - ds.length) '0', c.isDigit = true := by
        intro c mem
        rcases List.mem_append.1 mem with digit | zero
        · exact digits c digit
        · exact isDigit_of_mem_zeros zero
      unfold isPlainUnsigned
      rw [List.splitOn_eq_singleton (point_not_mem whole)]
      refine isWholePart_of (by simp [nonempty]) whole ?_
      rw [List.head?_append_of_ne_nil _ nonempty]
      exact head
    · -- the point between two digits
      rename_i inside beyond
      have before : ∀ c ∈ ds.take point.toNat, c.isDigit = true :=
        fun c mem => digits c (List.mem_of_mem_take mem)
      have after : ∀ c ∈ ds.drop point.toNat, c.isDigit = true :=
        fun c mem => digits c (List.mem_of_mem_drop mem)
      unfold isPlainUnsigned
      rw [List.splitOn_append_cons_self_of_not_mem (point_not_mem before),
        List.splitOn_eq_singleton (point_not_mem after)]
      simp only [Bool.and_eq_true]
      refine ⟨isWholePart_of ?_ before ?_, isFractionPart_of ?_ after ?_⟩
      · simp only [ne_eq, List.take_eq_nil_iff, not_or]
        exact ⟨by omega, nonempty⟩
      · rw [List.head?_take, if_neg (by omega)]
        exact head
      · simp only [ne_eq, List.drop_eq_nil_iff, not_le]
        omega
      · rw [List.getLast?_drop, if_neg (by omega)]
        exact last

theorem head_placePoint {ds : List Char} (digits : ∀ c ∈ ds, c.isDigit = true)
    (nonempty : ds ≠ []) (point : Int) : ∀ c ∈ (placePoint ds point).head?, c.isDigit = true := by
  intro c mem
  have first : ∀ c ∈ ds.head?, c.isDigit = true :=
    fun c mem => digits c (List.mem_of_mem_head? mem)
  unfold placePoint at mem
  split at mem
  · cases mem
    rfl
  · split at mem
    · rw [List.head?_append_of_ne_nil _ nonempty] at mem
      exact first c mem
    · rw [List.head?_append_of_ne_nil _ (by simp only [ne_eq, List.take_eq_nil_iff, not_or]; exact ⟨by omega, nonempty⟩), List.head?_take, if_neg (by omega)] at mem
      exact first c mem

theorem mem_placePoint {ds : List Char} {point : Int} {c : Char} (mem : c ∈ placePoint ds point) :
    c ∈ ds ∨ c = '0' ∨ c = '.' := by
  unfold placePoint at mem
  split at mem
  · simp only [List.mem_cons, List.mem_append, List.mem_replicate] at mem
    rcases mem with zero | point | ⟨-, zero⟩ | digit
    · exact Or.inr (Or.inl zero)
    · exact Or.inr (Or.inr point)
    · exact Or.inr (Or.inl zero)
    · exact Or.inl digit
  · split at mem
    · rcases List.mem_append.1 mem with digit | zero
      · exact Or.inl digit
      · exact Or.inr (Or.inl (List.mem_replicate.1 zero).2)
    · rcases List.mem_append.1 mem with digit | rest
      · exact Or.inl (List.mem_of_mem_take digit)
      · rcases List.mem_cons.1 rest with point | digit
        · exact Or.inr (Or.inr point)
        · exact Or.inl (List.mem_of_mem_drop digit)

theorem positional_digits (d : Scientific) :
    d.positional.toList = placePoint (digitChars d.trim.digits)
      ((digitChars d.trim.digits).length + d.trim.exponent) := by
  unfold Scientific.positional
  rw [String.toList_ofList]

/-- The positional text of a nonzero decimal, with or without a minus, is a plain decimal. -/
theorem isPlainDecimal_positional (negative : Bool) {d : Scientific} (positive : 0 < d.digits) :
    isPlainDecimal ((if negative then "-" else "") ++ d.positional) = true := by
  obtain ⟨trimmedPositive, trimmedLast⟩ := Scientific.trim_trimmed positive
  have digits : ∀ c ∈ digitChars d.trim.digits, c.isDigit = true :=
    fun c => isDigit_of_mem_digitChars
  have nonempty : digitChars d.trim.digits ≠ [] := Nat.toDigits_ne_nil
  have plain : isPlainUnsigned d.positional.toList = true := by
    rw [positional_digits]
    apply isPlainUnsigned_placePoint digits nonempty (head_digitChars trimmedPositive)
    rw [getLast_digitChars, Ne, Option.some_inj, Nat.digitChar_eq_zero]
    exact trimmedLast
  cases negative
  · rw [if_neg Bool.false_ne_true, String.empty_append]
    unfold isPlainDecimal
    split
    · rename_i rest signed
      have first := head_placePoint digits nonempty
        ((digitChars d.trim.digits).length + d.trim.exponent) '-'
      rw [← positional_digits, signed] at first
      exact absurd (first rfl) (by decide)
    · exact plain
  · rw [if_pos rfl]
    unfold isPlainDecimal
    rw [String.toList_append]
    exact plain

/-! ## Reading digits -/

theorem readMore_digits (acc count : Nat) {ds rest : List Char} (digits : ∀ c ∈ ds, c.isDigit = true)
    (stop : ∀ c ∈ rest.head?, c.isDigit = false ∧ c ≠ '_') :
    readDigits.readMore acc count (ds ++ rest) = (Nat.ofDigitChars 10 ds acc, count + ds.length, rest) := by
  induction ds generalizing acc count with
  | nil =>
    cases rest with
    | nil => rfl
    | cons c r =>
      obtain ⟨notDigit, notUnderscore⟩ := stop c rfl
      rw [List.nil_append, readDigits.readMore.eq_3 _ _ _ _ fun _ _ same => absurd same notUnderscore, if_neg (by simp [notDigit])]
      rfl
  | cons c ds ih =>
    have isDigit := digits c List.mem_cons_self
    have notUnderscore : c ≠ '_' := fun same => absurd (same ▸ isDigit) (by decide)
    rw [List.cons_append, readDigits.readMore.eq_3 _ _ _ _ fun _ _ same => absurd same notUnderscore, if_pos isDigit,
      ih _ _ fun c mem => digits c (List.mem_cons_of_mem _ mem), Nat.ofDigitChars_cons, List.length_cons]
    congr 2
    omega

theorem readDigits_digits {ds rest : List Char} (nonempty : ds ≠ []) (digits : ∀ c ∈ ds, c.isDigit = true)
    (stop : ∀ c ∈ rest.head?, c.isDigit = false ∧ c ≠ '_') :
    readDigits (ds ++ rest) = some (Nat.ofDigitChars 10 ds 0, ds.length, rest) := by
  obtain ⟨c, cs, rfl⟩ := List.exists_cons_of_ne_nil nonempty
  have isDigit := digits c List.mem_cons_self
  rw [List.cons_append, readDigits, if_pos isDigit,
    readMore_digits _ _ (fun c mem => digits c (List.mem_cons_of_mem _ mem)) stop,
    Nat.ofDigitChars_cons, List.length_cons]
  congr 3
  · rw [Nat.mul_zero, Nat.zero_add]
    rfl
  · omega

theorem stop_point (rest : List Char) : ∀ c ∈ ('.' :: rest).head?, c.isDigit = false ∧ c ≠ '_' := by
  intro c mem
  cases mem
  decide

theorem stop_end : ∀ c ∈ ([] : List Char).head?, c.isDigit = false ∧ c ≠ '_' :=
  fun _ mem => nomatch mem

/-- Digits, a point and digits read as one decimal with the point's place as its exponent. -/
theorem readUnsigned_point {whole fraction : List Char} (wholeNonempty : whole ≠ [])
    (wholeDigits : ∀ c ∈ whole, c.isDigit = true) (fractionNonempty : fraction ≠ [])
    (fractionDigits : ∀ c ∈ fraction, c.isDigit = true) :
    readUnsigned (whole ++ '.' :: fraction) =
      some ⟨Nat.ofDigitChars 10 whole 0 * 10 ^ fraction.length + Nat.ofDigitChars 10 fraction 0,
        -(fraction.length : Int)⟩ := by
  obtain ⟨c, cs, rfl⟩ := List.exists_cons_of_ne_nil wholeNonempty
  have notPoint : c ≠ '.' := fun same => absurd (same ▸ wholeDigits c List.mem_cons_self) (by decide)
  rw [readUnsigned.eq_def]
  split
  · rename_i rest same
    exact absurd (List.cons.inj same).1 notPoint
  · have readFraction := @readDigits_digits fraction [] fractionNonempty fractionDigits stop_end
    rw [List.append_nil] at readFraction
    rw [readDigits_digits wholeNonempty wholeDigits (stop_point _)]
    simp only [readFraction]
    rw [show readExponent [] = some 0 from rfl, Option.map_some, Int.zero_sub]

theorem readUnsigned_whole {whole : List Char} (nonempty : whole ≠ [])
    (digits : ∀ c ∈ whole, c.isDigit = true) :
    readUnsigned whole = some ⟨Nat.ofDigitChars 10 whole 0, 0⟩ := by
  obtain ⟨c, cs, rfl⟩ := List.exists_cons_of_ne_nil nonempty
  have notPoint : c ≠ '.' := fun same => absurd (same ▸ digits c List.mem_cons_self) (by decide)
  rw [readUnsigned.eq_def]
  split
  · rename_i rest same
    exact absurd (List.cons.inj same).1 notPoint
  · have readWhole := @readDigits_digits (c :: cs) [] nonempty digits stop_end
    rw [List.append_nil] at readWhole
    rw [readWhole]
    rfl

/-- Reading a number's digits with the point placed anywhere gives their value scaled by the
point's place. -/
theorem readUnsigned_placePoint {ds : List Char} (digits : ∀ c ∈ ds, c.isDigit = true)
    (nonempty : ds ≠ []) (point : Int) :
    ∃ e, readUnsigned (placePoint ds point) = some e ∧
      e.value = Nat.ofDigitChars 10 ds 0 * 10 ^ (point - ds.length) := by
  unfold placePoint
  split
  · rename_i before
    have fraction : ∀ c ∈ List.replicate (-point).toNat '0' ++ ds, c.isDigit = true := by
      intro c mem
      rcases List.mem_append.1 mem with zero | digit
      · rw [(List.mem_replicate.1 zero).2]
        rfl
      · exact digits c digit
    refine ⟨_, @readUnsigned_point ['0'] _ (List.cons_ne_nil _ _)
      (fun c mem => by rw [List.mem_singleton.1 mem]; rfl) (by simp [nonempty]) fraction, ?_⟩
    have zero : Nat.ofDigitChars 10 ['0'] 0 = 0 := by simp [Nat.ofDigitChars]
    unfold Scientific.value
    rw [Nat.ofDigitChars_append, Nat.ofDigitChars_replicate_zero, Nat.mul_zero, zero]
    simp only [List.length_append, List.length_replicate]
    push_cast
    rw [Int.toNat_of_nonneg (by omega), zero_mul, zero_add]
    rw [show -(-point + (ds.length : Int)) = point - ds.length by omega]
  · split
    · -- the digits, then zeros
      rename_i after within
      have whole : ∀ c ∈ ds ++ List.replicate (point.toNat - ds.length) '0', c.isDigit = true := by
        intro c mem
        rcases List.mem_append.1 mem with digit | zero
        · exact digits c digit
        · rw [(List.mem_replicate.1 zero).2]
          rfl
      refine ⟨_, readUnsigned_whole (by simp [nonempty]) whole, ?_⟩
      unfold Scientific.value
      rw [Nat.ofDigitChars_append, Nat.ofDigitChars_replicate_zero]
      push_cast
      rw [mul_one, mul_comm, ← zpow_natCast,
        show ((point.toNat - ds.length : Nat) : Int) = point - ds.length by omega]
    · -- the point between two digits
      rename_i after within
      have before : ∀ c ∈ ds.take point.toNat, c.isDigit = true :=
        fun c mem => digits c (List.mem_of_mem_take mem)
      have after : ∀ c ∈ ds.drop point.toNat, c.isDigit = true :=
        fun c mem => digits c (List.mem_of_mem_drop mem)
      refine ⟨_, readUnsigned_point (by simp only [ne_eq, List.take_eq_nil_iff, not_or]; exact ⟨by omega, nonempty⟩)
        before (by simp only [ne_eq, List.drop_eq_nil_iff, not_le]; omega) after, ?_⟩
      have whole : Nat.ofDigitChars 10 ds 0 =
          Nat.ofDigitChars 10 (ds.take point.toNat) 0 * 10 ^ (ds.drop point.toNat).length +
            Nat.ofDigitChars 10 (ds.drop point.toNat) 0 :=
        calc Nat.ofDigitChars 10 ds 0
            = Nat.ofDigitChars 10 (ds.take point.toNat ++ ds.drop point.toNat) 0 := by
              rw [List.take_append_drop]
          _ = Nat.ofDigitChars 10 (ds.drop point.toNat)
                (Nat.ofDigitChars 10 (ds.take point.toNat) 0) := Nat.ofDigitChars_append _
          _ = _ := by rw [Nat.ofDigitChars_eq_ofDigitChars_zero, Nat.mul_comm]
      unfold Scientific.value
      dsimp only
      rw [← whole, List.length_drop,
        show -((ds.length - point.toNat : Nat) : Int) = point - ds.length by omega]

/-! ## Reading a signed text -/

theorem asciiDigits_of_ascii {cs : List Char}
    (ascii : ∀ c ∈ cs, c.isDigit = true ∨ c = '.' ∨ c = '-') : asciiDigits cs = cs := by
  unfold asciiDigits
  conv => rhs; rw [← List.map_id cs]
  apply List.map_congr_left
  intro c mem
  rcases ascii c mem with digit | rfl | rfl
  · have bounds := digit_bounds digit
    rw [Text.digitValue_ascii (d := c.toNat - 48) (by omega) (by omega)]
    dsimp only
    rw [Nat.add_sub_cancel' bounds.1, Char.ofNat_toNat, id]
  · rfl
  · rfl

theorem dropWhile_of_solid {p : Char → Bool} {cs : List Char} (solid : ∀ c ∈ cs, p c = false) :
    cs.dropWhile p = cs := by
  cases cs with
  | nil => rfl
  | cons c rest => exact List.dropWhile_cons_of_neg (by simp [solid c List.mem_cons_self])

theorem trimNumber_of_solid {cs : List Char} (solid : ∀ c ∈ cs, Text.isNumberBlank c = false) :
    Text.trimNumber cs = cs := by
  unfold Text.trimNumber
  rw [dropWhile_of_solid solid,
    dropWhile_of_solid fun c mem => solid c (List.mem_reverse.1 mem), List.reverse_reverse]

theorem isNumberBlank_of_ascii {c : Char} (ascii : c.isDigit = true ∨ c = '.' ∨ c = '-') :
    Text.isNumberBlank c = false := by
  rcases ascii with digit | rfl | rfl
  · simp only [Text.isNumberBlank, Source.isBlank_of_ascii_digit digit, Bool.false_and]
  · decide
  · decide

theorem readSign_digit {c : Char} (digit : c.isDigit = true) (rest : List Char) :
    readSign (c :: rest) = (false, c :: rest) := by
  have bounds := digit_bounds digit
  unfold readSign
  split
  · rename_i minus
    have : c = '-' := (List.cons.inj minus).1
    subst this
    contradiction
  · rename_i plus
    have : c = '+' := (List.cons.inj plus).1
    subst this
    contradiction
  · rfl

theorem toLower_digit {c : Char} (digit : c.isDigit = true) : c.toLower = c := by
  have bounds := digit_bounds digit
  unfold Char.toLower
  rw [dif_neg]
  intro upper
  have : 65 ≤ c.toNat := upper.1
  omega

/-- A text that starts with a digit spells no word that starts with a letter. -/
theorem spells_digit {c : Char} (digit : c.isDigit = true) (rest : List Char) {w : String}
    (letter : ∀ x ∈ w.toList.head?, x.isDigit = false) : spells (c :: rest) w = false := by
  unfold spells
  rw [List.map_cons, toLower_digit digit]
  cases same : (c :: rest.map Char.toLower == w.toList)
  · rfl
  · have head := congrArg List.head? (beq_iff_eq.1 same)
    rw [List.head?_cons] at head
    have notDigit := letter c head.symm
    rw [digit] at notDigit
    cases notDigit

/-- The positional text of a nonzero decimal, with a minus or without, reads back as the double
nearest to the decimal, with that sign. -/
theorem readFloat_positional (negative : Bool) {d : Scientific} (positive : 0 < d.digits) :
    readFloat? ((if negative then "-" else "") ++ d.positional) = some (d.toFloat negative) := by
  obtain ⟨trimmedPositive, -⟩ := Scientific.trim_trimmed positive
  have digits : ∀ c ∈ digitChars d.trim.digits, c.isDigit = true :=
    fun c => isDigit_of_mem_digitChars
  have nonempty : digitChars d.trim.digits ≠ [] := Nat.toDigits_ne_nil
  -- the digits read back as the value of the decimal
  obtain ⟨e, read, value⟩ := readUnsigned_placePoint digits nonempty
    ((digitChars d.trim.digits).length + d.trim.exponent)
  rw [← positional_digits] at read
  have same : e.value = d.value := by
    rw [value, digitChars, Nat.ofDigitChars_ten_toDigits, add_sub_cancel_left, ← d.trim_value]
    rfl
  have chars : ∀ c ∈ d.positional.toList, c.isDigit = true ∨ c = '.' ∨ c = '-' := by
    intro c mem
    rw [positional_digits] at mem
    rcases mem_placePoint mem with digit | rfl | rfl
    · exact Or.inl (digits c digit)
    · exact Or.inl rfl
    · exact Or.inr (Or.inl rfl)
  obtain ⟨c, rest, body⟩ : ∃ c rest, d.positional.toList = c :: rest := by
    rw [positional_digits]
    exact List.exists_cons_of_ne_nil (by unfold placePoint; split <;> [simp; split <;> simp [nonempty]])
  have first : c.isDigit = true := by
    have := head_placePoint digits nonempty ((digitChars d.trim.digits).length + d.trim.exponent) c
    rw [← positional_digits, body] at this
    exact this rfl
  have inf : spells (c :: rest) "inf" = false := spells_digit first rest (by simp)
  have infinity : spells (c :: rest) "infinity" = false := spells_digit first rest (by simp)
  have nan : spells (c :: rest) "nan" = false := spells_digit first rest (by simp)
  unfold readFloat?
  cases negative
  · rw [if_neg Bool.false_ne_true, String.empty_append, asciiDigits_of_ascii chars,
      trimNumber_of_solid fun c mem => isNumberBlank_of_ascii (chars c mem), body]
    dsimp only
    rw [readSign_digit first]
    dsimp only
    rw [inf, infinity, nan]
    simp only [Bool.or_false, Bool.false_eq_true, if_false]
    rw [← body, read, Option.map_some, toFloat_congr false same]
  · have signed : ∀ c ∈ ('-' :: d.positional.toList), c.isDigit = true ∨ c = '.' ∨ c = '-' := by
      intro c mem
      rcases List.mem_cons.1 mem with rfl | later
      · exact Or.inr (Or.inr rfl)
      · exact chars c later
    rw [if_pos rfl, String.toList_append, show "-".toList = ['-'] from rfl, List.singleton_append,
      asciiDigits_of_ascii signed, trimNumber_of_solid fun c mem => isNumberBlank_of_ascii (signed c mem)]
    dsimp only
    rw [show readSign ('-' :: d.positional.toList) = (true, d.positional.toList) from rfl]
    dsimp only
    rw [body, inf, infinity, nan]
    simp only [Bool.or_false, Bool.false_eq_true, if_false]
    rw [← body, read, Option.map_some, toFloat_congr true same]

end Keyframes.Decimal
