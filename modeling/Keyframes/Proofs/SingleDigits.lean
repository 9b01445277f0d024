import Keyframes.Proofs.DecimalText
import Keyframes.Proofs.Playable

/-!
# The shortest text of a single-precision number

Command scripts write a single-precision value `v` by trying its nearest decimals of one, two, …,
nine significant digits and writing the first that reads back as `v`. Nine digits always read
back, so the search never runs out (`singleText_finite`). What the writing gives is stated by
`SingleWritten`: it fails only when a reading back overflows, zero is `0`, and any other value is
a plain decimal that reads back as `v`, the first of its nearest decimals that does
(`singleText_written`).

The writing is not the shortest that reads back, and not total: the greatest single-precision
value has a four-digit candidate beyond the point where single precision overflows, and
`2 ^ -96` has a decimal of eight digits that reads back, which is not its nearest
(`singleText_overflow_and_longer`).

Main statement: `singleText_written`.
-/

namespace Keyframes.Decimal
open Keyframes.Binary

section Search
variable {negative : Bool} {m : Nat} {q : Int} {value : Float}

/-- The search for a candidate that reads back stops at the first one that does: every candidate
before it reads back, as another value. -/
theorem firstReadingBack_eq_some : ∀ {n a : Nat} {d : Scientific},
    firstReadingBack negative m q value (List.range' a n) = .ok (some d) →
      ∃ k, a ≤ k ∧ k < a + n ∧ d = roundSignificant m q k ∧
        (∃ back, toSingle (d.toFloat negative) = .ok back ∧ (back == value) = true) ∧
        ∀ j, a ≤ j → j < k → ∃ back,
          toSingle ((roundSignificant m q j).toFloat negative) = .ok back ∧ (back == value) = false
  | 0, a, d, found => nomatch found
  | n + 1, a, d, found => by
    rw [List.range'_succ, firstReadingBack, bind_eq_ok] at found
    obtain ⟨back, read, found⟩ := found
    split at found
    · rename_i same
      cases found
      exact ⟨a, Nat.le_refl a, by omega, rfl, ⟨back, read, same⟩, fun j low high => by omega⟩
    · rename_i other
      obtain ⟨k, low, high, rfl, reads, earlier⟩ := firstReadingBack_eq_some found
      refine ⟨k, by omega, by omega, rfl, reads, fun j jLow jHigh => ?_⟩
      by_cases first : j = a
      · subst first
        exact ⟨back, read, Bool.not_eq_true _ ▸ other⟩
      · exact earlier j (by omega) jHigh

theorem firstReadingBack_eq_none : ∀ {n a : Nat},
    firstReadingBack negative m q value (List.range' a n) = .ok none →
      ∀ j, a ≤ j → j < a + n → ∃ back,
        toSingle ((roundSignificant m q j).toFloat negative) = .ok back ∧ (back == value) = false
  | 0, a, _ => fun j low high => by omega
  | n + 1, a, found => by
    rw [List.range'_succ, firstReadingBack, bind_eq_ok] at found
    obtain ⟨back, read, found⟩ := found
    split at found
    · cases found
    · rename_i other
      intro j low high
      by_cases first : j = a
      · subst first
        exact ⟨back, read, Bool.not_eq_true _ ▸ other⟩
      · exact firstReadingBack_eq_none found j (by omega) (by omega)

end Search

/-- What the text of a single-precision value says, for a double `x` that rounds to the finite
single-precision value `v`. The writing fails only when a reading back overflows. Zero is written
`0`. Any other value is written as a plain decimal that reads back, through a double, as `v`; it is
the first of the nearest decimals of one to nine significant digits that does, so every nearest
decimal of fewer digits reads back as another value. -/
structure SingleWritten (x v : Float) : Prop where
  onlyOverflow : OnlyOverflow (singleText x)
  zero : ∀ s, singleText x = .ok s → (Parts.ofFloat v).shape = .zero → s = "0"
  plain : ∀ s m q, singleText x = .ok s → (Parts.ofFloat v).shape = .finite m q →
    isPlainDecimal s = true
  readsBack : ∀ s m q, singleText x = .ok s → (Parts.ofFloat v).shape = .finite m q →
    ∃ r back, readFloat? s = some r ∧ toSingle r = .ok back ∧ (back == v) = true
  fewest : ∀ s m q, singleText x = .ok s → (Parts.ofFloat v).shape = .finite m q →
    ∃ k, 1 ≤ k ∧ k ≤ 9 ∧
      s = (if (Parts.ofFloat v).negative then "-" else "") ++ (roundSignificant m q k).positional ∧
      ∀ j, 1 ≤ j → j < k → ∃ back,
        toSingle ((roundSignificant m q j).toFloat (Parts.ofFloat v).negative) = .ok back ∧
          (back == v) = false

/-- The text of a nonzero single-precision value is the first of its nearest decimals of one to
nine digits that reads back; the search never runs out, as nine digits always read back. -/
theorem singleText_finite {x v : Float} {m : Nat} {q : Int} (rounded : toSingle x = .ok v)
    (shape : (Parts.ofFloat v).shape = .finite m q) {s : String} (written : singleText x = .ok s) :
    ∃ k, 1 ≤ k ∧ k ≤ 9 ∧
      s = (if (Parts.ofFloat v).negative then "-" else "") ++ (roundSignificant m q k).positional ∧
      (∃ back, toSingle ((roundSignificant m q k).toFloat (Parts.ofFloat v).negative) = .ok back ∧
        (back == v) = true) ∧
      ∀ j, 1 ≤ j → j < k → ∃ back,
        toSingle ((roundSignificant m q j).toFloat (Parts.ofFloat v).negative) = .ok back ∧
          (back == v) = false := by
  unfold singleText at written
  rw [rounded, ok_bind] at written
  dsimp only at written
  rw [shape] at written
  dsimp only at written
  rw [bind_eq_ok] at written
  obtain ⟨found, search, written⟩ := written
  rw [show (List.range 9).map (· + 1) = List.range' 1 9 by decide] at search
  cases found with
  | none =>
    -- the nine-digit candidate reads back, so the search cannot run out
    obtain ⟨back, read, other⟩ := firstReadingBack_eq_none search 9 (by decide) (by decide)
    obtain ⟨m', q', single, same, single_eq⟩ := toSingle_eq_ok_finite rounded shape
    rw [toSingle_roundSignificant_nine _ single same] at read
    cases read
    rw [← single_eq, beq_self_of_number (by rw [shape]; nofun)] at other
    cases other
  | some d =>
    obtain ⟨k, low, high, rfl, reads, earlier⟩ := firstReadingBack_eq_some search
    cases written
    exact ⟨k, low, by omega, rfl, reads, earlier⟩

/-- A double whose single-precision rounding `v` is finite is written as `SingleWritten` says. -/
theorem singleText_written {x v : Float} (rounded : toSingle x = .ok v) (finite : isFinite v = true) :
    SingleWritten x v where
  onlyOverflow := singleText_onlyOverflow (isFinite_of_toSingle rounded finite)
  zero := by
    intro s written shape
    unfold singleText at written
    rw [rounded, ok_bind] at written
    dsimp only at written
    rw [shape] at written
    cases written
    rfl
  plain := by
    intro s m q written shape
    obtain ⟨k, low, -, rfl, -, -⟩ := singleText_finite rounded shape written
    exact isPlainDecimal_positional _ (roundSignificant_digits_pos q (Parts.significand_pos shape) low)
  readsBack := by
    intro s m q written shape
    obtain ⟨k, low, -, rfl, ⟨back, read, same⟩, -⟩ := singleText_finite rounded shape written
    exact ⟨_, back,
      readFloat_positional _ (roundSignificant_digits_pos q (Parts.significand_pos shape) low),
      read, same⟩
  fewest := by
    intro s m q written shape
    obtain ⟨k, low, high, text, -, earlier⟩ := singleText_finite rounded shape written
    exact ⟨k, low, high, text, earlier⟩

example : singleText (floatOfBinary false 3602879701896397 (-55)) = .ok "0.1" := by rfl

/-- The double nearest to `0.1` rounds to a finite single-precision value. -/
theorem singleText_written_tenth :
    toSingle (floatOfBinary false 3602879701896397 (-55)) =
        .ok (floatOfBinary false 13421773 (-27)) ∧
      isFinite (floatOfBinary false 13421773 (-27)) = true ∧
      SingleWritten (floatOfBinary false 3602879701896397 (-55))
        (floatOfBinary false 13421773 (-27)) := by
  have rounded : toSingle (floatOfBinary false 3602879701896397 (-55)) =
      .ok (floatOfBinary false 13421773 (-27)) := by rfl
  have finite : isFinite (floatOfBinary false 13421773 (-27)) = true := by rfl
  exact ⟨rounded, finite, singleText_written rounded finite⟩

/-- The greatest single-precision value, `(2 ^ 24 - 1) * 2 ^ 104`, is not written: its nearest
decimal of four digits, `3.403e38`, lies beyond the point where single precision overflows. And
`2 ^ -96` is written with nine significant digits, while `1.2621775e-29`, of eight, reads back
as it. -/
theorem singleText_overflow_and_longer :
    toSingle (floatOfBinary false 16777215 104) = .ok (floatOfBinary false 16777215 104) ∧
      isFinite (floatOfBinary false 16777215 104) = true ∧
      singleText (floatOfBinary false 16777215 104) = .error .singleOverflow ∧
      toSingle (floatOfBinary false 1 (-96)) = .ok (floatOfBinary false 1 (-96)) ∧
      singleText (floatOfBinary false 1 (-96)) = .ok "0.0000000000000000000000000000126217745" ∧
      toSingle ((⟨12621775, -36⟩ : Scientific).toFloat false) = .ok (floatOfBinary false 1 (-96)) :=
  ⟨by rfl, by rfl, by rfl, by rfl, by rfl, by rfl⟩

end Keyframes.Decimal
