/-
The rational values of binary64 numbers.

`toRat` is the number that the parts of a value denote.  Dropping the fraction, in the
format or into the integers, rounds that number toward zero (`toRat_withoutFraction`,
`truncate_eq`), and the order is that of the rationals (`le_iff_toRat`, `lt_iff_toRat`).
The bounds of the 64-bit signed numbers are compared as binary64 values; since the values
on either side are whole by then, the comparison says exactly what fits
(`toInt64?_eq`).
-/
import AgentHooks.Proofs.Number.Int64
import Mathlib.Algebra.Order.Field.Power
import Mathlib.Data.Rat.Floor
import Mathlib.Tactic.Linarith
import Mathlib.Tactic.NormNum
import Mathlib.Tactic.Positivity
import Mathlib.Tactic.Ring

namespace AgentHooks

/-! ## Rounding toward zero -/

/-- The whole number next to a rational on the side of zero. -/
def towardZero (q : ℚ) : ℤ := if 0 ≤ q then ⌊q⌋ else ⌈q⌉

theorem towardZero_of_nonneg {q : ℚ} (h : 0 ≤ q) : towardZero q = ⌊q⌋ := if_pos h

theorem towardZero_neg (q : ℚ) : towardZero (-q) = -towardZero q := by
  unfold towardZero
  rcases lt_trichotomy q 0 with h | rfl | h
  · rw [if_pos (by linarith), if_neg (by linarith), Int.floor_neg]
  · simp
  · rw [if_neg (by linarith), if_pos (by linarith), Int.ceil_neg]

theorem towardZero_intCast (n : ℤ) : towardZero n = n := by
  unfold towardZero
  split
  · exact Int.floor_intCast n
  · exact Int.ceil_intCast n

theorem towardZero_mono {q r : ℚ} (h : q ≤ r) : towardZero q ≤ towardZero r := by
  unfold towardZero
  by_cases hq : 0 ≤ q
  · rw [if_pos hq, if_pos (hq.trans h)]
    exact Int.floor_mono h
  · rw [if_neg hq]
    by_cases hr : 0 ≤ r
    · rw [if_pos hr]
      -- A number on either side of zero, with zero between them.
      have hceil : ⌈q⌉ ≤ 0 := Int.ceil_le.mpr (by push_cast; linarith)
      exact hceil.trans (Int.floor_nonneg.mpr hr)
    · rw [if_neg hr]
      exact Int.ceil_mono h

namespace Binary64

/-! ## Values -/

/-- The number that mantissa and exponent denote. -/
def magnitude (x : Binary64) : ℚ := x.mantissa * 2 ^ x.exponent

/-- The number that a value denotes. -/
def toRat (x : Binary64) : ℚ := if x.negative then -x.magnitude else x.magnitude

theorem magnitude_nonneg (x : Binary64) : 0 ≤ x.magnitude := by
  unfold magnitude
  positivity

theorem cast_pow (k : ℕ) : ((Nat.pow 2 k : ℕ) : ℚ) = 2 ^ (k : ℤ) := by
  rw [zpow_natCast]
  exact Nat.cast_pow 2 k

/-- A power of two as one that multiplies and one that divides. -/
theorem zpow_eq_div (e : ℤ) :
    (2 : ℚ) ^ e = ((Nat.pow 2 e.toNat : ℕ) : ℚ) / ((Nat.pow 2 (-e).toNat : ℕ) : ℚ) := by
  rw [cast_pow, cast_pow, ← zpow_sub₀ two_ne_zero]
  congr 1
  omega

/-! ## Without the fraction -/

theorem truncatedMagnitude_eq (x : Binary64) : (x.truncatedMagnitude : ℤ) = ⌊x.magnitude⌋ := by
  rw [magnitude, zpow_eq_div, ← mul_div_assoc, truncatedMagnitude, Int.natCast_div,
    ← Rat.floor_intCast_div_natCast]
  push_cast
  rfl

/-- Truncation is rounding toward zero. -/
theorem truncate_eq (x : Binary64) : x.truncate = towardZero x.toRat := by
  have hmagnitude : towardZero x.magnitude = x.truncatedMagnitude :=
    (towardZero_of_nonneg x.magnitude_nonneg).trans x.truncatedMagnitude_eq.symm
  rw [truncate, toRat]
  split
  · rw [towardZero_neg, hmagnitude]
  · rw [hmagnitude]

theorem ofParts?_eq {negative : Bool} {m : ℕ} {e : ℤ} (h : Admissible m e) :
    ofParts? negative m e = some ⟨negative, m, e, h⟩ := dif_pos h

/-- A mantissa that loses its last places is still full when something is left of it. -/
theorem admissible_of_truncated_ne_zero {m : ℕ} {e : ℤ} (h : Admissible m e)
    (hne : m / Nat.pow 2 (-e).toNat ≠ 0) :
    Admissible (m / Nat.pow 2 (-e).toNat * Nat.pow 2 (-e).toNat) e := by
  obtain ⟨hlimit, hlow, hhigh, hfull⟩ := h
  refine ⟨(Nat.div_mul_le_self _ _).trans_lt hlimit, hlow, hhigh, .inl ?_⟩
  show 2 ^ 52 ≤ m / 2 ^ (-e).toNat * 2 ^ (-e).toNat
  have hunit : 2 ^ (-e).toNat ≤ m := Nat.div_ne_zero_iff.mp hne |>.2
  -- The unit is a power of two below the limit, so it divides a full mantissa.
  have hk : (-e).toNat ≤ 52 := by
    have hlt : 2 ^ (-e).toNat < 2 ^ 53 := hunit.trans_lt hlimit
    exact Nat.le_of_lt_succ ((Nat.pow_lt_pow_iff_right (by decide)).mp hlt)
  have hmantissa : 2 ^ 52 ≤ m := by
    rcases hfull with hfull | rfl
    · exact hfull
    · exact absurd hk (by decide)
  have hsplit : 2 ^ 52 = 2 ^ (52 - (-e).toNat) * 2 ^ (-e).toNat := by
    rw [← Nat.pow_add, Nat.sub_add_cancel hk]
  rw [hsplit] at hmantissa ⊢
  exact Nat.mul_le_mul_right _ ((Nat.le_div_iff_mul_le (Nat.two_pow_pos _)).mpr hmantissa)

theorem toRat_zero (negative : Bool) : (zero negative).toRat = 0 := by
  cases negative <;> simp [toRat, magnitude, zero]

/-- What is left of a value without its fraction: all of it, nothing, or the integer part
in the same units. -/
theorem withoutFraction_cases (x : Binary64) :
    (0 ≤ x.exponent ∧ x.withoutFraction = x) ∨
    (x.truncatedMagnitude = 0 ∧ x.withoutFraction = zero x.negative) ∨
    (x.exponent < 0 ∧ ∃ h, x.withoutFraction =
      ⟨x.negative, x.truncatedMagnitude * Nat.pow 2 (-x.exponent).toNat, x.exponent, h⟩) := by
  by_cases he : 0 ≤ x.exponent
  · exact .inl ⟨he, if_pos he⟩
  have htruncated : x.truncatedMagnitude = x.mantissa / Nat.pow 2 (-x.exponent).toNat := by
    have hzero : x.exponent.toNat = 0 := by omega
    rw [truncatedMagnitude, hzero]
    exact congrArg (· / _) (Nat.mul_one _)
  rw [withoutFraction, if_neg he, htruncated]
  by_cases hne : x.mantissa / Nat.pow 2 (-x.exponent).toNat = 0
  · refine .inr (.inl ⟨hne, ?_⟩)
    simp only [hne, Nat.zero_mul, ofParts?]
    split
    · rename_i h
      obtain ⟨-, -, -, hfull | he⟩ := h
      · exact absurd hfull (by decide)
      · simp only [Option.getD_some, zero, he]
    · rfl
  · have hadmissible := admissible_of_truncated_ne_zero x.admissible hne
    refine .inr (.inr ⟨not_le.mp he, hadmissible, ?_⟩)
    simp only [ofParts?_eq hadmissible, Option.getD_some]

theorem magnitude_withoutFraction (x : Binary64) :
    x.withoutFraction.magnitude = x.truncatedMagnitude := by
  rcases x.withoutFraction_cases with ⟨he, hx⟩ | ⟨htruncated, hx⟩ | ⟨he, h, hx⟩
  · have hunit : (-x.exponent).toNat = 0 := by omega
    rw [hx, magnitude, zpow_eq_div, truncatedMagnitude, hunit]
    norm_num
  · rw [hx, htruncated, magnitude, zero, Nat.cast_zero, zero_mul]
  · have hsum : ((-x.exponent).toNat : ℤ) + x.exponent = 0 := by omega
    rw [hx, magnitude, Nat.cast_mul, cast_pow, mul_assoc, ← zpow_add₀ two_ne_zero, hsum,
      zpow_zero, mul_one]

theorem negative_withoutFraction (x : Binary64) : x.withoutFraction.negative = x.negative := by
  rcases x.withoutFraction_cases with ⟨-, hx⟩ | ⟨-, hx⟩ | ⟨-, h, hx⟩ <;> rw [hx]
  rfl

/-- A value of the format without its fraction is its integer part. -/
theorem toRat_withoutFraction (x : Binary64) : x.withoutFraction.toRat = x.truncate := by
  rw [toRat, magnitude_withoutFraction, negative_withoutFraction, truncate]
  split <;> simp

theorem truncate_withoutFraction (x : Binary64) : x.withoutFraction.truncate = x.truncate := by
  rw [truncate_eq, toRat_withoutFraction, towardZero_intCast]

/-! ## Order -/

theorem units_mul {x : Binary64} {e : ℤ} (h : e ≤ x.exponent) :
    (x.units e : ℚ) * 2 ^ e = x.toRat := by
  have hmagnitude : ((x.mantissa * Nat.pow 2 (x.exponent - e).toNat : ℕ) : ℚ) * 2 ^ e =
      x.magnitude := by
    have hsum : ((x.exponent - e).toNat : ℤ) + e = x.exponent := by omega
    rw [Nat.cast_mul, cast_pow, mul_assoc, ← zpow_add₀ two_ne_zero, hsum, magnitude]
  unfold units toRat
  rw [← hmagnitude]
  cases x.negative <;> simp

/-- Values are ordered as the numbers that they denote. -/
theorem le_iff_toRat {x y : Binary64} : x ≤ y ↔ x.toRat ≤ y.toRat := by
  rw [← units_mul (Int.min_le_left x.exponent y.exponent),
    ← units_mul (Int.min_le_right x.exponent y.exponent), mul_le_mul_iff_left₀ (by positivity),
    Int.cast_le]
  rfl

theorem lt_iff_toRat {x y : Binary64} : x < y ↔ x.toRat < y.toRat := by
  rw [← units_mul (Int.min_le_left x.exponent y.exponent),
    ← units_mul (Int.min_le_right x.exponent y.exponent), mul_lt_mul_iff_left₀ (by positivity),
    Int.cast_lt]
  rfl

/-! ## 64-bit signed numbers -/

theorem toRat_int64Start : int64Start.toRat = ((-2 ^ 63 : ℤ) : ℚ) := by
  simp only [toRat, magnitude, int64Start, fullMantissa]
  norm_num

theorem toRat_int64End : int64End.toRat = ((2 ^ 63 : ℤ) : ℚ) := by
  simp only [toRat, magnitude, int64End, fullMantissa]
  norm_num

/-- The comparison with the two bounds leaves out what does not fit. -/
theorem out_of_bounds_iff (x : Binary64) :
    x.withoutFraction < int64Start ∨ int64End ≤ x.withoutFraction ↔ ¬ FitsInt64 x.truncate := by
  rw [lt_iff_toRat, le_iff_toRat, toRat_withoutFraction, toRat_int64Start, toRat_int64End,
    Int.cast_lt, Int.cast_le, FitsInt64]
  omega

/-- A value without its fraction as a 64-bit signed number, when it is one. -/
theorem toInt64?_eq (x : Binary64) : x.toInt64? = int64OfInt? x.truncate := by
  simp only [toInt64?, out_of_bounds_iff, truncate_withoutFraction]
  by_cases hfits : FitsInt64 x.truncate
  · rw [if_neg (not_not_intro hfits)]
    refine (int64OfInt?_eq_some_iff.mpr ?_).symm
    exact Int64.toInt_ofIntClamp hfits.1 hfits.2
  · rw [if_pos hfits, int64OfInt?_of_not_fits hfits]

end Binary64

end AgentHooks
