/-
Rounding to binary64 values.

A quotient is rounded to a multiple of a power of two, chosen so that the quotient has a
full mantissa of them unless the power is the least one (`full_mul_le_quotient`).  So
whatever value the format has is not passed on the way down: a quotient that reaches it is
rounded to no less (`le_magnitude_of_nearest?`), and the same goes for products
(`le_magnitude_of_times?`).  For the digits of a whole number above the 64-bit signed ones
this leaves two cases: up to half a unit above the range they are rounded back to its end
(`ofSignificand?_near_int64End`), and beyond that to the next value or a greater one
(`le_magnitude_beyond_int64End`).
-/
import AgentHooks.Number.Scaled
import AgentHooks.Proofs.Number.Values

namespace AgentHooks

namespace Binary64

/-! ## Quotients in units of a power of two -/

theorem le_roundQuotient {n num den : ℕ} (hden : 0 < den) (h : n * den ≤ num) :
    n ≤ roundQuotient num den := by
  have hquotient : n ≤ num / den := (Nat.le_div_iff_mul_le hden).mpr h
  simp only [roundQuotient]
  split
  · exact hquotient
  · split <;> omega

/-- A quotient has so many units when its sides, brought to whole numbers, say so. -/
theorem mul_le_scaled_iff {n num den : ℕ} (e : ℤ) (hden : 0 < den) :
    n * (den * Nat.pow 2 e.toNat) ≤ num * Nat.pow 2 (-e).toNat ↔
      (n : ℚ) * 2 ^ e ≤ num / den := by
  have hden : (0 : ℚ) < den := by exact_mod_cast hden
  have hpow : (0 : ℚ) < ((Nat.pow 2 (-e).toNat : ℕ) : ℚ) := by rw [cast_pow]; positivity
  rw [zpow_eq_div, le_div_iff₀ hden, ← mul_div_assoc, div_mul_eq_mul_div, div_le_iff₀ hpow,
    mul_right_comm, mul_assoc (n : ℚ)]
  norm_cast

/-- A quotient fills the mantissa with the units it is rounded to, unless they are the
least ones. -/
theorem full_mul_le_quotient {num den : ℕ} (hnum : num ≠ 0) (hden : 0 < den)
    (h : -1074 < exponentFor num den) :
    (fullMantissa : ℚ) * 2 ^ exponentFor num den ≤ num / den := by
  unfold exponentFor at h ⊢
  simp only at h ⊢
  split at h <;> rename_i hwide
  · rw [if_pos hwide, max_eq_right (by omega), zpow_add_one₀ two_ne_zero]
    refine le_trans (le_of_eq ?_) ((mul_le_scaled_iff _ hden).mp hwide)
    simp only [fullMantissa, mantissaLimit]
    push_cast
    ring
  · rw [if_neg hwide, max_eq_right (by omega)]
    have hlow : ((2 ^ num.log2 : ℕ) : ℚ) ≤ num := by exact_mod_cast Nat.log2_self_le hnum
    have hhigh : (den : ℚ) ≤ ((2 ^ (den.log2 + 1) : ℕ) : ℚ) := by
      exact_mod_cast Nat.lt_log2_self.le
    calc (fullMantissa : ℚ) * 2 ^ ((num.log2 : ℤ) - den.log2 - 53)
        = ((2 ^ num.log2 : ℕ) : ℚ) / ((2 ^ (den.log2 + 1) : ℕ) : ℚ) := by
          have hfull : (fullMantissa : ℚ) = 2 ^ (52 : ℤ) := by simp only [fullMantissa]; norm_num
          push_cast
          rw [hfull, ← zpow_add₀ two_ne_zero, ← zpow_natCast, ← zpow_natCast,
            ← zpow_sub₀ two_ne_zero]
          congr 1
          push_cast
          ring
      _ ≤ num / den := div_le_div₀ (Nat.cast_nonneg _) hlow (by exact_mod_cast hden) hhigh

/-! ## Rounded quotients -/

theorem magnitude_of_ofParts? {negative : Bool} {m : ℕ} {e : ℤ} {x : Binary64}
    (h : ofParts? negative m e = some x) : x.magnitude = m * 2 ^ e := by
  unfold ofParts? at h
  split at h
  · cases h
    rfl
  · cases h

theorem magnitude_of_nearest? {negative : Bool} {num den : ℕ} {x : Binary64} (hnum : num ≠ 0)
    (h : nearest? negative num den = some x) :
    x.magnitude = (roundQuotient (num * Nat.pow 2 (-exponentFor num den).toNat)
      (den * Nat.pow 2 (exponentFor num den).toNat) : ℕ) * 2 ^ exponentFor num den := by
  simp only [nearest?, if_neg hnum] at h
  split at h <;> rename_i hlimit
  · -- One unit too many for the mantissa: half as many units of the next size.
    rw [hlimit, magnitude_of_ofParts? h, zpow_add_one₀ two_ne_zero]
    simp only [fullMantissa, mantissaLimit]
    push_cast
    ring
  · exact magnitude_of_ofParts? h

section Bounds

variable {m : ℕ} {e : ℤ} (hm : m ≤ mantissaLimit) (he : -1074 ≤ e)
include hm he

/-- A quotient that reaches a value of the format is rounded to no less. -/
theorem le_magnitude_of_nearest? {negative : Bool} {num den : ℕ} {x : Binary64} (hden : 0 < den)
    (hle : (m : ℚ) * 2 ^ e ≤ num / den) (h : nearest? negative num den = some x) :
    (m : ℚ) * 2 ^ e ≤ x.magnitude := by
  by_cases hnum : num = 0
  · refine hle.trans ?_
    rw [hnum, Nat.cast_zero, zero_div]
    exact x.magnitude_nonneg
  rw [magnitude_of_nearest? hnum h]
  have hunits {n : ℕ} (hn : (n : ℚ) * 2 ^ exponentFor num den ≤ num / den) :=
    le_roundQuotient (Nat.mul_pos hden (Nat.two_pow_pos _)) ((mul_le_scaled_iff _ hden).mpr hn)
  rcases le_or_gt (exponentFor num den) e with hfine | hcoarse
  · -- The value is a whole number of the units.
    have hwhole : (m : ℚ) * 2 ^ e =
        ((m * 2 ^ (e - exponentFor num den).toNat : ℕ) : ℚ) * 2 ^ exponentFor num den := by
      push_cast
      rw [mul_assoc, ← zpow_natCast, ← zpow_add₀ two_ne_zero]
      congr 2
      omega
    rw [hwhole] at hle ⊢
    exact mul_le_mul_of_nonneg_right (by exact_mod_cast hunits hle) (by positivity)
  · -- The value is less than a full mantissa of the units.
    have hfull := hunits (full_mul_le_quotient hnum hden (he.trans_lt hcoarse))
    calc (m : ℚ) * 2 ^ e
        ≤ mantissaLimit * 2 ^ (exponentFor num den - 1) := by
          refine mul_le_mul (by exact_mod_cast hm) ?_ (by positivity) (by positivity)
          exact zpow_le_zpow_right₀ one_le_two (by omega)
      _ = fullMantissa * 2 ^ exponentFor num den := by
          rw [zpow_sub_one₀ two_ne_zero]
          simp only [fullMantissa, mantissaLimit]
          push_cast
          ring
      _ ≤ _ := mul_le_mul_of_nonneg_right (by exact_mod_cast hfull) (by positivity)

theorem le_magnitude_of_nearestScaled? {negative : Bool} {n : ℕ} {k : ℤ} {x : Binary64}
    (hle : (m : ℚ) * 2 ^ e ≤ n * 2 ^ k) (h : nearestScaled? negative n k = some x) :
    (m : ℚ) * 2 ^ e ≤ x.magnitude := by
  refine le_magnitude_of_nearest? hm he (Nat.two_pow_pos _) (hle.trans_eq ?_) h
  rw [zpow_eq_div, Nat.cast_mul, mul_div_assoc]
  rfl

/-- A product that reaches a value of the format is rounded to no less. -/
theorem le_magnitude_of_times? {x y z : Binary64}
    (hle : (m : ℚ) * 2 ^ e ≤ x.magnitude * y.magnitude) (h : x.times? y = some z) :
    (m : ℚ) * 2 ^ e ≤ z.magnitude := by
  refine le_magnitude_of_nearestScaled? hm he (hle.trans_eq ?_) h
  rw [magnitude, magnitude, Nat.cast_mul, zpow_add₀ two_ne_zero]
  ring

theorem le_magnitude_of_factors {a b : ℕ} {k : ℤ} {x y z : Binary64}
    (hx : (a : ℚ) * 2 ^ k ≤ x.magnitude) (hy : (b : ℚ) ≤ y.magnitude)
    (hle : (m : ℚ) * 2 ^ e ≤ a * 2 ^ k * b) (h : x.times? y = some z) :
    (m : ℚ) * 2 ^ e ≤ z.magnitude :=
  le_magnitude_of_times? hm he
    (hle.trans (mul_le_mul hx hy (Nat.cast_nonneg b) x.magnitude_nonneg)) h

end Bounds

theorem powerOfTen?_reaches {k n : ℕ} {x : Binary64} (hn : n ≤ mantissaLimit) (hle : n ≤ 10 ^ k)
    (h : powerOfTen? k = some x) : (n : ℚ) ≤ x.magnitude := by
  have hreach : (n : ℚ) * 2 ^ (0 : ℤ) ≤ ((Nat.pow 10 k : ℕ) : ℚ) / (1 : ℕ) := by
    rw [zpow_zero, mul_one, Nat.cast_one, div_one]
    exact_mod_cast hle
  have hrounded := le_magnitude_of_nearest? hn (by decide) Nat.one_pos hreach h
  rwa [zpow_zero, mul_one] at hrounded

end Binary64

/-! ## Significands -/

/-- The number that digits behind another number make with it. -/
def withDigits (n : ℕ) (ds : List ℕ) : ℕ := ds.foldl (fun n d => n * 10 + d) n

theorem le_withDigits (n : ℕ) (ds : List ℕ) : n ≤ withDigits n ds := by
  induction ds generalizing n with
  | nil => exact le_rfl
  | cons d ds ih => exact le_trans (by omega) (ih (n * 10 + d))

/-- Digits that fit are all taken. -/
theorem appendDigits_of_fits {n : ℕ} {ds : List ℕ} (h : withDigits n ds ≤ significandLimit) :
    appendDigits n ds = (withDigits n ds, ds.length) := by
  induction ds generalizing n with
  | nil => rfl
  | cons d ds ih =>
      have hnext : ¬ significandLimit < n * 10 + d := not_lt.mpr ((le_withDigits _ ds).trans h)
      simp only [appendDigits, if_neg hnext, ih h]
      rfl

/-- Digits that do not fit are taken as long as another one is sure to fit, at least. -/
theorem appendDigits_of_exceeds {n : ℕ} {ds : List ℕ} (hn : n ≤ significandLimit)
    (hds : ∀ d ∈ ds, d ≤ 9) (h : significandLimit < withDigits n ds) :
    significandLimit < (appendDigits n ds).1 * 10 + 9 ∧ (appendDigits n ds).2 < ds.length := by
  induction ds generalizing n with
  | nil => exact absurd h (not_lt.mpr hn)
  | cons d ds ih =>
      obtain ⟨hd, hds⟩ := List.forall_mem_cons.mp hds
      by_cases hnext : significandLimit < n * 10 + d
      · simp only [appendDigits, if_pos hnext]
        exact ⟨by omega, Nat.succ_pos _⟩
      · simp only [appendDigits, if_neg hnext]
        obtain ⟨hvalue, hlength⟩ := ih (not_lt.mp hnext) hds h
        exact ⟨hvalue, Nat.succ_lt_succ hlength⟩

namespace Significand

theorem ofDigits_of_fits {ds : List ℕ} (h : withDigits 0 ds ≤ significandLimit) :
    ofDigits ds [] = ⟨withDigits 0 ds, 0⟩ := by
  simp only [ofDigits, appendDigits_of_fits h, appendDigits, Significand.mk.injEq, true_and]
  omega

theorem exists_ofDigits_of_exceeds {ds : List ℕ} (hds : ∀ d ∈ ds, d ≤ 9)
    (h : significandLimit < withDigits 0 ds) :
    ∃ digits exponent, ofDigits ds [] = ⟨digits, exponent⟩ ∧
      significandLimit < digits * 10 + 9 ∧ 1 ≤ exponent := by
  obtain ⟨hvalue, hlength⟩ := appendDigits_of_exceeds (Nat.zero_le _) hds h
  refine ⟨_, _, rfl, hvalue, ?_⟩
  simp only [appendDigits]
  omega

end Significand

namespace Binary64

/-- The two rounded numbers whose product a significand is rounded to. -/
theorem exists_factors_of_ofSignificand? {digits : ℕ} {exponent : ℤ} {x : Binary64}
    (hdigits : digits ≠ 0) (hexponent : 0 ≤ exponent)
    (h : ofSignificand? ⟨digits, exponent⟩ = some x) :
    ∃ y p, nearest? false digits 1 = some y ∧ powerOfTen? exponent.toNat = some p ∧
      y.times? p = some x := by
  obtain ⟨y, hy, h⟩ := Option.bind_eq_some_iff.mp h
  rw [if_neg (not_lt.mpr hexponent)] at h
  split at h
  · obtain ⟨p, hp, h⟩ := Option.bind_eq_some_iff.mp h
    exact ⟨y, p, hy, hp, h⟩
  · cases h

theorem ofSignificand?_zero (n : ℕ) :
    ofSignificand? ⟨n, 0⟩ =
      (nearest? false n 1).bind fun x => (powerOfTen? 0).bind x.times? := rfl

/-! ## The end of the 64-bit signed numbers -/

theorem exponentFor_of_64_bits {n : ℕ} (hlow : 2 ^ 63 ≤ n) (hhigh : n ≤ significandLimit) :
    exponentFor n 1 = 11 := by
  have hhigh : n < 2 ^ 64 := Nat.lt_succ_of_le hhigh
  have hlog : n.log2 = 63 := (Nat.log2_eq_iff (by omega)).mpr ⟨hlow, hhigh⟩
  have hone : Nat.log2 1 = 0 := by decide
  simp only [exponentFor, hlog, hone]
  rw [if_pos]
  · decide
  · show 9007199254740992 * (1 * 2 ^ 10) ≤ n * 2 ^ 0
    omega

theorem roundQuotient_near_end {n : ℕ} (hlow : 2 ^ 63 ≤ n) (hhigh : n ≤ 2 ^ 63 + 1024) :
    roundQuotient n 2048 = fullMantissa := by
  simp only [roundQuotient, fullMantissa]
  split
  · omega
  · split <;> omega

theorem lt_roundQuotient_beyond_end {n : ℕ} (h : 2 ^ 63 + 1024 < n) :
    fullMantissa + 1 ≤ roundQuotient n 2048 := by
  simp only [roundQuotient, fullMantissa]
  split
  · omega
  · split <;> omega

theorem nearest?_near_int64End {n : ℕ} (hlow : 2 ^ 63 ≤ n) (hhigh : n ≤ 2 ^ 63 + 1024) :
    nearest? false n 1 = some int64End := by
  have hzero : n ≠ 0 := by omega
  have hexponent := exponentFor_of_64_bits hlow (hhigh.trans (by decide))
  have hnum : n * Nat.pow 2 (-11 : ℤ).toNat = n := Nat.mul_one n
  have hden : 1 * Nat.pow 2 (11 : ℤ).toNat = 2048 := by decide
  simp only [nearest?, if_neg hzero, hexponent, hnum, hden, roundQuotient_near_end hlow hhigh]
  rw [if_neg (by decide)]
  exact ofParts?_eq int64End.admissible

/-- A whole number up to half a unit above the range is rounded to the end of it. -/
theorem ofSignificand?_near_int64End {ds : List ℕ} (hlow : 2 ^ 63 ≤ withDigits 0 ds)
    (hhigh : withDigits 0 ds ≤ 2 ^ 63 + 1024) :
    ofSignificand? (.ofDigits ds []) = some int64End := by
  have hfits : withDigits 0 ds ≤ significandLimit := hhigh.trans (by decide)
  have hone : (powerOfTen? 0).bind int64End.times? = some int64End := by decide +kernel
  rw [Significand.ofDigits_of_fits hfits, ofSignificand?_zero,
    nearest?_near_int64End hlow hhigh, Option.bind_some, hone]

section Beyond

variable {x : Binary64}

/-- A number of 64 bits that is nearer to the next value is rounded to that, or to a
greater one. -/
theorem le_magnitude_of_64_bits {n : ℕ} (hbeyond : 2 ^ 63 + 1024 < n)
    (hfits : n ≤ significandLimit) (h : ofSignificand? ⟨n, 0⟩ = some x) :
    ((fullMantissa + 1 : ℕ) : ℚ) * 2 ^ (11 : ℤ) ≤ x.magnitude := by
  have hzero : n ≠ 0 := by omega
  obtain ⟨y, p, hy, hp, hx⟩ := exists_factors_of_ofSignificand? hzero le_rfl h
  have hmagnitude := magnitude_of_nearest? hzero hy
  rw [exponentFor_of_64_bits (by omega) hfits] at hmagnitude
  refine le_magnitude_of_factors (by decide) (by decide) (a := fullMantissa + 1) (k := 11) (b := 1)
    ?_ (powerOfTen?_reaches (by decide) (Nat.pow_pos (by decide)) hp) (by norm_num) hx
  rw [hmagnitude]
  refine mul_le_mul_of_nonneg_right (Nat.cast_le.mpr ?_) (by positivity)
  exact lt_roundQuotient_beyond_end (by simpa using hbeyond)

/-- Digits that leave no room for another one, and a power of ten, are far above it. -/
theorem le_magnitude_of_digits_left_out {digits : ℕ} {exponent : ℤ}
    (hdigits : significandLimit < digits * 10 + 9) (hexponent : 1 ≤ exponent)
    (h : ofSignificand? ⟨digits, exponent⟩ = some x) :
    ((fullMantissa + 1 : ℕ) : ℚ) * 2 ^ (11 : ℤ) ≤ x.magnitude := by
  have hlarge : 3 * 2 ^ 59 ≤ digits := by
    simp only [significandLimit] at hdigits
    omega
  obtain ⟨y, p, hy, hp, hx⟩ := exists_factors_of_ofSignificand? (by omega) (by omega) h
  refine le_magnitude_of_factors (by decide) (by decide) (a := 3) (k := 59) (b := 10) ?_
    (powerOfTen?_reaches (by decide) (Nat.le_self_pow (by omega) 10) hp)
    (by simp only [fullMantissa]; norm_num) hx
  refine le_magnitude_of_nearest? (by decide) (by decide) Nat.one_pos ?_ hy
  rw [Nat.cast_one, div_one]
  exact_mod_cast hlarge

/-- A whole number further above the range stays outside of it. -/
theorem le_magnitude_beyond_int64End {ds : List ℕ} (hds : ∀ d ∈ ds, d ≤ 9)
    (hbeyond : 2 ^ 63 + 1024 < withDigits 0 ds)
    (h : ofSignificand? (.ofDigits ds []) = some x) :
    ((fullMantissa + 1 : ℕ) : ℚ) * 2 ^ (11 : ℤ) ≤ x.magnitude := by
  by_cases hfits : withDigits 0 ds ≤ significandLimit
  · rw [Significand.ofDigits_of_fits hfits] at h
    exact le_magnitude_of_64_bits hbeyond hfits h
  · obtain ⟨digits, exponent, hdigits, hvalue, hexponent⟩ :=
      Significand.exists_ofDigits_of_exceeds hds (not_le.mp hfits)
    rw [hdigits] at h
    exact le_magnitude_of_digits_left_out hvalue hexponent h

end Beyond

end Binary64

end AgentHooks
