/-
Integer readings.

The reading of a number is its integer part, when that is a 64-bit signed number, and the
reading of a string is the value of the numeral in it under the same condition
(`asInteger?_number`, `asInteger?_string`).  The reading of a number is that of the value
the parser made of a literal, and the parser rounds a literal that does not fit 64 bits.
Rounding takes no literal into the range but those just below it
(`asInteger?_of_finishWhole`).
-/
import AgentHooks.Proofs.Json.RoundTrip
import AgentHooks.Proofs.Number.Rounding

namespace AgentHooks

/-- The number that a JSON number denotes. -/
def Number.toRat : Number → ℚ
  | .whole n _ => n
  | .float x => x.toRat

namespace Json

/-! ## Numbers -/

theorem asInteger?_whole (n : ℤ) (fits : Fits64 n) :
    (number (.whole n fits)).asInteger? = int64OfInt? n := rfl

theorem asInteger?_float (x : Binary64) :
    (number (.float x)).asInteger? = int64OfInt? (towardZero x.toRat) :=
  x.toInt64?_eq.trans (congrArg int64OfInt? x.truncate_eq)

theorem asInteger?_toRat (x : Number) :
    (number x).asInteger? = int64OfInt? (towardZero x.toRat) := by
  cases x with
  | whole n fits => exact congrArg int64OfInt? (towardZero_intCast n).symm
  | float x => exact asInteger?_float x

theorem asInteger?_int64Start :
    (number (.float .int64Start)).asInteger? = some Int64.minValue := by decide +kernel

/-- Numbers are read in their order. -/
theorem asInteger?_mono {x y : Number} (hle : x.toRat ≤ y.toRat) {i j : Int64}
    (hi : (number x).asInteger? = some i) (hj : (number y).asInteger? = some j) : i ≤ j := by
  rw [asInteger?_toRat, int64OfInt?_eq_some_iff] at hi hj
  rw [Int64.le_iff_toInt_le, hi, hj]
  exact towardZero_mono hle

/-- A number is read as its integer part when that is a 64-bit signed number, and not at
all otherwise; so the readings keep the order of the numbers. -/
theorem asInteger?_number :
    (∀ (n : ℤ) (fits : Fits64 n),
      (number (.whole n fits)).asInteger?.map Int64.toInt = if FitsInt64 n then some n else none) ∧
    (∀ x : Binary64, (number (.float x)).asInteger?.map Int64.toInt =
      if FitsInt64 (towardZero x.toRat) then some (towardZero x.toRat) else none) ∧
    ∀ (x y : Number) (i j : Int64), x.toRat ≤ y.toRat → (number x).asInteger? = some i →
      (number y).asInteger? = some j → i ≤ j := by
  refine ⟨fun n fits => ?_, fun x => ?_, fun x y i j hle hi hj => asInteger?_mono hle hi hj⟩
  · rw [asInteger?_whole, map_toInt_int64OfInt?]
  · rw [asInteger?_float, map_toInt_int64OfInt?]

/-- The last value of the format before the end of the range. -/
def beforeEnd : Binary64 := ⟨false, 9007199254740991, 10, by decide⟩

theorem asInteger?_number_ends :
    (number (.float .int64Start)).asInteger? = some Int64.minValue ∧
    (number (.float beforeEnd)).asInteger? = some 9223372036854774784 ∧
    (number (.float .int64End)).asInteger? = none ∧
    Int64.minValue ≤ 9223372036854774784 := by
  have hend : (number (.float beforeEnd)).asInteger? = some 9223372036854774784 := by
    decide +kernel
  have hle : Binary64.int64Start.toRat ≤ beforeEnd.toRat :=
    Binary64.le_iff_toRat.mp (by decide +kernel)
  exact ⟨asInteger?_int64Start, hend, by decide +kernel, asInteger?_number.2.2
    (.float .int64Start) (.float beforeEnd) _ _ hle asInteger?_int64Start hend⟩

/-! ## Strings -/

theorem asInteger?_eq_int64? (s : String) :
    (string s).asInteger? = Text.int64? (Text.trim s.toList) := rfl

open Text (Numeral IsPadded signed)

theorem asInteger?_padded {s : String} {k : Numeral} (hs : IsPadded s.toList k.chars) :
    (string s).asInteger? = int64OfInt? k.value := by
  rw [asInteger?_eq_int64?, Text.trim_eq_chars_iff.mpr hs, Text.int64?_chars]

theorem asInteger?_eq_some_iff {s : String} {i : Int64} :
    (string s).asInteger? = some i ↔
      ∃ k : Numeral, IsPadded s.toList k.chars ∧ k.value = i.toInt := by
  rw [asInteger?_eq_int64?, Text.int64?_eq_some_iff]
  simp only [Text.trim_eq_chars_iff, eq_comm]

/-- A string is read as the value of the numeral that stands in it, blanks around it
aside, when that is a 64-bit signed number, and not at all otherwise. -/
theorem asInteger?_string :
    (∀ (s : String) (n : ℤ), (string s).asInteger?.map Int64.toInt = some n ↔
      (∃ k : Numeral, IsPadded s.toList k.chars ∧ k.value = n) ∧ FitsInt64 n) ∧
    (∀ s : String, (string s).asInteger? = none ↔
      ∀ k : Numeral, IsPadded s.toList k.chars → ¬ FitsInt64 k.value) ∧
    ∀ (s : String) (i : Int64), IsPadded s.toList (toString i).toList →
      (string s).asInteger? = some i := by
  refine ⟨fun s n => ⟨fun h => ?_, ?_⟩, fun s => ⟨fun h k hk => ?_, fun h => ?_⟩, fun s i hs => ?_⟩
  · obtain ⟨i, hi, rfl⟩ := Option.map_eq_some_iff.mp h
    exact ⟨asInteger?_eq_some_iff.mp hi, fitsInt64_toInt i⟩
  · rintro ⟨⟨k, hk, rfl⟩, hfits⟩
    rw [asInteger?_padded hk, map_toInt_int64OfInt?, if_pos hfits]
  · rw [asInteger?_padded hk] at h
    exact int64OfInt?_eq_none_iff.mp h
  · refine Option.eq_none_iff_forall_ne_some.mpr fun i hi => ?_
    obtain ⟨k, hk, hvalue⟩ := asInteger?_eq_some_iff.mp hi
    exact h k hk (hvalue ▸ fitsInt64_toInt i)
  · have hchars : (Numeral.ofInt i.toInt).chars = (toString i).toList := Numeral.chars_ofInt i.toInt
    rw [asInteger?_padded (hchars ▸ hs), Numeral.value_ofInt, int64OfInt?_toInt]

/-- A string with different blanks around the least number. -/
theorem asInteger?_string_least :
    IsPadded "\u2003\t-9223372036854775808\n".toList (toString Int64.minValue).toList ∧
    (string "\u2003\t-9223372036854775808\n").asInteger? = some Int64.minValue := by
  have hpadded : IsPadded "\u2003\t-9223372036854775808\n".toList
      (toString Int64.minValue).toList :=
    ⟨['\u2003', '\t'], ['\n'], forall_mem_of_all (by decide), forall_mem_of_all (by decide),
      by decide +kernel⟩
  exact ⟨hpadded, asInteger?_string.2.2 _ _ hpadded⟩

/-! ## What is made of literals -/

/-- The whole numbers that are rounded to the least 64-bit signed number from below. -/
def RoundsIntoRange (n : ℤ) : Prop := -2 ^ 63 - 1024 ≤ n ∧ n < -2 ^ 63

instance (n : ℤ) : Decidable (RoundsIntoRange n) := inferInstanceAs (Decidable (_ ∧ _))

theorem not_fitsInt64_of_roundsIntoRange {n : ℤ} (h : RoundsIntoRange n) : ¬ FitsInt64 n :=
  fun hfits => absurd hfits.1 (not_le.mpr h.2)

/-- A number whose magnitude is beyond the end of the range is read as none. -/
theorem asInteger?_withSign_beyond {x : Binary64} (negative : Bool)
    (h : (2 : ℚ) ^ 63 + 1 ≤ x.magnitude) :
    (number (.float (x.withSign negative))).asInteger? = none := by
  rw [asInteger?_float]
  refine int64OfInt?_of_not_fits fun hfits => ?_
  have hmagnitude : 2 ^ 63 + 1 ≤ towardZero x.magnitude := by
    rw [towardZero_of_nonneg x.magnitude_nonneg, Int.le_floor]
    exact_mod_cast h
  cases negative with
  | false => exact absurd (hmagnitude.trans hfits.2) (by decide)
  | true =>
      have hneg : towardZero (x.withSign true).toRat = -towardZero x.magnitude :=
        towardZero_neg x.magnitude
      have hlow := hfits.1
      rw [hneg] at hlow
      omega

section Digits

variable {negative : Bool} {ds : List ℕ}

/-- What becomes of the digits of a literal without fraction and exponent. -/
theorem finishWhole_cases {rest r : Bytes} {x : Number}
    (h : finishWhole negative ds rest = .ok (x, r)) :
    (signed negative (digitsValue ds) = 0 ∧ x = .float (.zero true)) ∨
    (∃ fits, x = .whole (signed negative (digitsValue ds)) fits) ∨
    (¬ Fits64 (signed negative (digitsValue ds)) ∧
      ∃ y, Binary64.ofSignificand? (.ofDigits ds []) = some y ∧
        x = .float (y.withSign negative)) := by
  simp only [finishWhole] at h
  split at h <;> rename_i hminus
  · cases h
    exact .inl ⟨by rw [hminus.1, hminus.2]; rfl, rfl⟩
  by_cases hfits : Fits64 (signed negative (digitsValue ds))
  · rw [Number.ofInt?, dif_pos (show Fits64 (if negative then _ else _) from hfits)] at h
    cases h
    exact .inr (.inl ⟨hfits, rfl⟩)
  · rw [Number.ofInt?, dif_neg (show ¬ Fits64 (if negative then _ else _) from hfits)] at h
    simp only [finishFloat] at h
    cases hvalue : Binary64.ofSignificand? (.ofDigits ds []) with
    | none =>
        rw [hvalue] at h
        cases h
    | some y =>
        rw [hvalue] at h
        cases h
        exact .inr (.inr ⟨hfits, y, rfl, rfl⟩)

/-- What is rounded because it does not fit 64 bits lies beyond the range on either side,
and is rounded into it only from below. -/
theorem asInteger?_of_ofSignificand? (hds : ∀ d ∈ ds, d ≤ 9)
    (hfits : ¬ Fits64 (signed negative (digitsValue ds))) {y : Binary64}
    (hy : Binary64.ofSignificand? (.ofDigits ds []) = some y) :
    (number (.float (y.withSign negative))).asInteger? =
      if RoundsIntoRange (signed negative (digitsValue ds)) then some Int64.minValue
      else none := by
  by_cases hbeyond : 2 ^ 63 + 1024 < digitsValue ds
  · have hround : ¬ RoundsIntoRange (signed negative (digitsValue ds)) := by
      simp only [RoundsIntoRange, signed]
      cases negative with
      | false => simp only [Bool.false_eq_true, if_false]; omega
      | true => simp only [if_true]; omega
    rw [if_neg hround]
    refine asInteger?_withSign_beyond negative
      (le_trans ?_ (Binary64.le_magnitude_beyond_int64End hds hbeyond hy))
    simp only [Binary64.fullMantissa]
    norm_num
  · -- So near to the end of the range a number that is not negative fits 64 bits.
    have hnegative : negative = true ∧ 2 ^ 63 < digitsValue ds := by
      unfold Fits64 signed at hfits
      cases negative with
      | false => simp only [Bool.false_eq_true, if_false] at hfits; omega
      | true => simp only [if_true] at hfits; exact ⟨rfl, by omega⟩
    obtain ⟨rfl, hlow⟩ := hnegative
    have hround : RoundsIntoRange (signed true (digitsValue ds)) := by
      simp only [RoundsIntoRange, signed, if_true]
      omega
    rw [Binary64.ofSignificand?_near_int64End hlow.le (not_lt.mp hbeyond)] at hy
    cases hy
    rw [if_pos hround]
    exact asInteger?_int64Start

/-- A literal without fraction and exponent is read as its value when that is a 64-bit
signed number, and not at all otherwise, apart from those that are rounded into the
range. -/
theorem asInteger?_of_finishWhole (hds : ∀ d ∈ ds, d ≤ 9) {rest r : Bytes} {x : Number}
    (h : finishWhole negative ds rest = .ok (x, r)) :
    (number x).asInteger? =
      if RoundsIntoRange (signed negative (digitsValue ds)) then some Int64.minValue
      else int64OfInt? (signed negative (digitsValue ds)) := by
  rcases finishWhole_cases h with ⟨hzero, rfl⟩ | ⟨fits, rfl⟩ | ⟨hfits, y, hy, rfl⟩
  · rw [hzero, asInteger?_float, Binary64.toRat_zero, ← Int.cast_zero, towardZero_intCast,
      if_neg (by decide)]
  · have hlow : -2 ^ 63 ≤ signed negative (digitsValue ds) := fits.1
    rw [asInteger?_whole, if_neg fun hround => absurd hlow (not_le.mpr hround.2)]
  · have hrange : ¬ FitsInt64 (signed negative (digitsValue ds)) := fun h =>
      hfits ⟨h.1, lt_of_le_of_lt h.2 (by decide)⟩
    rw [asInteger?_of_ofSignificand? hds hfits hy, int64OfInt?_of_not_fits hrange]

end Digits

/-! ## Literals -/

section Literals

variable {n : Numeral} (hn : n.IsLiteral) {v : Json}
  (hv : parseText (String.ofList n.chars) = .ok v)

theorem digitValue_le {cs : List Char} (h : ∀ c ∈ cs, c.isDigit = true) :
    ∀ d ∈ (Utf8.encodeChars cs).map digitValue, d ≤ 9 := by
  intro d hd
  obtain ⟨b, hb, rfl⟩ := List.mem_map.mp hd
  have hdigit := isDigit_of_mem_encodeChars h b hb
  simp only [isDigit, Bool.and_eq_true, decide_eq_true_eq, UInt8.le_iff_toNat_le] at hdigit
  have hhigh : b.toNat ≤ 0x39 := hdigit.2
  show b.toNat - 0x30 ≤ 9
  omega

theorem value_eq_signed (n : Numeral) :
    signed n.sign.isMinus (digitsValue ((Utf8.encodeChars n.digits).map digitValue)) = n.value :=
  congrArg (signed n.sign.isMinus) (foldl_digitValue n.isDigit 0)

include hn hv

/-- What is read of a literal by itself is the number that its digits make. -/
theorem exists_number_of_parseText :
    ∃ x, v = number x ∧ ReadsLiteral
      (finishWhole n.sign.isMinus ((Utf8.encodeChars n.digits).map digitValue)) [] x := by
  rw [parseText, Utf8.encode_ofList] at hv
  obtain ⟨rest, hread, -⟩ := exists_readValue_of_parse hv
  obtain ⟨nested, hnested⟩ := exists_readValue_eq depthLimit
  rw [hnested, ← List.append_nil (Utf8.encodeChars n.chars),
    readValueWith_literal nested hn endsNumber_nil] at hread
  obtain ⟨⟨x, left⟩, hfinish, hx⟩ := map_eq_ok_iff.mp hread
  cases hx
  obtain ⟨literal, hliteral, hreads⟩ := isLocal_finishWhole _ _ _ _ _ hfinish
  obtain ⟨rfl, -⟩ := List.nil_eq_append_iff.mp hliteral
  exact ⟨x, rfl, hreads⟩

/-- A literal is read as the same value wherever it stands. -/
theorem readsLiteral_of_parseText (nested : NestedReader) :
    ReadsLiteral (readValueWith nested) (Utf8.encodeChars n.chars) v := by
  obtain ⟨x, rfl, hreads⟩ := exists_number_of_parseText hn hv
  intro r hr
  rw [readValueWith_literal nested hn hr, show finishWhole _ _ r = _ from hreads r hr]
  rfl

theorem asInteger?_of_parseText :
    v.asInteger? =
      if RoundsIntoRange n.value then some Int64.minValue else int64OfInt? n.value := by
  obtain ⟨x, rfl, hreads⟩ := exists_number_of_parseText hn hv
  rw [← value_eq_signed n]
  exact asInteger?_of_finishWhole (digitValue_le n.isDigit) (hreads [] endsNumber_nil)

end Literals

end Json

end AgentHooks
