/-
64-bit signed numbers among the integers.

`FitsInt64` is their range.  An integer is taken for the number that it is when it lies
in the range, and for none otherwise (`int64OfInt?_eq_some_iff`,
`int64OfInt?_eq_none_iff`).
-/
import AgentHooks.Json.Coercion
import Mathlib.Algebra.Ring.Int.Defs

namespace AgentHooks

/-- The integers that are 64-bit signed numbers. -/
def FitsInt64 (n : Int) : Prop := -2 ^ 63 ≤ n ∧ n ≤ 2 ^ 63 - 1

instance (n : Int) : Decidable (FitsInt64 n) := inferInstanceAs (Decidable (_ ∧ _))

theorem fitsInt64_toInt (i : Int64) : FitsInt64 i.toInt :=
  ⟨i.le_toInt, Int.le_sub_one_of_lt i.toInt_lt⟩

theorem int64OfInt?_toInt (n : Int64) : int64OfInt? n.toInt = some n := by
  rw [int64OfInt?, if_pos ⟨n.le_toInt, n.toInt_lt⟩, Int64.ofInt_toInt]

theorem int64OfInt?_of_not_fits {n : Int} (h : ¬ FitsInt64 n) : int64OfInt? n = none := by
  refine if_neg fun hrange => h ⟨hrange.1, ?_⟩
  exact Int.le_sub_one_of_lt hrange.2

theorem exists_toInt_eq_of_fits {n : Int} (h : FitsInt64 n) : ∃ i : Int64, i.toInt = n :=
  ⟨Int64.ofInt n, Int64.toInt_ofInt_of_le h.1 (Int.lt_of_le_sub_one h.2)⟩

theorem int64OfInt?_eq_some_iff {n : Int} {i : Int64} : int64OfInt? n = some i ↔ i.toInt = n := by
  constructor
  · intro h
    by_cases hfits : FitsInt64 n
    · obtain ⟨j, rfl⟩ := exists_toInt_eq_of_fits hfits
      rw [int64OfInt?_toInt] at h
      rw [Option.some.inj h]
    · rw [int64OfInt?_of_not_fits hfits] at h
      cases h
  · rintro rfl
    exact int64OfInt?_toInt i

theorem int64OfInt?_eq_none_iff {n : Int} : int64OfInt? n = none ↔ ¬ FitsInt64 n := by
  refine ⟨fun h hfits => ?_, int64OfInt?_of_not_fits⟩
  obtain ⟨i, rfl⟩ := exists_toInt_eq_of_fits hfits
  rw [int64OfInt?_toInt] at h
  cases h

/-- What an integer is taken for, as an integer: itself, or nothing. -/
theorem map_toInt_int64OfInt? (n : Int) :
    (int64OfInt? n).map Int64.toInt = if FitsInt64 n then some n else none := by
  split
  · rename_i h
    obtain ⟨i, rfl⟩ := exists_toInt_eq_of_fits h
    rw [int64OfInt?_toInt]
    rfl
  · rename_i h
    rw [int64OfInt?_of_not_fits h]
    rfl

end AgentHooks
