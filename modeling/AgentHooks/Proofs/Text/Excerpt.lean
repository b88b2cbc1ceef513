/-
Excerpts as cuts.

Up to the limit an excerpt has the characters of its text (`take_excerpt`).  A long text adds
nothing to them but the mark, so two long texts have one excerpt when they start alike
(`excerpt_eq_excerpt_iff_of_lt`).  The mark stands behind the limit: a marked text is too long
to be kept whole, and is still its own excerpt, since the cut takes the mark off and puts it
back (`excerpt_excerpt`, `excerpt_eq_self_iff`).
-/
import AgentHooks.Text.Shown

namespace AgentHooks.Text

/-! ## Short and long texts -/

theorem excerpt_of_length_le {s : String} (h : s.toList.length ≤ excerptLimit) : excerpt s = s :=
  if_pos h

theorem length_excerptMark : excerptMark.toList.length = 3 := rfl

section Long

variable {s : String} (h : excerptLimit < s.toList.length)
include h

theorem toList_excerpt_of_lt :
    (excerpt s).toList = s.toList.take excerptLimit ++ excerptMark.toList := by
  rw [excerpt, if_neg (Nat.not_le.mpr h), String.toList_append, String.toList_ofList]

theorem length_excerpt_of_lt : (excerpt s).toList.length = excerptLimit + 3 := by
  rw [toList_excerpt_of_lt h, List.length_append, List.length_take_of_le (Nat.le_of_lt h),
    length_excerptMark]

/-- The excerpt of a long text is long itself. -/
theorem lt_length_excerpt : excerptLimit < (excerpt s).toList.length := by
  rw [length_excerpt_of_lt h]
  exact Nat.lt_add_of_pos_right (by decide)

end Long

theorem length_excerpt_le (s : String) : (excerpt s).toList.length ≤ excerptLimit + 3 := by
  rcases Nat.lt_or_ge excerptLimit s.toList.length with hlong | hshort
  · exact Nat.le_of_eq (length_excerpt_of_lt hlong)
  · rw [excerpt_of_length_le hshort]
    exact Nat.le_add_right_of_le hshort

/-! ## The kept characters -/

/-- Up to the limit an excerpt has the characters of its text. -/
theorem take_excerpt (s : String) :
    (excerpt s).toList.take excerptLimit = s.toList.take excerptLimit := by
  rcases Nat.lt_or_ge excerptLimit s.toList.length with hlong | hshort
  · rw [toList_excerpt_of_lt hlong]
    exact List.take_left' (List.length_take_of_le (Nat.le_of_lt hlong))
  · rw [excerpt_of_length_le hshort]

/-- Long texts have one excerpt when they start alike. -/
theorem excerpt_eq_excerpt_iff_of_lt {s t : String} (hs : excerptLimit < s.toList.length)
    (ht : excerptLimit < t.toList.length) :
    excerpt s = excerpt t ↔ s.toList.take excerptLimit = t.toList.take excerptLimit := by
  constructor
  · intro h
    rw [← take_excerpt s, h, take_excerpt t]
  · intro h
    refine String.toList_inj.mp ?_
    rw [toList_excerpt_of_lt hs, toList_excerpt_of_lt ht, h]

/-! ## Excerpts of excerpts -/

theorem excerpt_excerpt (s : String) : excerpt (excerpt s) = excerpt s := by
  rcases Nat.lt_or_ge excerptLimit s.toList.length with hlong | hshort
  · exact (excerpt_eq_excerpt_iff_of_lt (lt_length_excerpt hlong) hlong).mpr (take_excerpt s)
  · rw [excerpt_of_length_le hshort, excerpt_of_length_le hshort]

/-- The texts that are excerpts: the short ones, and those that end in a mark right behind
the limit. -/
theorem excerpt_eq_self_iff {s : String} :
    excerpt s = s ↔ s.toList.length ≤ excerptLimit ∨
      s.toList.length = excerptLimit + 3 ∧ excerptMark.toList <:+ s.toList := by
  constructor
  · intro h
    rcases Nat.lt_or_ge excerptLimit s.toList.length with hlong | hshort
    · have hlength := length_excerpt_of_lt hlong
      have hchars := toList_excerpt_of_lt hlong
      rw [h] at hlength hchars
      exact .inr ⟨hlength, s.toList.take excerptLimit, hchars.symm⟩
    · exact .inl hshort
  · rintro (hshort | ⟨hlength, start, hchars⟩)
    · exact excerpt_of_length_le hshort
    · have hlong : excerptLimit < s.toList.length := by
        rw [hlength]
        exact Nat.lt_add_of_pos_right (by decide)
      have hstart : start.length = excerptLimit := by
        rw [← hchars, List.length_append, length_excerptMark] at hlength
        exact Nat.add_right_cancel hlength
      refine String.toList_inj.mp ?_
      rw [toList_excerpt_of_lt hlong, ← hchars, List.take_left' hstart]

/-- An excerpt has at most 123 characters: a text of at most 120 is kept, and of a longer one
the first 120 with three dots.  Taken again it stays, the texts that are their own excerpts
are those that are short or cut already, and of longer texts the excerpts are equal exactly
when the first 120 characters are. -/
theorem excerpt_exact (s : String) :
    (excerpt s).toList.length ≤ 123 ∧
    (s.toList.length ≤ 120 → excerpt s = s) ∧
    (120 < s.toList.length → (excerpt s).toList = s.toList.take 120 ++ ['.', '.', '.']) ∧
    excerpt (excerpt s) = excerpt s ∧
    (excerpt s = s ↔ s.toList.length ≤ 120 ∨
      s.toList.length = 123 ∧ ['.', '.', '.'] <:+ s.toList) ∧
    ∀ t : String, 120 < s.toList.length → 120 < t.toList.length →
      (excerpt s = excerpt t ↔ s.toList.take 120 = t.toList.take 120) :=
  ⟨length_excerpt_le s, excerpt_of_length_le, toList_excerpt_of_lt, excerpt_excerpt s,
    excerpt_eq_self_iff, fun _ => excerpt_eq_excerpt_iff_of_lt⟩

/-- A text with 120 characters of two bytes each in front of an ending. -/
def behindLimit (ending : String) : String := String.ofList (List.replicate 120 'é') ++ ending

theorem toList_behindLimit (ending : String) :
    (behindLimit ending).toList = List.replicate 120 'é' ++ ending.toList := by
  unfold behindLimit
  rw [String.toList_append, String.toList_ofList]

/-- A text that is one character too long is cut to one that is its own excerpt. -/
theorem excerpt_exact_one_too_long :
    (behindLimit "").toList.length ≤ 120 ∧ excerpt (behindLimit "") = behindLimit "" ∧
    120 < (behindLimit "!").toList.length ∧ 120 < (behindLimit "...").toList.length ∧
    excerpt (behindLimit "!") = behindLimit "..." := by
  have hlength (ending : String) :
      (behindLimit ending).toList.length = 120 + ending.toList.length := by
    rw [toList_behindLimit, List.length_append, List.length_replicate]
  have hstart (ending : String) :
      (behindLimit ending).toList.take 120 = List.replicate 120 'é' := by
    rw [toList_behindLimit, List.take_left' List.length_replicate]
  have hshort : (behindLimit "").toList.length ≤ 120 := Nat.le_of_eq (hlength "")
  have hone : 120 < (behindLimit "!").toList.length := by
    rw [hlength]
    decide
  have hmarked : 120 < (behindLimit "...").toList.length := by
    rw [hlength]
    decide
  obtain ⟨-, hkept, -⟩ := excerpt_exact (behindLimit "")
  obtain ⟨-, -, -, -, -, hsame⟩ := excerpt_exact (behindLimit "!")
  obtain ⟨-, -, -, -, hself, -⟩ := excerpt_exact (behindLimit "...")
  have hcut : excerpt (behindLimit "!") = excerpt (behindLimit "...") :=
    (hsame _ hone hmarked).mpr ((hstart "!").trans (hstart "...").symm)
  have hstays : excerpt (behindLimit "...") = behindLimit "..." :=
    hself.mpr (.inr ⟨hlength "...", _, (toList_behindLimit "...").symm⟩)
  exact ⟨hshort, hkept hshort, hone, hmarked, hcut.trans hstays⟩

end AgentHooks.Text
