/-
The case of letters.

A letter of ASCII and its counterpart in the other case have the same small letter
(`lowerAscii_of_recased`), and no letter is blank, so a text may be trimmed before or
after its letters are made small (`trim_map_lowerAscii`).
-/
import AgentHooks.Proofs.Text.Decoding
import AgentHooks.Proofs.Text.Trim

namespace AgentHooks.Text

variable {c d : Char}

/-- The capital letters of ASCII, by their code points. -/
def IsCapital (c : Char) : Prop := 0x41 ≤ c.toNat ∧ c.toNat ≤ 0x5A

theorem isCapital_iff : IsCapital c ↔ 'A' ≤ c ∧ c ≤ 'Z' := by
  rw [Char.le_def, Char.le_def, UInt32.le_iff_toNat_le, UInt32.le_iff_toNat_le]
  exact Iff.rfl

/-! ## Small letters -/

theorem toNat_lowerAscii_of_isCapital (h : IsCapital c) :
    (lowerAscii c).toNat = c.toNat + 0x20 := by
  have hvalid : c.toNat + 0x20 < 0xD800 :=
    Nat.lt_of_le_of_lt (Nat.add_le_add_right h.2 _) (by decide)
  rw [lowerAscii, if_pos (isCapital_iff.mp h), Utf8.toNat_ofNat_of_isValidChar (.inl hvalid)]

theorem lowerAscii_of_not_isCapital (h : ¬ IsCapital c) : lowerAscii c = c :=
  if_neg (mt isCapital_iff.mpr h)

theorem lowerAscii_eq_toLower (c : Char) : lowerAscii c = c.toLower := by
  by_cases h : IsCapital c
  · have hcode : (c.val + 0x20).toNat = c.val.toNat + 0x20 := by
      rw [UInt32.toNat_add]
      exact Nat.mod_eq_of_lt (Nat.lt_of_le_of_lt (Nat.add_le_add_right h.2 _) (by decide))
    have hrange : c.val ≥ 'A'.val ∧ c.val ≤ 'Z'.val := isCapital_iff.mp h
    have hlower : c.toLower.toNat = c.toNat + 0x20 := by
      have hsmall : c.toLower = _ := dif_pos hrange
      rw [hsmall]
      exact hcode
    rw [← Char.toNat_inj, toNat_lowerAscii_of_isCapital h, hlower]
  · have hlower : c.toLower = c := dif_neg (mt isCapital_iff.mpr h)
    rw [lowerAscii_of_not_isCapital h, hlower]

theorem lowerAscii_lowerAscii (c : Char) : lowerAscii (lowerAscii c) = lowerAscii c := by
  by_cases h : IsCapital c
  · refine lowerAscii_of_not_isCapital fun hcapital => ?_
    have hhigh := hcapital.2
    rw [toNat_lowerAscii_of_isCapital h] at hhigh
    have hlow := h.1
    omega
  · rw [lowerAscii_of_not_isCapital h, lowerAscii_of_not_isCapital h]

/-! ## The other case -/

/-- A letter of ASCII in its other case, or any character as it is. -/
inductive Recased : Char → Char → Prop where
  | same (c : Char) : Recased c c
  | toSmall (c : Char) : Recased c c.toLower
  | ofSmall (c : Char) : Recased c.toLower c

theorem lowerAscii_of_recased (h : Recased c d) : lowerAscii d = lowerAscii c := by
  cases h with
  | same => rfl
  | toSmall => rw [← lowerAscii_eq_toLower, lowerAscii_lowerAscii]
  | ofSmall => rw [← lowerAscii_eq_toLower, lowerAscii_lowerAscii]

/-! ## Blanks -/

theorem isBlank_lowerAscii (c : Char) : isBlank (lowerAscii c) = isBlank c := by
  by_cases h : IsCapital c
  · -- The letters, and what stands between the capitals and the small ones.
    have hletter {d : Char} (hlow : 0x41 ≤ d.toNat) (hhigh : d.toNat ≤ 0x7A) :
        isBlank d = false := by
      simp only [isBlank, Bool.or_eq_false_iff, Bool.and_eq_false_iff, decide_eq_false_iff_not,
        beq_eq_false_iff_ne]
      omega
    have hsmall := toNat_lowerAscii_of_isCapital h
    obtain ⟨hlow, hhigh⟩ := h
    rw [hletter (d := c) hlow (by omega), hletter (by omega) (by omega)]
  · rw [lowerAscii_of_not_isCapital h]

theorem trim_map_lowerAscii (cs : List Char) :
    trim (cs.map lowerAscii) = (trim cs).map lowerAscii := trim_map isBlank_lowerAscii cs

end AgentHooks.Text
