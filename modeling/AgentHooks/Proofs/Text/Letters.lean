/-
Texts of letters.

A letter of ASCII is none of the marks by which a reader takes a text apart, so a text
of letters is trimmed to itself (`trim_of_letters`) and stands between quotes as it is
(`readQuoted_of_letters`).
-/
import AgentHooks.Proofs.Text.Trim
import AgentHooks.Text.Characters
import AgentHooks.Text.Unquoted

namespace AgentHooks.Text

variable {c : Char} {cs : List Char}

/-- Characters of which one is in a class and the other is not are different. -/
theorem ne_of_class {p : Char → Bool} {d : Char} (h : p c = true) (hd : p d = false) : c ≠ d := by
  rintro rfl
  rw [h] at hd
  cases hd

theorem toNat_of_isAlpha (h : c.isAlpha = true) :
    0x41 ≤ c.toNat ∧ c.toNat ≤ 0x5A ∨ 0x61 ≤ c.toNat ∧ c.toNat ≤ 0x7A := by
  have hrange : (decide (c.val ≥ 'A'.val ∧ c.val ≤ 'Z'.val) ||
      decide (c.val ≥ 'a'.val) && decide (c.val ≤ 'z'.val)) = true := h
  simp only [Bool.or_eq_true, Bool.and_eq_true, decide_eq_true_eq, ge_iff_le,
    UInt32.le_iff_toNat_le] at hrange
  exact hrange

theorem isBlank_of_isAlpha (h : c.isAlpha = true) : isBlank c = false := by
  have hrange := toNat_of_isAlpha h
  simp only [isBlank, Bool.or_eq_false_iff, Bool.and_eq_false_iff, decide_eq_false_iff_not,
    beq_eq_false_iff_ne]
  omega

theorem isDigit_of_isAlpha (h : c.isAlpha = true) : isDigit c = false := by
  have hrange := toNat_of_isAlpha h
  have hle : ¬ c ≤ '9' := by
    rw [Char.le_def, UInt32.le_iff_toNat_le]
    show ¬ c.toNat ≤ 0x39
    omega
  simp [isDigit, hle]

theorem isUnmarked_of_isAlpha (h : c.isAlpha = true) : isUnmarked c = true := by
  have hrange := toNat_of_isAlpha h
  simp only [isUnmarked, Bool.or_eq_true, Bool.and_eq_true, decide_eq_true_eq]
  omega

section Letters

variable (h : ∀ c ∈ cs, c.isAlpha = true)
include h

theorem not_mem_of_letters {d : Char} (hd : d.isAlpha = false) : d ∉ cs := fun hmem =>
  ne_of_class (h d hmem) hd rfl

theorem trim_of_letters : trim cs = cs :=
  trim_of_not_blank fun c hc => isBlank_of_isAlpha (h c hc)

theorem integer?_of_letters : integer? cs = none := by
  have hnatural : natural? cs = none := by
    cases cs with
    | nil => rfl
    | cons c cs => simp [natural?, isDigit_of_isAlpha (h c List.mem_cons_self)]
  unfold integer?
  split
  · exact absurd List.mem_cons_self (not_mem_of_letters h rfl)
  · exact absurd List.mem_cons_self (not_mem_of_letters h rfl)
  · rw [hnatural]; rfl

theorem readQuoted_of_letters (newMarks : Bool) (rest : List Char) :
    readQuoted newMarks (cs ++ '"' :: rest) = some (cs, rest) := by
  induction cs with
  | nil => rfl
  | cons c cs ih =>
      have hc := h c List.mem_cons_self
      -- Neither ends the text nor marks a character, so the last equation applies.
      have hquote : c ≠ '"' := ne_of_class hc rfl
      have hmark : c ≠ '\\' := ne_of_class hc rfl
      simp [readQuoted, hmark, isUnmarked_of_isAlpha hc,
        ih fun c hc => h c (List.mem_cons_of_mem _ hc)]

theorem upToNewMark?_of_letters (rest : List Char) : upToNewMark? (cs ++ '"' :: rest) = none := by
  induction cs with
  | nil => rfl
  | cons c cs ih =>
      have hc := h c List.mem_cons_self
      have hquote : c ≠ '"' := ne_of_class hc rfl
      have hmark : c ≠ '\\' := ne_of_class hc rfl
      simp [upToNewMark?, hmark, ih fun c hc => h c (List.mem_cons_of_mem _ hc)]

end Letters

end AgentHooks.Text
