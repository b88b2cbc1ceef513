/-
Text and its bytes.

The scan of bytes is a machine that takes one byte after the other; the bytes of
a character are computed from its code point.  `scanFrom_encodeChar` says that
the machine finds a character in its own bytes and is then where it was before,
so decoding undoes encoding (`decode_encodeChars`).  The last section says which
bytes a character can have: one below 0x80 is a whole character of ASCII, and
stands as often among the bytes as its character in the text.
-/
import AgentHooks.Text.Utf8

namespace AgentHooks.Utf8

/-! ## Bytes as numbers -/

theorem isTail_iff {b : UInt8} : isTail b = true ↔ 0x80 ≤ b.toNat ∧ b.toNat ≤ 0xBF := by
  simp only [isTail, Bool.and_eq_true, decide_eq_true_eq, UInt8.le_iff_toNat_le]
  rfl

theorem isSecondOfThree_iff {a b : UInt8} : isSecondOfThree a b = true ↔
    (if a.toNat = 0xE0 then 0xA0 ≤ b.toNat ∧ b.toNat ≤ 0xBF
      else if a.toNat = 0xED then 0x80 ≤ b.toNat ∧ b.toNat ≤ 0x9F
      else 0x80 ≤ b.toNat ∧ b.toNat ≤ 0xBF) := by
  have h₀ : a = 0xE0 ↔ a.toNat = 0xE0 := UInt8.toNat_inj.symm
  have h₁ : a = 0xED ↔ a.toNat = 0xED := UInt8.toNat_inj.symm
  simp only [isSecondOfThree, h₀, h₁, apply_ite (· = true), Bool.and_eq_true, decide_eq_true_eq,
    UInt8.le_iff_toNat_le, isTail_iff]
  rfl

theorem isSecondOfFour_iff {a b : UInt8} : isSecondOfFour a b = true ↔
    (if a.toNat = 0xF0 then 0x90 ≤ b.toNat ∧ b.toNat ≤ 0xBF
      else if a.toNat = 0xF4 then 0x80 ≤ b.toNat ∧ b.toNat ≤ 0x8F
      else 0x80 ≤ b.toNat ∧ b.toNat ≤ 0xBF) := by
  have h₀ : a = 0xF0 ↔ a.toNat = 0xF0 := UInt8.toNat_inj.symm
  have h₁ : a = 0xF4 ↔ a.toNat = 0xF4 := UInt8.toNat_inj.symm
  simp only [isSecondOfFour, h₀, h₁, apply_ite (· = true), Bool.and_eq_true, decide_eq_true_eq,
    UInt8.le_iff_toNat_le, isTail_iff]
  rfl

/-! ## The machine on the bytes of one character -/

theorem start_ascii {b : UInt8} (h : b.toNat < 0x80) :
    start b = ([.char (Char.ofNat b.toNat)], .none) := by
  have hb : b < 0x80 := UInt8.lt_iff_toNat_lt.mpr h
  rw [start, if_pos hb]

theorem start_lead {b : UInt8} (h : 0xC2 ≤ b.toNat ∧ b.toNat ≤ 0xF4) :
    start b = ([], .one b) := by
  have hb : ¬ b < 0x80 :=
    mt UInt8.lt_iff_toNat_lt.mp (Nat.not_lt.mpr (Nat.le_trans (by decide) h.1))
  have hlead : 0xC2 ≤ b ∧ b ≤ 0xF4 :=
    ⟨UInt8.le_iff_toNat_le.mpr h.1, UInt8.le_iff_toNat_le.mpr h.2⟩
  rw [start, if_neg hb, if_pos hlead]

section Sequences

variable {a b c d : UInt8} (r : Bytes)

theorem scanFrom_one (ha : a.toNat < 0x80) :
    scanFrom .none (a :: r) = .char (Char.ofNat a.toNat) :: scanFrom .none r := by
  simp only [scanFrom, step, start_ascii ha, List.cons_append, List.nil_append]

theorem scanFrom_two (ha : 0xC2 ≤ a.toNat ∧ a.toNat ≤ 0xDF) (hb : isTail b = true) :
    scanFrom .none (a :: b :: r) = .char (join2 a b) :: scanFrom .none r := by
  have hstart : start a = ([], .one a) := start_lead ⟨ha.1, Nat.le_trans ha.2 (by decide)⟩
  have h₂ : a ≤ 0xDF := UInt8.le_iff_toNat_le.mpr ha.2
  simp only [scanFrom, step, hstart, if_pos h₂, if_pos hb, List.cons_append, List.nil_append]

theorem scanFrom_three (ha : 0xE0 ≤ a.toNat ∧ a.toNat ≤ 0xEF) (hb : isSecondOfThree a b = true)
    (hc : isTail c = true) :
    scanFrom .none (a :: b :: c :: r) = .char (join3 a b c) :: scanFrom .none r := by
  have hstart : start a = ([], .one a) :=
    start_lead ⟨Nat.le_trans (by decide) ha.1, Nat.le_trans ha.2 (by decide)⟩
  have h₂ : ¬ a ≤ 0xDF := mt UInt8.le_iff_toNat_le.mp (Nat.not_le.mpr ha.1)
  have h₃ : a ≤ 0xEF := UInt8.le_iff_toNat_le.mpr ha.2
  simp only [scanFrom, step, hstart, if_neg h₂, if_pos h₃, if_pos hb, if_pos hc,
    List.cons_append, List.nil_append]

theorem scanFrom_four (ha : 0xF0 ≤ a.toNat ∧ a.toNat ≤ 0xF4) (hb : isSecondOfFour a b = true)
    (hc : isTail c = true) (hd : isTail d = true) :
    scanFrom .none (a :: b :: c :: d :: r) = .char (join4 a b c d) :: scanFrom .none r := by
  have hstart : start a = ([], .one a) :=
    start_lead ⟨Nat.le_trans (by decide) ha.1, ha.2⟩
  have h₂ : ¬ a ≤ 0xDF :=
    mt UInt8.le_iff_toNat_le.mp (Nat.not_le.mpr (Nat.le_trans (by decide) ha.1))
  have h₃ : ¬ a ≤ 0xEF := mt UInt8.le_iff_toNat_le.mp (Nat.not_le.mpr ha.1)
  simp only [scanFrom, step, hstart, if_neg h₂, if_neg h₃, if_pos hb, if_pos hc, if_pos hd,
    List.cons_append, List.nil_append]

end Sequences

/-- The bytes of a character are scanned as that character, whatever follows.
The cases are those of `encodeChar`. -/
theorem scanFrom_encodeChar (x : Char) (r : Bytes) :
    scanFrom .none (encodeChar x ++ r) = .char x :: scanFrom .none r := by
  have hvalid : x.toNat < 0xD800 ∨ 0xDFFF < x.toNat ∧ x.toNat < 0x110000 := x.valid
  have hx : Char.ofNat x.toNat = x := Char.ofNat_toNat x
  unfold encodeChar
  generalize x.toNat = n at hvalid hx
  by_cases h₁ : n < 0x80
  · have ha := UInt8.toNat_ofNat_of_lt' (show n < 0x100 by omega)
    simp only [if_pos h₁, List.cons_append, List.nil_append]
    rw [scanFrom_one r (by omega), ha, hx]
  by_cases h₂ : n < 0x800
  · have ha := UInt8.toNat_ofNat_of_lt' (show 0xC0 + n / 0x40 < 0x100 by omega)
    have hb := UInt8.toNat_ofNat_of_lt' (show 0x80 + n % 0x40 < 0x100 by omega)
    have hjoin : (0xC0 + n / 0x40) % 0x20 * 0x40 + (0x80 + n % 0x40) % 0x40 = n := by omega
    simp only [if_neg h₁, if_pos h₂, List.cons_append, List.nil_append]
    rw [scanFrom_two r (by omega) (isTail_iff.mpr (by omega)), join2, ha, hb, hjoin, hx]
  by_cases h₃ : n < 0x10000
  · have ha := UInt8.toNat_ofNat_of_lt' (show 0xE0 + n / 0x1000 < 0x100 by omega)
    have hb := UInt8.toNat_ofNat_of_lt' (show 0x80 + n / 0x40 % 0x40 < 0x100 by omega)
    have hc := UInt8.toNat_ofNat_of_lt' (show 0x80 + n % 0x40 < 0x100 by omega)
    have hjoin : (0xE0 + n / 0x1000) % 0x10 * 0x1000 + (0x80 + n / 0x40 % 0x40) % 0x40 * 0x40 +
        (0x80 + n % 0x40) % 0x40 = n := by omega
    -- After 0xE0 the code point is at least 0x800, after 0xED it is below the surrogates.
    have hsecond : isSecondOfThree (UInt8.ofNat (0xE0 + n / 0x1000))
        (UInt8.ofNat (0x80 + n / 0x40 % 0x40)) = true := by
      rw [isSecondOfThree_iff, ha, hb]
      split
      · omega
      · split <;> omega
    simp only [if_neg h₁, if_neg h₂, if_pos h₃, List.cons_append, List.nil_append]
    rw [scanFrom_three r (by omega) hsecond (isTail_iff.mpr (by omega)), join3, ha, hb, hc, hjoin,
      hx]
  · have ha := UInt8.toNat_ofNat_of_lt' (show 0xF0 + n / 0x40000 < 0x100 by omega)
    have hb := UInt8.toNat_ofNat_of_lt' (show 0x80 + n / 0x1000 % 0x40 < 0x100 by omega)
    have hc := UInt8.toNat_ofNat_of_lt' (show 0x80 + n / 0x40 % 0x40 < 0x100 by omega)
    have hd := UInt8.toNat_ofNat_of_lt' (show 0x80 + n % 0x40 < 0x100 by omega)
    have hjoin : (0xF0 + n / 0x40000) % 0x08 * 0x40000 +
        (0x80 + n / 0x1000 % 0x40) % 0x40 * 0x1000 + (0x80 + n / 0x40 % 0x40) % 0x40 * 0x40 +
        (0x80 + n % 0x40) % 0x40 = n := by omega
    -- After 0xF0 the code point is at least 0x10000, after 0xF4 it is at most 0x10FFFF.
    have hsecond : isSecondOfFour (UInt8.ofNat (0xF0 + n / 0x40000))
        (UInt8.ofNat (0x80 + n / 0x1000 % 0x40)) = true := by
      rw [isSecondOfFour_iff, ha, hb]
      split
      · omega
      · split <;> omega
    simp only [if_neg h₁, if_neg h₂, if_neg h₃, List.cons_append, List.nil_append]
    rw [scanFrom_four r (by omega) hsecond (isTail_iff.mpr (by omega)) (isTail_iff.mpr (by omega)),
      join4, ha, hb, hc, hd, hjoin, hx]

/-! ## Decoding what was encoded -/

@[simp] theorem encodeChars_nil : encodeChars [] = [] := rfl

@[simp] theorem encodeChars_cons (c : Char) (cs : List Char) :
    encodeChars (c :: cs) = encodeChar c ++ encodeChars cs := List.flatMap_cons

@[simp] theorem encodeChars_append (cs ds : List Char) :
    encodeChars (cs ++ ds) = encodeChars cs ++ encodeChars ds := List.flatMap_append

@[simp] theorem encode_ofList (cs : List Char) : encode (String.ofList cs) = encodeChars cs := by
  rw [encode, String.toList_ofList]

theorem scan_encodeChars (cs : List Char) (r : Bytes) :
    scan (encodeChars cs ++ r) = cs.map .char ++ scan r := by
  induction cs with
  | nil => rfl
  | cons c cs ih =>
      rw [encodeChars_cons, List.append_assoc, scan, scanFrom_encodeChar, ← scan, ih]
      rfl

theorem collect_map_char (index : Nat) (cs : List Char) :
    collect index (cs.map .char) = .ok cs := by
  induction cs generalizing index with
  | nil => rfl
  | cons c cs ih =>
      rw [List.map_cons, collect, ih]
      rfl

/-- The bytes of a text hold that text. -/
theorem decode_encodeChars (cs : List Char) : decode (encodeChars cs) = .ok cs := by
  have hscan : scan (encodeChars cs) = cs.map .char := by
    have h := scan_encodeChars cs []
    rwa [List.append_nil, show scan [] = [] from rfl, List.append_nil] at h
  rw [decode, hscan, collect_map_char]

theorem encodeChars_ne_nil {cs : List Char} (h : cs ≠ []) : encodeChars cs ≠ [] := by
  intro hnil
  have hdecode := decode_encodeChars cs
  rw [hnil] at hdecode
  exact h (Except.ok.inj hdecode).symm

/-! ## The bytes of a character -/

theorem encodeChar_ascii {c : Char} (h : c.toNat < 0x80) :
    encodeChar c = [UInt8.ofNat c.toNat] := if_pos h

theorem le_of_mem_encodeChar {c : Char} (h : 0x80 ≤ c.toNat) {b : UInt8}
    (hb : b ∈ encodeChar c) : 0x80 ≤ b.toNat := by
  have hvalid : c.toNat < 0xD800 ∨ 0xDFFF < c.toNat ∧ c.toNat < 0x110000 := c.valid
  unfold encodeChar at hb
  generalize c.toNat = n at h hvalid hb
  -- Each byte is 0x80 or more plus some bits of the code point that fit below 0x100.
  have hbyte {k : Nat} (hk : 0x80 ≤ k ∧ k < 0x100) : 0x80 ≤ (UInt8.ofNat k).toNat := by
    rw [UInt8.toNat_ofNat_of_lt' hk.2]
    exact hk.1
  simp only [if_neg (Nat.not_lt.mpr h)] at hb
  split at hb
  · simp only [List.mem_cons, List.not_mem_nil, or_false] at hb
    rcases hb with rfl | rfl <;> exact hbyte (by omega)
  · split at hb
    · simp only [List.mem_cons, List.not_mem_nil, or_false] at hb
      rcases hb with rfl | rfl | rfl <;> exact hbyte (by omega)
    · simp only [List.mem_cons, List.not_mem_nil, or_false] at hb
      rcases hb with rfl | rfl | rfl | rfl <;> exact hbyte (by omega)

/-- A byte below 0x80 stands for itself: it is all that its character has. -/
theorem toNat_eq_of_mem_encodeChar {c : Char} {b : UInt8} (hb : b ∈ encodeChar c)
    (h : b.toNat < 0x80) : c.toNat = b.toNat := by
  by_cases hc : c.toNat < 0x80
  · rw [encodeChar_ascii hc, List.mem_singleton] at hb
    rw [hb, UInt8.toNat_ofNat_of_lt' (Nat.lt_trans hc (by decide))]
  · exact absurd (le_of_mem_encodeChar (Nat.not_lt.mp hc) hb) (Nat.not_le.mpr h)

theorem count_encodeChar {c : Char} (hc : c.toNat < 0x80) (d : Char) :
    (encodeChar d).count (UInt8.ofNat c.toNat) = if d = c then 1 else 0 := by
  have hvalue : (UInt8.ofNat c.toNat).toNat = c.toNat :=
    UInt8.toNat_ofNat_of_lt' (Nat.lt_trans hc (by decide))
  split
  · rename_i heq
    rw [heq, encodeChar_ascii hc, List.count_singleton_self]
  · rename_i hne
    refine List.count_eq_zero.mpr ?_
    intro hmem
    have hascii : (UInt8.ofNat c.toNat).toNat < 0x80 := by
      rw [hvalue]
      exact hc
    have hd : d.toNat = c.toNat := (toNat_eq_of_mem_encodeChar hmem hascii).trans hvalue
    exact hne (Char.toNat_inj.mp hd)

/-- The byte of an ASCII character occurs as often as the character. -/
theorem count_encodeChars {c : Char} (hc : c.toNat < 0x80) (cs : List Char) :
    (encodeChars cs).count (UInt8.ofNat c.toNat) = cs.count c := by
  induction cs with
  | nil => rfl
  | cons d ds ih =>
      rw [encodeChars_cons, List.count_append, count_encodeChar hc, ih, List.count_cons,
        Nat.add_comm]
      simp only [beq_iff_eq]

end AgentHooks.Utf8
