/-
Numerals: at most one sign, then digits.

A numeral may have any number of digits and of zeros in front.  It is read digit by digit,
and every number on the way has to be a 64-bit signed one.  Digits only take a number
further away from zero (`le_ofDigitChars`), so once it has left the range it stays outside,
and what is read of a numeral is its value when that lies in the range
(`int64?_chars`).  Nothing but a numeral is read (`int64?_eq_some_iff`).
-/
import AgentHooks.Proofs.Number.Int64
import AgentHooks.Proofs.Text.Trim

namespace AgentHooks.Text

/-! ## Numerals -/

/-- What may stand in front of the digits of a numeral. -/
inductive Sign where
  | absent
  | plus
  | minus
deriving DecidableEq, Repr

namespace Sign

def chars : Sign → List Char
  | absent => []
  | plus => ['+']
  | minus => ['-']

def isMinus : Sign → Bool
  | minus => true
  | _ => false

end Sign

/-- The number of a magnitude on one side of zero. -/
def signed (negative : Bool) (n : Nat) : Int := if negative then -(n : Int) else n

/-- A decimal text of a whole number. -/
structure Numeral where
  sign : Sign
  digits : List Char
  ne_nil : digits ≠ []
  isDigit : ∀ c ∈ digits, c.isDigit = true
deriving DecidableEq

namespace Numeral

def chars (n : Numeral) : List Char := n.sign.chars ++ n.digits

/-- The number that a numeral stands for. -/
def value (n : Numeral) : Int := signed n.sign.isMinus (Nat.ofDigitChars 10 n.digits 0)

/-- Whether a numeral is a literal of JSON: no plus in front, and no zero in front of
other digits. -/
def IsLiteral (n : Numeral) : Prop :=
  n.sign ≠ .plus ∧ (n.digits.head? = some '0' → n.digits = ['0'])

instance (n : Numeral) : Decidable n.IsLiteral := inferInstanceAs (Decidable (_ ∧ (_ → _)))

/-- A numeral is made of signs and digits. -/
theorem mem_chars (n : Numeral) {c : Char} (h : c ∈ n.chars) :
    c = '+' ∨ c = '-' ∨ c.isDigit = true := by
  rcases List.mem_append.mp h with hsign | hdigit
  · cases hs : n.sign with
    | absent => rw [hs] at hsign; cases hsign
    | plus => rw [hs] at hsign; exact .inl (List.mem_singleton.mp hsign)
    | minus => rw [hs] at hsign; exact .inr (.inl (List.mem_singleton.mp hsign))
  · exact .inr (.inr (n.isDigit c hdigit))

/-- The numeral with which an integer is written. -/
def ofInt (i : Int) : Numeral where
  sign := if i < 0 then .minus else .absent
  digits := Nat.toDigits 10 i.natAbs
  ne_nil := Nat.toDigits_ne_nil
  isDigit _ hc := Nat.isDigit_of_mem_toDigits (by decide) (by decide) hc

theorem chars_ofInt (i : Int) : (ofInt i).chars = (toString i).toList := by
  cases i with
  | ofNat n =>
      have hsign : ¬ (Int.ofNat n < 0) := Int.not_lt.mpr (Int.natCast_nonneg n)
      rw [chars, ofInt, if_neg hsign]
      exact (String.toList_ofList (l := Nat.toDigits 10 n)).symm
  | negSucc n =>
      rw [chars, ofInt, if_pos (Int.negSucc_lt_zero n)]
      show '-' :: Nat.toDigits 10 (n + 1) = ("-" ++ String.ofList (Nat.toDigits 10 (n + 1))).toList
      simp only [String.toList_append, String.toList_ofList]
      rfl

theorem value_ofInt (i : Int) : (ofInt i).value = i := by
  rw [value, ofInt, Nat.ofDigitChars_toDigits (by decide) (by decide)]
  by_cases hsign : i < 0
  · rw [if_pos hsign]
    show -(i.natAbs : Int) = i
    omega
  · rw [if_neg hsign]
    show (i.natAbs : Int) = i
    omega

end Numeral

/-! ## Digits one after the other -/

theorem isDigit_eq (c : Char) : isDigit c = c.isDigit := rfl

theorem le_ofDigitChars (cs : List Char) (n : Nat) : n ≤ Nat.ofDigitChars 10 cs n := by
  induction cs generalizing n with
  | nil => exact Nat.le_refl n
  | cons c cs ih =>
      rw [Nat.ofDigitChars_cons]
      refine Nat.le_trans ?_ (ih _)
      omega

/-- Away from zero there is no way back into the range. -/
theorem not_fitsInt64_signed {negative : Bool} {m n : Nat} (hle : m ≤ n)
    (h : ¬ FitsInt64 (signed negative m)) : ¬ FitsInt64 (signed negative n) := by
  unfold FitsInt64 signed at h ⊢
  cases negative with
  | false => simp only [Bool.false_eq_true, if_false] at h ⊢; omega
  | true => simp only [if_true] at h ⊢; omega

section Digits

variable {negative : Bool}

/-- One more digit: the number it makes, if that fits. -/
theorem appendDigit?_eq {i : Int64} {n : Nat} (hi : i.toInt = signed negative n) {c : Char}
    (hc : c.isDigit = true) :
    appendDigit? negative i c = int64OfInt? (signed negative (10 * n + (c.toNat - '0'.toNat))) := by
  have htenfold : i.toInt * 10 = signed negative (10 * n) := by
    rw [hi]
    unfold signed
    split <;> omega
  rw [appendDigit?, isDigit_eq, hc, if_pos rfl, htenfold]
  by_cases hfits : FitsInt64 (signed negative (10 * n))
  · obtain ⟨j, hj⟩ := exists_toInt_eq_of_fits hfits
    rw [← hj, int64OfInt?_toInt]
    show int64OfInt? (if negative = true then j.toInt - _ else j.toInt + _) = _
    rw [hj]
    refine congrArg int64OfInt? ?_
    show (if negative = true then _ - ((c.toNat - 0x30 : Nat) : Int) else _ + _) =
      signed negative (10 * n + (c.toNat - 0x30))
    unfold signed
    split <;> omega
  · rw [int64OfInt?_of_not_fits hfits,
      int64OfInt?_of_not_fits (not_fitsInt64_signed (Nat.le_add_right _ _) hfits)]
    rfl

theorem appendDigit?_of_not_isDigit (i : Int64) {c : Char} (hc : c.isDigit = false) :
    appendDigit? negative i c = none := by
  rw [appendDigit?, isDigit_eq, hc]
  rfl

/-- What digits make of a number that fits: the number that they spell behind it, if that
fits. -/
theorem foldlM_appendDigit? {cs : List Char} (hcs : ∀ c ∈ cs, c.isDigit = true) {i : Int64}
    {n : Nat} (hi : i.toInt = signed negative n) :
    cs.foldlM (appendDigit? negative) i =
      int64OfInt? (signed negative (Nat.ofDigitChars 10 cs n)) := by
  induction cs generalizing i n with
  | nil =>
      rw [List.foldlM_nil, Nat.ofDigitChars_nil, ← hi, int64OfInt?_toInt]
      rfl
  | cons c cs ih =>
      obtain ⟨hc, hcs⟩ := List.forall_mem_cons.mp hcs
      rw [List.foldlM_cons, appendDigit?_eq hi hc, Nat.ofDigitChars_cons]
      by_cases hfits : FitsInt64 (signed negative (10 * n + (c.toNat - '0'.toNat)))
      · obtain ⟨j, hj⟩ := exists_toInt_eq_of_fits hfits
        rw [← hj, int64OfInt?_toInt]
        exact ih hcs hj
      · rw [int64OfInt?_of_not_fits hfits,
          int64OfInt?_of_not_fits (not_fitsInt64_signed (le_ofDigitChars cs _) hfits)]
        rfl

variable (negative) in
theorem int64OfDigits?_eq {cs : List Char} (hne : cs ≠ []) (hcs : ∀ c ∈ cs, c.isDigit = true) :
    int64OfDigits? negative cs = int64OfInt? (signed negative (Nat.ofDigitChars 10 cs 0)) := by
  have hzero : (0 : Int64).toInt = signed negative 0 := by cases negative <;> rfl
  rw [int64OfDigits?, if_neg hne, foldlM_appendDigit? hcs hzero]

theorem isDigit_of_foldlM {cs : List Char} {i j : Int64}
    (h : cs.foldlM (appendDigit? negative) i = some j) : ∀ c ∈ cs, c.isDigit = true := by
  induction cs generalizing i with
  | nil => exact nofun
  | cons c cs ih =>
      rw [List.foldlM_cons] at h
      obtain ⟨k, hk, hrest⟩ := Option.bind_eq_some_iff.mp h
      refine List.forall_mem_cons.mpr ⟨?_, ih hrest⟩
      cases hc : c.isDigit with
      | true => rfl
      | false =>
          rw [appendDigit?_of_not_isDigit i hc] at hk
          cases hk

/-- Only digits are read as a magnitude. -/
theorem digits_of_int64OfDigits? {cs : List Char} {j : Int64}
    (h : int64OfDigits? negative cs = some j) : cs ≠ [] ∧ ∀ c ∈ cs, c.isDigit = true := by
  unfold int64OfDigits? at h
  split at h
  · cases h
  · rename_i hne
    exact ⟨hne, isDigit_of_foldlM h⟩

end Digits

/-! ## Whole numerals -/

theorem int64?_of_no_sign {cs : List Char} (hcs : ∀ c ∈ cs.head?, c ≠ '+' ∧ c ≠ '-') :
    int64? cs = int64OfDigits? false cs := by
  unfold int64?
  split
  · exact absurd rfl (hcs '+' rfl).1
  · exact absurd rfl (hcs '-' rfl).2
  · rfl

/-- What is read of a numeral is its value, if that fits. -/
theorem int64?_chars (n : Numeral) : int64? n.chars = int64OfInt? n.value := by
  obtain ⟨sign, digits, hne, hdigits⟩ := n
  have hread (negative : Bool) := int64OfDigits?_eq negative hne hdigits
  cases sign with
  | plus => exact hread false
  | minus => exact hread true
  | absent =>
      refine (int64?_of_no_sign fun c hc => ?_).trans (hread false)
      have hdigit := hdigits c (List.mem_of_mem_head? hc)
      constructor <;> rintro rfl <;> cases hdigit

theorem exists_numeral_of_int64? {cs : List Char} {i : Int64} (h : int64? cs = some i) :
    ∃ n : Numeral, cs = n.chars := by
  unfold int64? at h
  split at h
  · obtain ⟨hne, hdigits⟩ := digits_of_int64OfDigits? h
    exact ⟨⟨.plus, _, hne, hdigits⟩, rfl⟩
  · obtain ⟨hne, hdigits⟩ := digits_of_int64OfDigits? h
    exact ⟨⟨.minus, _, hne, hdigits⟩, rfl⟩
  · obtain ⟨hne, hdigits⟩ := digits_of_int64OfDigits? h
    exact ⟨⟨.absent, _, hne, hdigits⟩, rfl⟩

/-- What is read as a number is a numeral of that number. -/
theorem int64?_eq_some_iff {cs : List Char} {i : Int64} :
    int64? cs = some i ↔ ∃ n : Numeral, cs = n.chars ∧ i.toInt = n.value := by
  constructor
  · intro h
    obtain ⟨n, rfl⟩ := exists_numeral_of_int64? h
    rw [int64?_chars] at h
    exact ⟨n, rfl, int64OfInt?_eq_some_iff.mp h⟩
  · rintro ⟨n, rfl, hvalue⟩
    rw [int64?_chars]
    exact int64OfInt?_eq_some_iff.mpr hvalue

/-! ## Blanks around a numeral -/

/-- Whether a text is some characters with blanks around them. -/
def IsPadded (text core : List Char) : Prop :=
  ∃ before after, (∀ b ∈ before, isBlank b = true) ∧ (∀ b ∈ after, isBlank b = true) ∧
    text = before ++ core ++ after

theorem isBlank_of_isDigit {c : Char} (h : c.isDigit = true) : isBlank c = false := by
  obtain ⟨hlow, hhigh⟩ := Char.isDigit_iff_toNat.mp h
  have hlow : 0x30 ≤ c.toNat := hlow
  have hhigh : c.toNat ≤ 0x39 := hhigh
  simp only [isBlank, Bool.or_eq_false_iff, Bool.and_eq_false_iff, decide_eq_false_iff_not,
    beq_eq_false_iff_ne]
  omega

theorem Numeral.isBlank_of_mem_chars (n : Numeral) : ∀ c ∈ n.chars, isBlank c = false := by
  intro c hc
  rcases n.mem_chars hc with rfl | rfl | hdigit
  · rfl
  · rfl
  · exact isBlank_of_isDigit hdigit

/-- A text that is trimmed to a numeral is that numeral with blanks around it. -/
theorem trim_eq_chars_iff {text : List Char} {n : Numeral} :
    trim text = n.chars ↔ IsPadded text n.chars := by
  constructor
  · intro h
    obtain ⟨before, after, hbefore, hafter, htext⟩ := exists_blanks_trim text
    exact ⟨before, after, hbefore, hafter, h ▸ htext⟩
  · rintro ⟨before, after, hbefore, hafter, rfl⟩
    rw [trim_padded hbefore hafter, trim_of_not_blank n.isBlank_of_mem_chars]

end AgentHooks.Text
