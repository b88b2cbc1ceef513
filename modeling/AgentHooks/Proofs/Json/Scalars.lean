/-
Strings and numbers, written and read back.

A written string is read one written character at a time: `readContent_writeChar`
says that each gives its own bytes back, whether it was escaped or not, and the
closing quote ends the content.  A whole number is read up to the first byte
that cannot belong to a number (`EndsNumber`): its digits are taken as they stand
(`readNumber_digits`) and give back the number (`finishWhole_natAbs`).  Floats are left
out: their reader rounds more than once.
-/
import AgentHooks.Json.Parser
import AgentHooks.Json.Printer
import AgentHooks.Proofs.Text.Utf8

namespace AgentHooks.Json

open Utf8

/-! ## Strings -/

theorem prepend_prepend (xs ys : Bytes) (r : Reading Bytes) :
    prepend xs (prepend ys r) = prepend (xs ++ ys) r := by
  cases r with
  | error _ => rfl
  | ok p => simp only [prepend, Except.map, List.append_assoc]

/-- A byte of a string that stands for itself. -/
def isPlain (b : UInt8) : Bool := b ≠ '"'.toUInt8 && b ≠ '\\'.toUInt8 && !(b < 0x20)

theorem readContent_plain {b : UInt8} (h : isPlain b = true) (r : Bytes) :
    readContent (b :: r) = prepend [b] (readContent r) := by
  simp only [isPlain, Bool.and_eq_true, decide_eq_true_eq, Bool.not_eq_true',
    decide_eq_false_iff_not] at h
  rw [readContent.eq_def]
  simp only [if_neg h.1.1, if_pos h.1.2, if_neg h.2]

theorem readContent_plain_append {bs : Bytes} (h : ∀ b ∈ bs, isPlain b = true) (r : Bytes) :
    readContent (bs ++ r) = prepend bs (readContent r) := by
  induction bs with
  | nil => cases hr : readContent r <;> simp [prepend, hr, Except.map]
  | cons b bs ih =>
      obtain ⟨hb, hbs⟩ := List.forall_mem_cons.mp h
      rw [List.cons_append, readContent_plain hb, ih hbs, prepend_prepend]
      rfl

theorem readContent_escape {e x : UInt8} (h : shortEscape? e = some x) (r : Bytes) :
    readContent ('\\'.toUInt8 :: e :: r) = prepend [x] (readContent r) := by
  have hu : e ≠ 'u'.toUInt8 := by
    rintro rfl
    rw [show shortEscape? 'u'.toUInt8 = none by decide] at h
    cases h
  have hquote : '\\'.toUInt8 ≠ '"'.toUInt8 := by decide
  rw [readContent.eq_def]
  simp only [if_neg hquote, ne_eq, not_true_eq_false, if_false, hu, not_false_eq_true, if_true, h]

theorem readContent_code {a₁ a₂ a₃ a₄ : UInt8} {n : Nat} (h : hexValue4? a₁ a₂ a₃ a₄ = some n)
    (hlow : isLowSurrogate n = false) (hhigh : isHighSurrogate n = false) (r : Bytes) :
    readContent ('\\'.toUInt8 :: 'u'.toUInt8 :: a₁ :: a₂ :: a₃ :: a₄ :: r) =
      prepend (encodeChar (Char.ofNat n)) (readContent r) := by
  have hquote : '\\'.toUInt8 ≠ '"'.toUInt8 := by decide
  rw [readContent.eq_def]
  simp only [if_neg hquote, ne_eq, not_true_eq_false, if_false, h, hlow, hhigh, Bool.not_false,
    if_true, Bool.false_eq_true]

/-- The four digits of the escape of a control character. -/
theorem hexValue4?_hexDigit {n : Nat} (h : n < 0x20) :
    hexValue4? '0'.toUInt8 '0'.toUInt8 (UInt8.ofNat (hexDigit (n / 16)).toNat)
      (UInt8.ofNat (hexDigit (n % 16)).toNat) = some n := by
  revert n; decide

theorem encodeChar_hexDigit {n : Nat} (h : n < 16) :
    encodeChar (hexDigit n) = [UInt8.ofNat (hexDigit n).toNat] := by
  revert n; decide

theorem isPlain_of_mem_encodeChar {c : Char} (hquote : c ≠ '"') (hmark : c ≠ '\\')
    (hcontrol : ¬ c.toNat < 0x20) : ∀ b ∈ encodeChar c, isPlain b = true := by
  intro b hb
  -- A byte that is not plain is ASCII, and so the whole of its character.
  have hself (h : b.toNat < 0x80) : c.toNat = b.toNat := toNat_eq_of_mem_encodeChar hb h
  simp only [isPlain, Bool.and_eq_true, decide_eq_true_eq, Bool.not_eq_true',
    decide_eq_false_iff_not]
  refine ⟨⟨?_, ?_⟩, ?_⟩
  · rintro rfl
    exact hquote (Char.toNat_inj.mp (hself (by decide)))
  · rintro rfl
    exact hmark (Char.toNat_inj.mp (hself (by decide)))
  · intro h
    have h' : b.toNat < 0x20 := UInt8.lt_iff_toNat_lt.mp h
    exact hcontrol (hself (Nat.lt_trans h' (by decide)) ▸ h')

/-- A written character is read as its own bytes, whatever follows. -/
theorem readContent_writeChar (c : Char) (r : Bytes) :
    readContent (encodeChars (writeChar c) ++ r) = prepend (encodeChar c) (readContent r) := by
  unfold writeChar
  -- The characters that have an escape of their own, one after the other.
  iterate 7 (split; · subst c; exact readContent_escape (by decide) r)
  rename_i hquote hmark _ _ _ _ _
  split
  · rename_i hcontrol
    have hbytes : encodeChars ['\\', 'u', '0', '0', hexDigit (c.toNat / 16),
        hexDigit (c.toNat % 16)] = '\\'.toUInt8 :: 'u'.toUInt8 :: '0'.toUInt8 :: '0'.toUInt8 ::
          UInt8.ofNat (hexDigit (c.toNat / 16)).toNat ::
          [UInt8.ofNat (hexDigit (c.toNat % 16)).toNat] := by
      simp only [encodeChars_cons, encodeChars_nil,
        encodeChar_hexDigit (n := c.toNat / 16) (by omega),
        encodeChar_hexDigit (n := c.toNat % 16) (by omega)]
      rfl
    have hlow : isLowSurrogate c.toNat = false := by
      simp only [isLowSurrogate, Bool.and_eq_false_imp, decide_eq_true_eq, decide_eq_false_iff_not]
      omega
    have hhigh : isHighSurrogate c.toNat = false := by
      simp only [isHighSurrogate, Bool.and_eq_false_imp, decide_eq_true_eq, decide_eq_false_iff_not]
      omega
    rw [hbytes]
    refine (readContent_code (hexValue4?_hexDigit hcontrol) hlow hhigh r).trans ?_
    rw [Char.ofNat_toNat]
  · rename_i hcontrol
    rw [encodeChars_cons, encodeChars_nil, List.append_nil]
    exact readContent_plain_append (isPlain_of_mem_encodeChar hquote hmark hcontrol) r

theorem readContent_writeChars (cs : List Char) (r : Bytes) :
    readContent (encodeChars (cs.flatMap writeChar) ++ '"'.toUInt8 :: r) =
      .ok (encodeChars cs, r) := by
  induction cs with
  | nil =>
      show readContent ('"'.toUInt8 :: r) = .ok ([], r)
      rw [readContent.eq_def]
      rfl
  | cons c cs ih =>
      rw [List.flatMap_cons, encodeChars_append, List.append_assoc, readContent_writeChar, ih]
      rfl

/-- A written string is read back after its opening quote. -/
theorem readString_writeString (s : String) (r : Bytes) :
    readString (encodeChars (s.toList.flatMap writeChar) ++ '"'.toUInt8 :: r) = .ok (s, r) := by
  have hdecode := decode_encodeChars s.toList
  simp only [readString, readContent_writeChars, bind, Except.bind, hdecode, String.ofList_toList]
  rfl

/-! ## Numbers -/

/-- No digit stands in front. -/
def NoDigit (r : Bytes) : Prop := ∀ b ∈ r.head?, isDigit b = false

/-- What can follow a number: nothing that belongs to it. -/
def EndsNumber (r : Bytes) : Prop :=
  ∀ b ∈ r.head?, isDigit b = false ∧ b ≠ '.'.toUInt8 ∧ isExponentMark b = false

instance (r : Bytes) : Decidable (EndsNumber r) := inferInstanceAs (Decidable (∀ b ∈ r.head?, _))

theorem EndsNumber.noDigit {r : Bytes} (h : EndsNumber r) : NoDigit r := fun b hb => (h b hb).1

theorem readFraction_of_endsNumber {r : Bytes} (h : EndsNumber r) (negative : Bool)
    (whole : List Nat) : readFraction negative whole r = finishWhole negative whole r := by
  cases r with
  | nil => rfl
  | cons b r =>
      obtain ⟨-, hpoint, hmark⟩ := h b rfl
      simp only [readFraction, if_neg hpoint, hmark, Bool.false_eq_true, if_false]

theorem encodeChar_digit {c : Char} (h : c.isDigit = true) :
    encodeChar c = [UInt8.ofNat c.toNat] ∧ (UInt8.ofNat c.toNat).toNat = c.toNat := by
  have hc := Char.isDigit_iff_toNat.mp h
  exact ⟨encodeChar_ascii (Nat.lt_of_le_of_lt hc.2 (by decide)),
    UInt8.toNat_ofNat_of_lt' (Nat.lt_of_le_of_lt hc.2 (by decide))⟩

theorem isDigit_of_mem_encodeChars {cs : List Char} (h : ∀ c ∈ cs, c.isDigit = true) :
    ∀ b ∈ encodeChars cs, isDigit b = true := by
  intro b hb
  obtain ⟨c, hc, hb⟩ := List.mem_flatMap.mp hb
  have hdigit := Char.isDigit_iff_toNat.mp (h c hc)
  obtain ⟨hbytes, hvalue⟩ := encodeChar_digit (h c hc)
  rw [hbytes, List.mem_singleton] at hb
  simp only [isDigit, Bool.and_eq_true, decide_eq_true_eq, UInt8.le_iff_toNat_le, hb, hvalue]
  exact hdigit

theorem foldl_digitValue {cs : List Char} (h : ∀ c ∈ cs, c.isDigit = true) (n : Nat) :
    ((encodeChars cs).map digitValue).foldl (fun n d => n * 10 + d) n =
      Nat.ofDigitChars 10 cs n := by
  induction cs generalizing n with
  | nil => rfl
  | cons c cs ih =>
      obtain ⟨hc, hcs⟩ := List.forall_mem_cons.mp h
      obtain ⟨hbytes, hvalue⟩ := encodeChar_digit hc
      rw [encodeChars_cons, hbytes, List.singleton_append, List.map_cons, List.foldl_cons, ih hcs,
        digitValue, hvalue, Nat.mul_comm]
      rfl

/-- The digits of a number have that number as their value. -/
theorem digitsValue_toDigits (n : Nat) :
    digitsValue ((encodeChars (Nat.toDigits 10 n)).map digitValue) = n := by
  have hdigits : ∀ c ∈ Nat.toDigits 10 n, c.isDigit = true :=
    fun _ h => Nat.isDigit_of_mem_toDigits (by decide) (by decide) h
  rw [digitsValue, foldl_digitValue hdigits, Nat.ofDigitChars_toDigits (by decide) (by decide)]

/-- Only the digits of zero begin with a zero. -/
theorem exists_toDigits_eq_cons {n : Nat} (h : n ≠ 0) :
    ∃ c cs, Nat.toDigits 10 n = c :: cs ∧ c ≠ '0' := by
  induction n using Nat.strongRecOn with
  | ind n ih =>
      have hsmall : ∀ m < 10, m ≠ 0 → Nat.digitChar m ≠ '0' := by decide
      by_cases hn : n < 10
      · exact ⟨Nat.digitChar n, [], Nat.toDigits_of_lt_base hn, hsmall n hn h⟩
      · obtain ⟨c, cs, hcs, hc⟩ := ih (n / 10) (by omega) (by omega)
        exact ⟨c, cs ++ [(n % 10).digitChar],
          by rw [Nat.toDigits_of_base_le (by decide) (by omega), hcs]; rfl, hc⟩

/-- Digits are read up to the first byte that is none. -/
theorem takeWhile_isDigit_append {ds r : Bytes} (hds : ∀ b ∈ ds, isDigit b = true)
    (hr : NoDigit r) :
    (ds ++ r).takeWhile isDigit = ds ∧ (ds ++ r).dropWhile isDigit = r := by
  rw [List.takeWhile_append_of_pos hds, List.dropWhile_append_of_pos hds]
  cases r with
  | nil => exact ⟨List.append_nil ds, rfl⟩
  | cons b r =>
      have hb : isDigit b = false := hr b rfl
      simp only [List.takeWhile_cons, List.dropWhile_cons, hb, Bool.false_eq_true, if_false,
        List.append_nil, and_self]

/-- Digits with no zero in front of others are read as the whole number that they
spell. -/
theorem readNumber_digits {cs : List Char} (hne : cs ≠ []) (hdigits : ∀ c ∈ cs, c.isDigit = true)
    (hzero : cs.head? = some '0' → cs = ['0']) {r : Bytes} (hr : EndsNumber r) (negative : Bool) :
    readNumber negative (encodeChars cs ++ r) =
      finishWhole negative ((encodeChars cs).map digitValue) r := by
  obtain ⟨htake, hdrop⟩ :=
    takeWhile_isDigit_append (isDigit_of_mem_encodeChars hdigits) hr.noDigit
  obtain ⟨c, cs, rfl⟩ := List.exists_cons_of_ne_nil hne
  by_cases hc : c = '0'
  · subst hc
    rw [hzero rfl]
    have hnext : r.head?.any isDigit = false := by
      cases r with
      | nil => rfl
      | cons b r => exact (hr b rfl).1
    have hzero : isDigit '0'.toUInt8 = true := by decide
    show readNumber negative ('0'.toUInt8 :: r) = _
    simp only [readNumber, hzero, Bool.not_true, Bool.false_eq_true, if_false, if_true, hnext]
    exact readFraction_of_endsNumber hr negative [0]
  · obtain ⟨hbytes, hvalue⟩ := encodeChar_digit (hdigits c List.mem_cons_self)
    rw [encodeChars_cons, hbytes, List.singleton_append, List.cons_append] at htake hdrop ⊢
    have hdigit : isDigit (UInt8.ofNat c.toNat) = true :=
      isDigit_of_mem_encodeChars hdigits _
        (by rw [encodeChars_cons, hbytes]; exact List.mem_cons_self)
    have hnonzero : UInt8.ofNat c.toNat ≠ '0'.toUInt8 := by
      intro h
      have h' := congrArg UInt8.toNat h
      rw [hvalue] at h'
      exact hc (Char.toNat_inj.mp h')
    simp only [readNumber, hdigit, Bool.not_true, Bool.false_eq_true, if_false, if_neg hnonzero,
      htake, hdrop]
    exact readFraction_of_endsNumber hr negative _

/-- The digits of a magnitude are, with the sign that stood in front, the whole number
that they spell. -/
theorem finishWhole_natAbs {i : Int} (fits : Fits64 i) (r : Bytes) :
    finishWhole (decide (i < 0)) ((encodeChars (Nat.toDigits 10 i.natAbs)).map digitValue) r =
      .ok (.whole i fits, r) := by
  have hsign : (if decide (i < 0) = true then -(i.natAbs : Int) else i.natAbs) = i := by
    simp only [decide_eq_true_eq]
    split <;> omega
  have hminus : ¬ (decide (i < 0) = true ∧ i.natAbs = 0) := by
    simp only [decide_eq_true_eq]
    omega
  rw [finishWhole]
  simp only [digitsValue_toDigits, if_neg hminus, hsign, Number.ofInt?, dif_pos fits]

end AgentHooks.Json
