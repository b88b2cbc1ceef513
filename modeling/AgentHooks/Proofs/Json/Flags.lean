/-
Flags, and what they have to do with integers.

A text is a flag by a list of words and an integer by its digits.  A text that is an
integer has no letters (`map_lowerAscii_of_int64?`), so the only words that are integers
are the two digits among them, and there the readings agree (`flag?_agrees_int64?`).  For
numbers the readings part in what they take: a flag is a number that is held as a whole
one, be it too large for an integer.
-/
import AgentHooks.Proofs.Json.Integers
import AgentHooks.Proofs.Text.Casing

namespace AgentHooks

namespace Text

/-! ## Words -/

/-- The word that a text is taken for as a flag. -/
def flagWord (s : String) : String := String.ofList ((trim s.toList).map lowerAscii)

theorem flag?_eq_some_iff {s : String} {b : Bool} :
    flag? s = some b ↔ flagWord s ∈ if b then yesWords else noWords := by
  have hdisjoint : ∀ w ∈ yesWords, w ∉ noWords := by decide
  have hflag : flag? s = if flagWord s ∈ yesWords then some true
      else if flagWord s ∈ noWords then some false else none := rfl
  rw [hflag]
  by_cases hyes : flagWord s ∈ yesWords
  · have hno := hdisjoint _ hyes
    cases b <;> simp [hyes, hno]
  · by_cases hno : flagWord s ∈ noWords
    · cases b <;> simp [hyes, hno]
    · cases b <;> simp [hyes, hno]

theorem flag?_congr {s t : String} (h : flagWord s = flagWord t) : flag? s = flag? t := by
  refine Option.ext fun b => ?_
  rw [flag?_eq_some_iff, flag?_eq_some_iff, h]

/-! ## Words and numerals -/

theorem lowerAscii_of_isDigit {c : Char} (h : c.isDigit = true) : lowerAscii c = c := by
  refine lowerAscii_of_not_isCapital fun hcapital => ?_
  have hhigh : c.toNat ≤ 0x39 := (Char.isDigit_iff_toNat.mp h).2
  have hlow := hcapital.1
  omega

theorem Numeral.lowerAscii_of_mem_chars (n : Numeral) : ∀ c ∈ n.chars, lowerAscii c = c := by
  intro c hc
  rcases n.mem_chars hc with rfl | rfl | hdigit
  · rfl
  · rfl
  · exact lowerAscii_of_isDigit hdigit

theorem map_lowerAscii_of_int64? {cs : List Char} {i : Int64} (h : int64? cs = some i) :
    cs.map lowerAscii = cs := by
  obtain ⟨n, rfl⟩ := exists_numeral_of_int64? h
  exact (List.map_congr_left n.lowerAscii_of_mem_chars).trans (List.map_id _)

/-- The words that are integers say the same of both. -/
theorem int64?_of_mem_words {b : Bool} {w : String} (hw : w ∈ if b then yesWords else noWords)
    {i : Int64} (hi : int64? w.toList = some i) : b = true ↔ i ≠ 0 := by
  have hyes : ∀ w ∈ yesWords, (int64? w.toList).all (· ≠ 0) = true := by decide +kernel
  have hno : ∀ w ∈ noWords, (int64? w.toList).all (· = 0) = true := by decide +kernel
  have hall {p : Int64 → Bool} (h : (int64? w.toList).all p = true) : p i = true := by
    rwa [hi] at h
  cases b with
  | true => exact iff_of_true rfl (of_decide_eq_true (hall (hyes w hw)))
  | false =>
      refine iff_of_false Bool.false_ne_true (not_not_intro ?_)
      exact of_decide_eq_true (hall (hno w hw))

theorem flag?_agrees_int64? {s : String} {b : Bool} {i : Int64} (hb : flag? s = some b)
    (hi : int64? (trim s.toList) = some i) : b = true ↔ i ≠ 0 := by
  rw [flag?_eq_some_iff, flagWord, map_lowerAscii_of_int64? hi] at hb
  refine int64?_of_mem_words hb ?_
  rw [String.toList_ofList]
  exact hi

/-! ## Blanks and letters that do not count -/

/-- Texts that differ at most in the case of letters of ASCII. -/
def SameButCase (s t : String) : Prop := List.Forall₂ Recased s.toList t.toList

theorem map_lowerAscii_of_recased {cs ds : List Char} (h : List.Forall₂ Recased cs ds) :
    ds.map lowerAscii = cs.map lowerAscii := by
  induction h with
  | nil => rfl
  | cons hcd _ ih => rw [List.map_cons, List.map_cons, lowerAscii_of_recased hcd, ih]

theorem flagWord_of_sameButCase {s t : String} (h : SameButCase s t) :
    flagWord t = flagWord s := by
  rw [flagWord, flagWord, ← trim_map_lowerAscii, map_lowerAscii_of_recased h,
    trim_map_lowerAscii]

theorem trim_of_isPadded {text core : List Char} (h : IsPadded text core) :
    trim text = trim core := by
  obtain ⟨before, after, hbefore, hafter, rfl⟩ := h
  exact trim_padded hbefore hafter core

theorem flagWord_of_isPadded {s t : String} (h : IsPadded t.toList s.toList) :
    flagWord t = flagWord s := by
  rw [flagWord, flagWord, trim_of_isPadded h]

end Text

namespace Json

open Text (IsPadded SameButCase)

/-! ## Numbers -/

theorem asFlag?_whole (n : ℤ) (fits : Fits64 n) :
    (number (.whole n fits)).asFlag? = some (decide (n ≠ 0)) := by
  refine congrArg some ?_
  rw [Bool.eq_iff_iff, bne_iff_ne, decide_eq_true_eq]

theorem asFlag?_number_eq_some_iff {x : Number} {b : Bool} :
    (number x).asFlag? = some b ↔ ∃ n fits, x = .whole n fits ∧ b = decide (n ≠ 0) := by
  constructor
  · intro h
    cases x with
    | whole n fits =>
        rw [asFlag?_whole] at h
        exact ⟨n, fits, rfl, (Option.some.inj h).symm⟩
    | float y => cases h
  · rintro ⟨n, fits, rfl, rfl⟩
    exact asFlag?_whole n fits

theorem number_flag_agrees {x : Number} {b : Bool} {i : Int64}
    (hb : (number x).asFlag? = some b) (hi : (number x).asInteger? = some i) :
    b = true ↔ i ≠ 0 := by
  obtain ⟨n, fits, rfl, rfl⟩ := asFlag?_number_eq_some_iff.mp hb
  rw [asInteger?_whole, int64OfInt?_eq_some_iff] at hi
  rw [decide_eq_true_eq, ← hi, Ne, Ne, ← Int64.toInt_inj]
  exact Iff.rfl

/-! ## The two readings -/

theorem asFlag?_eq_flag? (s : String) : (string s).asFlag? = Text.flag? s := rfl

/-- The readings of a value as a flag and as an integer do not contradict each other:
where there are both, the flag says whether the integer is zero.  Numbers that are held as
whole ones have a flag, and no other number has.  Blanks around a string do not count for
either reading, and the case of its letters does not count for the flag. -/
theorem asFlag?_agrees_asInteger? :
    (∀ (v : Json) (b : Bool) (i : Int64), v.asFlag? = some b → v.asInteger? = some i →
      (b = true ↔ i ≠ 0)) ∧
    (∀ (x : Number) (b : Bool), (number x).asFlag? = some b ↔
      ∃ n fits, x = .whole n fits ∧ b = decide (n ≠ 0)) ∧
    (∀ n : ℤ, -9223372036854775808 ≤ n → n < 18446744073709551616 → ∃ fits,
      (number (.whole n fits)).asFlag? = some (decide (n ≠ 0))) ∧
    (∀ s t : String, IsPadded t.toList s.toList →
      (string t).asFlag? = (string s).asFlag? ∧
      (string t).asInteger? = (string s).asInteger?) ∧
    ∀ s t : String, SameButCase s t → (string t).asFlag? = (string s).asFlag? := by
  refine ⟨fun v b i hb hi => ?_, fun x b => asFlag?_number_eq_some_iff, fun n hlow hhigh => ?_,
    fun s t h => ⟨?_, ?_⟩, fun s t h => ?_⟩
  · cases v with
    | null => cases hb
    | bool c =>
        cases hb
        cases hi
        cases b <;> decide
    | number x => exact number_flag_agrees hb hi
    | string s =>
        rw [asFlag?_eq_flag?] at hb
        rw [asInteger?_eq_int64?] at hi
        exact Text.flag?_agrees_int64? hb hi
    | array _ => cases hb
    | object _ => cases hb
  · exact ⟨⟨hlow, hhigh⟩, asFlag?_whole n ⟨hlow, hhigh⟩⟩
  · rw [asFlag?_eq_flag?, asFlag?_eq_flag?]
    exact Text.flag?_congr (Text.flagWord_of_isPadded h)
  · rw [asInteger?_eq_int64?, asInteger?_eq_int64?, Text.trim_of_isPadded h]
  · rw [asFlag?_eq_flag?, asFlag?_eq_flag?]
    exact Text.flag?_congr (Text.flagWord_of_sameButCase h)

/-- A digit that is a word, a word with blanks around it and one in mixed letters, and
the greatest whole number that is held. -/
theorem asFlag?_agrees_asInteger?_words :
    (string "\u20031\n").asFlag? = some true ∧
    (string "\u20031\n").asInteger? = some 1 ∧ (true = true ↔ (1 : Int64) ≠ 0) ∧
    (∃ fits, (number (.whole 18446744073709551615 fits)).asFlag? =
      some (decide ((18446744073709551615 : ℤ) ≠ 0))) ∧
    (string " no\t").asFlag? = (string "no").asFlag? ∧
    (string "YeS").asFlag? = (string "yes").asFlag? := by
  have hflag : (string "\u20031\n").asFlag? = some true := by decide +kernel
  have hinteger : (string "\u20031\n").asInteger? = some 1 := by decide +kernel
  have hpadded : IsPadded " no\t".toList "no".toList :=
    ⟨[' '], ['\t'], forall_mem_of_all (by decide), forall_mem_of_all (by decide), rfl⟩
  have hcase : SameButCase "yes" "YeS" :=
    .cons (.ofSmall 'Y') (.cons (.same 'e') (.cons (.ofSmall 'S') .nil))
  exact ⟨hflag, hinteger, asFlag?_agrees_asInteger?.1 _ _ _ hflag hinteger,
    asFlag?_agrees_asInteger?.2.2.1 18446744073709551615 (by decide) (by decide),
    (asFlag?_agrees_asInteger?.2.2.2.1 _ _ hpadded).1, asFlag?_agrees_asInteger?.2.2.2.2 _ _ hcase⟩

end Json

end AgentHooks
