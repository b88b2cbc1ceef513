/-
Bytes that hold a text.

The machine that scans bytes keeps the ones of a character that is not complete yet.
`Begun` says which bytes it can keep, and `moves_step` what one byte does to them: it
goes on, or it completes the character that has exactly these bytes, or it leaves a
fault.  So bytes that can be decoded are those of their text and no others
(`decode_eq_ok_iff`).
-/
import AgentHooks.Proofs.Text.Utf8

namespace AgentHooks.Utf8

/-! ## The bytes of a character that was put together -/

theorem toNat_ofNat_of_isValidChar {n : Nat} (h : n.isValidChar) : (Char.ofNat n).toNat = n := by
  rw [Char.ofNat, dif_pos h]
  rfl

theorem ofNat_eq_of_toNat_eq {b : UInt8} {n : Nat} (h : n = b.toNat) : UInt8.ofNat n = b := by
  rw [h, UInt8.ofNat_toNat]

section Join

variable {a b c d : UInt8}

theorem encodeChar_ofNat_toNat (ha : a.toNat < 0x80) : encodeChar (Char.ofNat a.toNat) = [a] := by
  have hvalue := toNat_ofNat_of_isValidChar (n := a.toNat) (.inl (by omega))
  rw [encodeChar_ascii (by omega), hvalue, UInt8.ofNat_toNat]

theorem encodeChar_join2 (ha : 0xC2 ≤ a.toNat ∧ a.toNat ≤ 0xDF) (hb : isTail b = true) :
    encodeChar (join2 a b) = [a, b] := by
  have hb := isTail_iff.mp hb
  have hvalue := toNat_ofNat_of_isValidChar
    (n := a.toNat % 0x20 * 0x40 + b.toNat % 0x40) (.inl (by omega))
  unfold encodeChar join2
  rw [hvalue, if_neg (by omega), if_pos (by omega)]
  congr 1
  · exact ofNat_eq_of_toNat_eq (by omega)
  · exact congrArg (· :: []) (ofNat_eq_of_toNat_eq (by omega))

theorem encodeChar_join3 (ha : 0xE0 ≤ a.toNat ∧ a.toNat ≤ 0xEF) (hb : isSecondOfThree a b = true)
    (hc : isTail c = true) : encodeChar (join3 a b c) = [a, b, c] := by
  have hb := isSecondOfThree_iff.mp hb
  have hc := isTail_iff.mp hc
  -- The second byte keeps the code point above 0x7FF and out of the surrogates.
  obtain ⟨hlow, hvalid⟩ : 0x800 ≤ a.toNat % 0x10 * 0x1000 + b.toNat % 0x40 * 0x40 + c.toNat % 0x40 ∧
      Nat.isValidChar (a.toNat % 0x10 * 0x1000 + b.toNat % 0x40 * 0x40 + c.toNat % 0x40) := by
    unfold Nat.isValidChar
    split at hb
    · omega
    · split at hb <;> omega
  have hvalue := toNat_ofNat_of_isValidChar hvalid
  have hb : 0x80 ≤ b.toNat ∧ b.toNat ≤ 0xBF := by
    split at hb
    · omega
    · split at hb <;> omega
  unfold encodeChar join3
  rw [hvalue, if_neg (by omega), if_neg (by omega), if_pos (by omega)]
  congr 1
  · exact ofNat_eq_of_toNat_eq (by omega)
  congr 1
  · exact ofNat_eq_of_toNat_eq (by omega)
  · exact congrArg (· :: []) (ofNat_eq_of_toNat_eq (by omega))

theorem encodeChar_join4 (ha : 0xF0 ≤ a.toNat ∧ a.toNat ≤ 0xF4) (hb : isSecondOfFour a b = true)
    (hc : isTail c = true) (hd : isTail d = true) :
    encodeChar (join4 a b c d) = [a, b, c, d] := by
  have hb := isSecondOfFour_iff.mp hb
  have hc := isTail_iff.mp hc
  have hd := isTail_iff.mp hd
  have hsecond : 0x80 ≤ b.toNat ∧ b.toNat ≤ 0xBF := by
    split at hb
    · omega
    · split at hb <;> omega
  -- The second byte keeps the code point above 0xFFFF and below 0x110000.
  obtain ⟨hlow, hhigh⟩ : 0x10000 ≤ a.toNat % 0x08 * 0x40000 + b.toNat % 0x40 * 0x1000 +
      c.toNat % 0x40 * 0x40 + d.toNat % 0x40 ∧ a.toNat % 0x08 * 0x40000 +
      b.toNat % 0x40 * 0x1000 + c.toNat % 0x40 * 0x40 + d.toNat % 0x40 < 0x110000 := by
    split at hb
    · omega
    · split at hb <;> omega
  have hvalue := toNat_ofNat_of_isValidChar (.inr ⟨by omega, hhigh⟩)
  unfold encodeChar join4
  rw [hvalue, if_neg (by omega), if_neg (by omega), if_neg (by omega)]
  congr 1
  · exact ofNat_eq_of_toNat_eq (by omega)
  congr 1
  · exact ofNat_eq_of_toNat_eq (by omega)
  congr 1
  · exact ofNat_eq_of_toNat_eq (by omega)
  · exact congrArg (· :: []) (ofNat_eq_of_toNat_eq (by omega))

end Join

/-! ## What a byte does to the machine -/

def Pending.bytes : Pending → Bytes
  | .none => []
  | .one a => [a]
  | .two a b => [a, b]
  | .three a b c => [a, b, c]

/-- Pending bytes with which a character can begin. -/
inductive Begun : Pending → Prop
  | none : Begun .none
  | one {a : UInt8} : 0xC2 ≤ a.toNat ∧ a.toNat ≤ 0xF4 → Begun (.one a)
  | twoOfThree {a b : UInt8} : 0xE0 ≤ a.toNat ∧ a.toNat ≤ 0xEF → isSecondOfThree a b = true →
      Begun (.two a b)
  | twoOfFour {a b : UInt8} : 0xF0 ≤ a.toNat ∧ a.toNat ≤ 0xF4 → isSecondOfFour a b = true →
      Begun (.two a b)
  | three {a b c : UInt8} : 0xF0 ≤ a.toNat ∧ a.toNat ≤ 0xF4 → isSecondOfFour a b = true →
      isTail c = true → Begun (.three a b c)

/-- What can come of a byte after pending ones. -/
inductive Moves (p : Pending) (b : UInt8) : List Piece × Pending → Prop
  | on {q : Pending} : Begun q → q.bytes = p.bytes ++ [b] → Moves p b ([], q)
  | complete {c : Char} : encodeChar c = p.bytes ++ [b] → Moves p b ([.char c], .none)
  | fault {n : Nat} {pieces : List Piece} {q : Pending} : Moves p b (.broken n :: pieces, q)

theorem moves_start (b : UInt8) : Moves .none b (start b) := by
  unfold start
  split
  · rename_i hb
    exact .complete (encodeChar_ofNat_toNat (UInt8.lt_iff_toNat_lt.mp hb))
  · split
    · rename_i hb
      exact .on (.one ⟨UInt8.le_iff_toNat_le.mp hb.1, UInt8.le_iff_toNat_le.mp hb.2⟩) rfl
    · exact .fault

theorem moves_of_accepted {p : Pending} {b : UInt8} {accepted : Bool} {n : Nat}
    {r : List Piece × Pending} (h : accepted = true → Moves p b r) :
    Moves p b (if accepted = true then r else refuse n b) := by
  split
  · rename_i haccepted
    exact h haccepted
  · exact .fault

/-- The cases are those of what can be pending; how many bytes the first one asks for
decides what the next one has to be. -/
theorem moves_step {p : Pending} (hp : Begun p) (b : UInt8) : Moves p b (step p b) := by
  cases hp with
  | none => exact moves_start b
  | @one a ha =>
      by_cases h₂ : a ≤ 0xDF
      · simp only [step, if_pos h₂]
        exact moves_of_accepted fun hb =>
          .complete (encodeChar_join2 ⟨ha.1, UInt8.le_iff_toNat_le.mp h₂⟩ hb)
      have hthree : 0xE0 ≤ a.toNat := UInt8.lt_iff_toNat_lt.mp (UInt8.not_le.mp h₂)
      by_cases h₃ : a ≤ 0xEF
      · simp only [step, if_neg h₂, if_pos h₃]
        exact moves_of_accepted fun hb =>
          .on (.twoOfThree ⟨hthree, UInt8.le_iff_toNat_le.mp h₃⟩ hb) rfl
      have hfour : 0xF0 ≤ a.toNat := UInt8.lt_iff_toNat_lt.mp (UInt8.not_le.mp h₃)
      simp only [step, if_neg h₂, if_neg h₃]
      exact moves_of_accepted fun hb => .on (.twoOfFour ⟨hfour, ha.2⟩ hb) rfl
  | @twoOfThree a a' ha ha' =>
      have h₃ : a ≤ 0xEF := UInt8.le_iff_toNat_le.mpr ha.2
      simp only [step, if_pos h₃]
      exact moves_of_accepted fun hb => .complete (encodeChar_join3 ha ha' hb)
  | @twoOfFour a a' ha ha' =>
      have h₃ : ¬ a ≤ 0xEF := mt UInt8.le_iff_toNat_le.mp (Nat.not_le.mpr ha.1)
      simp only [step, if_neg h₃]
      exact moves_of_accepted fun hb => .on (.three ha ha' hb) rfl
  | three ha ha' ha'' =>
      exact moves_of_accepted fun hb => .complete (encodeChar_join4 ha ha' ha'' hb)

/-! ## Bytes that can be decoded -/

/-- Bytes without a fault are those of their characters.  The induction is on the bytes,
with those that are pending before them. -/
theorem encodeChars_of_collect {p : Pending} (hp : Begun p) {bs : Bytes} {i : Nat}
    {cs : List Char} (h : collect i (scanFrom p bs) = .ok cs) : p.bytes ++ bs = encodeChars cs := by
  induction bs generalizing p i cs with
  | nil =>
      cases hp with
      | none => cases h; rfl
      | one _ | twoOfThree _ _ | twoOfFour _ _ | three _ _ _ => cases h
  | cons b bs ih =>
      have hscan : scanFrom p (b :: bs) = (step p b).1 ++ scanFrom (step p b).2 bs := by
        cases p <;> rfl
      have hmoves := moves_step hp b
      rw [hscan] at h
      rw [List.append_cons]
      generalize step p b = next at h hmoves
      cases hmoves with
      | on hq hbytes => rw [← hbytes, ih hq h]
      | complete hc =>
          rw [List.singleton_append, collect] at h
          cases hrest : collect (i + (encodeChar _).length) (scanFrom .none bs) with
          | error fault => rw [hrest] at h; cases h
          | ok ds =>
              rw [hrest] at h
              cases h
              rw [encodeChars_cons, hc, ← ih .none hrest]
              rfl
      | fault => cases h

theorem decode_eq_ok_iff {bs : Bytes} {cs : List Char} :
    decode bs = .ok cs ↔ bs = encodeChars cs := by
  constructor
  · exact encodeChars_of_collect .none
  · rintro rfl
    exact decode_encodeChars cs

theorem decodeText?_eq_some_iff {bs : Bytes} {text : String} :
    decodeText? bs = some text ↔ bs = encode text := by
  rw [decodeText?, Option.map_eq_some_iff, encode]
  constructor
  · rintro ⟨cs, hcs, rfl⟩
    cases hdecode : decode bs with
    | error fault =>
        rw [hdecode] at hcs
        cases hcs
    | ok ds =>
        rw [hdecode] at hcs
        cases hcs
        rw [String.toList_ofList]
        exact decode_eq_ok_iff.mp hdecode
  · intro h
    refine ⟨text.toList, ?_, String.ofList_toList⟩
    rw [decode_eq_ok_iff.mpr h]
    rfl

theorem decodeText?_eq_none_iff {bs : Bytes} :
    decodeText? bs = none ↔ ∀ text, bs ≠ encode text := by
  rw [Option.eq_none_iff_forall_ne_some]
  exact forall_congr' fun text => not_congr decodeText?_eq_some_iff

end AgentHooks.Utf8
