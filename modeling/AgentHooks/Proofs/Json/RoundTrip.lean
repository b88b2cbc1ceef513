/-
Reading undoes writing.

A value whose objects are in key order is read back from its text if no more
containers are open in it than may be and each of its floats is read back
(`readsBack_of_floatsReadBack`); without floats only the depth counts
(`parseText_text`), and a deeper value is refused for it (`refuses_of_lt_depth`).
These are inductions on the value, with the depth that is left as what changes on
the way down: scalars are read whatever is left, and the lemmas on containers
carry the hypotheses for the parts.  A float that is read back from its text by
itself is read back within a value because the reader of numbers looks at nothing
but the literal (`reads_number`).
-/
import AgentHooks.Proofs.Json.Containers
import AgentHooks.Proofs.Json.Literals
import AgentHooks.Proofs.Json.Produced
import AgentHooks.Proofs.Text.Numerals

namespace AgentHooks.Json

open Utf8
open Text (Numeral Sign)

/-! ## Scalars -/

theorem isSpace_of_isDigit {b : UInt8} (h : isDigit b = true) : isSpace b = false := by
  have hrange : '0'.toUInt8.toNat ≤ b.toNat ∧ b.toNat ≤ '9'.toUInt8.toNat := by
    simpa only [isDigit, Bool.and_eq_true, decide_eq_true_eq, UInt8.le_iff_toNat_le] using h
  exact isSpace_of_lt (Nat.lt_of_lt_of_le (by decide) hrange.1)

theorem readValueWith_digit (nested : NestedReader) {b : UInt8} (h : isDigit b = true)
    (r : Bytes) :
    readValueWith nested (b :: r) =
      (readNumber false (b :: r)).map fun (n, rest) => (.number n, rest) := by
  have hne (x : UInt8) (hx : isDigit x = false) : b ≠ x := by
    rintro rfl
    rw [h] at hx
    cases hx
  rw [readValueWith, skipSpace_cons (isSpace_of_isDigit h)]
  simp only [if_neg (hne 'n'.toUInt8 (by decide)), if_neg (hne 't'.toUInt8 (by decide)),
    if_neg (hne 'f'.toUInt8 (by decide)), if_neg (hne '-'.toUInt8 (by decide)), h, if_true]

section Scalars

variable (nested : NestedReader)

theorem reads_null : Reads (readValueWith nested) .null := fun _ _ => rfl

theorem reads_bool (b : Bool) : Reads (readValueWith nested) (.bool b) := by
  intro r _
  cases b <;> rfl

theorem reads_string (s : String) : Reads (readValueWith nested) (.string s) := by
  intro r _
  have hbytes : (string s).bytes ++ r =
      '"'.toUInt8 :: (encodeChars (s.toList.flatMap writeChar) ++ '"'.toUInt8 :: r) := by
    simp only [bytes, write, writeString, List.cons_append, encodeChars_cons, encodeChars_append,
      List.append_assoc]
    rfl
  rw [hbytes]
  show (readString _).map _ = _
  rw [readString_writeString]
  rfl

/-- A literal is read as its digits say, whatever follows that cannot belong to it. -/
theorem readValueWith_literal {n : Numeral} (hn : n.IsLiteral) {r : Bytes} (hr : EndsNumber r) :
    readValueWith nested (encodeChars n.chars ++ r) =
      (finishWhole n.sign.isMinus ((encodeChars n.digits).map digitValue) r).map
        fun (x, rest) => (.number x, rest) := by
  have hread (negative : Bool) := readNumber_digits n.ne_nil n.isDigit hn.2 hr negative
  cases hsign : n.sign with
  | plus => exact absurd hsign hn.1
  | minus =>
      rw [Numeral.chars, hsign]
      show (readNumber true (encodeChars n.digits ++ r)).map _ = _
      rw [hread]
      rfl
  | absent =>
      rw [Numeral.chars, hsign]
      show readValueWith nested (encodeChars n.digits ++ r) = _
      obtain ⟨c, cs, hcs⟩ := List.exists_cons_of_ne_nil n.ne_nil
      have hbytes := (encodeChar_digit (n.isDigit c (hcs ▸ List.mem_cons_self))).1
      have hb : encodeChars n.digits = UInt8.ofNat c.toNat :: encodeChars cs := by
        rw [hcs, encodeChars_cons, hbytes]
        rfl
      have hdigit := isDigit_of_mem_encodeChars n.isDigit _ (hb ▸ List.mem_cons_self)
      have hread := hread false
      rw [hb, List.cons_append] at hread ⊢
      rw [readValueWith_digit nested hdigit, hread]
      rfl

theorem writeInt_eq (i : Int) : writeInt i = (Numeral.ofInt i).chars := by
  unfold writeInt Numeral.chars Numeral.ofInt
  split <;> rfl

theorem isLiteral_ofInt (i : Int) : (Numeral.ofInt i).IsLiteral := by
  constructor
  · show (if i < 0 then Sign.minus else .absent) ≠ .plus
    split <;> nofun
  · intro hhead
    show Nat.toDigits 10 i.natAbs = ['0']
    by_cases hzero : i.natAbs = 0
    · rw [hzero]
      rfl
    · obtain ⟨c, cs, hcs, hc⟩ := exists_toDigits_eq_cons hzero
      rw [show (Numeral.ofInt i).digits = c :: cs from hcs] at hhead
      exact absurd (Option.some.inj hhead) hc

theorem reads_whole {i : Int} (fits : Fits64 i) :
    Reads (readValueWith nested) (.number (.whole i fits)) := by
  intro r hr
  have hsign : (Numeral.ofInt i).sign.isMinus = decide (i < 0) := by
    show (if i < 0 then Sign.minus else .absent).isMinus = _
    by_cases h : i < 0
    · rw [if_pos h, decide_eq_true h]
      rfl
    · rw [if_neg h, decide_eq_false h]
      rfl
  have hbytes : (number (.whole i fits)).bytes = encodeChars (Numeral.ofInt i).chars := by
    rw [bytes, write, writeNumber, writeInt_eq]
  rw [hbytes, readValueWith_literal nested (isLiteral_ofInt i) hr, hsign]
  show (finishWhole _ ((encodeChars (Nat.toDigits 10 i.natAbs)).map digitValue) r).map _ = _
  rw [finishWhole_natAbs fits]
  rfl

end Scalars

theorem exists_readValue_eq (d : Nat) : ∃ nested, readValue d = readValueWith nested := by
  cases d with
  | zero => exact ⟨_, rfl⟩
  | succ d => exact ⟨_, rfl⟩

/-! ## Numbers that are read back -/

/-- The text of a value is read as that value. -/
def ReadsBack (v : Json) : Prop := parseText v.text = .ok v

theorem readsBack_iff {v : Json} : v.ReadsBack ↔ (parseText v.text).toOption = some v := by
  rw [ReadsBack]
  cases parseText v.text with
  | error fault => exact ⟨nofun, nofun⟩
  | ok w => exact ⟨congrArg Except.toOption, fun h => congrArg Except.ok (Option.some.inj h)⟩

instance (v : Json) : Decidable v.ReadsBack := decidable_of_iff' _ readsBack_iff

theorem parseText_text_eq (v : Json) : parseText v.text = parse v.bytes := by
  rw [parseText, text, encode_ofList, bytes]

/-- The bytes of numbers. -/
def IsNumericByte (b : UInt8) : Prop :=
  isDigit b = true ∨ b ∈ ['-'.toUInt8, '.'.toUInt8, 'e'.toUInt8, '+'.toUInt8]

theorem isNumericByte_of_mem_bytes (n : Number) : ∀ b ∈ (number n).bytes, IsNumericByte b := by
  intro b hb
  obtain ⟨c, hc, hb⟩ := List.mem_flatMap.mp hb
  rcases isNumeric_of_mem_writeNumber n c hc with hdigit | hother
  · have hone : ∀ x ∈ [c], x.isDigit = true := List.forall_mem_cons.mpr ⟨hdigit, nofun⟩
    exact .inl (isDigit_of_mem_encodeChars hone b
      (List.mem_flatMap.mpr ⟨c, List.mem_singleton_self c, hb⟩))
  · have hbytes : ∀ c ∈ ['-', '.', 'e', '+'], encodeChar c = [c.toUInt8] ∧
        c.toUInt8 ∈ ['-'.toUInt8, '.'.toUInt8, 'e'.toUInt8, '+'.toUInt8] :=
      forall_mem_of_all (by decide)
    obtain ⟨hone, hmem⟩ := hbytes c hother
    rw [hone, List.mem_singleton] at hb
    exact .inr (hb ▸ hmem)

theorem isSpace_of_isNumericByte {b : UInt8} (h : IsNumericByte b) : isSpace b = false := by
  rcases h with h | h
  · exact isSpace_of_isDigit h
  · have hother : ∀ x ∈ ['-'.toUInt8, '.'.toUInt8, 'e'.toUInt8, '+'.toUInt8],
        isSpace x = false := by decide +kernel
    exact hother b h

/-- What begins as a number does not depend on how containers are read. -/
theorem readValueWith_numeric {b : UInt8} (hb : IsNumericByte b) (nested nested' : NestedReader)
    (r : Bytes) : readValueWith nested (b :: r) = readValueWith nested' (b :: r) := by
  rcases hb with hdigit | hother
  · rw [readValueWith_digit nested hdigit, readValueWith_digit nested' hdigit]
  · simp only [List.mem_cons, List.not_mem_nil, or_false] at hother
    rcases hother with rfl | rfl | rfl | rfl <;> rfl

theorem isLocal_map_readNumber (negative : Bool) :
    IsLocal fun s => (readNumber negative s).map fun (n, rest) => (number n, rest) := by
  intro s v rest h
  obtain ⟨⟨n, left⟩, hread, h⟩ := map_eq_ok_iff.mp h
  cases h
  obtain ⟨literal, hs, hreads⟩ := isLocal_readNumber negative _ _ _ hread
  refine ⟨literal, hs, fun r hr => ?_⟩
  simp only [hreads r hr]
  rfl

theorem readNumber_ne_ok {r : Bytes} (hr : NoDigit r) (negative : Bool) (x : Number × Bytes) :
    readNumber negative r ≠ .ok x := by
  intro h
  cases r with
  | nil => cases h
  | cons b r =>
      rw [readNumber, hr b rfl] at h
      cases h

/-- A value that begins as a number is a literal. -/
theorem exists_literal_of_readValueWith {nested : NestedReader} {b : UInt8} (hb : IsNumericByte b)
    {s rest : Bytes} {v : Json} (h : readValueWith nested (b :: s) = .ok (v, rest)) :
    ∃ literal, b :: s = literal ++ rest ∧ ReadsLiteral (readValueWith nested) literal v := by
  rcases hb with hdigit | hother
  · refine exists_literal_of_handover (isLocal_map_readNumber false)
      (readValueWith_digit nested hdigit) (fun r hr hok => ?_) h
    obtain ⟨x, hread, -⟩ := map_eq_ok_iff.mp hok
    exact absurd hread (readNumber_ne_ok hr.noDigit false x)
  · simp only [List.mem_cons, List.not_mem_nil, or_false] at hother
    rcases hother with rfl | rfl | rfl | rfl
    · exact exists_literal_of_skip (isLocal_map_readNumber true) (fun _ => rfl) h
    all_goals cases h

/-- A number whose text is read as that number by itself is read so wherever a
number may stand. -/
theorem reads_number {n : Number} (h : (number n).ReadsBack) (nested : NestedReader) :
    Reads (readValueWith nested) (number n) := by
  have hnumeric := isNumericByte_of_mem_bytes n
  rw [ReadsBack, parseText_text_eq] at h
  obtain ⟨rest, hread, hend⟩ := exists_readValue_of_parse h
  obtain ⟨nested', hnested'⟩ := exists_readValue_eq depthLimit
  obtain ⟨b, bs, hbytes, -, -⟩ := exists_bytes_eq_cons (number n)
  rw [hbytes] at hnumeric
  rw [hnested', hbytes, readValueWith_numeric (hnumeric b List.mem_cons_self) nested' nested]
    at hread
  obtain ⟨literal, hliteral, hreads⟩ :=
    exists_literal_of_readValueWith (hnumeric b List.mem_cons_self) hread
  -- Blanks could be left behind the literal, but a number has none.
  cases rest with
  | nil =>
      rw [List.append_nil, ← hbytes] at hliteral
      rw [Reads, hliteral]
      exact hreads
  | cons x rest =>
      have hx : x ∈ b :: bs := hliteral ▸ List.mem_append_right _ List.mem_cons_self
      rw [skipSpace_cons (isSpace_of_isNumericByte (hnumeric x hx))] at hend
      cases hend

/-- The text of every float in the value is read as that float.  The reader of
floats rounds more than once, so this does not hold of all floats. -/
def FloatsReadBack (v : Json) : Prop := v.every (fun w => !w.isFloat || w.ReadsBack) = true

instance (v : Json) : Decidable v.FloatsReadBack := inferInstanceAs (Decidable (_ = _))

theorem floatsReadBack_array {vs : List Json} :
    (array vs).FloatsReadBack ↔ ∀ v ∈ vs, v.FloatsReadBack := by
  simp only [FloatsReadBack, every, isFloat, Bool.not_false, Bool.true_or, Bool.true_and,
    everyItem_iff]

theorem floatsReadBack_object {ms : List (String × Json)} :
    (object ms).FloatsReadBack ↔ ∀ m ∈ ms, m.2.FloatsReadBack := by
  simp only [FloatsReadBack, every, isFloat, Bool.not_false, Bool.true_or, Bool.true_and,
    everyMember_iff]

theorem floatsReadBack_float {x : Binary64} :
    (number (.float x)).FloatsReadBack ↔ (number (.float x)).ReadsBack := by
  simp only [FloatsReadBack, every, isFloat, Bool.not_true, Bool.false_or, decide_eq_true_eq]

theorem FloatFree.floatsReadBack {v : Json} (h : v.FloatFree) : v.FloatsReadBack := by
  induction v with
  | null | bool _ | string _ => rfl
  | number n =>
      obtain ⟨i, fits, rfl⟩ := exists_whole_of_floatFree h
      rfl
  | array vs ih =>
      exact floatsReadBack_array.mpr fun v hv => ih v hv (floatFree_array.mp h v hv)
  | object ms ih =>
      exact floatsReadBack_object.mpr fun m hm => ih m hm (floatFree_object.mp h m hm)

/-! ## Values -/

/-- A value is read back when its floats are and as many containers may open as
it is deep. -/
theorem reads_of_floatsReadBack {v : Json} (hsorted : v.Sorted) (hfloats : v.FloatsReadBack)
    {d : Nat} (hd : v.depth ≤ d) : Reads (readValue d) v := by
  induction v generalizing d with
  | null =>
      obtain ⟨nested, hnested⟩ := exists_readValue_eq d
      exact hnested ▸ reads_null nested
  | bool b =>
      obtain ⟨nested, hnested⟩ := exists_readValue_eq d
      exact hnested ▸ reads_bool nested b
  | number n =>
      obtain ⟨nested, hnested⟩ := exists_readValue_eq d
      cases n with
      | whole i fits => exact hnested ▸ reads_whole nested fits
      | float x => exact hnested ▸ reads_number (floatsReadBack_float.mp hfloats) nested
  | string s =>
      obtain ⟨nested, hnested⟩ := exists_readValue_eq d
      exact hnested ▸ reads_string nested s
  | array vs ih =>
      obtain ⟨d, rfl⟩ := Nat.exists_eq_succ_of_ne_zero (Nat.ne_zero_of_lt hd)
      have hsorted := sorted_array.mp hsorted
      have hfloats := floatsReadBack_array.mp hfloats
      have hd := depth_array_le.mp hd
      exact reads_array fun v hv => ih v hv (hsorted v hv) (hfloats v hv) (hd v hv)
  | object ms ih =>
      obtain ⟨d, rfl⟩ := Nat.exists_eq_succ_of_ne_zero (Nat.ne_zero_of_lt hd)
      obtain ⟨hordered, hsorted⟩ := sorted_object.mp hsorted
      have hfloats := floatsReadBack_object.mp hfloats
      have hd := depth_object_le.mp hd
      intro r _
      refine (readValueWith_object
        (fun m hm => ih m hm (hsorted m hm) (hfloats m hm) (hd m hm)) r).trans ?_
      rw [Record.toJson, Record.ofMembers_members hordered]

theorem reads_of_depth_le {v : Json} (hsorted : v.Sorted) (hfloat : v.FloatFree) {d : Nat}
    (hd : v.depth ≤ d) : Reads (readValue d) v :=
  reads_of_floatsReadBack hsorted hfloat.floatsReadBack hd

/-- A value that is deeper than containers may open is refused. -/
theorem refuses_of_lt_depth {v : Json} (hsorted : v.Sorted) (hfloat : v.FloatFree) {d : Nat}
    (hd : d < v.depth) : Refuses (readValue d) v := by
  induction v generalizing d with
  | null | bool _ | number _ | string _ => exact absurd hd (Nat.not_lt_zero d)
  | array vs ih =>
      cases d with
      | zero => cases vs <;> exact fun r _ => ⟨_, rfl⟩
      | succ d =>
          have hsorted := sorted_array.mp hsorted
          have hfloat := floatFree_array.mp hfloat
          obtain ⟨v, hv, hdeep⟩ := lt_depth_array.mp hd
          refine refuses_array (fun w hw => ?_) ⟨v, hv, ih v hv (hsorted v hv) (hfloat v hv) hdeep⟩
          rcases Nat.lt_or_ge d w.depth with h | h
          · exact .inr (ih w hw (hsorted w hw) (hfloat w hw) h)
          · exact .inl (reads_of_depth_le (hsorted w hw) (hfloat w hw) h)
  | object ms ih =>
      cases d with
      | zero => cases ms <;> exact fun r _ => ⟨_, rfl⟩
      | succ d =>
          have hsorted := (sorted_object.mp hsorted).2
          have hfloat := floatFree_object.mp hfloat
          obtain ⟨m, hm, hdeep⟩ := lt_depth_object.mp hd
          refine refuses_object (fun n hn => ?_) ⟨m, hm, ih m hm (hsorted m hm) (hfloat m hm) hdeep⟩
          rcases Nat.lt_or_ge d n.2.depth with h | h
          · exact .inr (ih n hn (hsorted n hn) (hfloat n hn) h)
          · exact .inl (reads_of_depth_le (hsorted n hn) (hfloat n hn) h)

theorem reads_or_refuses {v : Json} (hsorted : v.Sorted) (hfloat : v.FloatFree) (d : Nat) :
    Reads (readValue d) v ∨ Refuses (readValue d) v :=
  (Nat.lt_or_ge d v.depth).symm.imp (reads_of_depth_le hsorted hfloat)
    (refuses_of_lt_depth hsorted hfloat)

/-! ## Whole texts -/

/-- What the text of a value is read as, when it is read to its end. -/
theorem parseText_text_of_read {v w : Json}
    (h : readValue depthLimit (v.bytes ++ []) = .ok (w, [])) : parseText v.text = .ok w := by
  rw [List.append_nil] at h
  rw [parseText_text_eq, parse, readWhole, h]
  rfl

/-- A value whose floats are read back is read back itself. -/
theorem readsBack_of_floatsReadBack {v : Json} (hsorted : v.Sorted) (hfloats : v.FloatsReadBack)
    (hd : v.depth ≤ depthLimit) : v.ReadsBack :=
  parseText_text_of_read (reads_of_floatsReadBack hsorted hfloats hd [] endsNumber_nil)

/-- A text is the value that it was written for. -/
theorem parseText_text {v : Json} (hsorted : v.Sorted) (hfloat : v.FloatFree)
    (hd : v.depth ≤ depthLimit) : parseText v.text = .ok v :=
  readsBack_of_floatsReadBack hsorted hfloat.floatsReadBack hd

theorem parseText_text_of_refuses {v : Json} (h : Refuses (readValue depthLimit) v) :
    ∃ fault, parseText v.text = .error fault ∧ fault.cause = .nestedTooDeep := by
  obtain ⟨left, hleft⟩ := h [] endsNumber_nil
  rw [List.append_nil] at hleft
  rw [parseText_text_eq, parse, readWhole, hleft]
  exact ⟨_, rfl, rfl⟩

end AgentHooks.Json
