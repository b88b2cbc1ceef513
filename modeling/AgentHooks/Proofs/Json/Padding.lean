/-
Texts of values with blanks around them.

A file or an input may hold more than the compact text of a value: blanks before
it and after it.  They are skipped at both ends (`parse_of_isTextOf`), and they
are ASCII, so the bytes stay a text (`exists_encodeChars_eq_of_isTextOf`).
-/
import AgentHooks.Proofs.Json.RoundTrip

namespace AgentHooks.Json

open Utf8

/-- Bytes that hold the text of a value and blanks around it. -/
def IsTextOf (input : Bytes) (v : Json) : Prop :=
  ∃ before after, (∀ b ∈ before, isSpace b = true) ∧ (∀ b ∈ after, isSpace b = true) ∧
    input = before ++ encode v.text ++ after

theorem encode_text (v : Json) : encode v.text = v.bytes := by
  rw [text, encode_ofList, bytes]

/-- The compact text by itself. -/
theorem isTextOf_text (v : Json) : IsTextOf (encode v.text) v := by
  refine ⟨[], [], nofun, nofun, ?_⟩
  exact (List.append_nil _).symm

/-! ## Blanks -/

theorem mem_of_isSpace {b : UInt8} (h : isSpace b = true) : b ∈ [0x20, 0x0A, 0x09, 0x0D] := by
  simpa only [isSpace, Bool.or_eq_true, decide_eq_true_eq, List.mem_cons, List.not_mem_nil,
    or_false, or_assoc] using h

theorem skipSpace_append {before : Bytes} (h : ∀ b ∈ before, isSpace b = true) (r : Bytes) :
    skipSpace (before ++ r) = skipSpace r := List.dropWhile_append_of_pos h

theorem skipSpace_eq_nil {after : Bytes} (h : ∀ b ∈ after, isSpace b = true) :
    skipSpace after = [] := by
  have hskip := skipSpace_append h []
  rw [List.append_nil] at hskip
  exact hskip

/-- A number ends where blanks begin. -/
theorem endsNumber_of_isSpace {after : Bytes} (h : ∀ b ∈ after, isSpace b = true) :
    EndsNumber after := by
  intro b hb
  have hblank : ∀ x ∈ [0x20, 0x0A, 0x09, 0x0D],
      isDigit x = false ∧ x ≠ '.'.toUInt8 ∧ isExponentMark x = false := by decide +kernel
  exact hblank b (mem_of_isSpace (h b (List.mem_of_mem_head? hb)))

/-- Blanks are characters of ASCII. -/
theorem exists_encodeChars_eq_of_isSpace {bs : Bytes} (h : ∀ b ∈ bs, isSpace b = true) :
    ∃ cs, bs = encodeChars cs := by
  induction bs with
  | nil => exact ⟨[], rfl⟩
  | cons b bs ih =>
      obtain ⟨hb, hbs⟩ := List.forall_mem_cons.mp h
      obtain ⟨cs, rfl⟩ := ih hbs
      have hchar : ∀ x ∈ [0x20, 0x0A, 0x09, 0x0D], encodeChar (Char.ofNat x.toNat) = [x] := by
        decide +kernel
      refine ⟨Char.ofNat b.toNat :: cs, ?_⟩
      rw [encodeChars_cons, hchar b (mem_of_isSpace hb)]
      rfl

/-! ## Whole texts -/

/-- Blanks in front of a value are not looked at. -/
theorem readValue_append {before : Bytes} (h : ∀ b ∈ before, isSpace b = true) (d : Nat)
    (r : Bytes) : readValue d (before ++ r) = readValue d r := by
  obtain ⟨nested, hnested⟩ := exists_readValue_eq d
  rw [hnested, readValueWith, readValueWith, skipSpace_append h]

section TextOf

variable {input : Bytes} {v : Json}

/-- A text with blanks around it is the value that it was written for. -/
theorem parse_of_isTextOf (h : IsTextOf input v) (hsorted : v.Sorted) (hfloat : v.FloatFree)
    (hd : v.depth ≤ depthLimit) : parse input = .ok v := by
  obtain ⟨before, after, hbefore, hafter, rfl⟩ := h
  have hread : readValue depthLimit (before ++ encode v.text ++ after) = .ok (v, after) := by
    rw [List.append_assoc, readValue_append hbefore, encode_text]
    exact reads_of_depth_le hsorted hfloat hd after (endsNumber_of_isSpace hafter)
  have hwhole : readWhole (before ++ encode v.text ++ after) = .ok v := by
    rw [readWhole, hread]
    simp only [bind, Except.bind, skipSpace_eq_nil hafter]
    rfl
  rw [parse, hwhole]
  rfl

theorem exists_encodeChars_eq_of_isTextOf (h : IsTextOf input v) :
    ∃ cs, input = encodeChars cs := by
  obtain ⟨before, after, hbefore, hafter, rfl⟩ := h
  obtain ⟨cs, rfl⟩ := exists_encodeChars_eq_of_isSpace hbefore
  obtain ⟨ds, rfl⟩ := exists_encodeChars_eq_of_isSpace hafter
  refine ⟨cs ++ v.write ++ ds, ?_⟩
  rw [encode_text, bytes, encodeChars_append, encodeChars_append]

/-- Some byte of the text is not a blank. -/
theorem exists_mem_of_isTextOf (h : IsTextOf input v) : ∃ b ∈ input, 0x20 < b.toNat := by
  obtain ⟨before, after, -, -, rfl⟩ := h
  obtain ⟨b, bs, hbytes, hb, -⟩ := exists_bytes_eq_cons v
  refine ⟨b, List.mem_append_left _ (List.mem_append_right _ ?_), hb⟩
  rw [encode_text, hbytes]
  exact List.mem_cons_self

end TextOf

end AgentHooks.Json
