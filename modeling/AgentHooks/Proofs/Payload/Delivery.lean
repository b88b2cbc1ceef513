/-
A payload that is there and a payload in a file.

The sender of a payload chooses how it travels: inside of its envelope, or in a
file that the envelope names.  What the reader gets is the same
(`same_inline_and_in_file`), also when the payload looks like an envelope: what a
file holds is not looked at again.  It rests on two facts about texts: a file and
an input that hold the text of a value are read as that value
(`payloadOfBytes_of_isTextOf`, `Payload.ofInput_of_isTextOf`).
-/
import AgentHooks.Payload.Input
import AgentHooks.Proofs.Json.Padding

namespace AgentHooks

open Json

/-! ## Whole inputs -/

/-- The text of a value is not taken for an input without payload. -/
theorem Payload.not_all_isBlankByte_of_isTextOf {input : Bytes} {v : Json}
    (h : IsTextOf input v) : input.all isBlankByte = false := by
  obtain ⟨b, hb, hspace⟩ := exists_mem_of_isTextOf h
  have hbyte : isBlankByte b = false := by
    simp [isBlankByte, ne_of_space_lt hspace]
  refine List.all_eq_false.mpr ⟨b, hb, ?_⟩
  rw [hbyte]
  exact Bool.false_ne_true

/-- An input that holds the text of an envelope is resolved as that envelope. -/
theorem Payload.ofInput_of_isTextOf (files : FileTree) {input : Bytes} {v : Json}
    (h : IsTextOf input v) (hsorted : v.Sorted) (hfloat : v.FloatFree)
    (hd : v.depth ≤ depthLimit) : ofInput files ⟨input, none⟩ = Envelope.resolve files v := by
  have henvelope : envelopeOf ⟨input, none⟩ = .ok v := by
    simp only [envelopeOf, not_all_isBlankByte_of_isTextOf h,
      parse_of_isTextOf h hsorted hfloat hd]
    rfl
  rw [ofInput, henvelope]

namespace Envelope

/-! ## Files -/

/-- Bytes that hold the text of an object are the payload that they hold. -/
theorem payloadOfBytes_of_isTextOf {content : Bytes} {payload : Record}
    (h : IsTextOf content payload.toJson) (hsorted : payload.toJson.Sorted)
    (hfloat : payload.toJson.FloatFree) (hd : payload.toJson.depth ≤ depthLimit) :
    payloadOfBytes content = .ok payload := by
  obtain ⟨cs, hcs⟩ := exists_encodeChars_eq_of_isTextOf h
  have hdecode : Utf8.decodeText? content = some (String.ofList cs) := by
    rw [hcs, Utf8.decodeText?, Utf8.decode_encodeChars]
    rfl
  rw [payloadOfBytes, hdecode]
  simp only [parse_of_isTextOf h hsorted hfloat hd, Record.asRecord?_toJson]

/-- An envelope that names a file resolves to the payload that the file holds,
whatever else stands in the envelope or in the payload. -/
theorem resolve_of_payloadPath? {files : FileTree} {envelope : Json} {path : String}
    {content : Bytes} {payload : Record} (hpath : payloadPath? envelope = some path)
    (hread : files.read path = .ok content) (hcontent : payloadOfBytes content = .ok payload) :
    resolve files envelope = .ok payload := by
  simp only [resolve, hpath, payloadAt, hread, hcontent]
  rfl

/-- An object that names no file is its own payload. -/
theorem resolve_toJson (files : FileTree) {payload : Record}
    (h : payloadPath? payload.toJson = none) : resolve files payload.toJson = .ok payload := by
  simp only [resolve, h, Record.asRecord?_toJson, Option.getD_some]

/-! ## Both ways -/

/-- A payload is the same for its reader whether it is there or in a file that
its envelope names, in a stream and as the whole of an input.  The payload and
the envelope are values whose objects are maps, without floats, and not deeper
than a reader allows. -/
theorem same_inline_and_in_file (files : FileTree) (payload : Record)
    (hsorted : payload.toJson.Sorted) (hfloat : payload.toJson.FloatFree)
    (hd : payload.toJson.depth ≤ 127) (path : String) (content : Bytes)
    (hread : files.read path = .ok content) (hcontent : IsTextOf content payload.toJson)
    (envelope : Json) (hpath : payloadPath? envelope = some path) :
    resolve files envelope = .ok payload ∧
    (payloadPath? payload.toJson = none →
      resolve files payload.toJson = .ok payload ∧
      (resolve files envelope).map Event.ofRecord =
        (resolve files payload.toJson).map Event.ofRecord ∧
      ∀ input, IsTextOf input payload.toJson →
        Payload.ofInput files ⟨input, none⟩ = .ok payload) ∧
    (envelope.Sorted → envelope.FloatFree → envelope.depth ≤ 127 →
      ∀ input, IsTextOf input envelope →
        Payload.ofInput files ⟨input, none⟩ = .ok payload) := by
  have hresolve : resolve files envelope = .ok payload :=
    resolve_of_payloadPath? hpath hread (payloadOfBytes_of_isTextOf hcontent hsorted hfloat hd)
  refine ⟨hresolve, ?_, ?_⟩
  · intro hnone
    have hinline : resolve files payload.toJson = .ok payload := resolve_toJson files hnone
    refine ⟨hinline, ?_, ?_⟩
    · rw [hresolve, hinline]
    · intro input hinput
      rw [Payload.ofInput_of_isTextOf files hinput hsorted hfloat hd, hinline]
  · intro hsorted' hfloat' hd' input hinput
    rw [Payload.ofInput_of_isTextOf files hinput hsorted' hfloat' hd', hresolve]

/-- A payload that names a file itself. -/
def decoy : Record := .ofMembers [("payload_path", .string "gone"), ("type", .string "Stop")]

/-- An envelope whose preferred key names nothing. -/
def indirect : Json :=
  .object [("payload-path", .string ""), ("payload_path", .string "kept"), ("type", .null)]

/-- A payload in a file, with blanks around it, and one that is there as well. -/
theorem same_inline_and_in_file_decoy :
    let text := "\n \x7b\"payload_path\":\"gone\",\"type\":\"Stop\"\x7d\t"
    let files : FileTree := ⟨[(["kept"], .file (Utf8.encode text)), (["none"], .file [0x7B, 0x7D])]⟩
    resolve files indirect = .ok decoy ∧
    Payload.ofInput files ⟨Utf8.encode indirect.text, none⟩ = .ok decoy ∧
    Payload.ofInput files ⟨Utf8.encode Record.empty.toJson.text, none⟩ = .ok .empty := by
  intro text files
  have hkept := same_inline_and_in_file files decoy (by decide +kernel) (by decide +kernel)
    (by decide +kernel) "kept" (Utf8.encode text) rfl
    ⟨[0x0A, 0x20], [0x09], by decide +kernel, by decide +kernel, by decide +kernel⟩ indirect
    (by decide +kernel)
  have hempty := same_inline_and_in_file files .empty (by decide) (by decide) (by decide) "none"
    [0x7B, 0x7D] rfl (isTextOf_text (.object []))
    (.object [("payload-path", .string "none")]) (by decide +kernel)
  refine ⟨hkept.1, ?_, ?_⟩
  · exact hkept.2.2 (by decide +kernel) (by decide +kernel) (by decide +kernel) _
      (isTextOf_text indirect)
  · exact (hempty.2.1 (by decide +kernel)).2.2 _ (isTextOf_text Record.empty.toJson)

end Envelope

end AgentHooks
