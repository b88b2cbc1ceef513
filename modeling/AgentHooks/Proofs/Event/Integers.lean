/-
Integers sent as numbers and as text.

A sender may write an integer as a JSON number or as a string with the same digits.
Values that are read as one integer are interchangeable wherever an integer is read: in
the members of a message, in the fields of an event and in the counts of tokens
(`interchangeable_of_asInteger?_eq`).  A literal and its text are read as one integer
unless the literal is rounded into the range (`literal_as_number_or_text`).
-/
import AgentHooks.Proofs.Event.Unknown
import AgentHooks.Proofs.Json.Integers
import AgentHooks.Proofs.Message.RoundTrip

namespace AgentHooks

/-! ## A member whose value changes -/

namespace Record

variable (raw : Record) (key : String)

/-- The first of the members after one was placed among them is that one, whatever its
value is, or another one, whatever the value is. -/
theorem head?_place (ms : List (String × Json)) :
    (∀ v, (place key v ms).head? = some (key, v)) ∨ ∃ m, ∀ v, (place key v ms).head? = some m := by
  cases ms with
  | nil => exact .inl fun v => rfl
  | cons m ms =>
      by_cases hlt : key < m.1
      · exact .inl fun v => by rw [place, if_pos hlt]; rfl
      · by_cases heq : key = m.1
        · exact .inl fun v => by rw [place, if_neg hlt, if_pos heq]; rfl
        · exact .inr ⟨m, fun v => by rw [place, if_neg hlt, if_neg heq]; rfl⟩

/-- The view has a member's value under a canonical key, whatever it is, or something
that does not depend on it. -/
theorem get?_normalized_insert {c : String} (hc : c ≠ Key.discriminant) :
    (∀ v, (raw.insert key v).normalized.get? c = some v) ∨
      ∃ other, ∀ v, (raw.insert key v).normalized.get? c = other := by
  by_cases hcanonical : Key.canonical key = c
  · have hspelled (v : Json) : (raw.insert key v).spelled c = (raw.spelled c).insert key v := by
      rw [spelled, filterKeys_insert, if_pos (beq_iff_eq.mpr hcanonical)]
      rfl
    simp only [get?_normalized _ hc, hspelled, get?_insert]
    by_cases hkey : c = key
    · exact .inl fun v => by rw [if_pos hkey, Option.some_or]
    · simp only [if_neg hkey]
      cases (raw.spelled c).get? c with
      | some w => exact .inr ⟨some w, fun v => Option.some_or⟩
      | none =>
          rcases head?_place key (raw.spelled c).members with hfirst | ⟨m, hother⟩
          · exact .inl fun v => by rw [Option.none_or, insert, hfirst]; rfl
          · exact .inr ⟨some m.2, fun v => by rw [Option.none_or, insert, hother]; rfl⟩
  · exact .inr ⟨_, fun v => get?_normalized_of_spelled_eq (spelled_insert raw hcanonical v) hc⟩

/-- A reading that does not tell two values apart does not tell them apart in a view. -/
theorem bind_get?_normalized_insert {α : Type} {read : Json → Option α} {v w : Json}
    (h : read v = read w) {c : String} (hc : c ≠ Key.discriminant) :
    ((raw.insert key v).normalized.get? c).bind read =
      ((raw.insert key w).normalized.get? c).bind read := by
  rcases raw.get?_normalized_insert key hc with hvalue | ⟨other, hother⟩
  · rw [hvalue, hvalue]
    exact h
  · rw [hother, hother]

end Record

/-! ## Integers of messages and events -/

namespace Event

/-- The canonical keys under which an event of a kind has integers. -/
def Kind.integerKeys (kind : Kind) : List String :=
  Key.schemaVersion :: (kind.shape.filter (·.type == .integer)).map (·.name)

/-- An integer key is no other kind of field. -/
theorem Kind.of_mem_integerKeys {kind : Kind} : ∀ c ∈ kind.integerKeys,
    (c ∉ [Key.eventId, Key.timestamp, Key.discriminant] ∧
      c ∈ Key.common ++ kind.fieldNames) ∧ ∀ f ∈ kind.shape, f.name = c → f.type = .integer := by
  cases kind <;> decide +kernel

end Event

/-- Values that can stand for each other wherever an integer is read. -/
structure Interchangeable (v w : Json) : Prop where
  asInteger?_eq : v.asInteger? = w.asInteger?
  message_eq : ∀ (members : Record), ∀ key ∈ [Message.versionKey, Message.seqKey],
    Message.ofRecord (members.insert key v) = Message.ofRecord (members.insert key w)
  event_eq : ∀ (raw : Record) (key : String),
    Key.canonical key ∈ (Event.ofRecord (raw.insert key w)).kind.integerKeys →
      Event.ofRecord (raw.insert key v) =
        { Event.ofRecord (raw.insert key w) with raw := raw.insert key v }
  usage_eq : ∀ (raw : Record) (key : String),
    TokenUsage.ofRecord (raw.insert key v) = TokenUsage.ofRecord (raw.insert key w)

section SameInteger

variable {v w : Json} (h : v.asInteger? = w.asInteger?)
include h

theorem Message.ofRecord_insert_of_asInteger?_eq (members : Record) {key : String}
    (hkind : kindKey ≠ key) (hevent : eventKey ≠ key) :
    ofRecord (members.insert key v) = ofRecord (members.insert key w) := by
  have hread (k : String) : ((members.insert key v).get? k).bind Json.asInteger? =
      ((members.insert key w).get? k).bind Json.asInteger? := by
    rw [Record.get?_insert, Record.get?_insert]
    split
    · exact h
    · rfl
  have hother {k : String} (hk : k ≠ key) :
      (members.insert key v).get? k = (members.insert key w).get? k := by
    rw [Record.get?_insert, Record.get?_insert, if_neg hk, if_neg hk]
  rw [ofRecord, hread versionKey, hread seqKey, hother hkind, hother hevent]
  rfl

/-- An event sees no more of a member under an integer key than what is read of it. -/
theorem Event.ofRecord_insert_of_asInteger?_eq (raw : Record) {key : String}
    (hkey : Key.canonical key ∈ (ofRecord (raw.insert key w)).kind.integerKeys) :
    ofRecord (raw.insert key v) =
      { ofRecord (raw.insert key w) with raw := raw.insert key v } := by
  obtain ⟨⟨hapart, hknown⟩, hinteger⟩ := Kind.of_mem_integerKeys _ hkey
  simp only [List.mem_cons, List.not_mem_nil, or_false, not_or] at hapart
  obtain ⟨hid, htime, hdiscriminant⟩ := hapart
  have hspelled {c : String} (hc : Key.canonical key ≠ c) :
      (raw.insert key v).spelled c = (raw.insert key w).spelled c :=
    (Record.spelled_insert raw hc v).trans (Record.spelled_insert raw hc w).symm
  have hview {c : String} (hc : Key.canonical key ≠ c) (hne : c ≠ Key.discriminant) :
      (raw.insert key v).normalized.get? c = (raw.insert key w).normalized.get? c :=
    Record.get?_normalized_of_spelled_eq (hspelled hc) hne
  have hsame : (raw.insert key v).discriminant = (raw.insert key w).discriminant :=
    Record.discriminant_of_spelled_eq (hspelled hdiscriminant)
  have hextras (u : Json) :
      (raw.insert key u).extras (ofRecord (raw.insert key w)).kind.fieldNames =
        raw.extras (ofRecord (raw.insert key w)).kind.fieldNames := by
    rw [Record.extras, Record.filterKeys_insert, Key.isKnown_iff.mpr hknown]
    rfl
  have hread : ∀ f ∈ (ofRecord (raw.insert key w)).kind.shape,
      f.type.read ((raw.insert key v).normalized.get? f.name) =
        f.type.read ((raw.insert key w).normalized.get? f.name) := by
    intro f hf
    have hne := (Kind.canonical_of_mem_fieldNames f.name (List.mem_map_of_mem hf)).2
    by_cases hname : f.name = Key.canonical key
    · rw [hinteger f hf hname]
      exact congrArg FieldValue.integer (raw.bind_get?_normalized_insert key h hne)
    · exact congrArg f.type.read (hview (Ne.symm hname) hne)
  rw [ofRecord_eq_of_read_eq (congrArg Kind.ofDiscriminant hsame)
    (raw.bind_get?_normalized_insert key h (by decide))
    (congrArg (Option.bind · Json.asText?) (hview hid (by decide)))
    (congrArg (Option.bind · Json.asText?) (hview htime (by decide))) hread,
    hsame, hextras v, ← hextras w]
  rfl

theorem TokenUsage.ofRecord_insert_of_asInteger?_eq (raw : Record) (key : String) :
    ofRecord (raw.insert key v) = ofRecord (raw.insert key w) := by
  have hcount : ∀ c ∈ countKeys, ((raw.insert key v).normalized.get? c).bind Json.asInteger? =
      ((raw.insert key w).normalized.get? c).bind Json.asInteger? := fun c hc =>
    raw.bind_get?_normalized_insert key h (ne_discriminant_of_mem_countKeys c hc)
  simp only [countKeys, List.forall_mem_cons] at hcount
  obtain ⟨hinput, hcached, houtput, hreasoning, htotal, -⟩ := hcount
  simp only [ofRecord, hinput, hcached, houtput, hreasoning, htotal]

theorem interchangeable_of_asInteger?_eq : Interchangeable v w where
  asInteger?_eq := h
  message_eq members key hkey := by
    simp only [List.mem_cons, List.not_mem_nil, or_false] at hkey
    rcases hkey with rfl | rfl <;>
      exact Message.ofRecord_insert_of_asInteger?_eq h members (by decide) (by decide)
  event_eq raw _ hkey := Event.ofRecord_insert_of_asInteger?_eq h raw hkey
  usage_eq raw key := TokenUsage.ofRecord_insert_of_asInteger?_eq h raw key

end SameInteger

/-! ## Literals and their texts -/

open Json Text

theorem asInteger?_text (n : Numeral) :
    (string (String.ofList n.chars)).asInteger? = int64OfInt? n.value := by
  rw [asInteger?_eq_int64?, String.toList_ofList, trim_of_not_blank n.isBlank_of_mem_chars,
    int64?_chars]

/-- An integer literal is taken for one value wherever it stands, and that value is read
as the text of the literal is: as its integer when that is a 64-bit signed number, and not
at all otherwise.  So number and text are interchangeable, for all literals but those that
are rounded into the range: of their text nothing is read, and of the number the least
integer. -/
theorem literal_as_number_or_text (n : Numeral) (hn : n.IsLiteral) (v : Json)
    (hv : parseText (String.ofList n.chars) = .ok v) :
    (∀ nested, ReadsLiteral (readValueWith nested) (Utf8.encodeChars n.chars) v) ∧
    (string (String.ofList n.chars)).asInteger?.map Int64.toInt =
      (if FitsInt64 n.value then some n.value else none) ∧
    v.asInteger? = (if RoundsIntoRange n.value then some Int64.minValue
      else (string (String.ofList n.chars)).asInteger?) ∧
    (Interchangeable v (string (String.ofList n.chars)) ↔ ¬ RoundsIntoRange n.value) := by
  have hnumber := asInteger?_of_parseText hn hv
  have htext := asInteger?_text n
  refine ⟨readsLiteral_of_parseText hn hv, ?_, ?_, ?_⟩
  · rw [htext, map_toInt_int64OfInt?]
  · rw [hnumber, htext]
  · constructor
    · intro h hround
      have hsame := h.asInteger?_eq
      rw [hnumber, htext, if_pos hround,
        int64OfInt?_of_not_fits (not_fitsInt64_of_roundsIntoRange hround)] at hsame
      cases hsame
    · intro hround
      rw [if_neg hround] at hnumber
      exact interchangeable_of_asInteger?_eq (hnumber.trans htext.symm)

/-- The literal of the integer below those that are rounded into the range. -/
def belowRounded : Numeral := .ofInt (-9223372036854776833)

theorem literal_as_number_or_text_below_rounded :
    String.ofList belowRounded.chars = "-9223372036854776833" ∧ belowRounded.IsLiteral ∧
    ∃ v, parseText "-9223372036854776833" = .ok v ∧ v.asInteger? = none ∧
      Interchangeable v (string "-9223372036854776833") := by
  have htext : String.ofList belowRounded.chars = "-9223372036854776833" := by decide +kernel
  have hliteral : belowRounded.IsLiteral := by decide +kernel
  have hparse : parseText (String.ofList belowRounded.chars) =
      .ok (number (.float ⟨true, 4503599627370497, 11, by decide⟩)) := by decide +kernel
  have hread := literal_as_number_or_text belowRounded hliteral _ hparse
  rw [htext] at hparse hread
  exact ⟨htext, hliteral, _, hparse, by decide +kernel, hread.2.2.2.mpr (by decide +kernel)⟩

/-- The literal of the integer below the least 64-bit signed number. -/
def belowRange : Numeral := .ofInt (-9223372036854775809)

/-- A literal below the range is read as a number, and is no number as text. -/
theorem literal_read_into_range :
    belowRange.IsLiteral ∧ String.ofList belowRange.chars = "-9223372036854775809" ∧
    ∃ v, parseText "-9223372036854775809" = .ok v ∧ v.asInteger? = some Int64.minValue ∧
      (string "-9223372036854775809").asInteger? = none ∧ ¬ FitsInt64 belowRange.value := by
  refine ⟨by decide +kernel, by decide +kernel, number (.float .int64Start), ?_, ?_, ?_, ?_⟩ <;>
    decide +kernel

end AgentHooks
