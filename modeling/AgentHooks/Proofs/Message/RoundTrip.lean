/-
Messages, written as lines and read back.

A message is written as an object of two to four members in an order of its own;
the reader takes them as a record, so what it finds is decided key by key
(`ofRecord_members`).  The object adds one container around the event, and the
event may therefore be one less deep than a value by itself (`ofLine_toLine`,
`ofLine_toLine_of_lt`).  What was read is of that kind (`exists_of_ofLine_eq_ok`),
so a message that was read can always be written and read again.
-/
import AgentHooks.Message
import AgentHooks.Proofs.Json.Produced
import AgentHooks.Proofs.Json.RoundTrip
import AgentHooks.Proofs.Number.Int64

namespace AgentHooks

open Json

/-! ## The members of a message -/

@[simp] theorem Json.asInteger?_ofInt64 (n : Int64) : (ofInt64 n).asInteger? = some n :=
  int64OfInt?_toInt n

namespace Message

/-- The record of the members has each part of the message under its key. -/
theorem get?_members (m : Message) :
    let r := Record.ofMembers m.members
    r.get? versionKey = m.schemaVersion.map ofInt64 ∧ r.get? kindKey = some (.string m.kind) ∧
      r.get? seqKey = m.seq.map ofInt64 ∧ r.get? eventKey = some m.event := by
  obtain ⟨version, kind, seq, event⟩ := m
  cases version <;> cases seq <;>
    simp [Record.ofMembers, members, Record.get?_insert, versionKey, kindKey, seqKey, eventKey]

/-- The members of a message say all that it has. -/
theorem ofRecord_members (m : Message) : ofRecord (Record.ofMembers m.members) = m := by
  have hint (n : Option Int64) : (n.map ofInt64).bind Json.asInteger? = n := by
    cases n <;> simp
  obtain ⟨hversion, hkind, hseq, hevent⟩ := get?_members m
  rw [ofRecord, hversion, hkind, hseq, hevent, hint, hint]
  rfl

/-- What holds of numbers, of texts and of the event holds of every member. -/
theorem forall_mem_members {m : Message} (p : Json → Prop) (hint : ∀ n, p (ofInt64 n))
    (hstring : ∀ s, p (.string s)) (hevent : p m.event) : ∀ x ∈ m.members, p x.2 := by
  have hoption (key : String) (n : Option Int64) :
      ∀ x ∈ (n.map fun n => (key, ofInt64 n)).toList, p x.2 := by
    cases n with
    | none => exact nofun
    | some n => exact List.forall_mem_cons.mpr ⟨hint n, nofun⟩
  simp only [members, List.forall_mem_append, List.forall_mem_cons]
  exact ⟨⟨⟨hoption _ _, hstring _, nofun⟩, hoption _ _⟩, hevent, nofun⟩

theorem mem_members_event (m : Message) : (eventKey, m.event) ∈ m.members :=
  List.mem_append_right _ List.mem_cons_self

/-! ## Lines -/

/-- No character below the space stands in a line, so it is a single line. -/
theorem not_mem_toLine_of_lt {c : Char} (h : c.toNat < 0x20) (m : Message) :
    c ∉ m.toLine.toList := not_mem_text_of_lt h _

section Lines

variable {m : Message} (hsorted : m.event.Sorted) (hfloat : m.event.FloatFree)

include hsorted hfloat

theorem sorted_and_floatFree_of_mem_members : ∀ x ∈ m.members, x.2.Sorted ∧ x.2.FloatFree :=
  forall_mem_members (fun v => v.Sorted ∧ v.FloatFree) (fun _ => ⟨rfl, rfl⟩)
    (fun _ => ⟨rfl, rfl⟩) ⟨hsorted, hfloat⟩

/-- A message is read back from its line when the event in it is not too deep. -/
theorem ofLine_toLine (hd : m.event.depth ≤ 126) (line : Nat) : ofLine m.toLine line = .ok m := by
  have hdepth : ∀ x ∈ m.members, x.2.depth ≤ 126 :=
    forall_mem_members (fun v => v.depth ≤ 126) (fun _ => Nat.zero_le _)
      (fun _ => Nat.zero_le _) hd
  have hread : ∀ x ∈ m.members, Reads (readValue 126) x.2 := fun x hx =>
    have ⟨hs, hf⟩ := sorted_and_floatFree_of_mem_members hsorted hfloat x hx
    reads_of_depth_le hs hf (hdepth x hx)
  have hparse : parseText m.toLine = .ok (Record.ofMembers m.members).toJson :=
    parseText_text_of_read (readValueWith_object hread [])
  rw [ofLine, hparse]
  simp only [Record.asRecord?_toJson, ofRecord_members]

/-- A line whose event is deeper is refused for its depth. -/
theorem ofLine_toLine_of_lt (hd : 126 < m.event.depth) (line : Nat) :
    ∃ fault : Fault, fault.cause = .nestedTooDeep ∧
      ofLine m.toLine line = .error (.malformed line fault.message m.toLine) := by
  have hread : ∀ x ∈ m.members, Reads (readValue 126) x.2 ∨ Refuses (readValue 126) x.2 :=
    fun x hx =>
      have ⟨hs, hf⟩ := sorted_and_floatFree_of_mem_members hsorted hfloat x hx
      reads_or_refuses hs hf 126
  have hrefuses : Refuses (readValue depthLimit) (.object m.members) :=
    refuses_object hread ⟨_, mem_members_event m, refuses_of_lt_depth hsorted hfloat hd⟩
  obtain ⟨fault, hfault, hcause⟩ := parseText_text_of_refuses hrefuses
  refine ⟨fault, hcause, ?_⟩
  rw [ofLine, toLine, hfault]

end Lines

/-! ## Messages that were read -/

theorem ofLine_eq_ok_iff {text : String} {line : Nat} {m : Message} :
    ofLine text line = .ok m ↔
      ∃ v r, parseText text = .ok v ∧ v.asRecord? = some r ∧ m = ofRecord r := by
  rw [ofLine]
  constructor
  · intro h
    cases hv : parseText text with
    | error fault =>
        rw [hv] at h
        cases h
    | ok v =>
        cases hr : v.asRecord? with
        | none =>
            simp only [hv, hr] at h
            cases h
        | some r =>
            simp only [hv, hr] at h
            cases h
            exact ⟨v, r, rfl, hr, rfl⟩
  · rintro ⟨v, r, hv, hr, rfl⟩
    simp only [hv, hr]

theorem event_ofRecord (r : Record) :
    (ofRecord r).event = .null ∨ (eventKey, (ofRecord r).event) ∈ r.members := by
  cases hevent : r.get? eventKey with
  | none => exact .inl (by rw [ofRecord, hevent]; rfl)
  | some v =>
      refine .inr (Record.mem_members_iff.mpr ?_)
      rw [ofRecord, hevent]
      rfl

/-- The event of a message that was read is in key order, and one less deep than
a value by itself may be. -/
theorem sorted_and_depth_le_of_ofLine {text : String} {line : Nat} {m : Message}
    (h : ofLine text line = .ok m) : m.event.Sorted ∧ m.event.depth ≤ 126 := by
  obtain ⟨v, r, hv, hr, rfl⟩ := ofLine_eq_ok_iff.mp h
  obtain ⟨hsorted, hdepth⟩ := parse_sorted_and_depth_le hv
  cases v with
  | null | bool _ | number _ | string _ | array _ => cases hr
  | object ms =>
      cases hr
      rcases event_ofRecord (Record.ofMembers ms) with hevent | hevent
      · rw [hevent]
        exact ⟨rfl, Nat.zero_le _⟩
      · have hmem := Record.mem_ofMembers hevent
        exact ⟨(sorted_object.mp hsorted).2 _ hmem, depth_object_le.mp hdepth _ hmem⟩

/-- How a message comes about: it is made for an event, whose objects are maps, or
it is read from a line. -/
inductive Arises : Message → Prop where
  | ofEvent (seq : Int64) (event : Json) (hsorted : event.Sorted) : Arises (.ofEvent seq event)
  | ofLine {text : String} {line : Nat} {m : Message} (h : Message.ofLine text line = .ok m) :
      Arises m

theorem Arises.sorted {m : Message} (h : m.Arises) : m.event.Sorted := by
  cases h with
  | ofEvent seq event hsorted => exact hsorted
  | ofLine h => exact (sorted_and_depth_le_of_ofLine h).1

/-- A line holds one message and no other: it has no line end inside, and gives
the message back at any place of a stream, up to the depth that readers allow. -/
theorem toLine_round_trip {m : Message} (hm : m.Arises) :
    '\n' ∉ m.toLine.toList ∧ '\r' ∉ m.toLine.toList ∧
      (m.event.FloatFree →
        (m.event.depth ≤ 126 → ∀ line, ofLine m.toLine line = .ok m) ∧
        (126 < m.event.depth → ∀ line, ∃ fault : Fault, fault.cause = .nestedTooDeep ∧
          ofLine m.toLine line =
            .error (.malformedLine line fault.message (Text.excerpt m.toLine)))) ∧
      ∀ text line₀, ofLine text line₀ = .ok m →
        m.event.depth ≤ 126 ∧ (m.event.FloatFree → ∀ line, ofLine m.toLine line = .ok m) := by
  have hread (hfloat : m.event.FloatFree) (hd : m.event.depth ≤ 126) (line : Nat) :
      ofLine m.toLine line = .ok m := ofLine_toLine hm.sorted hfloat hd line
  refine ⟨not_mem_toLine_of_lt (by decide) m, not_mem_toLine_of_lt (by decide) m,
    fun hfloat => ⟨hread hfloat, ofLine_toLine_of_lt hm.sorted hfloat⟩, ?_⟩
  intro text line₀ h
  have hd := (sorted_and_depth_le_of_ofLine h).2
  exact ⟨hd, fun hfloat => hread hfloat hd⟩

/-- A value inside of arrays, one in the other. -/
def nest (v : Json) : Nat → Json
  | 0 => v
  | n + 1 => .array [nest v n]

/-- Text with marks and control characters, between numbers at both ends of their range. -/
def extremes : Json :=
  .object [("\n\"", .number (.whole (-9223372036854775808) (by decide))),
    ("z", .array [.number (.whole 18446744073709551615 (by decide)), .object [], .null]),
    ("\u00e9\\\u0000", .string "\r\u2028😀\t/")]

theorem toLine_round_trip_extremes :
    ofLine (ofEvent Int64.minValue (nest extremes 123)).toLine 7 =
        .ok (ofEvent Int64.minValue (nest extremes 123)) ∧
      ∃ d, ofLine (ofEvent (-1) (nest extremes 124)).toLine 7 = .error d := by
  have hread := toLine_round_trip
    (.ofEvent Int64.minValue (nest extremes 123) (by decide +kernel))
  have hrefused := toLine_round_trip
    (.ofEvent (-1) (nest extremes 124) (by decide +kernel))
  refine ⟨?_, ?_⟩
  · exact (hread.2.2.1 (by decide +kernel)).1 (by decide +kernel) 7
  · obtain ⟨fault, -, h⟩ := (hrefused.2.2.1 (by decide +kernel)).2 (by decide +kernel) 7
    exact ⟨_, h⟩

end Message

end AgentHooks
