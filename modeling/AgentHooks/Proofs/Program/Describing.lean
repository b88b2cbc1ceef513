/-
What is said of a payload that was read.

The description of an event is a record of five members, and its text is one
line, as every compact text is.  Read back it says of the payload what
binding found (`Event.describes_description`): nothing is lost on the way through
the text, if the payload leaves room for one more container around it.  A payload
that was read is a value that can be written and read again, so reading it a
second time gives the same line (`Invocation.run_read`), unless one of its floats
is misread from its own digits (`Invocation.run_read_misread_float`).
-/
import AgentHooks.Proofs.Event.Binding
import AgentHooks.Proofs.Json.Produced
import AgentHooks.Proofs.Payload.Delivery
import AgentHooks.Proofs.Payload.Resolution
import AgentHooks.Proofs.Program.Failing

namespace AgentHooks

open Json

/-! ## Payloads that were read -/

namespace Payload

theorem sorted_and_depth_le_of_envelopeOf {input : Stream} {envelope : Json}
    (h : envelopeOf input = .ok envelope) : envelope.Sorted ∧ envelope.depth ≤ depthLimit := by
  unfold envelopeOf at h
  split at h
  · cases h
  · split at h
    · cases h
      decide
    · cases hparse : parse input.bytes with
      | error fault =>
          rw [hparse] at h
          cases h
      | ok v =>
          rw [hparse] at h
          cases h
          exact parse_sorted_and_depth_le hparse

/-- Wherever a payload came from, its objects are in key order and it is no
deeper than a reader allows. -/
theorem sorted_and_depth_le_of_ofInput {files : FileTree} {input : Stream} {payload : Record}
    (h : ofInput files input = .ok payload) :
    payload.toJson.Sorted ∧ payload.toJson.depth ≤ depthLimit := by
  unfold ofInput at h
  split at h
  · cases h
  · rename_i envelope henvelope
    cases hpath : Envelope.payloadPath? envelope with
    | some path =>
        rw [Envelope.resolve_eq_payloadAt files hpath, Envelope.payloadAt_eq_ok_iff] at h
        obtain ⟨text, -, hparse⟩ := h
        exact parse_sorted_and_depth_le hparse
    | none =>
        rw [Envelope.resolve, hpath] at h
        cases h
        have hshape := sorted_and_depth_le_of_envelopeOf henvelope
        cases hrecord : envelope.asRecord? with
        | none => decide
        | some r =>
            rw [eq_toJson_of_asRecord? hshape.1 hrecord] at hshape
            exact hshape

/-- A payload that names no file is read from its own text. -/
theorem ofInput_text_of_readsBack (files : FileTree) {payload : Record}
    (hpath : Envelope.payloadPath? payload.toJson = none) (h : payload.toJson.ReadsBack) :
    ofInput files ⟨Utf8.encode payload.toJson.text, none⟩ = .ok payload := by
  have hparse : parse (Utf8.encode payload.toJson.text) = .ok payload.toJson := h
  have henvelope :
      envelopeOf ⟨Utf8.encode payload.toJson.text, none⟩ = .ok payload.toJson := by
    simp only [envelopeOf, not_all_isBlankByte_of_isTextOf (isTextOf_text _), hparse]
    rfl
  rw [ofInput, henvelope]
  exact Envelope.resolve_toJson files hpath

end Payload

/-! ## Descriptions -/

/-- What a description says of a payload.  The extras are the keys of the
payload that are no common fields and no fields of its kind, in either
spelling. -/
structure Describes (description payload : Record) : Prop where
  keys_eq : description.keys = ["extras", "kind", "known", "payload", "type"]
  payload_eq : description.get? "payload" = some payload.toJson
  type_eq : description.get? "type" = some (.string payload.discriminant)
  kind_eq : description.get? "kind" =
    some (.string (Event.Kind.ofDiscriminant payload.discriminant).name)
  known_eq : description.get? "known" =
    some (.bool (decide (Event.Kind.ofDiscriminant payload.discriminant ≠ .unknown)))
  extras_eq : ∃ extras : List String,
    description.get? "extras" = some (.array (extras.map .string)) ∧
    extras.Pairwise (· < ·) ∧
    ∀ key, key ∈ extras ↔ key ∈ payload.keys ∧ Key.canonical key ∉
      Key.common ++ (Event.Kind.ofDiscriminant payload.discriminant).fieldNames

namespace Event

/-- The members of a description stand in the order of their keys. -/
theorem members_description (e : Event) :
    e.description.members =
      [("extras", .array (e.extras.keys.map .string)), ("kind", .string e.kind.name),
        ("known", .bool e.kind.isKnown), ("payload", e.toJson),
        ("type", .string e.header.eventType)] := by
  simp +decide only [description, Record.ofMembers, List.foldl, Record.insert, Record.place,
    Record.empty, if_true, if_false]

theorem pairwise_keys (r : Record) : r.keys.Pairwise (· < ·) :=
  List.pairwise_map.mpr r.ordered

theorem mem_keys_extras (payload : Record) (key : String) :
    key ∈ (ofRecord payload).extras.keys ↔ key ∈ payload.keys ∧
      Key.canonical key ∉ Key.common ++ (Kind.ofDiscriminant payload.discriminant).fieldNames := by
  simp only [Record.keys, List.mem_map, mem_extras_ofRecord]
  constructor
  · rintro ⟨m, ⟨hm, hkey⟩, rfl⟩
    exact ⟨⟨m, hm, rfl⟩, hkey⟩
  · rintro ⟨⟨m, hm, rfl⟩, hkey⟩
    exact ⟨m, ⟨hm, hkey⟩, rfl⟩

theorem Kind.isKnown_eq (k : Kind) : k.isKnown = decide (k ≠ .unknown) := by
  cases k <;> rfl

/-- A description says of a payload how it binds. -/
theorem describes_description (payload : Record) :
    Describes (ofRecord payload).description payload := by
  have hmembers : (ofRecord payload).description.members =
      [("extras", .array ((ofRecord payload).extras.keys.map .string)),
        ("kind", .string (Kind.ofDiscriminant payload.discriminant).name),
        ("known", .bool (decide (Kind.ofDiscriminant payload.discriminant ≠ .unknown))),
        ("payload", payload.toJson), ("type", .string payload.discriminant)] := by
    rw [← Kind.isKnown_eq]
    exact members_description (ofRecord payload)
  have hmember {key : String} {value : Json}
      (h : (key, value) ∈ (ofRecord payload).description.members) :
      (ofRecord payload).description.get? key = some value := Record.mem_members_iff.mp h
  rw [hmembers] at hmember
  refine ⟨?_, hmember (by simp), hmember (by simp), hmember (by simp), hmember (by simp), ?_⟩
  · rw [Record.keys, hmembers]
    rfl
  · exact ⟨_, hmember (by simp), pairwise_keys _, mem_keys_extras payload⟩

/-! ## The line of a description -/

/-- What holds of texts, of truths, of lists of texts and of the payload holds
of every member. -/
theorem forall_mem_description {e : Event} (p : Json → Prop) (hstring : ∀ s, p (.string s))
    (hbool : ∀ b, p (.bool b)) (hstrings : ∀ ss : List String, p (.array (ss.map .string)))
    (hpayload : p e.toJson) : ∀ m ∈ e.description.members, p m.2 := by
  rw [members_description]
  simp only [List.forall_mem_cons]
  exact ⟨hstrings _, hstring _, hbool _, hpayload, hstring _, nofun⟩

/-- The text of a description is read as the description, if the payload is one
less deep than a value by itself may be. -/
theorem parseText_text_description {e : Event} (hsorted : e.toJson.Sorted)
    (hfloat : e.toJson.FloatFree) (hd : e.toJson.depth ≤ 126) :
    parseText e.description.toJson.text = .ok e.description.toJson := by
  have hstrings {p : Json → Prop} (hp : ∀ s, p (.string s)) (ss : List String) :
      ∀ v ∈ ss.map Json.string, p v := List.forall_mem_map.mpr fun s _ => hp s
  refine parseText_text ?_ ?_ ?_
  · refine sorted_object.mpr ⟨e.description.ordered, ?_⟩
    exact forall_mem_description Sorted (fun _ => rfl) (fun _ => rfl)
      (fun ss => sorted_array.mpr (hstrings (fun _ => rfl) ss)) hsorted
  · refine floatFree_object.mpr ?_
    exact forall_mem_description FloatFree (fun _ => rfl) (fun _ => rfl)
      (fun ss => floatFree_array.mpr (hstrings (fun _ => rfl) ss)) hfloat
  · refine depth_object_le.mpr ?_
    exact forall_mem_description (fun v => v.depth ≤ 126) (fun _ => Nat.zero_le _)
      (fun _ => Nat.zero_le _)
      (fun ss => depth_array_le.mpr (hstrings (fun _ => Nat.zero_le _) ss)) hd

end Event

/-! ## Reading once -/

namespace Invocation

theorem run_of_plan_eq_read {i : Invocation} {settings : Settings} {filter : Log.Filter}
    (hplan : i.plan = .run .read settings filter) :
    i.run = readOnce ((Readers.own none).logView filter settings.logFormat .read) i.files i.input :=
  Readers.run_of_plan_eq_run hplan

/-- A run that reads succeeds exactly when there is a payload, and then it writes
one line. -/
theorem exitStatus_run_read_eq_zero_iff {i : Invocation} {settings : Settings}
    {filter : Log.Filter} (hplan : i.plan = .run .read settings filter) :
    i.run.exitStatus = 0 ↔ ∃ payload, Payload.ofInput i.files i.input = .ok payload := by
  rw [run_of_plan_eq_read hplan, readOnce, Event.ofInput]
  cases Payload.ofInput i.files i.input with
  | error d => exact ⟨fun h => absurd h (Failure.payload d).exitStatus_ne_zero, nofun⟩
  | ok payload => exact ⟨fun _ => ⟨payload, rfl⟩, fun _ => rfl⟩

theorem output_run_read {i : Invocation} {settings : Settings} {filter : Log.Filter}
    (hplan : i.plan = .run .read settings filter) {payload : Record}
    (hpayload : Payload.ofInput i.files i.input = .ok payload) :
    i.run.output = (Event.ofRecord payload).description.toJson.text ++ "\n" := by
  rw [run_of_plan_eq_read hplan, readOnce, Event.ofInput, hpayload]
  rfl

/-- An invocation that reads and succeeds has read a payload, and writes one line
about it.  That line is the description of the payload, if the payload has no
floats and leaves room for one more container around it.  If the payload names no
file and the text of each of its floats is read as that float, then reading the
text of the payload gives the same line. -/
theorem run_read (i : Invocation) (settings : Settings) (filter : Log.Filter)
    (hplan : i.plan = .run .read settings filter) (hstatus : i.run.exitStatus = 0) :
    ∃ payload line, Payload.ofInput i.files i.input = .ok payload ∧
      i.run.output = line ++ "\n" ∧ '\n' ∉ line.toList ∧ '\r' ∉ line.toList ∧
      (payload.toJson.FloatFree → payload.toJson.depth ≤ 126 →
        ∃ description : Record, parseText line = .ok description.toJson ∧
          Describes description payload) ∧
      (Envelope.payloadPath? payload.toJson = none → payload.toJson.FloatsReadBack →
        let again : Invocation := { i with input := ⟨Utf8.encode payload.toJson.text, none⟩ }
        again.run.exitStatus = 0 ∧ again.run.output = i.run.output) := by
  obtain ⟨payload, hpayload⟩ := (exitStatus_run_read_eq_zero_iff hplan).mp hstatus
  obtain ⟨hsorted, hdepth⟩ := Payload.sorted_and_depth_le_of_ofInput hpayload
  have houtput := output_run_read hplan hpayload
  refine ⟨payload, (Event.ofRecord payload).description.toJson.text, hpayload, houtput,
    not_mem_text_of_lt (by decide) _, not_mem_text_of_lt (by decide) _, ?_, ?_⟩
  · intro hfloat hd
    exact ⟨_, Event.parseText_text_description (e := .ofRecord payload) hsorted hfloat hd,
      Event.describes_description payload⟩
  · intro hpath hfloats again
    have hback : payload.toJson.ReadsBack := readsBack_of_floatsReadBack hsorted hfloats hdepth
    have hagain : Payload.ofInput again.files again.input = .ok payload :=
      Payload.ofInput_text_of_readsBack i.files hpath hback
    -- The plan does not look at the input.
    have hplan' : again.plan = .run .read settings filter := hplan
    exact ⟨(exitStatus_run_read_eq_zero_iff hplan').mpr ⟨payload, hagain⟩,
      (output_run_read hplan' hagain).trans houtput.symm⟩

/-- A payload in a file, with a field of its kind and two extras, and the same
payload as it stands in the line about it. -/
theorem run_read_again :
    let files : FileTree := ⟨[(["kept"], .file (Utf8.encode
      "\x7b\"x_y\":1.50, \"type\":\"Stop\", \"turn_id\":\"t\", \"a\":null\x7d"))]⟩
    let read (input : String) : Invocation := ⟨["read"], [], files, ⟨Utf8.encode input, none⟩⟩
    let indirect := "\x7b\"payload-path\":\"kept\"\x7d"
    let payload := Record.ofMembers [("a", .null), ("turn_id", .string "t"),
      ("type", .string "Stop"), ("x_y", .number (.float ⟨false, 6755399441055744, -52, by decide⟩))]
    (read indirect).run.output =
      "\x7b\"extras\":[\"a\",\"x_y\"],\"kind\":\"agent-turn-complete\",\"known\":true," ++
      "\"payload\":" ++ payload.toJson.text ++ ",\"type\":\"Stop\"\x7d\n" ∧
    (read payload.toJson.text).run.output = (read indirect).run.output := by
  intro files read indirect payload
  have hplan : (read indirect).plan = .run .read .default ⟨[⟨none, some .info⟩]⟩ := by
    decide +kernel
  obtain ⟨found, line, hfound, -, -, -, -, hagain⟩ := run_read _ _ _ hplan (by decide +kernel)
  have hpayload : (Payload.ofInput files ⟨Utf8.encode indirect, none⟩).toOption = some payload := by
    decide +kernel
  have heq : found = payload :=
    Option.some.inj ((congrArg Except.toOption hfound).symm.trans hpayload)
  subst heq
  exact ⟨by decide +kernel, (hagain (by decide +kernel) (by decide +kernel)).2⟩

/-- `30e22` is read as the nearest float, whose own text `3e+23` is read as the
float below it.  So a payload with that float, which names no file, is described
by another line when its text is read. -/
theorem run_read_misread_float :
    let read (input : String) : Invocation := ⟨["read"], [], .empty, ⟨Utf8.encode input, none⟩⟩
    let input := "\x7b\"x\":30e22\x7d"
    let payload := Record.ofMembers
      [("x", .number (.float ⟨false, 8940696716308594, 25, by decide⟩))]
    (Payload.ofInput .empty ⟨Utf8.encode input, none⟩).toOption = some payload ∧
    Envelope.payloadPath? payload.toJson = none ∧
    payload.toJson.text = "\x7b\"x\":3e+23\x7d" ∧
    (read input).run.exitStatus = 0 ∧ (read payload.toJson.text).run.exitStatus = 0 ∧
    (read payload.toJson.text).run.output ≠ (read input).run.output := by
  decide +kernel

end Invocation

end AgentHooks
