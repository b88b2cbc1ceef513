/-
What binding keeps and what it reads.

`ofJson_faithful` says that an event has the payload as it came, that each
member of it is either an extra or under a key that the event knows, and that a
field is read from what the payload supplies for its key.  All keys of fields
are canonical (`canonical_of_mem_fieldNames`) and no shape names one twice, so
a field is its key looked up in the normalized view (`field?_ofRecord`).
-/
import AgentHooks.Event.Binding
import AgentHooks.Proofs.Payload.Keys

namespace AgentHooks.Event

/-! ## The names of the fields -/

theorem Kind.canonical_of_mem_fieldNames {kind : Kind} :
    ∀ c ∈ kind.fieldNames, Key.canonical c = c ∧ c ≠ Key.discriminant := by
  cases kind <;> decide +kernel

theorem Kind.nodup_fieldNames (kind : Kind) : kind.fieldNames.Nodup := by
  cases kind <;> decide +kernel

/-! ## The parts of an event -/

theorem ofJson_toJson (raw : Record) : ofJson raw.toJson = ofRecord raw := by
  rw [ofJson, Record.asRecord?_toJson, Option.getD_some]

section Parts

variable (raw : Record)

/-- The extras are the members whose keys are not known. -/
theorem mem_extras_ofRecord {m : String × Json} :
    m ∈ (ofRecord raw).extras.members ↔
      m ∈ raw.members ∧ Key.canonical m.1 ∉ Key.common ++ (ofRecord raw).kind.fieldNames := by
  show m ∈ (raw.extras (ofRecord raw).kind.fieldNames).members ↔ _
  rw [Record.extras, Record.filterKeys, List.mem_filter, ← Key.isKnown_iff, Bool.not_eq_true',
    Bool.not_eq_true]

/-- A named field is its key looked up in the normalized view. -/
theorem field?_ofRecord {f : Field} (hf : f ∈ (ofRecord raw).kind.shape) :
    (ofRecord raw).field? f.name = some (f.type.read (raw.normalized.get? f.name)) := by
  have hnodup : ((ofRecord raw).fields.map (·.1)).Nodup := by
    show (((ofRecord raw).kind.shape.map _).map _).Nodup
    rw [List.map_map]
    exact Kind.nodup_fieldNames (ofRecord raw).kind
  have hmem : (f.name, f.type.read (raw.normalized.get? f.name)) ∈ (ofRecord raw).fields :=
    List.mem_map.mpr ⟨f, hf, rfl⟩
  exact congrArg (Option.map (·.2)) (Record.find?_of_keys_ne (List.pairwise_map.mp hnodup) hmem)

end Parts

/-! ## Binding as a whole -/

/-- An event that has lost nothing of a payload and read each of its fields from
the payload as it should. -/
structure Faithful (raw : Record) (e : Event) : Prop where
  raw_eq : e.raw = raw
  toJson_eq : e.toJson = .object raw.members
  kind_eq : e.kind = Kind.ofDiscriminant e.header.eventType
  mem_extras_iff : ∀ m, m ∈ e.extras.members ↔
    m ∈ raw.members ∧ Key.canonical m.1 ∉ Key.common ++ e.kind.fieldNames
  /-- A member of the payload is an extra or known, and never both. -/
  apart : ∀ m ∈ raw.members,
    m ∈ e.extras.members ↔ ¬ Key.canonical m.1 ∈ Key.common ++ e.kind.fieldNames
  schemaVersion_eq : ∀ v, raw.Supplies Key.schemaVersion v →
    e.header.schemaVersion = (v.bind Json.asInteger?).getD 0
  eventId_eq : ∀ v, raw.Supplies Key.eventId v →
    e.header.eventId = (v.bind Json.asText?).getD ""
  timestamp_eq : ∀ v, raw.Supplies Key.timestamp v →
    e.header.timestamp = (v.bind Json.asText?).getD ""
  field?_eq : ∀ f ∈ e.kind.shape, ∀ v, raw.Supplies f.name v →
    e.field? f.name = some (f.type.read v)

theorem faithful_ofRecord (raw : Record) : Faithful raw (ofRecord raw) where
  raw_eq := rfl
  toJson_eq := rfl
  kind_eq := rfl
  mem_extras_iff m := mem_extras_ofRecord raw
  apart := by
    intro m hm
    rw [mem_extras_ofRecord]
    exact and_iff_right hm
  schemaVersion_eq := by
    intro v hv
    rw [← hv.get?_normalized (by decide) (by decide)]
    rfl
  eventId_eq := by
    intro v hv
    rw [← hv.get?_normalized (by decide) (by decide)]
    rfl
  timestamp_eq := by
    intro v hv
    rw [← hv.get?_normalized (by decide) (by decide)]
    rfl
  field?_eq := by
    intro f hf v hv
    obtain ⟨hcanonical, hne⟩ := Kind.canonical_of_mem_fieldNames f.name (List.mem_map_of_mem hf)
    rw [field?_ofRecord raw hf, hv.get?_normalized hcanonical hne]

/-- Binding loses nothing and confuses nothing.  A value that is not an object
binds as an empty one. -/
theorem ofJson_faithful :
    (∀ raw : Record, Faithful raw (ofJson raw.toJson)) ∧
    ∀ v, (∀ members, v ≠ .object members) → ofJson v = ofJson (.object []) := by
  constructor
  · intro raw
    rw [ofJson_toJson]
    exact faithful_ofRecord raw
  · intro v hv
    cases v with
    | null | bool _ | number _ | string _ | array _ => rfl
    | object members => exact absurd rfl (hv members)

/-- A payload with keys of both spellings, one of them twice. -/
def mixed : Record :=
  .ofMembers [("type", .string "PostToolUse"), ("duration_ms", .string " 7 "),
    ("tool_name", .bool true), ("tool-name", .string "run"), ("x_y", .null)]

theorem ofJson_faithful_mixed :
    (ofJson mixed.toJson).field? "duration-ms" = some (.integer (some 7)) ∧
    (ofJson mixed.toJson).field? "tool-name" = some (.text (some "run")) ∧
    (ofJson mixed.toJson).field? "status" = some (.text none) ∧
    ("x_y", Json.null) ∈ (ofJson mixed.toJson).extras.members := by
  have hfaithful := ofJson_faithful.1 mixed
  have hduration := hfaithful.field?_eq ⟨"duration-ms", .integer⟩ (by decide +kernel)
    (some (.string " 7 ")) (.only (m := ("duration_ms", .string " 7 ")) (by decide +kernel))
  have htool := hfaithful.field?_eq ⟨"tool-name", .text⟩ (by decide +kernel)
    (some (.string "run")) (.exact (by decide +kernel))
  have hstatus := hfaithful.field?_eq ⟨"status", .text⟩ (by decide +kernel) none
    (.missing (by decide +kernel))
  exact ⟨hduration.trans (by decide +kernel), htool, hstatus,
    (hfaithful.mem_extras_iff ("x_y", .null)).mpr (by decide +kernel)⟩

end AgentHooks.Event
