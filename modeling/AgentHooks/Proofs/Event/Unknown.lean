/-
Members that a shape does not know.

Binding sees a payload only through its discriminant and what is read of it under known
keys (`ofRecord_eq_of_read_eq`), where null counts for nothing (`ofRecord_eq_of_sent_eq`),
so two payloads that agree on the members under these keys bind to the same kind, header
and fields (`ofRecord_of_spelled_eq`).  A member under any other key can therefore be
added, replaced or removed, and nothing changes but the extras, which change in the same
way (`ofRecord_ignores_unknown`).
-/
import AgentHooks.Proofs.Event.Binding
import AgentHooks.Proofs.Json.Coercion

namespace AgentHooks

/-! ## What is seen of a payload -/

namespace Record

/-- What a payload sends under a canonical key: null is nothing. -/
def sent? (raw : Record) (c : String) : Option Json := (raw.normalized.get? c).bind Json.asSent?

/-- The discriminant is the same when all of its spellings are. -/
theorem discriminant_of_spelled_eq {raw raw' : Record}
    (h : raw'.spelled Key.discriminant = raw.spelled Key.discriminant) :
    raw'.discriminant = raw.discriminant := by
  rw [discriminant, discriminant]
  refine congrArg (Option.getD · "") (findSome?_congr fun key hkey => ?_)
  have hcanonical := Key.canonical_of_mem_spellings hkey
  rw [← get?_spelled raw' hcanonical, h, get?_spelled raw hcanonical]

end Record

namespace Event

/-- A field sees what was sent of its value. -/
theorem FieldType.read_bind_asSent? (type : FieldType) (value : Option Json) :
    type.read (value.bind Json.asSent?) = type.read value := by
  cases type with
  | text => exact congrArg FieldValue.text (Json.bind_asSent?_bind rfl value)
  | texts => exact congrArg FieldValue.texts (Json.bind_asSent?_bind rfl value)
  | integer => exact congrArg FieldValue.integer (Json.bind_asSent?_bind rfl value)
  | flag => exact congrArg FieldValue.flag (Json.bind_asSent?_bind rfl value)
  | sent => exact congrArg FieldValue.sent (Json.bind_asSent?_bind rfl value)

/-- An event is its kind, what is read of its payload for the header and the named fields,
the text of the discriminant and the members that are not known: payloads of one kind of
which the same is read differ in nothing else. -/
theorem ofRecord_eq_of_read_eq {raw raw' : Record}
    (hkind : (ofRecord raw').kind = (ofRecord raw).kind)
    (hversion : (raw'.normalized.get? Key.schemaVersion).bind Json.asInteger? =
      (raw.normalized.get? Key.schemaVersion).bind Json.asInteger?)
    (hid : (raw'.normalized.get? Key.eventId).bind Json.asText? =
      (raw.normalized.get? Key.eventId).bind Json.asText?)
    (htime : (raw'.normalized.get? Key.timestamp).bind Json.asText? =
      (raw.normalized.get? Key.timestamp).bind Json.asText?)
    (hread : ∀ f ∈ (ofRecord raw).kind.shape,
      f.type.read (raw'.normalized.get? f.name) = f.type.read (raw.normalized.get? f.name)) :
    ofRecord raw' = { ofRecord raw with
      raw := raw'
      header := { (ofRecord raw).header with eventType := raw'.discriminant }
      extras := raw'.extras (ofRecord raw).kind.fieldNames } := by
  have hheader : (ofRecord raw').header =
      { (ofRecord raw).header with eventType := raw'.discriminant } := by
    show Header.read raw'.normalized raw'.discriminant = _
    rw [Header.read, hversion, hid, htime]
    rfl
  have hfields : (ofRecord raw').fields = (ofRecord raw).fields := by
    show (ofRecord raw').kind.shape.map _ = (ofRecord raw).kind.shape.map _
    rw [hkind]
    exact List.map_congr_left fun f hf => congrArg (Prod.mk f.name) (hread f hf)
  have hextras : (ofRecord raw').extras = raw'.extras (ofRecord raw).kind.fieldNames :=
    congrArg (fun kind : Kind => raw'.extras kind.fieldNames) hkind
  calc ofRecord raw' = ⟨raw', (ofRecord raw').kind, (ofRecord raw').header,
        (ofRecord raw').fields, (ofRecord raw').extras⟩ := rfl
    _ = _ := by rw [hkind, hheader, hfields, hextras]

/-- The same of payloads of one kind that send the same under all known keys but the
discriminant. -/
theorem ofRecord_eq_of_sent_eq {raw raw' : Record}
    (hkind : (ofRecord raw').kind = (ofRecord raw).kind)
    (hsent : ∀ c ∈ Key.common ++ (ofRecord raw).kind.fieldNames, c ≠ Key.discriminant →
      raw'.sent? c = raw.sent? c) :
    ofRecord raw' = { ofRecord raw with
      raw := raw'
      header := { (ofRecord raw).header with eventType := raw'.discriminant }
      extras := raw'.extras (ofRecord raw).kind.fieldNames } := by
  have hread {α : Type} {read : Json → Option α} (hnull : read .null = none) (c : String)
      (hc : c ∈ Key.common) (hne : c ≠ Key.discriminant) :
      (raw'.normalized.get? c).bind read = (raw.normalized.get? c).bind read := by
    rw [← Json.bind_asSent?_bind hnull, ← Json.bind_asSent?_bind hnull (raw.normalized.get? c)]
    exact congrArg (Option.bind · read) (hsent c (List.mem_append_left _ hc) hne)
  refine ofRecord_eq_of_read_eq hkind (hread rfl Key.schemaVersion (by decide) (by decide))
    (hread rfl Key.eventId (by decide) (by decide))
    (hread rfl Key.timestamp (by decide) (by decide)) fun f hf => ?_
  have hmem : f.name ∈ (ofRecord raw).kind.fieldNames := List.mem_map_of_mem hf
  have hne : f.name ≠ Key.discriminant := (Kind.canonical_of_mem_fieldNames f.name hmem).2
  rw [← f.type.read_bind_asSent?, ← f.type.read_bind_asSent? (raw.normalized.get? f.name)]
  exact congrArg f.type.read (hsent f.name (List.mem_append_right _ hmem) hne)

/-- Payloads with one discriminant that send the same under all other known keys bind to
the same kind and the same fields. -/
theorem ofRecord_of_sent_eq {raw raw' : Record}
    (hdiscriminant : raw'.discriminant = raw.discriminant)
    (hsent : ∀ c ∈ Key.common ++ (ofRecord raw).kind.fieldNames, c ≠ Key.discriminant →
      raw'.sent? c = raw.sent? c) :
    (ofRecord raw').kind = (ofRecord raw).kind ∧ (ofRecord raw').header = (ofRecord raw).header ∧
      (ofRecord raw').fields = (ofRecord raw).fields := by
  have hkind : (ofRecord raw').kind = (ofRecord raw).kind :=
    congrArg Kind.ofDiscriminant hdiscriminant
  rw [ofRecord_eq_of_sent_eq hkind hsent, hdiscriminant]
  exact ⟨rfl, rfl, rfl⟩

/-- Payloads with one discriminant and the same view under all other known keys bind to
the same kind and the same fields. -/
theorem ofRecord_of_view_eq {raw raw' : Record}
    (hdiscriminant : raw'.discriminant = raw.discriminant)
    (hview : ∀ c ∈ Key.common ++ (ofRecord raw).kind.fieldNames, c ≠ Key.discriminant →
      raw'.normalized.get? c = raw.normalized.get? c) :
    (ofRecord raw').kind = (ofRecord raw).kind ∧ (ofRecord raw').header = (ofRecord raw).header ∧
      (ofRecord raw').fields = (ofRecord raw).fields := by
  refine ofRecord_of_sent_eq hdiscriminant fun c hc hne => ?_
  rw [Record.sent?, Record.sent?, hview c hc hne]

/-- Payloads with the same members under all known keys bind to the same kind
and the same fields. -/
theorem ofRecord_of_spelled_eq {raw raw' : Record}
    (h : ∀ c ∈ Key.common ++ (ofRecord raw).kind.fieldNames, raw'.spelled c = raw.spelled c) :
    (ofRecord raw').kind = (ofRecord raw).kind ∧ (ofRecord raw').header = (ofRecord raw).header ∧
      (ofRecord raw').fields = (ofRecord raw).fields :=
  ofRecord_of_view_eq (Record.discriminant_of_spelled_eq (h _ (by simp [Key.common])))
    fun c hc hne => Record.get?_normalized_of_spelled_eq (h c hc) hne

/-- A key that is not known spells no known key. -/
theorem canonical_ne_of_not_isKnown {key : String} {named : List String}
    (h : Key.isKnown key named = false) : ∀ c ∈ Key.common ++ named, Key.canonical key ≠ c := by
  rintro c hc rfl
  rw [Key.isKnown_iff.mpr hc] at h
  cases h

end Event

namespace TokenUsage

/-- The canonical keys of the counts. -/
def countKeys : List String :=
  ["input-tokens", "cached-input-tokens", "output-tokens", "reasoning-output-tokens",
    "total-tokens"]

theorem ofRecord_of_view_eq {raw raw' : Record}
    (hview : ∀ c ∈ countKeys, raw'.normalized.get? c = raw.normalized.get? c) :
    ofRecord raw' = ofRecord raw := by
  simp only [countKeys, List.forall_mem_cons] at hview
  obtain ⟨hinput, hcached, houtput, hreasoning, htotal, -⟩ := hview
  simp only [ofRecord, hinput, hcached, houtput, hreasoning, htotal]

theorem ne_discriminant_of_mem_countKeys : ∀ c ∈ countKeys, c ≠ Key.discriminant := by decide

theorem ofRecord_of_spelled_eq {raw raw' : Record}
    (h : ∀ c ∈ countKeys, raw'.spelled c = raw.spelled c) : ofRecord raw' = ofRecord raw :=
  ofRecord_of_view_eq fun c hc =>
    Record.get?_normalized_of_spelled_eq (h c hc) (ne_discriminant_of_mem_countKeys c hc)

end TokenUsage

/-! ## Unknown keys -/

/-- A member under a key that is not known can be added, replaced or removed: the
kind, the header and the named fields stay, and the extras change in the same
way.  Token counts do not change with a member under any other key. -/
theorem Event.ofRecord_ignores_unknown :
    (∀ (raw : Record) (key : String),
      Key.isKnown key (ofRecord raw).kind.fieldNames = false →
      (∀ value,
        (ofRecord (raw.insert key value)).kind = (ofRecord raw).kind ∧
        (ofRecord (raw.insert key value)).header = (ofRecord raw).header ∧
        (ofRecord (raw.insert key value)).fields = (ofRecord raw).fields ∧
        (ofRecord (raw.insert key value)).extras = (ofRecord raw).extras.insert key value) ∧
      (ofRecord (raw.erase key)).kind = (ofRecord raw).kind ∧
      (ofRecord (raw.erase key)).header = (ofRecord raw).header ∧
      (ofRecord (raw.erase key)).fields = (ofRecord raw).fields ∧
      (ofRecord (raw.erase key)).extras = (ofRecord raw).extras.erase key) ∧
    ∀ (raw : Record) (key : String), Key.canonical key ∉ TokenUsage.countKeys →
      (∀ value, TokenUsage.ofJson? (raw.insert key value).toJson =
        TokenUsage.ofJson? raw.toJson) ∧
      TokenUsage.ofJson? (raw.erase key).toJson = TokenUsage.ofJson? raw.toJson := by
  constructor
  · intro raw key hkey
    have hne := canonical_ne_of_not_isKnown hkey
    constructor
    · intro value
      obtain ⟨hkind, hheader, hfields⟩ := ofRecord_of_spelled_eq fun c hc =>
        Record.spelled_insert raw (hne c hc) value
      refine ⟨hkind, hheader, hfields, ?_⟩
      show (raw.insert key value).extras (ofRecord (raw.insert key value)).kind.fieldNames = _
      rw [hkind]
      rw [Record.extras, Record.filterKeys_insert, hkey]
      rfl
    · obtain ⟨hkind, hheader, hfields⟩ := ofRecord_of_spelled_eq fun c hc =>
        Record.spelled_erase raw (hne c hc)
      refine ⟨hkind, hheader, hfields, ?_⟩
      show (raw.erase key).extras (ofRecord (raw.erase key)).kind.fieldNames = _
      rw [hkind]
      exact Record.filterKeys_erase raw _ key
  · intro raw key hkey
    have hne : ∀ c ∈ TokenUsage.countKeys, Key.canonical key ≠ c := by
      rintro c hc rfl
      exact hkey hc
    simp only [TokenUsage.ofJson?, Record.asRecord?_toJson, Option.map_some]
    constructor
    · intro value
      rw [TokenUsage.ofRecord_of_spelled_eq fun c hc =>
        Record.spelled_insert raw (hne c hc) value]
    · rw [TokenUsage.ofRecord_of_spelled_eq fun c hc => Record.spelled_erase raw (hne c hc)]

/-- A key with a hyphen and an underscore is close to one for the discriminant,
and none. -/
theorem Event.ofRecord_ignores_unknown_hook_event_name :
    Key.isKnown "hook-event_name" (ofRecord mixed).kind.fieldNames = false ∧
    (ofRecord (mixed.insert "hook-event_name" (.string "Stop"))).kind = .toolCallFinished ∧
    Key.canonical "input--tokens" ∉ TokenUsage.countKeys ∧
    TokenUsage.ofJson? (mixed.insert "input--tokens" (.bool true)).toJson =
      TokenUsage.ofJson? mixed.toJson := by
  have hkey : Key.isKnown "hook-event_name" (ofRecord mixed).kind.fieldNames = false := by
    decide +kernel
  have hcount : Key.canonical "input--tokens" ∉ TokenUsage.countKeys := by decide +kernel
  have hkind := ((ofRecord_ignores_unknown.1 mixed _ hkey).1 (.string "Stop")).1
  exact ⟨hkey, hkind.trans (by decide +kernel), hcount,
    (ofRecord_ignores_unknown.2 mixed _ hcount).1 (.bool true)⟩

end AgentHooks
