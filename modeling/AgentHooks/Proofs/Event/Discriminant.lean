/-
The discriminant of a payload.

Senders put the discriminant under several keys.  The one that counts is the first under
which there is something other than null (`Leads`), and what stands under later keys does
not show.  Payloads whose discriminants name one kind bind to events that differ in the
text of the discriminant alone (`discriminant_acts_by_kind`).  Every value has a text,
but the names of kinds are texts that only strings have, so no number, array or other
value is taken for one (`only_strings_name_kinds`).
-/
import AgentHooks.Proofs.Event.Unknown
import AgentHooks.Proofs.Message.RoundTrip
import AgentHooks.Proofs.Payload.Canonical

namespace AgentHooks

namespace Record

/-! ## The member that counts -/

/-- Whether there is nothing under a key, or null. -/
def Vacant (raw : Record) (key : String) : Prop :=
  raw.get? key = none ∨ raw.get? key = some .null

instance (raw : Record) (key : String) : Decidable (raw.Vacant key) :=
  inferInstanceAs (Decidable (_ ∨ _))

theorem bind_asText?_eq_none_iff {raw : Record} {key : String} :
    (raw.get? key).bind Json.asText? = none ↔ raw.Vacant key := by
  rw [Vacant]
  cases raw.get? key with
  | none => simp
  | some v => simp [Json.asText?_eq_none_iff]

/-- The first spelling of the discriminant under which a payload has something other than
null, between the spellings before and after it. -/
structure Leads (raw : Record) (earlier : List String) (key : String) (later : List String)
    (v : Json) : Prop where
  spellings_eq : Key.discriminantSpellings = earlier ++ key :: later
  vacant : ∀ k ∈ earlier, raw.Vacant k
  get?_eq : raw.get? key = some v
  ne_null : v ≠ .null

section Leading

variable {raw : Record} {earlier later : List String} {key : String} {v : Json}

theorem asText?_of_leads (h : raw.Leads earlier key later v) :
    v.asText? = some raw.discriminant := by
  obtain ⟨s, hs⟩ := Option.ne_none_iff_exists'.mp (mt Json.asText?_eq_none_iff.mp h.ne_null)
  have hread : (raw.get? key).bind Json.asText? = some s := by
    rw [h.get?_eq]
    exact hs
  have hfirst : Key.discriminantSpellings.findSome?
      (fun k => (raw.get? k).bind Json.asText?) = some s :=
    List.findSome?_eq_some_iff.mpr ⟨earlier, key, later, h.spellings_eq, hread,
      fun k hk => bind_asText?_eq_none_iff.mpr (h.vacant k hk)⟩
  rw [discriminant, hfirst, hs]
  rfl

/-- A discriminant that is not empty is the text of the member that counts. -/
theorem exists_leads (h : raw.discriminant ≠ "") :
    ∃ earlier key later v, raw.Leads earlier key later v := by
  cases hfirst : Key.discriminantSpellings.findSome? fun k => (raw.get? k).bind Json.asText? with
  | none =>
      rw [discriminant, hfirst] at h
      exact absurd rfl h
  | some s =>
      obtain ⟨earlier, key, later, hspellings, hread, hvacant⟩ :=
        List.findSome?_eq_some_iff.mp hfirst
      obtain ⟨v, hv, htext⟩ := Option.bind_eq_some_iff.mp hread
      refine ⟨earlier, key, later, v, hspellings, ?_, hv, ?_⟩
      · exact fun k hk => bind_asText?_eq_none_iff.mp (hvacant k hk)
      · rintro rfl
        cases htext

/-- What stands under later spellings does not show. -/
theorem Leads.congr {raw' : Record} (h : raw.Leads earlier key later v)
    (hsame : ∀ k, k ∉ later → raw'.get? k = raw.get? k) : raw'.Leads earlier key later v := by
  -- No spelling is listed twice, so neither `key` nor one of `earlier` is a later one.
  have hnodup : (earlier ++ key :: later).Nodup := by
    rw [← h.spellings_eq]
    decide
  obtain ⟨-, htail, hdisjoint⟩ := List.nodup_append.mp hnodup
  refine ⟨h.spellings_eq, ?_, ?_, h.ne_null⟩
  · intro k hk
    have hlater : k ∉ later := fun hmem =>
      hdisjoint k hk k (List.mem_cons_of_mem _ hmem) rfl
    rw [Vacant, hsame k hlater]
    exact h.vacant k hk
  · rw [hsame key (List.nodup_cons.mp htail).1]
    exact h.get?_eq

end Leading

/-! ## Payloads apart from the discriminant -/

section Apart

variable {raw raw' : Record}
  (hsame : ∀ key, key ∉ Key.discriminantSpellings → raw'.get? key = raw.get? key)
include hsame

theorem sent?_of_apart (c : String) : raw'.sent? c = raw.sent? c := by
  rw [sent?, sent?, normalized_of_apart hsame]

/-- No spelling of the discriminant is an extra. -/
theorem extras_of_apart (named : List String) : raw'.extras named = raw.extras named := by
  refine ext_get? fun key => ?_
  rw [extras, extras, get?_filterKeys, get?_filterKeys]
  by_cases hkey : key ∈ Key.discriminantSpellings
  · have hknown : Key.isKnown key named = true := by
      rw [Key.isKnown_iff, Key.canonical_of_mem_spellings hkey]
      exact List.mem_append_left _ (by decide)
    rw [hknown]
    rfl
  · rw [hsame key hkey]

end Apart

end Record

namespace Event

/-! ## Names of kinds -/

theorem Kind.ofDiscriminant_of_mem_spellings {kind : Kind} :
    ∀ s ∈ kind.spellings, ofDiscriminant s = kind := by
  cases kind <;> decide +kernel

theorem Kind.isName_of_mem_spellings {kind : Kind} : ∀ s ∈ kind.spellings, Json.IsName s := by
  cases kind <;> decide +kernel

theorem Kind.ofDiscriminant_eq_iff {kind : Kind} (hkind : kind ≠ .unknown) {text : String} :
    ofDiscriminant text = kind ↔ text ∈ kind.spellings := by
  constructor
  · intro h
    cases hfound : ofSpelling? text with
    | none =>
        rw [ofDiscriminant, hfound] at h
        exact absurd h.symm hkind
    | some found =>
        rw [ofDiscriminant, hfound] at h
        have hspells := List.find?_some hfound
        rw [show found = kind from h] at hspells
        exact List.contains_iff_mem.mp hspells
  · exact ofDiscriminant_of_mem_spellings text

/-! ## The discriminant acts through its kind -/

theorem ofRecord_of_apart {raw raw' : Record}
    (hsame : ∀ key, key ∉ Key.discriminantSpellings → raw'.get? key = raw.get? key)
    (hkind : (ofRecord raw').kind = (ofRecord raw).kind) :
    ofRecord raw' = { ofRecord raw with
      raw := raw'
      header := { (ofRecord raw).header with eventType := raw'.discriminant } } := by
  rw [ofRecord_eq_of_sent_eq hkind fun c _ _ => Record.sent?_of_apart hsame c,
    Record.extras_of_apart hsame]
  rfl

/-- Only the payload itself shows what stands under spellings after the one that counts. -/
theorem ofRecord_of_leads {raw raw' : Record} {earlier later : List String} {key : String}
    {v : Json} (h : raw.Leads earlier key later v)
    (hsame : ∀ k, k ∉ later → raw'.get? k = raw.get? k) :
    ofRecord raw' = { ofRecord raw with raw := raw' } := by
  have hdiscriminant : raw'.discriminant = raw.discriminant := by
    have htext := Record.asText?_of_leads (h.congr hsame)
    rw [Record.asText?_of_leads h] at htext
    exact (Option.some.inj htext).symm
  have hapart : ∀ k, k ∉ Key.discriminantSpellings → raw'.get? k = raw.get? k := by
    intro k hk
    refine hsame k fun hmem => hk ?_
    rw [h.spellings_eq]
    exact List.mem_append_right _ (List.mem_cons_of_mem _ hmem)
  rw [ofRecord_of_apart hapart (congrArg Kind.ofDiscriminant hdiscriminant), hdiscriminant]
  rfl

/-- The discriminant acts only through the kind that it names.  Payloads that agree under
all other keys and bind to one kind have equal headers, but for the text of the
discriminant, and equal fields and extras.  A member under a spelling after the one that
counts can be added, replaced or removed, and the event is the same but for its payload. -/
theorem discriminant_acts_by_kind :
    (∀ raw raw' : Record,
      (∀ key, key ∉ Key.discriminantSpellings → raw'.get? key = raw.get? key) →
      (ofRecord raw').kind = (ofRecord raw).kind →
      (ofRecord raw').header.schemaVersion = (ofRecord raw).header.schemaVersion ∧
      (ofRecord raw').header.eventId = (ofRecord raw).header.eventId ∧
      (ofRecord raw').header.timestamp = (ofRecord raw).header.timestamp ∧
      (ofRecord raw').fields = (ofRecord raw).fields ∧
      (ofRecord raw').extras = (ofRecord raw).extras) ∧
    ∀ (raw : Record) (earlier : List String) (first : String) (later : List String) (v : Json),
      raw.Leads earlier first later v → ∀ key ∈ later,
      (∀ value, ofRecord (raw.insert key value) =
        { ofRecord raw with raw := raw.insert key value }) ∧
      ofRecord (raw.erase key) = { ofRecord raw with raw := raw.erase key } := by
  constructor
  · intro raw raw' hsame hkind
    rw [ofRecord_of_apart hsame hkind]
    exact ⟨rfl, rfl, rfl, rfl, rfl⟩
  · intro raw earlier first later v hleads key hkey
    have hne : ∀ k, k ∉ later → k ≠ key := by
      rintro k hk rfl
      exact hk hkey
    constructor
    · intro value
      refine ofRecord_of_leads hleads fun k hk => ?_
      rw [Record.get?_insert, if_neg (hne k hk)]
    · refine ofRecord_of_leads hleads fun k hk => ?_
      rw [Record.get?_erase, if_neg (hne k hk)]

/-- A payload that names its kind under its third key, and differently. -/
def renamed : Record :=
  (mixed.insert "type" .null).insert "event_type" (.string "tool.execute.after")

theorem discriminant_acts_by_kind_renamed :
    (∀ key, key ∉ Key.discriminantSpellings → renamed.get? key = mixed.get? key) ∧
    (ofRecord renamed).kind = (ofRecord mixed).kind ∧
    (ofRecord renamed).fields = (ofRecord mixed).fields ∧
    renamed.Leads ["type", "event-type"] "event_type" ["xcodex-event-type",
      "xcodex_event_type", "hook-event-name", "hook_event_name"] (.string "tool.execute.after") ∧
    (ofRecord (renamed.insert "hook-event-name" (.string "Stop"))).header.eventType =
      "tool.execute.after" := by
  have hsame : ∀ key, key ∉ Key.discriminantSpellings → renamed.get? key = mixed.get? key := by
    intro key hkey
    have htype : key ≠ "type" := fun h => hkey (h ▸ by decide)
    have hevent : key ≠ "event_type" := fun h => hkey (h ▸ by decide)
    rw [renamed, Record.get?_insert, if_neg hevent, Record.get?_insert, if_neg htype]
  have hkind : (ofRecord renamed).kind = (ofRecord mixed).kind := by decide +kernel
  have hleads : renamed.Leads ["type", "event-type"] "event_type" ["xcodex-event-type",
      "xcodex_event_type", "hook-event-name", "hook_event_name"]
      (.string "tool.execute.after") :=
    ⟨rfl, by decide +kernel, by decide +kernel, nofun⟩
  have hfields := (discriminant_acts_by_kind.1 mixed renamed hsame hkind).2.2.2.1
  have hlater := (discriminant_acts_by_kind.2 renamed _ _ _ _ hleads "hook-event-name"
    (by decide)).1 (.string "Stop")
  refine ⟨hsame, hkind, hfields, hleads, ?_⟩
  rw [hlater]
  decide +kernel

/-! ## Only strings are names -/

theorem kind_eq_iff_leads {raw : Record} {kind : Kind} (hkind : kind ≠ .unknown) :
    (ofRecord raw).kind = kind ↔ ∃ earlier key later name,
      raw.Leads earlier key later (.string name) ∧ name ∈ kind.spellings := by
  rw [show (ofRecord raw).kind = Kind.ofDiscriminant raw.discriminant from rfl,
    Kind.ofDiscriminant_eq_iff hkind]
  constructor
  · intro hmem
    -- The text of the member that counts is a name, so that member is a string.
    have hname := Kind.isName_of_mem_spellings _ hmem
    obtain ⟨earlier, key, later, v, hleads⟩ :=
      Record.exists_leads (Json.ne_empty_of_isName hname)
    have hv := (Json.asText?_eq_some_iff hname).mp (Record.asText?_of_leads hleads)
    exact ⟨earlier, key, later, raw.discriminant, hv ▸ hleads, hmem⟩
  · rintro ⟨earlier, key, later, name, hleads, hmem⟩
    rwa [← Option.some.inj (Record.asText?_of_leads hleads)]

theorem isName_eventKind : Json.IsName Message.eventKind := by decide +kernel

/-- A payload is of a kind when its discriminant is a string that spells the kind, and a
message carries an event when its kind is the string for that.  A value that is not a
string names no kind as a discriminant, since its text spells neither. -/
theorem only_strings_name_kinds :
    (∀ (raw : Record) (kind : Kind), kind ≠ .unknown →
      ((ofRecord raw).kind = kind ↔ ∃ earlier key later name,
        raw.Leads earlier key later (.string name) ∧ name ∈ kind.spellings)) ∧
    (∀ (text : String) (line : Nat) (m : Message), Message.ofLine text line = .ok m →
      ∃ members : Record, Json.parseText text = .ok members.toJson ∧
        (m.isEvent = true ↔
          members.get? Message.kindKey = some (.string Message.eventKind))) ∧
    ∀ v : Json, (∀ s, v ≠ .string s) →
      (∀ (raw : Record) (earlier : List String) (key : String) (later : List String),
        raw.Leads earlier key later v → (ofRecord raw).kind = .unknown) ∧
      ∀ text, v.asText? = some text →
        (∀ kind : Kind, text ∉ kind.spellings) ∧ text ≠ Message.eventKind := by
  refine ⟨fun raw kind hkind => kind_eq_iff_leads hkind, ?_, ?_⟩
  · intro text line m hm
    obtain ⟨v, members, hparse, hmembers, rfl⟩ := Message.ofLine_eq_ok_iff.mp hm
    refine ⟨members, ?_, ?_⟩
    · rw [hparse, (Json.asRecord?_of_parse_iff hparse).mp hmembers]
    · rw [Message.isEvent, beq_iff_eq]
      exact Json.getD_asText?_eq_iff isName_eventKind
  · intro v hv
    have hnot {text : String} (htext : v.asText? = some text) (hname : Json.IsName text) : False :=
      hv text ((Json.asText?_eq_some_iff hname).mp htext)
    constructor
    · intro raw earlier key later hleads
      refine Decidable.byContradiction fun hkind => ?_
      have hmem := (Kind.ofDiscriminant_eq_iff hkind).mp rfl
      exact hnot (Record.asText?_of_leads hleads) (Kind.isName_of_mem_spellings _ hmem)
    · intro text htext
      constructor
      · exact fun kind hmem => hnot htext (Kind.isName_of_mem_spellings text hmem)
      · exact fun heq => hnot htext (heq ▸ isName_eventKind)

/-- A message with an array around the name of its kind. -/
def boxed : Json := .object [("type", .array [.string "hook-event"])]

/-- Arrays around the names of a kind of event and of the kind of message. -/
theorem only_strings_name_kinds_arrays :
    (∃ earlier key later name, renamed.Leads earlier key later (.string name) ∧
      name ∈ Kind.toolCallFinished.spellings) ∧
    Message.ofLine "\x7b\"type\":[\"hook-event\"]\x7d" 1 =
      .ok ⟨none, "[\"hook-event\"]", none, .null⟩ ∧
    (∃ members : Record,
      Json.parseText "\x7b\"type\":[\"hook-event\"]\x7d" = .ok members.toJson ∧
      members.get? Message.kindKey ≠ some (.string Message.eventKind)) ∧
    (ofRecord (renamed.insert "type" (.array [.string "Stop"]))).kind = .unknown ∧
    ∀ kind : Kind, "[\"Stop\"]" ∉ kind.spellings := by
  have htext : boxed.text = "\x7b\"type\":[\"hook-event\"]\x7d" := by decide +kernel
  have hreads : boxed.ReadsBack := by decide +kernel
  have hline : Message.ofLine "\x7b\"type\":[\"hook-event\"]\x7d" 1 =
      .ok ⟨none, "[\"hook-event\"]", none, .null⟩ :=
    Message.ofLine_eq_ok_iff.mpr ⟨boxed, _, htext ▸ hreads, rfl, by decide +kernel⟩
  obtain ⟨members, hparse, hevent⟩ := only_strings_name_kinds.2.1 _ _ _ hline
  have hstop := only_strings_name_kinds.2.2 (.array [.string "Stop"]) nofun
  refine ⟨?_, hline, ⟨members, hparse, ?_⟩, ?_, ?_⟩
  · exact (only_strings_name_kinds.1 renamed .toolCallFinished nofun).mp (by decide +kernel)
  · rw [ne_eq, ← hevent]
    decide +kernel
  · refine hstop.1 _ [] "type" Key.discriminantSpellings.tail ⟨rfl, nofun, ?_, nofun⟩
    decide +kernel
  · exact (hstop.2 _ (by decide +kernel)).1

end Event

end AgentHooks
