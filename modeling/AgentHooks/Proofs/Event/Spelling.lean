/-
Events in another spelling.

A payload whose keys have marks of one sort each, and no key in two spellings, binds to
the same event when keys are written with the other mark; its extras are the same
members, with their keys written so (`ofJson_mapKeys`).
-/
import AgentHooks.Proofs.Event.Unknown
import AgentHooks.Proofs.Payload.Spelling

namespace AgentHooks

namespace Event

section Extras

variable {raw : Record} (h : raw.Respellable) {respell : String → String}
  (hrespell : ∀ key ∈ raw.keys, Key.Respells key (respell key)) (named : List String)
include h hrespell

/-- The members that are not known are the same ones in another spelling. -/
theorem extras_mapKeys :
    (raw.mapKeys respell).extras named = (raw.extras named).mapKeys respell := by
  refine Record.filterKeys_mapKeys (Record.respell_apart h hrespell) fun key hkey => ?_
  rw [Key.isKnown, Key.isKnown, Key.canonical_of_respells (h.oneMark key hkey) (hrespell key hkey)]

theorem mem_extras_mapKeys_iff {m : String × Json} :
    m ∈ ((raw.mapKeys respell).extras named).members ↔
      ∃ n ∈ (raw.extras named).members, m = (respell n.1, n.2) := by
  have happart : ∀ key ∈ (raw.extras named).keys, ∀ key' ∈ (raw.extras named).keys,
      respell key = respell key' → key = key' := fun key hkey key' hkey' =>
    Record.respell_apart h hrespell key (Record.mem_keys_of_mem_filterKeys hkey) key'
      (Record.mem_keys_of_mem_filterKeys hkey')
  rw [extras_mapKeys h hrespell, Record.mem_members_mapKeys_iff happart]

end Extras

/-- Binding does not depend on the spelling of keys.  In a payload whose keys have marks
of one sort each, and of which no two are spellings of one another, any keys can be
written with all hyphens or all underscores: no member is lost, the kind, the header
and the named fields stay, and the extras are those from before, written in the same
way.  Token counts do not change either. -/
theorem ofJson_mapKeys {raw : Record} (h : raw.Respellable) {respell : String → String}
    (hrespell : ∀ key ∈ raw.keys, Key.Respells key (respell key)) :
    let e := ofJson raw.toJson
    let e' := ofJson (raw.mapKeys respell).toJson
    (∀ m, m ∈ (raw.mapKeys respell).members ↔ ∃ n ∈ raw.members, m = (respell n.1, n.2)) ∧
      e'.kind = e.kind ∧ e'.header = e.header ∧ e'.fields = e.fields ∧
      (∀ m, m ∈ e'.extras.members ↔ ∃ n ∈ e.extras.members, m = (respell n.1, n.2)) ∧
      TokenUsage.ofJson? (raw.mapKeys respell).toJson = TokenUsage.ofJson? raw.toJson := by
  intro e e'
  have hview (c : String) (hc : c ≠ Key.discriminant) :
      (raw.mapKeys respell).normalized.get? c = raw.normalized.get? c :=
    Record.get?_normalized_mapKeys h hrespell hc
  obtain ⟨hkind, hheader, hfields⟩ := ofRecord_of_view_eq
    (Record.discriminant_mapKeys h hrespell) fun c _ hc => hview c hc
  have he : e = ofRecord raw := ofJson_toJson raw
  have he' : e' = ofRecord (raw.mapKeys respell) := ofJson_toJson _
  rw [he, he']
  refine ⟨fun m => Record.mem_members_mapKeys_iff (Record.respell_apart h hrespell), hkind,
    hheader, hfields, ?_, ?_⟩
  · intro m
    show m ∈ ((raw.mapKeys respell).extras
      (ofRecord (raw.mapKeys respell)).kind.fieldNames).members ↔ _
    rw [hkind]
    exact mem_extras_mapKeys_iff h hrespell (ofRecord raw).kind.fieldNames
  · have hcounts : TokenUsage.ofRecord (raw.mapKeys respell) = TokenUsage.ofRecord raw :=
      TokenUsage.ofRecord_of_view_eq fun c hc =>
        hview c (TokenUsage.ne_discriminant_of_mem_countKeys c hc)
    simp only [TokenUsage.ofJson?, Record.asRecord?_toJson, Option.map_some, hcounts]

/-- A payload with the discriminant under a second name, a field and another key. -/
def spelledOut : Record :=
  .ofMembers [("hook_event_name", .string "PostToolUse"), ("duration-ms", .string " 7 "),
    ("x_y", .null), ("cwd", .string "/")]

/-- Writes hyphens for underscores and underscores for hyphens. -/
def otherMark (key : String) : String :=
  if Key.hyphenated key = key then Key.underscored key else Key.hyphenated key

theorem ofJson_mapKeys_other_mark :
    spelledOut.Respellable ∧ (∀ key ∈ spelledOut.keys, Key.Respells key (otherMark key)) ∧
      spelledOut.keys.map otherMark = ["cwd", "duration_ms", "hook-event-name", "x-y"] ∧
      (ofJson (spelledOut.mapKeys otherMark).toJson).kind = .toolCallFinished ∧
      (ofJson (spelledOut.mapKeys otherMark).toJson).field? "duration-ms" =
        some (.integer (some 7)) ∧
      ("x-y", Json.null) ∈ (ofJson (spelledOut.mapKeys otherMark).toJson).extras.members := by
  have h : spelledOut.Respellable := ⟨by decide +kernel, by decide +kernel⟩
  have hrespell : ∀ key ∈ spelledOut.keys, Key.Respells key (otherMark key) := by decide +kernel
  obtain ⟨-, hkind, -, hfields, hextras, -⟩ := ofJson_mapKeys h hrespell
  refine ⟨h, hrespell, by decide +kernel, hkind.trans (by decide +kernel), ?_, ?_⟩
  · rw [field?, hfields]
    decide +kernel
  · rw [hextras]
    exact ⟨("x_y", .null), by decide +kernel, by decide +kernel⟩

end Event

end AgentHooks
