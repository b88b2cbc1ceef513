/-
Canonical forms of canonical keys.

A key is looked for among the spellings of the discriminant as it stands, before its
underscores are replaced.  A key with marks of both sorts can therefore turn into a spelling
of the discriminant without being one.  There are four such keys (`mem_mixedSpellings_iff`).
They are the only ones whose canonical form is not canonical (`canonical_canonical`), and
what the view has under a spelling of the discriminant comes from them
(`get?_normalized_of_mem_spellings`).  The discriminant itself leaves no trace in the view,
under whatever spelling it is sent (`normalized_of_apart`).
-/
import AgentHooks.Proofs.Payload.View
import Mathlib.Data.List.Sections

namespace AgentHooks

namespace Key

/-! ## The keys that turn into the discriminant's -/

/-- The keys with marks of both sorts that are spellings of the discriminant once their
underscores are replaced, in key order. -/
def mixedSpellings : List String :=
  ["hook-event_name", "hook_event-name", "xcodex-event_type", "xcodex_event-type"]

/-- The characters that a character of a key in hyphens can have stood for. -/
def unhyphen (c : Char) : List Char := if c = '-' then ['-', '_'] else [c]

/-- The keys that a key in hyphens can have been written as. -/
def unhyphenated (key : String) : List String :=
  (key.toList.map unhyphen).sections.map String.ofList

theorem mem_unhyphen (c : Char) : c ∈ unhyphen (hyphen c) := by
  by_cases hmark : c = '_'
  · rw [hmark]
    decide
  · rw [hyphen, if_neg hmark, unhyphen]
    split
    · rename_i hhyphen
      rw [hhyphen]
      exact List.mem_cons_self
    · exact List.mem_singleton_self c

theorem mem_unhyphenated (key : String) : key ∈ unhyphenated (hyphenated key) := by
  refine List.mem_map.mpr ⟨key.toList, List.mem_sections.mpr ?_, String.ofList_toList⟩
  rw [toList_hyphenated, List.map_map, List.forall₂_map_right_iff, List.forall₂_same]
  intro c _
  exact mem_unhyphen c

theorem ordered_mixedSpellings : mixedSpellings.Pairwise (· < ·) := by
  simp only [mixedSpellings, List.pairwise_cons, List.forall_mem_cons, String.reduceLT]
  simp

/-- A mixed spelling is no spelling of the discriminant, and with hyphens it is one other than
the discriminant itself. -/
theorem hyphenated_of_mem_mixedSpellings : ∀ k ∈ mixedSpellings,
    k ∉ discriminantSpellings ∧ hyphenated k ∈ discriminantSpellings ∧
      hyphenated k ≠ discriminant := by
  simp [mixedSpellings, discriminantSpellings, hyphenated, hyphen, discriminant]

/-- The mixed spellings are all the keys that become a spelling of the discriminant and
are none. -/
theorem mem_mixedSpellings_iff {key : String} :
    key ∈ mixedSpellings ↔
      key ∉ discriminantSpellings ∧ hyphenated key ∈ discriminantSpellings := by
  -- A key in hyphens can have been written in few ways, and each of them is in a list.
  have hall : ∀ name ∈ discriminantSpellings, ∀ k ∈ unhyphenated name,
      k ∈ discriminantSpellings ∨ k ∈ mixedSpellings := by
    simp [mixedSpellings, discriminantSpellings, unhyphenated, unhyphen]
  constructor
  · intro hmixed
    obtain ⟨hkey, hname, -⟩ := hyphenated_of_mem_mixedSpellings key hmixed
    exact ⟨hkey, hname⟩
  · rintro ⟨hkey, hname⟩
    exact (hall _ hname key (mem_unhyphenated key)).resolve_left hkey

/-! ## The canonical form, taken twice -/

theorem canonical_of_not_mem_spellings {key : String} (h : key ∉ discriminantSpellings) :
    canonical key = hyphenated key :=
  if_neg (mt List.contains_iff_mem.mp h)

theorem canonical_canonical (key : String) :
    canonical (canonical key) = if key ∈ mixedSpellings then discriminant else canonical key := by
  by_cases hkey : key ∈ discriminantSpellings
  · have hmixed : key ∉ mixedSpellings := fun h => (mem_mixedSpellings_iff.mp h).1 hkey
    rw [if_neg hmixed, canonical_of_mem_spellings hkey]
    exact canonical_of_mem_spellings List.mem_cons_self
  · rw [canonical_of_not_mem_spellings hkey]
    -- Replacing underscores makes a spelling of some keys, and a second time changes no key.
    by_cases hname : hyphenated key ∈ discriminantSpellings
    · rw [if_pos (mem_mixedSpellings_iff.mpr ⟨hkey, hname⟩)]
      exact canonical_of_mem_spellings hname
    · rw [if_neg fun h => hname (mem_mixedSpellings_iff.mp h).2,
        canonical_of_not_mem_spellings hname, hyphenated_hyphenated]

theorem canonical_canonical_eq_iff {key : String} :
    canonical (canonical key) = canonical key ↔ key ∉ mixedSpellings := by
  rw [canonical_canonical]
  by_cases hmixed : key ∈ mixedSpellings
  · obtain ⟨hkey, -, hne⟩ := hyphenated_of_mem_mixedSpellings key hmixed
    rw [if_pos hmixed, canonical_of_not_mem_spellings hkey]
    exact iff_of_false hne.symm (not_not_intro hmixed)
  · rw [if_neg hmixed]
    exact iff_of_true rfl hmixed

/-- A spelling of the discriminant is a canonical form of mixed spellings alone. -/
theorem canonical_eq_iff_of_mem_spellings {key name : String}
    (hname : name ∈ discriminantSpellings) (hne : name ≠ discriminant) :
    canonical key = name ↔ key ∈ mixedSpellings ∧ hyphenated key = name := by
  constructor
  · intro h
    have hkey : key ∉ discriminantSpellings := fun hmem =>
      hne (h.symm.trans (canonical_of_mem_spellings hmem))
    rw [canonical_of_not_mem_spellings hkey] at h
    exact ⟨mem_mixedSpellings_iff.mpr ⟨hkey, h ▸ hname⟩, h⟩
  · rintro ⟨hmixed, rfl⟩
    exact canonical_of_not_mem_spellings (mem_mixedSpellings_iff.mp hmixed).1

end Key

namespace Record

/-! ## The view under the spellings of the discriminant -/

theorem get?_normalized_discriminant (raw : Record) :
    raw.normalized.get? Key.discriminant = none :=
  get?_foldl_enter_discriminant raw.members empty

/-- The view is the same for payloads that agree under all keys but the spellings of the
discriminant. -/
theorem normalized_of_apart {raw raw' : Record}
    (hsame : ∀ key, key ∉ Key.discriminantSpellings → raw'.get? key = raw.get? key) :
    raw'.normalized = raw.normalized := by
  refine ext_get? fun c => ?_
  by_cases hc : c = Key.discriminant
  · rw [hc, get?_normalized_discriminant, get?_normalized_discriminant]
  · refine get?_normalized_of_spelled_eq (ext_get? fun key => ?_) hc
    by_cases hkey : Key.canonical key = c
    · rw [get?_spelled raw' hkey, get?_spelled raw hkey]
      exact hsame key fun hmem => Key.canonical_ne_of_mem_spellings hmem hc hkey
    · rw [get?_spelled_of_ne raw' hkey, get?_spelled_of_ne raw hkey]

/-- Under a spelling of the discriminant the view has what is sent under the first mixed
spelling that turns into it. -/
theorem get?_normalized_of_mem_spellings (raw : Record) {name : String}
    (hname : name ∈ Key.discriminantSpellings) :
    raw.normalized.get? name =
      (Key.mixedSpellings.filter fun key => Key.hyphenated key == name).findSome? raw.get? := by
  by_cases hne : name = Key.discriminant
  · have hnone : (Key.mixedSpellings.filter fun key => Key.hyphenated key == Key.discriminant) =
        [] := by
      refine List.filter_eq_nil_iff.mpr fun key hkey => ?_
      rw [beq_iff_eq]
      exact (Key.hyphenated_of_mem_mixedSpellings key hkey).2.2
    rw [hne, get?_normalized_discriminant, hnone]
    rfl
  · have hcanonical : Key.canonical name ≠ name := Key.canonical_ne_of_mem_spellings hname hne
    have hspells (key : String) : Key.canonical key = name ↔
        key ∈ Key.mixedSpellings.filter fun key => Key.hyphenated key == name := by
      rw [Key.canonical_eq_iff_of_mem_spellings hname hne, List.mem_filter, beq_iff_eq]
    rw [get?_normalized raw hne, get?_spelled_of_ne raw hcanonical, Option.none_or,
      map_head?_members (Key.ordered_mixedSpellings.filter _) fun m hm =>
        (hspells m.1).mp (mem_spelled.mp hm).2]
    exact findSome?_congr fun key hkey => get?_spelled raw ((hspells key).mpr hkey)

/-- The view has nothing under any spelling of the discriminant exactly when a payload has no
key in a mixed spelling. -/
theorem forall_get?_normalized_eq_none_iff (raw : Record) :
    (∀ name ∈ Key.discriminantSpellings, raw.normalized.get? name = none) ↔
      ∀ key ∈ Key.mixedSpellings, raw.get? key = none := by
  constructor
  · intro h key hkey
    have hname := (Key.mem_mixedSpellings_iff.mp hkey).2
    have hnone := h _ hname
    rw [get?_normalized_of_mem_spellings raw hname, List.findSome?_eq_none_iff] at hnone
    exact hnone key (List.mem_filter.mpr ⟨hkey, beq_self_eq_true _⟩)
  · intro h name hname
    rw [get?_normalized_of_mem_spellings raw hname, List.findSome?_eq_none_iff]
    intro key hkey
    exact h key (List.mem_filter.mp hkey).1

end Record

/-! ## Canonical keys and the view -/

/-- Mixed spellings alone escape.  The canonical form of any other key is canonical, and
theirs is a spelling of the discriminant.  The view of a payload has something under a
spelling of the discriminant only if the payload has a key in a mixed spelling, and then the
value of the first that turns into that spelling.  What a payload has under the spellings
themselves shows nowhere in the view. -/
theorem Key.only_mixed_spellings_escape (raw : Record) (key : String) :
    (canonical (canonical key) = canonical key ↔ key ∉ mixedSpellings) ∧
    (key ∈ mixedSpellings →
      canonical key ∈ discriminantSpellings ∧ canonical (canonical key) = discriminant) ∧
    ((∀ name ∈ discriminantSpellings, raw.normalized.get? name = none) ↔
      ∀ k ∈ mixedSpellings, raw.get? k = none) ∧
    (∀ name ∈ discriminantSpellings, raw.normalized.get? name =
      (mixedSpellings.filter fun k => hyphenated k == name).findSome? raw.get?) ∧
    ∀ raw' : Record, (∀ k, k ∉ discriminantSpellings → raw'.get? k = raw.get? k) →
      raw'.normalized = raw.normalized := by
  refine ⟨canonical_canonical_eq_iff, fun hkey => ⟨?_, ?_⟩,
    raw.forall_get?_normalized_eq_none_iff, fun name hname => ?_, fun raw' hsame => ?_⟩
  · obtain ⟨hother, hname⟩ := mem_mixedSpellings_iff.mp hkey
    rwa [canonical_of_not_mem_spellings hother]
  · rw [canonical_canonical, if_pos hkey]
  · exact raw.get?_normalized_of_mem_spellings hname
  · exact Record.normalized_of_apart hsame

/-- Three keys that are one with hyphens, of which the last is a spelling of the
discriminant. -/
def threeNames : Record :=
  .ofMembers [("hook-event_name", .string "a"), ("hook_event-name", .string "b"),
    ("hook_event_name", .string "stop")]

theorem Key.only_mixed_spellings_escape_three_names :
    "hook_event-name" ∈ mixedSpellings ∧
    canonical (canonical "hook_event-name") = discriminant ∧
    "hook-event-name" ∈ discriminantSpellings ∧
    threeNames.normalized.get? "hook-event-name" = some (.string "a") ∧
    (threeNames.insert "hook-event-name" (.string "stop")).normalized = threeNames.normalized := by
  have hkey : "hook_event-name" ∈ mixedSpellings := by decide
  have hname : "hook-event-name" ∈ discriminantSpellings := by decide
  have hsame : ∀ k, k ∉ discriminantSpellings →
      (threeNames.insert "hook-event-name" (.string "stop")).get? k = threeNames.get? k := by
    intro k hk
    have hne : k ≠ "hook-event-name" := fun heq => hk (heq ▸ hname)
    rw [Record.get?_insert, if_neg hne]
  obtain ⟨-, hescapes, -, hget, hview⟩ := only_mixed_spellings_escape threeNames "hook_event-name"
  exact ⟨hkey, (hescapes hkey).2, hname, (hget _ hname).trans (by decide +kernel),
    hview _ hsame⟩

/-- `hook-event_name` is no spelling of the discriminant, and its canonical form is one: the
view has the value of the key under it. -/
theorem Key.hook_event_name_escapes :
    canonical (canonical "hook-event_name") ≠ canonical "hook-event_name" ∧
    "hook-event-name" ∈ discriminantSpellings ∧
    (Record.ofMembers [("hook-event_name", .string "Stop")]).normalized.get? "hook-event-name" =
      some (.string "Stop") := by
  decide +kernel

end AgentHooks
