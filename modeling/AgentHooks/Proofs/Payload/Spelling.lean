/-
Payloads in another spelling.

A key with hyphens alone or with underscores alone can be written with the other mark,
and its canonical form stays (`canonical_of_respells`).  When no two keys of a payload
are spellings of one another, at most one member shows under a canonical key, so the
normalized view and the discriminant are those of the payload with its keys written
otherwise (`get?_normalized_mapKeys`, `discriminant_mapKeys`).
-/
import AgentHooks.Proofs.Payload.Keys

namespace AgentHooks

namespace Key

/-! ## Hyphens and underscores -/

def underscore (c : Char) : Char := if c = '-' then '_' else c

/-- A key with an underscore for each hyphen. -/
def underscored (key : String) : String := String.ofList (key.toList.map underscore)

/-- Whether a key has no mark, or marks of one sort. -/
def OneMark (key : String) : Prop := '-' ∉ key.toList ∨ '_' ∉ key.toList

/-- Whether a key is another one, perhaps with all of its marks of one sort. -/
def Respells (key key' : String) : Prop :=
  key' = key ∨ key' = hyphenated key ∨ key' = underscored key

instance (key : String) : Decidable (OneMark key) := inferInstanceAs (Decidable (_ ∨ _))

instance (key key' : String) : Decidable (Respells key key') :=
  inferInstanceAs (Decidable (_ ∨ _ ∨ _))

@[simp] theorem toList_hyphenated (key : String) :
    (hyphenated key).toList = key.toList.map hyphen := String.toList_ofList

@[simp] theorem toList_underscored (key : String) :
    (underscored key).toList = key.toList.map underscore := String.toList_ofList

theorem hyphen_ne_underscore (c : Char) : hyphen c ≠ '_' := by
  by_cases h : c = '_' <;> simp [hyphen, h]

theorem underscore_ne_hyphen (c : Char) : underscore c ≠ '-' := by
  by_cases h : c = '-' <;> simp [underscore, h]

theorem hyphenated_hyphenated (key : String) : hyphenated (hyphenated key) = hyphenated key := by
  refine String.toList_inj.mp ?_
  rw [toList_hyphenated, toList_hyphenated, List.map_map]
  refine List.map_congr_left fun c _ => ?_
  exact if_neg (hyphen_ne_underscore c)

theorem hyphenated_underscored (key : String) :
    hyphenated (underscored key) = hyphenated key := by
  refine String.toList_inj.mp ?_
  rw [toList_hyphenated, toList_hyphenated, toList_underscored, List.map_map]
  refine List.map_congr_left fun c _ => ?_
  by_cases h : c = '-' <;> simp [hyphen, underscore, h]

theorem hyphenated_of_respells {key key' : String} (h : Respells key key') :
    hyphenated key' = hyphenated key := by
  rcases h with rfl | rfl | rfl
  · rfl
  · exact hyphenated_hyphenated key
  · exact hyphenated_underscored key

theorem oneMark_of_respells {key key' : String} (h : OneMark key) (hrespells : Respells key key') :
    OneMark key' := by
  rcases hrespells with rfl | rfl | rfl
  · exact h
  · refine .inr ?_
    rw [toList_hyphenated, List.mem_map]
    rintro ⟨c, -, hc⟩
    exact hyphen_ne_underscore c hc
  · refine .inl ?_
    rw [toList_underscored, List.mem_map]
    rintro ⟨c, -, hc⟩
    exact underscore_ne_hyphen c hc

/-- A key with marks of one sort has either all hyphens or all underscores. -/
theorem eq_hyphenated_or_of_oneMark {key : String} (h : OneMark key) :
    key = hyphenated key ∨ key = underscored (hyphenated key) := by
  rcases h with h | h
  · refine .inr (String.toList_inj.mp ?_)
    rw [toList_underscored, toList_hyphenated, List.map_map]
    refine (List.map_id _).symm.trans (List.map_congr_left fun c hc => ?_)
    have hne : c ≠ '-' := ne_of_mem_of_not_mem hc h
    by_cases hmark : c = '_' <;> simp [hyphen, underscore, hmark, hne]
  · refine .inl (String.toList_inj.mp ?_)
    rw [toList_hyphenated]
    refine (List.map_id _).symm.trans (List.map_congr_left fun c hc => ?_)
    have hne : c ≠ '_' := ne_of_mem_of_not_mem hc h
    exact (if_neg hne).symm

/-! ## The canonical form -/

/-- The keys of the discriminant in hyphens, the preferred one first. -/
def discriminantNames : List String :=
  ["type", "event-type", "xcodex-event-type", "hook-event-name"]

/-- A key with marks of one sort is one of the discriminant when it is with hyphens. -/
theorem isDiscriminant_iff {key : String} (h : OneMark key) :
    isDiscriminant key = true ↔ hyphenated key ∈ discriminantNames := by
  have hspellings : ∀ k ∈ discriminantSpellings, hyphenated k ∈ discriminantNames := by
    simp [discriminantSpellings, discriminantNames, hyphenated, hyphen]
  have hnames : ∀ k ∈ discriminantNames,
      k ∈ discriminantSpellings ∧ underscored k ∈ discriminantSpellings := by
    simp [discriminantSpellings, discriminantNames, underscored, underscore]
  rw [isDiscriminant, List.contains_iff_mem]
  constructor
  · exact hspellings key
  · intro hname
    rcases eq_hyphenated_or_of_oneMark h with heq | heq
    · exact heq ▸ (hnames _ hname).1
    · exact heq ▸ (hnames _ hname).2

theorem canonical_of_respells {key key' : String} (h : OneMark key)
    (hrespells : Respells key key') : canonical key' = canonical key := by
  have hdiscriminant : isDiscriminant key' = isDiscriminant key := by
    rw [Bool.eq_iff_iff, isDiscriminant_iff h,
      isDiscriminant_iff (oneMark_of_respells h hrespells), hyphenated_of_respells hrespells]
  rw [canonical, canonical, hdiscriminant, hyphenated_of_respells hrespells]

/-- Keys with one canonical form that is not the discriminant's have one form in
hyphens. -/
theorem hyphenated_eq_of_canonical {key c : String} (h : canonical key = c)
    (hc : c ≠ discriminant) : hyphenated key = c := by
  rw [canonical] at h
  split at h
  · exact absurd h.symm hc
  · exact h

end Key

namespace Record

/-! ## Payloads that can be spelled otherwise -/

/-- Whether all keys of a payload have marks of one sort, and no two of them are
spellings of one another. -/
structure Respellable (raw : Record) : Prop where
  oneMark : ∀ key ∈ raw.keys, Key.OneMark key
  apart : ∀ key ∈ raw.keys, ∀ key' ∈ raw.keys,
    Key.hyphenated key = Key.hyphenated key' → key = key'

theorem Respellable.value_eq {raw : Record} (h : raw.Respellable) {key key' : String}
    {v v' : Json} (hv : raw.get? key = some v) (hv' : raw.get? key' = some v')
    (heq : Key.hyphenated key = Key.hyphenated key') : v = v' := by
  cases h.apart key (mem_keys_iff.mpr ⟨v, hv⟩) key' (mem_keys_iff.mpr ⟨v', hv'⟩) heq
  exact Option.some.inj (hv.symm.trans hv')

section View

variable {raw : Record} {c : String} (hc : c ≠ Key.discriminant) {v : Json}
include hc

/-- The view has a value where a member spells the key. -/
theorem isSome_get?_normalized {key : String} (hv : raw.get? key = some v)
    (hcanonical : Key.canonical key = c) : (raw.normalized.get? c).isSome := by
  have hmem : (key, v) ∈ (raw.spelled c).members :=
    mem_spelled.mpr ⟨mem_members_iff.mpr hv, hcanonical⟩
  obtain ⟨m, ms, hms⟩ := List.exists_cons_of_ne_nil (List.ne_nil_of_mem hmem)
  rw [get?_normalized raw hc, Option.isSome_or, hms]
  exact Bool.or_true _

/-- Under a canonical key that is not the discriminant's the view has the value of the
one member that spells the key. -/
theorem get?_normalized_eq_some_iff (h : raw.Respellable) :
    raw.normalized.get? c = some v ↔ ∃ key, raw.get? key = some v ∧ Key.canonical key = c := by
  refine ⟨exists_of_get?_normalized hc, ?_⟩
  rintro ⟨key, hkey, hcanonical⟩
  obtain ⟨v', hv'⟩ := Option.isSome_iff_exists.mp (isSome_get?_normalized hc hkey hcanonical)
  obtain ⟨key', hkey', hcanonical'⟩ := exists_of_get?_normalized hc hv'
  have hname := Key.hyphenated_eq_of_canonical hcanonical hc
  have hname' := Key.hyphenated_eq_of_canonical hcanonical' hc
  rw [hv', h.value_eq hkey hkey' (hname.trans hname'.symm)]

end View

/-- What a payload has under a key in hyphens, in either spelling. -/
def either? (raw : Record) (key : String) : Option Json :=
  (raw.get? key).or (raw.get? (Key.underscored key))

theorem either?_eq_some_iff {raw : Record} (h : raw.Respellable) {name : String}
    (hname : Key.hyphenated name = name) {v : Json} :
    raw.either? name = some v ↔ ∃ key, raw.get? key = some v ∧ Key.hyphenated key = name := by
  rw [either?, Option.or_eq_some_iff]
  constructor
  · rintro (hv | ⟨-, hv⟩)
    · exact ⟨name, hv, hname⟩
    · exact ⟨_, hv, (Key.hyphenated_underscored name).trans hname⟩
  · rintro ⟨key, hkey, rfl⟩
    have hmem : key ∈ raw.keys := mem_keys_iff.mpr ⟨v, hkey⟩
    rcases Key.eq_hyphenated_or_of_oneMark (h.oneMark key hmem) with heq | heq
    · exact .inl (heq ▸ hkey)
    · cases hother : raw.get? (Key.hyphenated key) with
      | none => exact .inr ⟨rfl, heq ▸ hkey⟩
      | some v' =>
          have hsame := h.value_eq hother hkey (Key.hyphenated_hyphenated key)
          exact .inl (congrArg some hsame)

/-- At most one spelling is there, so it can be read before or after it is looked up. -/
theorem bind_either? {α : Type} {raw : Record} (h : raw.Respellable) (name : String)
    (f : Json → Option α) :
    ((raw.get? name).bind f).or ((raw.get? (Key.underscored name)).bind f) =
      (raw.either? name).bind f := by
  rw [either?]
  cases hv : raw.get? name with
  | none => rfl
  | some v =>
      cases hv' : raw.get? (Key.underscored name) with
      | none => exact Option.or_none
      | some v' =>
          rw [h.value_eq hv hv' (Key.hyphenated_underscored name).symm]
          exact Option.or_self

/-- Looking up names in both spellings, one after the other. -/
theorem findSome?_spellings {α : Type} {raw : Record} (h : raw.Respellable) (f : Json → Option α)
    (names : List String) :
    ((names.flatMap fun name => [name, Key.underscored name]).findSome? fun key =>
        (raw.get? key).bind f) =
      names.findSome? fun name => (raw.either? name).bind f := by
  induction names with
  | nil => rfl
  | cons name names ih =>
      rw [List.flatMap_cons, List.findSome?_append, ih, List.findSome?_cons, List.findSome?_cons,
        List.findSome?_cons, ← bind_either? h]
      cases (raw.get? name).bind f with
      | some a => rfl
      | none => cases (raw.get? (Key.underscored name)).bind f <;> rfl

/-- The discriminant is the first one reading as text, in either spelling. -/
theorem discriminant_eq {raw : Record} (h : raw.Respellable) :
    raw.discriminant =
      (Key.discriminantNames.findSome? fun name => (raw.either? name).bind Json.asText?).getD
        "" := by
  have hspellings : Key.discriminantNames.flatMap (fun name => [name, Key.underscored name]) =
      "type" :: Key.discriminantSpellings := by
    simp [Key.discriminantSpellings, Key.discriminantNames, Key.underscored, Key.underscore]
  -- The key without a mark is its own other spelling, and comes first.
  have hfirst (f : String → Option String) :
      ("type" :: Key.discriminantSpellings).findSome? f =
        Key.discriminantSpellings.findSome? f := by
    rw [Key.discriminantSpellings, List.findSome?_cons, List.findSome?_cons]
    cases f "type" <;> rfl
  rw [discriminant, ← hfirst, ← hspellings, findSome?_spellings h]

/-! ## The payload in another spelling -/

section Respelling

variable {raw : Record} (h : raw.Respellable) {respell : String → String}
  (hrespell : ∀ key ∈ raw.keys, Key.Respells key (respell key))
include h hrespell

theorem respell_apart : ∀ key ∈ raw.keys, ∀ key' ∈ raw.keys,
    respell key = respell key' → key = key' := by
  intro key hkey key' hkey' heq
  refine h.apart key hkey key' hkey' ?_
  rw [← Key.hyphenated_of_respells (hrespell key hkey), heq,
    Key.hyphenated_of_respells (hrespell key' hkey')]

theorem respellable_mapKeys : (raw.mapKeys respell).Respellable := by
  have hkeys : ∀ key ∈ (raw.mapKeys respell).keys, ∃ k ∈ raw.keys, respell k = key := by
    intro key hkey
    obtain ⟨v, hv⟩ := mem_keys_iff.mp hkey
    obtain ⟨k, hk, rfl⟩ := (get?_mapKeys_eq_some_iff (respell_apart h hrespell)).mp hv
    exact ⟨k, mem_keys_iff.mpr ⟨v, hk⟩, rfl⟩
  constructor
  · intro key hkey
    obtain ⟨k, hk, rfl⟩ := hkeys key hkey
    exact Key.oneMark_of_respells (h.oneMark k hk) (hrespell k hk)
  · intro key hkey key' hkey' heq
    obtain ⟨k, hk, rfl⟩ := hkeys key hkey
    obtain ⟨k', hk', rfl⟩ := hkeys key' hkey'
    rw [Key.hyphenated_of_respells (hrespell k hk), Key.hyphenated_of_respells (hrespell k' hk')]
      at heq
    rw [h.apart k hk k' hk' heq]

/-- What is looked up by a form of the keys that stays is found as before. -/
theorem exists_get?_mapKeys_iff {form : String → String}
    (hform : ∀ key ∈ raw.keys, form (respell key) = form key) {c : String} {v : Json} :
    (∃ key, (raw.mapKeys respell).get? key = some v ∧ form key = c) ↔
      ∃ key, raw.get? key = some v ∧ form key = c := by
  simp only [get?_mapKeys_eq_some_iff (respell_apart h hrespell)]
  constructor
  · rintro ⟨_, ⟨key, hkey, rfl⟩, heq⟩
    rw [hform key (mem_keys_iff.mpr ⟨v, hkey⟩)] at heq
    exact ⟨key, hkey, heq⟩
  · rintro ⟨key, hkey, heq⟩
    rw [← hform key (mem_keys_iff.mpr ⟨v, hkey⟩)] at heq
    exact ⟨respell key, ⟨key, hkey, rfl⟩, heq⟩

theorem get?_normalized_mapKeys {c : String} (hc : c ≠ Key.discriminant) :
    (raw.mapKeys respell).normalized.get? c = raw.normalized.get? c := by
  have hcanonical : ∀ key ∈ raw.keys, Key.canonical (respell key) = Key.canonical key :=
    fun key hkey => Key.canonical_of_respells (h.oneMark key hkey) (hrespell key hkey)
  refine Option.ext fun v => ?_
  rw [get?_normalized_eq_some_iff hc (respellable_mapKeys h hrespell),
    get?_normalized_eq_some_iff hc h, exists_get?_mapKeys_iff h hrespell hcanonical]

theorem either?_mapKeys {name : String} (hname : Key.hyphenated name = name) :
    (raw.mapKeys respell).either? name = raw.either? name := by
  have hhyphenated : ∀ key ∈ raw.keys, Key.hyphenated (respell key) = Key.hyphenated key :=
    fun key hkey => Key.hyphenated_of_respells (hrespell key hkey)
  refine Option.ext fun v => ?_
  rw [either?_eq_some_iff (respellable_mapKeys h hrespell) hname, either?_eq_some_iff h hname,
    exists_get?_mapKeys_iff h hrespell hhyphenated]

theorem discriminant_mapKeys : (raw.mapKeys respell).discriminant = raw.discriminant := by
  have hnames : ∀ name ∈ Key.discriminantNames, Key.hyphenated name = name := by
    simp [Key.discriminantNames, Key.hyphenated, Key.hyphen]
  rw [discriminant_eq (respellable_mapKeys h hrespell), discriminant_eq h]
  refine congrArg (Option.getD · "") (findSome?_congr fun name hname => ?_)
  rw [either?_mapKeys h hrespell (hnames name hname)]

end Respelling

end Record

end AgentHooks
