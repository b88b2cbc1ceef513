/-
What the normalized view has, exactly.

`Wins` says which key of a payload shows under a canonical key: the one that is spelled so,
else the least of its spellings.  The view has the value of that key and nothing under the
discriminant (`get?_normalized_eq_some_iff_wins`).  A view can also be made of the members
in another order.  The canonical spelling has its say wherever it stands
(`get?_normalizedOf_of_mem`), and the whole view stays as long as there is at most one other
spelling that can come first (`normalizedOf_perm`).
-/
import AgentHooks.Proofs.Payload.Spelling

namespace AgentHooks.Record

/-! ## The key that wins -/

/-- The key of a payload that shows under a canonical key. -/
inductive Wins (raw : Record) (c : String) : String → Prop
  | exact (hkey : c ∈ raw.keys) (hcanonical : Key.canonical c = c) : Wins raw c c
  | least {key : String} (hkey : key ∈ raw.keys) (hcanonical : Key.canonical key = c)
      (hexact : ¬ (c ∈ raw.keys ∧ Key.canonical c = c))
      (hle : ∀ k ∈ raw.keys, Key.canonical k = c → key ≤ k) : Wins raw c key

variable {raw : Record} {c : String} {v : Json}

theorem get?_spelled_self_eq_some_iff :
    (raw.spelled c).get? c = some v ↔ Key.canonical c = c ∧ raw.get? c = some v := by
  rw [← mem_members_iff, mem_spelled, mem_members_iff]
  exact and_comm

/-- The least spelling among the members and among the keys. -/
theorem forall_mem_spelled_iff {key : String} :
    (∀ n ∈ (raw.spelled c).members, key ≤ n.1) ↔
      ∀ k ∈ raw.keys, Key.canonical k = c → key ≤ k := by
  constructor
  · intro h k hk hcanonical
    obtain ⟨n, hn, rfl⟩ := List.mem_map.mp hk
    exact h n (mem_spelled.mpr ⟨hn, hcanonical⟩)
  · intro h n hn
    obtain ⟨hmem, hcanonical⟩ := mem_spelled.mp hn
    exact h n.1 (List.mem_map_of_mem hmem) hcanonical

/-- The view has the value of the key that wins. -/
theorem get?_normalized_eq_some_iff_wins (hc : c ≠ Key.discriminant) :
    raw.normalized.get? c = some v ↔ ∃ key, Wins raw c key ∧ raw.get? key = some v := by
  rw [get?_normalized raw hc, Option.or_eq_some_iff, get?_spelled_self_eq_some_iff]
  constructor
  · rintro (⟨hcanonical, hv⟩ | ⟨hnone, hhead⟩)
    · exact ⟨c, .exact (mem_keys_iff.mpr ⟨v, hv⟩) hcanonical, hv⟩
    · obtain ⟨⟨key, _⟩, hm, rfl⟩ := Option.map_eq_some_iff.mp hhead
      obtain ⟨hmem, hle⟩ := head?_members_eq_some_iff.mp hm
      obtain ⟨hmember, hcanonical⟩ := mem_spelled.mp hmem
      have hv := mem_members_iff.mp hmember
      refine ⟨key, .least (mem_keys_iff.mpr ⟨_, hv⟩) hcanonical ?_ ?_, hv⟩
      · rintro ⟨hkey, hself⟩
        obtain ⟨w, hw⟩ := mem_keys_iff.mp hkey
        rw [get?_spelled raw hself, hw] at hnone
        cases hnone
      · exact forall_mem_spelled_iff.mp hle
  · rintro ⟨key, hwins, hv⟩
    cases hwins with
    | exact hkey hcanonical => exact .inl ⟨hcanonical, hv⟩
    | least hkey hcanonical hexact hle =>
        refine .inr ⟨?_, ?_⟩
        · refine Option.eq_none_iff_forall_ne_some.mpr fun w hw => ?_
          obtain ⟨hself, hget⟩ := get?_spelled_self_eq_some_iff.mp hw
          exact hexact ⟨mem_keys_iff.mpr ⟨w, hget⟩, hself⟩
        · have hmem : (key, v) ∈ (raw.spelled c).members :=
            mem_spelled.mpr ⟨mem_members_iff.mpr hv, hcanonical⟩
          rw [head?_members_eq_some_iff.mpr ⟨hmem, forall_mem_spelled_iff.mpr hle⟩]
          rfl

/-- Nothing is entered under the discriminant. -/
theorem get?_foldl_enter_discriminant (ms : List (String × Json)) (view : Record) :
    (ms.foldl enter view).get? Key.discriminant = view.get? Key.discriminant := by
  induction ms generalizing view with
  | nil => rfl
  | cons m ms ih =>
      rw [List.foldl_cons, ih, enter]
      by_cases hm : Key.canonical m.1 = Key.discriminant
      · rw [if_pos hm]
      · rw [if_neg hm]
        split
        · rw [get?_insert, if_neg (Ne.symm hm)]
        · rfl

/-! ## Other orders -/

/-- Whether no canonical key but the discriminant has two spellings in a payload besides
the canonical one. -/
def OneOtherSpelling (raw : Record) : Prop :=
  ∀ k ∈ raw.keys, ∀ k' ∈ raw.keys, Key.canonical k = Key.canonical k' →
    Key.canonical k ≠ Key.discriminant → k ≠ Key.canonical k → k' ≠ Key.canonical k' → k = k'

instance (raw : Record) : Decidable raw.OneOtherSpelling :=
  inferInstanceAs (Decidable (∀ _ ∈ _, _))

section Order

variable {ms : List (String × Json)} (hms : ms.Perm raw.members)
include hms

theorem keys_ne_of_perm : ms.Pairwise fun m n => m.1 ≠ n.1 :=
  (hms.pairwise_iff fun h => Ne.symm h).mpr raw.keys_ne

/-- The spelling that is the canonical key has its say wherever it comes. -/
theorem get?_normalizedOf_of_mem (hc : c ≠ Key.discriminant) (hcanonical : Key.canonical c = c)
    (hv : raw.get? c = some v) : (normalizedOf ms).get? c = some v := by
  have hmem : (c, v) ∈ ms := hms.mem_iff.mpr (mem_members_iff.mpr hv)
  have hspelled : (c, v) ∈ ms.filter fun m => Key.canonical m.1 == c :=
    List.mem_filter.mpr ⟨hmem, beq_iff_eq.mpr hcanonical⟩
  have hfind : (ms.filter fun m => Key.canonical m.1 == c).find? (·.1 == c) = some (c, v) :=
    find?_of_keys_ne ((keys_ne_of_perm hms).filter _) hspelled
  rw [normalizedOf, get?_foldl_enter hc (keys_ne_of_perm hms), hfind]
  rfl

/-- A canonical key that no member is spelled as has the same spellings in any order. -/
theorem filter_eq_spelled (hone : raw.OneOtherSpelling) (hc : c ≠ Key.discriminant)
    (hnone : (raw.spelled c).get? c = none) :
    (ms.filter fun m => Key.canonical m.1 == c) = (raw.spelled c).members := by
  have hperm : (ms.filter fun m => Key.canonical m.1 == c).Perm (raw.spelled c).members :=
    hms.filter _
  have hother : ∀ m ∈ (raw.spelled c).members,
      m.1 ∈ raw.keys ∧ Key.canonical m.1 = c ∧ m.1 ≠ c := by
    intro m hm
    obtain ⟨hmem, hcanonical⟩ := mem_spelled.mp hm
    refine ⟨List.mem_map_of_mem hmem, hcanonical, ?_⟩
    rintro rfl
    rw [mem_members_iff.mp hm] at hnone
    cases hnone
  have hne := (raw.spelled c).keys_ne
  cases hspelled : (raw.spelled c).members with
  | nil =>
      rw [hspelled] at hperm
      exact hperm.eq_nil
  | cons m rest =>
      cases rest with
      | nil =>
          rw [hspelled] at hperm
          exact List.perm_singleton.mp hperm
      | cons n rest =>
          rw [hspelled] at hother hne
          obtain ⟨hmkey, hm, hmc⟩ := hother m List.mem_cons_self
          obtain ⟨hnkey, hn, hnc⟩ := hother n (List.mem_cons_of_mem _ List.mem_cons_self)
          have heq : m.1 = n.1 := by
            refine hone m.1 hmkey n.1 hnkey (hm.trans hn.symm) ?_ ?_ ?_
            · rwa [hm]
            · rwa [hm]
            · rwa [hn]
          exact absurd heq ((List.pairwise_cons.mp hne).1 n List.mem_cons_self)

/-- A view does not depend on the order of the members as long as at most one spelling
besides the canonical one can come first. -/
theorem normalizedOf_perm (hone : raw.OneOtherSpelling) : normalizedOf ms = raw.normalized := by
  refine ext_get? fun c => ?_
  by_cases hc : c = Key.discriminant
  · rw [hc, normalizedOf, normalized, normalizedOf, get?_foldl_enter_discriminant,
      get?_foldl_enter_discriminant]
  cases hspelled : (raw.spelled c).get? c with
  | some v =>
      obtain ⟨hcanonical, hv⟩ := get?_spelled_self_eq_some_iff.mp hspelled
      rw [get?_normalizedOf_of_mem hms hc hcanonical hv, normalized,
        get?_normalizedOf_of_mem (.refl _) hc hcanonical hv]
  | none =>
      have hfilter := filter_eq_spelled hms hone hc hspelled
      rw [get?_normalized raw hc, normalizedOf, get?_foldl_enter hc (keys_ne_of_perm hms), hfilter,
        get?_empty, Option.none_or]
      rfl

end Order

/-! ## The view -/

/-- The view is exact: it has a value under each canonical key of a member but the
discriminant, and under no other; it is that of the key that wins; and the order of the
members shows in it only where two spellings compete that are both not canonical. -/
theorem normalized_exact (raw : Record) (c : String) :
    ((raw.normalized.get? c).isSome = true ↔
      c ≠ Key.discriminant ∧ ∃ key ∈ raw.keys, Key.canonical key = c) ∧
    (∀ v, raw.normalized.get? c = some v ↔
      c ≠ Key.discriminant ∧ ∃ key, Wins raw c key ∧ raw.get? key = some v) ∧
    (∀ ms : List (String × Json), ms.Perm raw.members → raw.OneOtherSpelling →
      normalizedOf ms = raw.normalized) ∧
    (∀ (ms : List (String × Json)) (v : Json), ms.Perm raw.members → c ≠ Key.discriminant →
      Key.canonical c = c → raw.get? c = some v → (normalizedOf ms).get? c = some v) := by
  have hdiscriminant : raw.normalized.get? Key.discriminant = none :=
    get?_foldl_enter_discriminant raw.members empty
  have hne (h : (raw.normalized.get? c).isSome = true) : c ≠ Key.discriminant := by
    rintro rfl
    rw [hdiscriminant] at h
    cases h
  refine ⟨⟨fun h => ⟨hne h, ?_⟩, ?_⟩, fun v => ⟨fun h => ?_, ?_⟩,
    fun ms hms hone => normalizedOf_perm hms hone,
    fun ms v hms hc hcanonical hv => get?_normalizedOf_of_mem hms hc hcanonical hv⟩
  · obtain ⟨v, hv⟩ := Option.isSome_iff_exists.mp h
    obtain ⟨key, hkey, hcanonical⟩ := exists_of_get?_normalized (hne h) hv
    exact ⟨key, mem_keys_iff.mpr ⟨v, hkey⟩, hcanonical⟩
  · rintro ⟨hc, key, hkey, hcanonical⟩
    obtain ⟨v, hv⟩ := mem_keys_iff.mp hkey
    exact isSome_get?_normalized hc hv hcanonical
  · have hc : c ≠ Key.discriminant := hne (by rw [h]; rfl)
    exact ⟨hc, (get?_normalized_eq_some_iff_wins hc).mp h⟩
  · rintro ⟨hc, hwins⟩
    exact (get?_normalized_eq_some_iff_wins hc).mpr hwins

/-- A key in both spellings and one with underscores alone. -/
def bothSpellings : Record :=
  ofMembers [("call_id", .string "c1"), ("thread-id", .string "new"),
    ("thread_id", .string "old"), ("type", .string "stop")]

/-- The members in turn and the other way round. -/
theorem normalized_exact_reversed :
    (bothSpellings.normalized.get? "call-id").isSome = true ∧
    bothSpellings.normalized.get? "call-id" = some (.string "c1") ∧
    normalizedOf bothSpellings.members.reverse = bothSpellings.normalized ∧
    (normalizedOf bothSpellings.members.reverse).get? "thread-id" = some (.string "new") := by
  have hcall : "call_id" ∈ bothSpellings.keys := by decide +kernel
  have hwins : Wins bothSpellings "call-id" "call_id" :=
    .least hcall (by decide +kernel) (by decide +kernel) (by decide +kernel)
  have hreverse : bothSpellings.members.reverse.Perm bothSpellings.members :=
    List.reverse_perm _
  obtain ⟨hsome, hvalue, -, -⟩ := normalized_exact bothSpellings "call-id"
  obtain ⟨-, -, horder, hcanonical⟩ := normalized_exact bothSpellings "thread-id"
  refine ⟨hsome.mpr ⟨by decide, "call_id", hcall, by decide +kernel⟩,
    (hvalue _).mpr ⟨by decide, "call_id", hwins, by decide +kernel⟩,
    horder _ hreverse (by decide +kernel), ?_⟩
  exact hcanonical _ _ hreverse (by decide) (by decide +kernel) (by decide +kernel)

end AgentHooks.Record
