/-
Records as maps.

A record is decided by what it has under each key (`ext_get?`), since its
members stand in one order.  So laws about records are proved key by key, from
what `get?` says of each operation; `asRecord?_toJson` says that a record is the
same record after it was a value.  Keys can be exchanged for others: as long as they
stay different, no member is lost (`mem_members_mapKeys_iff`).
-/
import AgentHooks.Json.Record

namespace AgentHooks.Record

/-- Of entries with different keys each is found under its own. -/
theorem find?_of_keys_ne {α : Type} {entries : List (String × α)}
    (h : entries.Pairwise fun x y => x.1 ≠ y.1) {e : String × α} (he : e ∈ entries) :
    entries.find? (·.1 == e.1) = some e := by
  induction entries with
  | nil => cases he
  | cons x xs ih =>
      obtain ⟨hx, hxs⟩ := List.pairwise_cons.mp h
      rcases List.mem_cons.mp he with rfl | he
      · exact List.find?_cons_of_pos (beq_self_eq_true _)
      · rw [List.find?_cons, beq_eq_false_iff_ne.mpr (hx e he)]
        exact ih hxs he

theorem keys_ne (r : Record) : r.members.Pairwise fun m n => m.1 ≠ n.1 := by
  refine r.ordered.imp ?_
  intro m n hlt heq
  rw [heq] at hlt
  exact String.lt_irrefl n.1 hlt

/-- The members are the keys with their values. -/
theorem mem_members_iff {r : Record} {key : String} {value : Json} :
    (key, value) ∈ r.members ↔ r.get? key = some value := by
  constructor
  · intro hmem
    exact congrArg (Option.map (·.2)) (find?_of_keys_ne r.keys_ne hmem)
  · intro hget
    obtain ⟨m, hm, rfl⟩ := Option.map_eq_some_iff.mp hget
    have hkey := List.find?_some hm
    rw [← beq_iff_eq.mp hkey]
    exact List.mem_of_find?_eq_some hm

/-- The first member of a record has the least key. -/
theorem head?_members_eq_some_iff {r : Record} {m : String × Json} :
    r.members.head? = some m ↔ m ∈ r.members ∧ ∀ n ∈ r.members, m.1 ≤ n.1 := by
  have hordered := r.ordered
  cases hmembers : r.members with
  | nil => simp
  | cons first rest =>
      rw [hmembers] at hordered
      have hfirst : ∀ n ∈ rest, first.1 < n.1 := (List.pairwise_cons.mp hordered).1
      rw [List.head?_cons, Option.some.injEq]
      constructor
      · rintro rfl
        refine ⟨List.mem_cons_self, List.forall_mem_cons.mpr ⟨String.le_refl _, ?_⟩⟩
        intro n hn
        exact String.lt_asymm (hfirst n hn)
      · rintro ⟨hmem, hle⟩
        rcases List.mem_cons.mp hmem with rfl | hmem
        · rfl
        · exact absurd (hfirst m hmem) (hle first List.mem_cons_self)

/-- Of a record with keys from a list in key order, the first member is the one that is
found first along the list. -/
theorem map_head?_members {r : Record} {keys : List String} (hkeys : keys.Pairwise (· < ·))
    (h : ∀ m ∈ r.members, m.1 ∈ keys) :
    r.members.head?.map (·.2) = keys.findSome? r.get? := by
  induction keys with
  | nil =>
      have hnil : r.members = [] := List.eq_nil_iff_forall_not_mem.mpr fun m hm =>
        List.not_mem_nil (h m hm)
      rw [hnil]
      rfl
  | cons key keys ih =>
      obtain ⟨hkey, hkeys⟩ := List.pairwise_cons.mp hkeys
      rw [List.findSome?_cons]
      cases hv : r.get? key with
      | some v =>
          have hhead : r.members.head? = some (key, v) := by
            refine head?_members_eq_some_iff.mpr ⟨mem_members_iff.mpr hv, fun n hn => ?_⟩
            rcases List.mem_cons.mp (h n hn) with rfl | hlater
            · exact String.le_refl n.1
            · exact String.lt_asymm (hkey n.1 hlater)
          rw [hhead]
          rfl
      | none =>
          -- No member has the key, so all of them are under the later ones.
          refine ih hkeys fun m hm => ?_
          refine (List.mem_cons.mp (h m hm)).resolve_left fun heq => ?_
          rw [← heq, mem_members_iff.mp hm] at hv
          cases hv

/-- Records that agree under every key are equal. -/
theorem ext_get? {r s : Record} (h : ∀ key, r.get? key = s.get? key) : r = s := by
  have hmem : ∀ m, m ∈ r.members ↔ m ∈ s.members := fun m => by
    rw [mem_members_iff, mem_members_iff, h]
  have hnodup (t : Record) : t.members.Nodup :=
    t.keys_ne.imp fun hne heq => hne (congrArg Prod.fst heq)
  have hperm : r.members.Perm s.members :=
    (List.perm_ext_iff_of_nodup (hnodup r) (hnodup s)).mpr hmem
  have hmembers : r.members = s.members :=
    hperm.eq_of_pairwise (fun _ _ _ _ h₁ h₂ => absurd h₂ (String.lt_asymm h₁)) r.ordered s.ordered
  cases r
  cases s
  cases hmembers
  rfl

/-! ## Records of members -/

theorem mem_ofMembers {ms : List (String × Json)} {m : String × Json}
    (h : m ∈ (ofMembers ms).members) : m ∈ ms := by
  have hfold (r : Record) (ms : List (String × Json))
      (h : m ∈ (ms.foldl (fun r m => r.insert m.1 m.2) r).members) :
      m ∈ r.members ∨ m ∈ ms := by
    induction ms generalizing r with
    | nil => exact .inl h
    | cons n ns ih =>
        rcases ih (r.insert n.1 n.2) h with h | h
        · rcases mem_place h with rfl | h
          · exact .inr List.mem_cons_self
          · exact .inl h
        · exact .inr (List.mem_cons_of_mem _ h)
  exact (hfold empty ms h).resolve_left List.not_mem_nil

/-- A value that a key has at first or by a member stays when no member gives the key
another one. -/
theorem get?_foldl_insert {key : String} {value : Json} {ms : List (String × Json)}
    (hms : ∀ m ∈ ms, m.1 = key → m.2 = value) {r : Record}
    (h : r.get? key = some value ∨ (key, value) ∈ ms) :
    (ms.foldl (fun r m => r.insert m.1 m.2) r).get? key = some value := by
  induction ms generalizing r with
  | nil => exact h.resolve_right List.not_mem_nil
  | cons m ms ih =>
      obtain ⟨hm, hms⟩ := List.forall_mem_cons.mp hms
      refine ih hms ?_
      rw [get?_insert]
      by_cases hkey : key = m.1
      · exact .inl (by rw [if_pos hkey, hm hkey.symm])
      · rw [if_neg hkey]
        refine h.imp_right fun hmem => ?_
        refine (List.mem_cons.mp hmem).resolve_left fun heq => ?_
        exact hkey (congrArg Prod.fst heq)

/-- Members with different keys are all members of their record. -/
theorem mem_ofMembers_iff {ms : List (String × Json)}
    (h : ∀ m ∈ ms, ∀ n ∈ ms, m.1 = n.1 → m.2 = n.2) {m : String × Json} :
    m ∈ (ofMembers ms).members ↔ m ∈ ms := by
  refine ⟨mem_ofMembers, fun hm => ?_⟩
  rw [mem_members_iff]
  exact get?_foldl_insert (fun n hn => h n hn m hm) (.inr hm)

/-- A member goes to the end when its key comes after all others. -/
theorem place_of_forall_lt {key : String} (value : Json) {ms : List (String × Json)}
    (h : ∀ m ∈ ms, m.1 < key) : place key value ms = ms ++ [(key, value)] := by
  induction ms with
  | nil => rfl
  | cons m ms ih =>
      obtain ⟨hm, hms⟩ := List.forall_mem_cons.mp h
      have hne : key ≠ m.1 := fun heq => String.lt_irrefl key (heq ▸ hm)
      rw [place, if_neg (String.lt_asymm hm), if_neg hne, ih hms]
      rfl

theorem foldl_insert_members (r : Record) {ms : List (String × Json)}
    (h : Ordered (r.members ++ ms)) :
    (ms.foldl (fun r m => r.insert m.1 m.2) r).members = r.members ++ ms := by
  induction ms generalizing r with
  | nil => exact (List.append_nil _).symm
  | cons m ms ih =>
      have hlt : ∀ n ∈ r.members, n.1 < m.1 := fun n hn =>
        (List.pairwise_append.mp h).2.2 n hn m List.mem_cons_self
      have hmembers : (r.insert m.1 m.2).members = r.members ++ [m] := place_of_forall_lt m.2 hlt
      have hordered : Ordered ((r.insert m.1 m.2).members ++ ms) := by
        rwa [hmembers, List.append_assoc]
      rw [List.foldl_cons, ih _ hordered, hmembers, List.append_assoc]
      rfl

/-- Members in key order are the members of their record. -/
theorem ofMembers_members {ms : List (String × Json)} (h : Ordered ms) :
    (ofMembers ms).members = ms := foldl_insert_members empty h

@[simp] theorem ofMembers_toMembers (r : Record) : ofMembers r.members = r := by
  have h := ofMembers_members r.ordered
  cases hr : ofMembers r.members
  rw [hr] at h
  cases r
  cases h
  rfl

@[simp] theorem asRecord?_toJson (r : Record) : r.toJson.asRecord? = some r :=
  congrArg some (ofMembers_toMembers r)

/-! ## Other keys -/

theorem mem_keys_iff {r : Record} {key : String} : key ∈ r.keys ↔ ∃ v, r.get? key = some v := by
  simp only [keys, List.mem_map, Prod.exists, exists_and_right, exists_eq_right, mem_members_iff]

theorem mem_keys_of_mem_filterKeys {r : Record} {keep : String → Bool} {key : String}
    (h : key ∈ (r.filterKeys keep).keys) : key ∈ r.keys := by
  obtain ⟨m, hm, rfl⟩ := List.mem_map.mp h
  exact List.mem_map_of_mem (List.mem_filter.mp hm).1

/-- The record with each value under another key. -/
def mapKeys (r : Record) (f : String → String) : Record :=
  ofMembers (r.members.map fun m => (f m.1, m.2))

section MapKeys

variable {r : Record} {f : String → String}
  (h : ∀ key ∈ r.keys, ∀ key' ∈ r.keys, f key = f key' → key = key')
include h

/-- Keys that stay different keep their values. -/
theorem get?_mapKeys_eq_some_iff {key : String} {value : Json} :
    (r.mapKeys f).get? key = some value ↔ ∃ k, r.get? k = some value ∧ f k = key := by
  have happart : ∀ m ∈ r.members.map (fun m => (f m.1, m.2)),
      ∀ n ∈ r.members.map (fun m => (f m.1, m.2)), m.1 = n.1 → m.2 = n.2 := by
    intro m hm n hn heq
    obtain ⟨⟨k, v⟩, hk, rfl⟩ := List.mem_map.mp hm
    obtain ⟨⟨k', v'⟩, hk', rfl⟩ := List.mem_map.mp hn
    have hget := mem_members_iff.mp hk
    have hget' := mem_members_iff.mp hk'
    cases h k (mem_keys_iff.mpr ⟨v, hget⟩) k' (mem_keys_iff.mpr ⟨v', hget'⟩) heq
    exact Option.some.inj (hget.symm.trans hget')
  rw [← mem_members_iff, mapKeys, mem_ofMembers_iff happart]
  simp only [List.mem_map, Prod.mk.injEq, Prod.exists, mem_members_iff]
  constructor
  · rintro ⟨k, v, hk, rfl, rfl⟩
    exact ⟨k, hk, rfl⟩
  · rintro ⟨k, hk, rfl⟩
    exact ⟨k, value, hk, rfl, rfl⟩

theorem mem_members_mapKeys_iff {m : String × Json} :
    m ∈ (r.mapKeys f).members ↔ ∃ n ∈ r.members, m = (f n.1, n.2) := by
  obtain ⟨key, value⟩ := m
  rw [mem_members_iff, get?_mapKeys_eq_some_iff h]
  constructor
  · rintro ⟨k, hk, rfl⟩
    exact ⟨(k, value), mem_members_iff.mpr hk, rfl⟩
  · rintro ⟨⟨k, v⟩, hk, heq⟩
    cases heq
    exact ⟨k, mem_members_iff.mp hk, rfl⟩

/-- What is kept of other keys are the other keys of what is kept. -/
theorem filterKeys_mapKeys {p : String → Bool} (hp : ∀ key ∈ r.keys, p (f key) = p key) :
    (r.mapKeys f).filterKeys p = (r.filterKeys p).mapKeys f := by
  have hkept (key : String) (value : Json) : (r.filterKeys p).get? key = some value ↔
      p key = true ∧ r.get? key = some value := by
    rw [get?_filterKeys]
    cases p key <;> simp
  have hsub : ∀ key ∈ (r.filterKeys p).keys, ∀ key' ∈ (r.filterKeys p).keys,
      f key = f key' → key = key' := fun key hkey key' hkey' =>
    h key (mem_keys_of_mem_filterKeys hkey) key' (mem_keys_of_mem_filterKeys hkey')
  refine ext_get? fun key => Option.ext fun value => ?_
  rw [get?_filterKeys, get?_mapKeys_eq_some_iff hsub]
  simp only [hkept]
  constructor
  · intro hget
    cases hkey : p key with
    | false => rw [hkey] at hget; cases hget
    | true =>
        rw [hkey, if_pos rfl, get?_mapKeys_eq_some_iff h] at hget
        obtain ⟨k, hk, rfl⟩ := hget
        rw [hp k (mem_keys_iff.mpr ⟨value, hk⟩)] at hkey
        exact ⟨k, ⟨hkey, hk⟩, rfl⟩
  · rintro ⟨k, ⟨hk, hget⟩, rfl⟩
    rw [hp k (mem_keys_iff.mpr ⟨value, hget⟩), if_pos hk]
    exact (get?_mapKeys_eq_some_iff h).mpr ⟨k, hget, rfl⟩

end MapKeys

/-! ## Keys apart -/

theorem get?_erase (r : Record) (key k : String) :
    (r.erase key).get? k = if k = key then none else r.get? k := by
  rw [erase, get?_filterKeys]
  by_cases h : k = key <;> simp [h]

/-- Of a member that is added or replaced, those that keep some keys see it
exactly when its key is kept. -/
theorem filterKeys_insert (r : Record) (keep : String → Bool) (key : String) (value : Json) :
    (r.insert key value).filterKeys keep =
      if keep key then (r.filterKeys keep).insert key value else r.filterKeys keep := by
  refine ext_get? fun k => ?_
  by_cases hk : k = key
  · subst hk
    cases hkeep : keep k <;> simp [get?_filterKeys, get?_insert, hkeep]
  · cases hkeep : keep key <;> simp [get?_filterKeys, get?_insert, hk]

theorem filterKeys_filterKeys (r : Record) (p q : String → Bool) :
    (r.filterKeys p).filterKeys q = r.filterKeys fun k => p k && q k := by
  refine ext_get? fun k => ?_
  simp only [get?_filterKeys]
  cases p k <;> simp

theorem filterKeys_erase (r : Record) (keep : String → Bool) (key : String) :
    (r.erase key).filterKeys keep = (r.filterKeys keep).erase key := by
  rw [erase, erase, filterKeys_filterKeys, filterKeys_filterKeys]
  exact congrArg r.filterKeys (funext fun k => Bool.and_comm _ _)

theorem erase_of_get?_eq_none {r : Record} {key : String} (h : r.get? key = none) :
    r.erase key = r := by
  refine ext_get? fun k => ?_
  rw [get?_erase]
  split
  · rename_i hk
    rw [hk, h]
  · rfl

end AgentHooks.Record
