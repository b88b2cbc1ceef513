/-
Payloads under canonical keys.

The members of a payload whose keys are spellings of one canonical key form a
record, `spelled`.  What the normalized view has under a key depends on that
record alone (`get?_normalized`): the member with the canonical spelling if
there is one, else the first member.  `Supplies` names the three cases in which
senders can rely on it.
-/
import AgentHooks.Payload.Keys
import AgentHooks.Proofs.Json.Records

namespace AgentHooks

/-- Readings that agree on a list find the same in it. -/
theorem findSome?_congr {α β : Type} {f g : α → Option β} {xs : List α}
    (h : ∀ x ∈ xs, f x = g x) : xs.findSome? f = xs.findSome? g := by
  induction xs with
  | nil => rfl
  | cons x xs ih =>
      obtain ⟨hx, hxs⟩ := List.forall_mem_cons.mp h
      rw [List.findSome?_cons, List.findSome?_cons, hx, ih hxs]

namespace Key

theorem canonical_of_mem_spellings {key : String} (h : key ∈ discriminantSpellings) :
    canonical key = discriminant :=
  if_pos (List.contains_iff_mem.mpr h)

theorem canonical_ne_of_mem_spellings {key c : String} (h : key ∈ discriminantSpellings)
    (hc : c ≠ discriminant) : canonical key ≠ c := by
  rw [canonical_of_mem_spellings h]
  exact Ne.symm hc

theorem isKnown_iff {key : String} {named : List String} :
    isKnown key named = true ↔ canonical key ∈ common ++ named := by
  rw [isKnown, Bool.or_eq_true, List.contains_iff_mem, List.contains_iff_mem, List.mem_append]

end Key

namespace Record

/-! ## The members under one canonical key -/

/-- The members whose keys are spellings of `c`. -/
def spelled (raw : Record) (c : String) : Record := raw.filterKeys fun key => Key.canonical key == c

theorem mem_spelled {raw : Record} {c : String} {m : String × Json} :
    m ∈ (raw.spelled c).members ↔ m ∈ raw.members ∧ Key.canonical m.1 = c := by
  rw [spelled, filterKeys, List.mem_filter, beq_iff_eq]

theorem get?_spelled (raw : Record) {key c : String} (h : Key.canonical key = c) :
    (raw.spelled c).get? key = raw.get? key := by
  rw [spelled, get?_filterKeys, h, beq_self_eq_true, if_pos rfl]

theorem get?_spelled_of_ne (raw : Record) {key c : String} (h : Key.canonical key ≠ c) :
    (raw.spelled c).get? key = none := by
  rw [spelled, get?_filterKeys, beq_eq_false_iff_ne.mpr h, if_neg Bool.false_ne_true]

/-- A member under another canonical key does not show. -/
theorem spelled_insert (raw : Record) {key c : String} (h : Key.canonical key ≠ c) (value : Json) :
    (raw.insert key value).spelled c = raw.spelled c := by
  rw [spelled, filterKeys_insert, beq_eq_false_iff_ne.mpr h, if_neg Bool.false_ne_true]
  rfl

theorem spelled_erase (raw : Record) {key c : String} (h : Key.canonical key ≠ c) :
    (raw.erase key).spelled c = raw.spelled c := by
  rw [spelled, filterKeys_erase]
  exact erase_of_get?_eq_none (get?_spelled_of_ne raw h)

/-! ## The normalized view -/

/-- An entered member shows under its canonical key if it is spelled so or if
nothing shows there yet. -/
theorem get?_enter (view : Record) (m : String × Json) {c : String} (hc : c ≠ Key.discriminant) :
    (view.enter m).get? c =
      if Key.canonical m.1 = c ∧ (c = m.1 ∨ view.get? c = none) then some m.2 else view.get? c := by
  rw [enter]
  by_cases hm : Key.canonical m.1 = c
  · subst hm
    simp only [if_neg hc, true_and]
    split
    · rw [get?_insert, if_pos rfl]
    · rfl
  · have hne : c ≠ Key.canonical m.1 := fun h => hm h.symm
    simp only [hm, false_and, if_false]
    split
    · rfl
    · split
      · rw [get?_insert, if_neg hne]
      · rfl

/-- What shows under a key after members with different keys were entered: the one
with that very key, else what showed before, else the first one with a spelling of
the key.  The induction is on the members, and each of them changes what showed before. -/
theorem get?_foldl_enter {c : String} (hc : c ≠ Key.discriminant) {ms : List (String × Json)}
    (hms : ms.Pairwise fun m n => m.1 ≠ n.1) (view : Record) :
    let spelled := ms.filter fun m => Key.canonical m.1 == c
    (ms.foldl enter view).get? c =
      ((spelled.find? (·.1 == c)).map (·.2)).or
        ((view.get? c).or (spelled.head?.map (·.2))) := by
  induction ms generalizing view with
  | nil => simp
  | cons m ms ih =>
      obtain ⟨hm, hms⟩ := List.pairwise_cons.mp hms
      simp only [List.foldl_cons, ih hms, get?_enter view m hc]
      by_cases hcanonical : Key.canonical m.1 = c
      · have hfilter : ((m :: ms).filter fun m => Key.canonical m.1 == c) =
            m :: ms.filter fun m => Key.canonical m.1 == c :=
          List.filter_cons_of_pos (beq_iff_eq.mpr hcanonical)
        simp only [hfilter, List.find?_cons, List.head?_cons, hcanonical, true_and]
        by_cases hexact : m.1 = c
        · -- No later member has the key of this one.
          have hnone : (ms.filter fun m => Key.canonical m.1 == c).find? (·.1 == c) = none := by
            refine List.find?_eq_none.mpr fun n hn heq => ?_
            exact hm n (List.mem_filter.mp hn).1 (hexact.trans (beq_iff_eq.mp heq).symm)
          rw [hnone, if_pos (.inl hexact.symm), beq_iff_eq.mpr hexact]
          rfl
        · rw [beq_eq_false_iff_ne.mpr hexact]
          cases hview : view.get? c with
          | none => rw [if_pos (.inr rfl)]; rfl
          | some v => simp only [Ne.symm hexact, reduceCtorEq, or_false, if_false, Option.some_or]
      · have hfilter : ((m :: ms).filter fun m => Key.canonical m.1 == c) =
            ms.filter fun m => Key.canonical m.1 == c :=
          List.filter_cons_of_neg (mt beq_iff_eq.mp hcanonical)
        simp only [hfilter, hcanonical, false_and, if_false]

/-- Under a key the view has the member with that very key, else the first one
with a spelling of it. -/
theorem get?_normalized (raw : Record) {c : String} (hc : c ≠ Key.discriminant) :
    raw.normalized.get? c =
      ((raw.spelled c).get? c).or ((raw.spelled c).members.head?.map (·.2)) := by
  rw [normalized, normalizedOf, get?_foldl_enter hc raw.keys_ne, get?_empty, Option.none_or]
  rfl

/-- What the view has under a key depends on the spellings of that key alone. -/
theorem get?_normalized_of_spelled_eq {raw raw' : Record} {c : String}
    (h : raw'.spelled c = raw.spelled c) (hc : c ≠ Key.discriminant) :
    raw'.normalized.get? c = raw.normalized.get? c := by
  rw [get?_normalized raw' hc, get?_normalized raw hc, h]

/-- What the view has is the value of a member. -/
theorem exists_of_get?_normalized {raw : Record} {c : String} (hc : c ≠ Key.discriminant)
    {v : Json} (hv : raw.normalized.get? c = some v) :
    ∃ key, raw.get? key = some v ∧ Key.canonical key = c := by
  rw [get?_normalized raw hc, Option.or_eq_some_iff] at hv
  have hmem : ∃ key, (key, v) ∈ (raw.spelled c).members := by
    rcases hv with hv | ⟨-, hv⟩
    · exact ⟨c, mem_members_iff.mpr hv⟩
    · obtain ⟨m, hm, rfl⟩ := Option.map_eq_some_iff.mp hv
      exact ⟨m.1, List.mem_of_mem_head? hm⟩
  obtain ⟨key, hkey⟩ := hmem
  obtain ⟨hmem, hcanonical⟩ := mem_spelled.mp hkey
  exact ⟨key, mem_members_iff.mp hmem, hcanonical⟩

/-- Which value a payload supplies for a canonical key: the one with that very
key, or the only one with a spelling of it, or none. -/
inductive Supplies (raw : Record) (c : String) : Option Json → Prop
  | exact {v : Json} (h : raw.get? c = some v) : Supplies raw c (some v)
  | only {m : String × Json} (h : (raw.spelled c).members = [m]) : Supplies raw c (some m.2)
  | missing (h : ∀ m ∈ raw.members, Key.canonical m.1 ≠ c) : Supplies raw c none

/-- The view has what is supplied. -/
theorem Supplies.get?_normalized {raw : Record} {c : String} {v : Option Json}
    (h : raw.Supplies c v) (hcanonical : Key.canonical c = c) (hc : c ≠ Key.discriminant) :
    raw.normalized.get? c = v := by
  rw [Record.get?_normalized raw hc]
  cases h with
  | exact h => rw [get?_spelled raw hcanonical, h, Option.some_or]
  | @only m h =>
      cases hv : (raw.spelled c).get? c with
      | none => rw [h]; rfl
      | some v =>
          have hmem := mem_members_iff.mpr hv
          rw [h, List.mem_singleton] at hmem
          rw [← hmem]
          rfl
  | missing h =>
      have hnil : (raw.spelled c).members = [] := by
        refine List.eq_nil_iff_forall_not_mem.mpr fun m hm => ?_
        obtain ⟨hmem, hkey⟩ := mem_spelled.mp hm
        exact h m hmem hkey
      rw [get?, hnil]
      rfl

end Record

end AgentHooks
